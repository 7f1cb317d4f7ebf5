import CodeReview.Binary

/-! # Floating-point numbers

    A floating-point number is a binary number below 2^1024 in size, one of
    two infinities, or the result of an operation that has none.  A number
    that would be larger is infinite. -/

namespace CodeReview

/-- A floating-point number. -/
inductive Floating where
  | finite (x : Binary)
  | infinite (negative : Bool)
  | undefined
deriving DecidableEq, Repr

namespace Floating

/-- Whether a binary number is small enough to be a finite one. -/
def isBounded (x : Binary) : Bool :=
  x.mantissa == 0 || decide ((x.mantissa.log2 : Int) + x.exponent < 1024)

/-- A binary number, or infinity if it is too large. -/
def ofBinary (x : Binary) : Floating :=
  if isBounded x then .finite x else .infinite x.negative

/-- The number nearest to digits · 10^e. -/
def ofDecimal (negative : Bool) (digits : Nat) (e : Int) : Floating :=
  ofBinary (.ofDecimal negative digits e)

/-- An integer, rounded to 53 bits. -/
def ofInt (n : Int) : Floating := ofBinary (.ofInt n)

/-- The number times a power of two. -/
def shift : Floating → Nat → Floating
  | .finite x, k => ofBinary (x.shift k)
  | x, _ => x

/-- The text of a number; see `Binary.toText`. -/
def toText : Floating → String
  | .finite x => x.toText
  | .infinite true => "-inf"
  | .infinite false => "inf"
  | .undefined => "nan"

/-- The number with a fixed count of places; see `Binary.toFixed`. -/
def toFixed (places : Nat) : Floating → String
  | .finite x => x.toFixed places
  | x => x.toText

end Floating

end CodeReview

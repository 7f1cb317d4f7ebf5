import CodeReview.Text.Basic

/-! # Binary numbers

    Numbers of the form m · 2^e with a mantissa of 53 bits, as written in
    decimal notation.  Reading rounds to the nearest such number, half-way
    cases to an even mantissa; writing uses the fewest digits that read
    back, or a fixed number of places.  All arithmetic is exact, on natural
    numbers. -/

namespace CodeReview

/-- The number (−1)^negative · mantissa · 2^exponent. -/
structure Binary where
  negative : Bool
  mantissa : Nat
  exponent : Int
deriving DecidableEq, Repr

namespace Binary

/-- A quotient rounded to the nearest integer, half-way cases to the even
    neighbour. -/
def roundDiv (num den : Nat) : Nat :=
  let q := num / den
  let r := num % den
  if 2 * r < den then q
  else if den < 2 * r then q + 1
  else if q % 2 = 0 then q
  else q + 1

/-- A fraction scaled by a power of a base: the numerator and the
    denominator of (num / den) · base^k. -/
def scale (base : Nat) (k : Int) (num den : Nat) : Nat × Nat :=
  if 0 ≤ k then (num * Nat.pow base k.toNat, den)
  else (num, den * Nat.pow base (-k).toNat)

/-- The magnitude of a number as a fraction. -/
def fraction (x : Binary) : Nat × Nat := scale 2 x.exponent x.mantissa 1

/-- The least mantissa of 53 bits. -/
def leastMantissa : Nat := 0x10000000000000

/-- The binary number nearest to a fraction. -/
def ofFraction (negative : Bool) (num den : Nat) : Binary :=
  if num = 0 then ⟨negative, 0, 0⟩
  else
    let guess : Int := (num.log2 : Int) - den.log2 - 52
    let (n, d) := scale 2 (-guess) num den
    let e := max (if n < d * leastMantissa then guess - 1 else guess) (-1074)
    let (n, d) := scale 2 (-e) num den
    let m := roundDiv n d
    if m = 2 * leastMantissa then ⟨negative, leastMantissa, e + 1⟩ else ⟨negative, m, e⟩

/-- The binary number nearest to digits · 10^e. -/
def ofDecimal (negative : Bool) (digits : Nat) (e : Int) : Binary :=
  let (num, den) := scale 10 e digits 1
  ofFraction negative num den

/-- An integer, rounded to 53 bits. -/
def ofInt (n : Int) : Binary := ofDecimal (n < 0) n.natAbs 0

/-- The number times a power of two. -/
def shift (x : Binary) (k : Nat) : Binary :=
  { x with exponent := x.exponent + k }

/-- The integer that the number equals, if it is one. -/
def toInt? (x : Binary) : Option Int :=
  let (num, den) := x.fraction
  if num % den = 0 then
    let n : Int := (num / den : Nat)
    some (if x.negative then -n else n)
  else none

/-- Zeros in front of some digits, up to a width. -/
def padLeft (width : Nat) (digits : Text) : Text :=
  List.replicate (width - digits.length) '0' ++ digits

/-- The sign of a number as text. -/
def sign (x : Binary) : Text := if x.negative then ['-'] else []

/-- The number with a fixed count of places, rounded from its exact value,
    half-way cases to the even digit. -/
def toFixed (places : Nat) (x : Binary) : String :=
  let (num, den) := x.fraction
  let n := roundDiv (num * Nat.pow 10 places) den
  let digits := padLeft (places + 1) (Nat.toDigits 10 n)
  let whole := digits.take (digits.length - places)
  let rest := digits.drop (digits.length - places)
  String.ofList (x.sign ++ whole ++ (if places = 0 then [] else '.' :: rest))

/-- The decimal exponent of a positive fraction: the number of its digits
    before the point, negative or zero if it is below one tenth. -/
def decimalExponent (num den : Nat) : Int :=
  let guess : Int := ((Nat.toDigits 10 num).length : Int) - (Nat.toDigits 10 den).length
  let (n, d) := scale 10 (-guess) num den
  if d ≤ n then guess + 1 else guess

/-- The decimal with a count of digits that reads back as the number and
    lies nearest to it, if there is one. -/
def digitsOf? (x : Binary) (e : Int) (count : Nat) : Option Nat :=
  let (num, den) := x.fraction
  let (n, d) := scale 10 (count - e) num den
  let below := n / d
  let readsBack (digits : Nat) : Bool :=
    ofDecimal x.negative digits (e - count) == ofFraction x.negative num den
  match readsBack below, readsBack (below + 1) with
  | true, true => some (roundDiv n d)
  | true, false => some below
  | false, true => some (below + 1)
  | false, false => none

/-- The fewest digits that read back as the number, with the exponent of
    the point before them. -/
def shortest (x : Binary) : Nat × Int :=
  let (num, den) := x.fraction
  let e := decimalExponent num den
  match (List.range 18).findSome? fun k =>
      (digitsOf? x e (k + 1)).map fun digits => (digits, e - (k + 1)) with
  | some (digits, e) => (digits, e)
  | none => (num / den, 0)

/-- The text of a number: the fewest digits that read back, positional from
    10^-4 up to 10^16, else with an exponent of at least two digits; a
    whole number keeps one place. -/
def toText (x : Binary) : String :=
  if x.mantissa = 0 then String.ofList (x.sign ++ ['0', '.', '0'])
  else
    let (number, e) := shortest x
    let all := Nat.toDigits 10 number
    let digits := Text.dropRight (· == '0') all
    let point : Int := all.length + e
    let body : Text :=
      if -4 < point ∧ point ≤ 16 then
        if point ≤ 0 then
          ['0', '.'] ++ List.replicate (-point).toNat '0' ++ digits
        else if digits.length ≤ point.toNat then
          digits ++ List.replicate (point.toNat - digits.length) '0' ++ ['.', '0']
        else digits.take point.toNat ++ '.' :: digits.drop point.toNat
      else
        let fractionDigits := digits.drop 1
        let power := point - 1
        digits.take 1
          ++ (if fractionDigits.isEmpty then [] else '.' :: fractionDigits)
          ++ 'e' :: (if power < 0 then '-' else '+')
          :: padLeft 2 (Nat.toDigits 10 power.natAbs)
    String.ofList (x.sign ++ body)

end Binary

end CodeReview

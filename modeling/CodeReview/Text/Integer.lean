import CodeReview.Text.Blank
import CodeReview.Text.Digit

/-! # Reading integers

    An integer is written as digits with an optional sign in front; a
    single underscore may stand between two digits, and blanks around the
    whole. -/

namespace CodeReview.Text

/-- The blanks that may surround an integer: white space without the
    separators of the ASCII control block. -/
def isMargin (c : Char) : Bool := isBlank c && !(0x1c ≤ c.val && c.val ≤ 0x1f)

/-- A text without margins. -/
def trimMargin (text : Text) : Text := dropRight isMargin (text.dropWhile isMargin)

/-- A sign in front of a text, and the rest. -/
def splitSign : Text → Bool × Text
  | '-' :: rest => (true, rest)
  | '+' :: rest => (false, rest)
  | rest => (false, rest)

/-- A text without the single underscores that part it into groups;
    nothing if a group is empty. -/
def ungrouped? (text : Text) : Option Text :=
  let groups := splitOn '_' text
  if groups.any List.isEmpty then none else some groups.flatten

/-- The number with a sign. -/
def withSign (negative : Bool) (n : Nat) : Int := if negative then -n else n

/-- The most digits that an integer may have. -/
def maxDigits : Nat := 4300

/-- Whether an integer has too many digits to be written. -/
def isLong (n : Int) : Bool := maxDigits < (Nat.toDigits 10 n.natAbs).length

/-- The integer that a text writes in the decimal digits of any script,
    with margins around it. -/
def readInteger? (s : String) : Option Int := do
  let (negative, rest) := splitSign (trimMargin s.toList)
  let digits ← ungrouped? rest
  if maxDigits < digits.length then none
  let n ← numeral? digits
  return withSign negative n

end CodeReview.Text

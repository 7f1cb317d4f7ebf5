import CodeReview.Text.Integer

/-! # Loosely written integers

    An integer in ASCII digits may be written with blanks around it, a sign
    and zeros in front, underscores between its digits, and zero places
    behind a point.  Such a text is first brought into plain form, a minus
    sign or none and then digits that start with no zero, and the plain
    form is read.  A sign behind leading zeros counts like one in front. -/

namespace CodeReview.Text

/-- Why a text writes no integer. -/
inductive IntegerFault where
  | malformed
  | tooLong
deriving DecidableEq, Repr

/-- The number that a text in plain form writes.  Too many digits are a
    fault whatever stands behind them. -/
def plainNatural (text : Text) : Except IntegerFault Nat :=
  match text.span Char.isDigit with
  | ([], _) => .error .malformed
  | ('0' :: _, _) => if text = ['0'] then .ok 0 else .error .malformed
  | (digits, rest) =>
      if maxDigits < digits.length then .error .tooLong
      else
        match rest, numeral? digits with
        | [], some n => .ok n
        | _, _ => .error .malformed

/-- The integer that a text in plain form writes. -/
def plainInteger : Text → Except IntegerFault Int
  | '-' :: rest => (plainNatural rest).map (withSign true)
  | text => (plainNatural text).map (withSign false)

/-- What is left of a number behind a zero, given the character before it:
    the text from its first other digit or its minus sign on.  The last
    character stays if nothing else follows, and so does the one before a
    point. -/
def behindZeros (last : Char) : Text → Option Text
  | [] => some [last]
  | c :: rest =>
      if c = '0' || c = '_' then behindZeros c rest
      else if c.isDigit || c = '-' then some (c :: rest)
      else if c = '.' then some (last :: c :: rest)
      else none

/-- A number without zeros in front, and without the underscores among
    them; nothing if it starts with no digit. -/
def dropLeadingZeros : Text → Option Text
  | [] => none
  | c :: rest =>
      if c = '0' then behindZeros c rest
      else if c.isDigit then some (c :: rest)
      else none

/-- A number without its point and the places behind it, if those are
    zeros. -/
def dropZeroPlaces (text : Text) : Text :=
  match text.span (· != '.') with
  | (whole, _ :: places) =>
      if !places.isEmpty && places.all (· == '0') then whole else text
  | (_, []) => text

/-- A number without a sign in front, in plain form. -/
def plainDigits? (text : Text) : Option Text := do
  let number ← dropLeadingZeros text
  ungrouped? (dropZeroPlaces number)

/-- The plain form of a loosely written integer. -/
def plainForm? (text : Text) : Option Text :=
  match trimMargin text with
  | '-' :: rest => (plainDigits? rest).map ('-' :: ·)
  | '+' :: rest => plainDigits? rest
  | rest => plainDigits? rest

/-- The integer that a text writes, plainly or loosely. -/
def looseInteger (text : Text) : Except IntegerFault Int :=
  match plainInteger text with
  | .error .malformed =>
      match plainForm? text with
      | some plain => plainInteger plain
      | none => .error .malformed
  | answer => answer

end CodeReview.Text

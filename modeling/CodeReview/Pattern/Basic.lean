import CodeReview.Text.Blank
import CodeReview.Text.Digit
import CodeReview.Text.Word

/-! # Text patterns

    A pattern describes a stretch of text.  Alternatives are ordered and
    repetitions are greedy or lazy, so a pattern describes not only which
    stretches it accepts but also which of them comes first.  The names
    below build patterns from smaller ones. -/

namespace CodeReview

/-- The places of zero width that a pattern can ask for. -/
inductive Edge where
  /-- The start of the text. -/
  | textStart
  /-- The start of the text, or just after a newline. -/
  | lineStart
  /-- The end of the text, or just before a newline that ends it. -/
  | textEnd
  /-- The end of the text, or just before a newline. -/
  | lineEnd
  /-- Between a word character and one that is none, or no character. -/
  | word
deriving DecidableEq, Repr

/-- A description of a stretch of text. -/
inductive Pattern where
  /-- The empty stretch. -/
  | nothing
  /-- One character of a class. -/
  | one (p : Char → Bool)
  /-- One pattern, then another. -/
  | seq (p q : Pattern)
  /-- The first pattern, or else the second. -/
  | alt (p q : Pattern)
  /-- Any number of times; as many as possible come first, or as few as
      possible where `isLazy` is set. -/
  | star (isLazy : Bool) (p : Pattern)
  /-- A stretch to be remembered under a number. -/
  | group (index : Nat) (p : Pattern)
  /-- A place of zero width. -/
  | edge (e : Edge)
  /-- What follows matches, or does not match where `wanted` is unset;
      nothing is consumed. -/
  | ahead (wanted : Bool) (p : Pattern)
  /-- The character before is not of a class. -/
  | notAfter (p : Char → Bool)

namespace Pattern

instance : Append Pattern := ⟨seq⟩

instance : OrOp Pattern := ⟨alt⟩

/-- Exactly one character. -/
def char (c : Char) : Pattern := one (· == c)

/-- One of the characters of a list. -/
def oneOf (cs : String) : Pattern := one cs.toList.contains

/-- One character that is not in a list. -/
def noneOf (cs : String) : Pattern := one fun c => !cs.toList.contains c

/-- Patterns one after the other. -/
def ofList (ps : List Pattern) : Pattern := ps.foldr seq nothing

/-- A literal text. -/
def text (s : String) : Pattern := ofList (s.toList.map char)

/-- Whether a character equals an ASCII letter when case is ignored.  The
    Kelvin sign counts as a K, the long s as an S, and the dotted and the
    dotless I as an I. -/
def sameLetter (letter c : Char) : Bool :=
  c == letter || c == letter.toUpper
    || (letter == 'k' && c == '\u212a')
    || (letter == 's' && c == '\u017f')
    || (letter == 'i' && (c == '\u0130' || c == '\u0131'))

/-- A lower-case ASCII text in any case. -/
def textAnyCase (s : String) : Pattern :=
  ofList (s.toList.map fun letter => one (sameLetter letter))

/-- The first of some patterns that matches; an empty list matches
    nowhere. -/
def anyOf : List Pattern → Pattern
  | [] => one fun _ => false
  | [p] => p
  | p :: q :: ps => alt p (anyOf (q :: ps))

/-- One of some literal texts, tried in order. -/
def texts (ss : List String) : Pattern := anyOf (ss.map text)

/-- One of some lower-case ASCII texts in any case, tried in order. -/
def textsAnyCase (ss : List String) : Pattern := anyOf (ss.map textAnyCase)

/-- Any number of times, as many as possible. -/
def many (p : Pattern) : Pattern := star false p

/-- At least once, as often as possible. -/
def many1 (p : Pattern) : Pattern := p ++ many p

/-- Any number of times, as few as possible. -/
def few (p : Pattern) : Pattern := star true p

/-- Once, or else not at all. -/
def opt (p : Pattern) : Pattern := alt p nothing

/-- At least a number of times, as often as possible. -/
def atLeast (n : Nat) (p : Pattern) : Pattern :=
  ofList (List.replicate n p) ++ many p

/-- What follows does not match. -/
def notAhead (p : Pattern) : Pattern := ahead false p

/-- The edge of a word. -/
def wordEdge : Pattern := edge .word

/-- A blank character. -/
def blank : Pattern := one Text.isBlank

/-- A word character. -/
def wordChar : Pattern := one Text.isWord

/-- Any number of blanks. -/
def blanks : Pattern := many blank

/-- At least one blank. -/
def someBlanks : Pattern := many1 blank

/-- Any number of spaces and tabs. -/
def spaces : Pattern := many (oneOf " \t")

/-- At least one space or tab. -/
def someSpaces : Pattern := many1 (oneOf " \t")

/-- A single or a double quote. -/
def quoteChar : Pattern := oneOf "\"'"

end Pattern

end CodeReview

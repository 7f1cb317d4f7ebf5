import CodeReview.Text.Basic

/-! # Lower case

    Lower-cased text is only ever compared with ASCII text.  Beyond the
    ASCII capitals two characters have ASCII in their lower-case form, the
    Kelvin sign and the dotted capital I; all others are left alone. -/

namespace CodeReview.Text

/-- The lower-case form of a character. -/
def lowerChar (c : Char) : List Char :=
  if c == '\u212a' then ['k']
  else if c == '\u0130' then ['i', '\u0307']
  else [c.toLower]

/-- The lower-case form of a name. -/
def lower (s : String) : String := String.ofList (s.toList.flatMap lowerChar)

/-- A lower-case word with its first letter raised. -/
def capitalize (s : String) : String := s.capitalize

end CodeReview.Text

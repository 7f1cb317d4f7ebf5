import CodeReview.Text.Basic

/-! # Blank characters

    The Unicode white space: the ASCII blanks and separators, and the
    space separators of the general punctuation, Ogham and CJK blocks.
    Zero-width characters and the byte-order mark are not blank. -/

namespace CodeReview.Text

/-- Unicode white space. -/
def isBlank (c : Char) : Bool :=
  let n := c.val
  (0x09 ≤ n && n ≤ 0x0d) || (0x1c ≤ n && n ≤ 0x20) || n == 0x85
    || n == 0xa0 || n == 0x1680 || (0x2000 ≤ n && n ≤ 0x200a)
    || n == 0x2028 || n == 0x2029 || n == 0x202f || n == 0x205f
    || n == 0x3000

/-- The text without blanks at its end. -/
def trimRight (text : Text) : Text := text.dropRight isBlank

/-- The text without blanks at either end. -/
def trim (text : Text) : Text := trimRight (text.dropWhile isBlank)

/-- Whether a text holds nothing but blanks. -/
def isAllBlank (text : Text) : Bool := text.all isBlank

/-- Whether the last character of a text that is not blank is the given
    one. -/
def endsWith (mark : Char) (text : Text) : Bool :=
  (trimRight text).getLast? == some mark

end CodeReview.Text

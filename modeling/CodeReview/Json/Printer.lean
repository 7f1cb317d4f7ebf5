import CodeReview.Json.Basic
import CodeReview.Text.Quoted

/-! # Writing JSON

    One writer with a few decisions left open: whether values are laid out
    over several lines, what stands between items, and whether characters
    beyond ASCII are escaped. -/

namespace CodeReview.Json

/-- The open decisions of the writer. -/
structure Style where
  /-- The spaces of one level of indentation; all on one line if none. -/
  indent : Option Nat
  /-- What stands between two items on one line. -/
  comma : String
  /-- What stands between a name and its value. -/
  colon : String
  /-- Whether everything but printable ASCII is escaped. -/
  asciiOnly : Bool

/-- Two spaces a level, text as it is. -/
def Style.report : Style := ⟨some 2, ",", ": ", false⟩

/-- One line, with blanks after the separators, in ASCII. -/
def Style.ascii : Style := ⟨none, ", ", ": ", true⟩

/-- One line without blanks. -/
def Style.compact : Style := ⟨none, ",", ":", false⟩

/-- A code unit as an escape. -/
def unicodeEscape (n : Nat) : Text := '\\' :: 'u' :: Text.hex 4 n

/-- A character beyond ASCII as one escape, or as two for the halves of a
    surrogate pair. -/
def escapeWide (c : Char) : Text :=
  let n := c.toNat
  if n < 0x10000 then unicodeEscape n
  else
    unicodeEscape (0xd800 + (n - 0x10000) / 0x400)
      ++ unicodeEscape (0xdc00 + (n - 0x10000) % 0x400)

/-- A character as it stands in a JSON string. -/
def escapeChar (asciiOnly : Bool) (c : Char) : Text :=
  if c = '"' then ['\\', '"']
  else if c = '\\' then ['\\', '\\']
  else if c = '\n' then ['\\', 'n']
  else if c = '\r' then ['\\', 'r']
  else if c = '\t' then ['\\', 't']
  else if c = '\x08' then ['\\', 'b']
  else if c = '\x0c' then ['\\', 'f']
  else if c.toNat < 0x20 then unicodeEscape c.toNat
  else if asciiOnly && 0x7f ≤ c.toNat then escapeWide c
  else [c]

/-- A text as a JSON string. -/
def renderString (asciiOnly : Bool) (s : String) : Text :=
  '"' :: s.toList.flatMap (escapeChar asciiOnly) ++ ['"']

/-- The start of a new line at a level of nesting, or nothing where a value
    stays on one line. -/
def lineBreak (style : Style) (level : Nat) : Text :=
  match style.indent with
  | none => []
  | some width => '\n' :: List.replicate (width * level) ' '

/-- What stands between two items at a level of nesting. -/
def separator (style : Style) (level : Nat) : Text :=
  style.comma.toList ++ lineBreak style level

/-- A number that was written with a point or an exponent.  The numbers
    that are not finite go by their names. -/
def renderReal : Floating → String
  | .infinite true => "-Infinity"
  | .infinite false => "Infinity"
  | .undefined => "NaN"
  | .finite x => x.toText

mutual

/-- The text of a value at a level of nesting. -/
def renderAt (style : Style) (level : Nat) : Json → Text
  | null => "null".toList
  | bool true => "true".toList
  | bool false => "false".toList
  | int n => (toString n).toList
  | real x => (renderReal x).toList
  | str s => renderString style.asciiOnly s
  | arr [] => ['[', ']']
  | arr (item :: items) =>
      '[' :: lineBreak style (level + 1)
        ++ renderAt style (level + 1) item
        ++ renderItems style (level + 1) items
        ++ lineBreak style level ++ [']']
  | obj [] => ['{', '}']
  | obj ((name, value) :: members) =>
      '{' :: lineBreak style (level + 1)
        ++ renderString style.asciiOnly name ++ style.colon.toList
        ++ renderAt style (level + 1) value
        ++ renderMembers style (level + 1) members
        ++ lineBreak style level ++ ['}']

/-- The text of the items after the first one. -/
def renderItems (style : Style) (level : Nat) : List Json → Text
  | [] => []
  | item :: items =>
      separator style level ++ renderAt style level item
        ++ renderItems style level items

/-- The text of the members after the first one. -/
def renderMembers (style : Style) (level : Nat) :
    List (String × Json) → Text
  | [] => []
  | (name, value) :: members =>
      separator style level
        ++ renderString style.asciiOnly name ++ style.colon.toList
        ++ renderAt style level value
        ++ renderMembers style level members

end

/-- The text of a value. -/
def render (style : Style) (value : Json) : String :=
  String.ofList (renderAt style 0 value)

end CodeReview.Json

import CodeReview.Json.Basic

/-! # Reading JSON

    A strict reader: the whole text must be one value, with blanks allowed
    around it and between its parts.  Escaped surrogates must come in
    pairs.  An extended reader also takes the names of the numbers that are
    not finite. -/

namespace CodeReview.Json

/-- The blanks that may stand between the parts of a value. -/
def isSpace (c : Char) : Bool := c == ' ' || c == '\t' || c == '\n' || c == '\r'

/-- The text behind leading blanks. -/
def skipSpace (text : Text) : Text := text.dropWhile isSpace

/-- The value of a hexadecimal digit. -/
def hexValue? (c : Char) : Option Nat :=
  let n := c.toNat
  if '0' ≤ c && c ≤ '9' then some (n - '0'.toNat)
  else if 'a' ≤ c && c ≤ 'f' then some (n - 'a'.toNat + 10)
  else if 'A' ≤ c && c ≤ 'F' then some (n - 'A'.toNat + 10)
  else none

/-- The value of four hexadecimal digits. -/
def codeUnit? (a b c d : Char) : Option Nat := do
  let a ← hexValue? a
  let b ← hexValue? b
  let c ← hexValue? c
  let d ← hexValue? d
  return ((a * 16 + b) * 16 + c) * 16 + d

/-- The character that an escape of one letter stands for. -/
def simpleEscape? (c : Char) : Option Char :=
  match c with
  | '"' => some '"'
  | '\\' => some '\\'
  | '/' => some '/'
  | 'b' => some '\x08'
  | 'f' => some '\x0c'
  | 'n' => some '\n'
  | 'r' => some '\r'
  | 't' => some '\t'
  | _ => none

/-- Reads a string behind its opening quote; `done` holds the characters
    read so far, the last one first. -/
def readString (done : Text) : Text → Option (String × Text)
  | [] => none
  | '"' :: rest => some (String.ofList done.reverse, rest)
  | '\\' :: 'u' :: a :: b :: c :: d :: rest =>
      match codeUnit? a b c d with
      | none => none
      | some high =>
          if high < 0xd800 || 0xe000 ≤ high then
            readString (Char.ofNat high :: done) rest
          else
            match rest with
            | '\\' :: 'u' :: e :: f :: g :: h :: rest =>
                match codeUnit? e f g h with
                | none => none
                | some low =>
                    if high < 0xdc00 && 0xdc00 ≤ low && low < 0xe000 then
                      readString
                        (Char.ofNat (0x10000 + (high - 0xd800) * 0x400
                          + (low - 0xdc00)) :: done) rest
                    else none
            | _ => none
  | '\\' :: c :: rest =>
      match simpleEscape? c with
      | none => none
      | some c => readString (c :: done) rest
  | c :: rest => if c.toNat < 0x20 then none else readString (c :: done) rest

/-- A leading run of ASCII digits and what follows it. -/
def spanDigits (text : Text) : Text × Text := text.span Char.isDigit

/-- The number that ASCII digits write. -/
def digitsValue (digits : Text) : Nat :=
  digits.foldl (fun n c => n * 10 + (c.toNat - '0'.toNat)) 0

/-- The fraction part of a number: its digits and what follows. -/
def readFraction : Text → Option (Text × Text)
  | '.' :: rest =>
      match spanDigits rest with
      | ([], _) => none
      | (digits, rest) => some (digits, rest)
  | rest => some ([], rest)

/-- The exponent part of a number, if there is one, and what follows. -/
def readExponent (text : Text) : Option (Option Int × Text) :=
  match text with
  | [] => some (none, [])
  | c :: rest =>
      if c == 'e' || c == 'E' then
        let (negative, rest) :=
          match rest with
          | '-' :: rest => (true, rest)
          | '+' :: rest => (false, rest)
          | rest => (false, rest)
        match spanDigits rest with
        | ([], _) => none
        | (digits, rest) =>
            let n : Int := digitsValue digits
            some (some (if negative then -n else n), rest)
      else some (none, c :: rest)

/-- Reads a number. -/
def readNumber (text : Text) : Option (Json × Text) := do
  let (negative, text) :=
    match text with
    | '-' :: rest => (true, rest)
    | rest => (false, rest)
  let (whole, rest) := spanDigits text
  if whole.isEmpty || (whole.length ≠ 1 && whole.head? == some '0') then none
  let (fractionDigits, rest) ← readFraction rest
  let (exponent, rest) ← readExponent rest
  if fractionDigits.isEmpty && exponent.isNone then
    let n : Int := digitsValue whole
    return (int (if negative then -n else n), rest)
  let e : Int := exponent.getD 0 - fractionDigits.length
  return (real (.ofDecimal negative (digitsValue (whole ++ fractionDigits)) e), rest)

/-- The text behind a literal, if it starts with that. -/
def afterLiteral? (literal : String) (text : Text) : Option Text :=
  if literal.toList.isPrefixOf text then some (text.drop literal.length) else none

/-- The values that are written as names. -/
def constants : List (String × Json) :=
  [("null", null), ("true", bool true), ("false", bool false)]

/-- The numbers that are not finite, by their names. -/
def specialNumbers : List (String × Json) :=
  [("NaN", real .undefined), ("Infinity", real (.infinite false)),
   ("-Infinity", real (.infinite true))]

/-- Reads one of some names. -/
def readName (names : List (String × Json)) (text : Text) : Option (Json × Text) :=
  names.findSome? fun (name, value) => (afterLiteral? name text).map (value, ·)

section

variable (names : List (String × Json))

mutual

/-- Reads a value that starts at the first character: a text, an array, an
    object, one of some names, or a number; `fuel` bounds the nesting. -/
def readValue : (fuel : Nat) → Text → Option (Json × Text)
  | 0, _ => none
  | fuel + 1, text =>
      match text with
      | [] => none
      | '"' :: rest => (readString [] rest).map fun (s, rest) => (str s, rest)
      | '[' :: rest =>
          match skipSpace rest with
          | ']' :: rest => some (arr [], rest)
          | rest => (readItems fuel rest).map fun (items, rest) => (arr items, rest)
      | '{' :: rest =>
          match skipSpace rest with
          | '}' :: rest => some (obj [], rest)
          | rest => (readMembers fuel rest).map fun (ms, rest) => (obj ms, rest)
      | _ => (readName names text).or (readNumber text)

/-- Reads the items of an array up to its closing bracket. -/
def readItems : (fuel : Nat) → Text → Option (List Json × Text)
  | 0, _ => none
  | fuel + 1, text =>
      match readValue fuel text with
      | none => none
      | some (item, rest) =>
          match skipSpace rest with
          | ']' :: rest => some ([item], rest)
          | ',' :: rest =>
              (readItems fuel (skipSpace rest)).map fun (items, rest) =>
                (item :: items, rest)
          | _ => none

/-- Reads the members of an object up to its closing brace. -/
def readMembers : (fuel : Nat) → Text → Option (List (String × Json) × Text)
  | 0, _ => none
  | fuel + 1, text =>
      match text with
      | '"' :: rest =>
          match readString [] rest with
          | none => none
          | some (name, rest) =>
              match skipSpace rest with
              | ':' :: rest =>
                  match readValue fuel (skipSpace rest) with
                  | none => none
                  | some (value, rest) =>
                      match skipSpace rest with
                      | '}' :: rest => some ([(name, value)], rest)
                      | ',' :: rest =>
                          (readMembers fuel (skipSpace rest)).map
                            fun (ms, rest) => ((name, value) :: ms, rest)
                      | _ => none
              | _ => none
      | _ => none

end

/-- The value that a whole text writes. -/
def readWhole (s : String) : Option Json :=
  let text := s.toList
  match readValue names (text.length + 1) (skipSpace text) with
  | some (value, rest) => if (skipSpace rest).isEmpty then some value else none
  | none => none

end

/-- The value that a text writes. -/
def read? (s : String) : Option Json := readWhole constants s

/-- The value that a text writes, where numbers need not be finite. -/
def readExtended? (s : String) : Option Json :=
  readWhole (constants ++ specialNumbers) s

end CodeReview.Json

import CodeReview.Diff.Basic
import CodeReview.Pattern.Search
import CodeReview.Text.Integer

/-! # Lines of a diff

    What a line of a diff says, as far as it can be told from the line
    alone.  The first word decides which kind a line can be; a line that
    fits no kind says nothing. -/

namespace CodeReview

/-- What a line of a diff says. -/
inductive DiffLine where
  /-- A new file starts, with its names on both sides. -/
  | header (source target : Text)
  /-- The file is new. -/
  | newFile
  /-- The file is gone. -/
  | deletedFile
  /-- The name on the source side. -/
  | source (name : Text)
  /-- The name on the target side. -/
  | target (name : Text)
  /-- A hunk starts. -/
  | hunk (hunk : Hunk)
  /-- A hunk starts, with a number of too many digits. -/
  | overlong (digits : Nat)
  /-- The line before has no newline. -/
  | noNewline
  /-- An empty line. -/
  | empty
  /-- A binary file differs. -/
  | binary (source target : Text)
  /-- The contents of a binary file follow. -/
  | binaryPatch
  /-- Anything else. -/
  | other
deriving DecidableEq, Repr

namespace DiffLine

/-- Whether a character can stand in a name. -/
def isNameChar (c : Char) : Bool := c != '\t' && c != '\n'

/-- The rest of a text behind a start, if it starts so. -/
def after? (start : String) (text : Text) : Option Text :=
  start.toList.isPrefixOf? text

/-- Cuts a text at its last space where a use is found for the two
    parts.  `before` is the part passed over, the last character first. -/
def cutLast {α : Type} (use : Text → Text → Option α) :
    (before : Text) → Text → Option α
  | _, [] => none
  | before, c :: rest =>
      (cutLast use (c :: before) rest).orElse fun _ =>
        if c = ' ' then use before.reverse rest else none

/-- The run of name characters that follows some start. -/
def nameAfter (start rest : Text) : Option Text :=
  let name := rest.takeWhile isNameChar
  if name.isEmpty then none else some (start ++ name)

/-- A name with the mark of a side in front, from the start of a text.  A
    quote may stand before the mark. -/
def sided (mark : Char) : Text → Option Text
  | '"' :: c :: '/' :: rest => if c = mark then nameAfter ['"', c, '/'] rest else none
  | c :: '/' :: rest => if c = mark then nameAfter [c, '/'] rest else none
  | _ => none

/-- An address with a scheme, from the start of a text: up to the end of
    the name behind the last scheme mark that has one. -/
def address : (before : Text) → Text → Option Text
  | _, [] => none
  | before, c :: rest =>
      (address (c :: before) rest).orElse fun _ =>
        match c, rest with
        | ':', '/' :: '/' :: name => nameAfter (before.reverse ++ "://".toList) name
        | _, _ => none

/-- A name of any form, from the start of a text. -/
def plain (text : Text) : Option Text := nameAfter [] text

/-- The two names of a header whose sides are of some forms; the first must
    fill the text up to the space. -/
def names (left right : Text → Option Text) (text : Text) : Option (Text × Text) :=
  cutLast (fun before rest => do
    let first ← left before
    let second ← right rest
    if first = before then some (first, second) else none) [] text

/-- The two names of a header: with the marks of their sides, as addresses,
    or of any form. -/
def headerNames (text : Text) : Option (Text × Text) :=
  (names (sided 'a') (sided 'b') text).orElse fun _ =>
    (names (address []) (address []) text).orElse fun _ =>
      names plain plain text

/-- Whether a text is a file mode, up to a newline at its end. -/
def isMode (text : Text) : Bool :=
  let digits := text.takeWhile Text.isDecimal
  let rest := text.dropWhile Text.isDecimal
  !digits.isEmpty && (rest.isEmpty || rest == ['\n'])

/-- The digits at the start of a text, and the rest. -/
def digits? (text : Text) : Option (Text × Text) :=
  let digits := text.takeWhile Text.isDecimal
  if digits.isEmpty then none else some (digits, text.dropWhile Text.isDecimal)

/-- The digits of a length behind a comma, and the rest; a length that is
    not written is one. -/
def length? : Text → Option (Text × Text)
  | ',' :: rest => digits? rest
  | rest => some (['1'], rest)

/-- The four numbers of a hunk's first line. -/
def hunkNumbers? (text : Text) : Option (List Text) := do
  let (sourceStart, rest) ← digits? text
  let (sourceLength, rest) ← length? rest
  let rest ← after? " +" rest
  let (targetStart, rest) ← digits? rest
  let (targetLength, rest) ← length? rest
  let _ ← after? " @@" rest
  return [sourceStart, sourceLength, targetStart, targetLength]

/-- The hunk that some numbers describe. -/
def ofNumbers (numbers : List Text) : DiffLine :=
  match numbers.find? fun digits => Text.maxDigits < digits.length with
  | some digits => .overlong digits.length
  | none =>
      match numbers.filterMap Text.numeral? with
      | [a, b, c, d] => .hunk ⟨⟨a, b⟩, ⟨c, d⟩⟩
      | _ => .other

/-- A time behind a tab, as some tools write it after a name. -/
def timeMark : Pattern :=
  .opt (.char '\t' ++ .many1 (.one fun c =>
    Text.isBlank c || ('0' ≤ c && c ≤ '9') || c == ':' || c == '+' || c == '-'))

/-- A line that says that a binary file differs. -/
def binaryPattern : Pattern :=
  .text "Binary file" ++ .opt (.char 's') ++ .char ' '
    ++ .group 1 (.noneOf "\t" ++ .few (.noneOf "\t")) ++ timeMark
    ++ .opt (.text " and " ++ .group 2 (.noneOf "\t" ++ .few (.noneOf "\t"))
      ++ timeMark)
    ++ .char ' ' ++ .texts ["differ", "has changed"]

/-- What a line about a binary file says. -/
def ofBinary (line : Text) : DiffLine :=
  match binaryPattern.matchStart line with
  | none => .other
  | some m =>
      let first := m.group 1
      .binary first (((m.capture? 2).map Capture.text).getD first)

/-- What a line says; it ends with its newline, if it has one. -/
def parse (line : Text) : DiffLine :=
  if let some rest := after? "diff --git " line then
    match headerNames (rest.takeWhile (· != '\n')) with
    | some (first, second) => .header first second
    | none => .other
  else if let some rest := after? "new file mode " line then
    if isMode rest then .newFile else .other
  else if let some rest := after? "deleted file mode " line then
    if isMode rest then .deletedFile else .other
  else if let some rest := after? "--- " line then .source (rest.takeWhile isNameChar)
  else if let some rest := after? "+++ " line then .target (rest.takeWhile isNameChar)
  else if let some rest := after? "@@ -" line then
    match hunkNumbers? rest with
    | some numbers => ofNumbers numbers
    | none => .other
  else if (after? "\\ No newline at end of file" line).isSome then .noNewline
  else if line = ['\n'] then .empty
  else if line = "GIT binary patch\n".toList then .binaryPatch
  else ofBinary line

end DiffLine

end CodeReview

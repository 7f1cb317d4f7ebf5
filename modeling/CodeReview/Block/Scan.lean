import CodeReview.Block.Basic
import CodeReview.Block.Marks
import CodeReview.Text.Lines

/-! # Scanning for blocks

    Each line is summed up once: how many blocks it opens and closes,
    whether it starts a unit, and how it ends.  The end of a block is found
    by sweeping forward from its first line and counting; all positions in
    a sweep are relative to that line, so a sweep depends only on the lines
    from there on. -/

namespace CodeReview

/-- What the scan needs to know about a line. -/
structure LineProfile where
  text : Text
  unit : Option String
  opens : Nat
  closes : Nat
  isOneLiner : Bool
  endsStatement : Bool
  isBlank : Bool
deriving DecidableEq, Repr

namespace BlockMarks

/-- The profile of a line. -/
def profile (marks : BlockMarks) (line : Text) : LineProfile where
  text := line
  unit := marks.unitName line
  opens := (marks.openers line).length
  closes := marks.closers line
  isOneLiner := marks.isOneLiner line
  endsStatement := Text.endsWith ';' line
  isBlank := Text.isAllBlank line

/-- The profile of a line in a scan, where a unit counts if it has a
    name. -/
def scanProfile (marks : BlockMarks) (line : Text) : LineProfile :=
  { marks.profile line with unit := (marks.unitName line).filter (· != "") }

end BlockMarks

namespace Block

/-- Sweeps over the lines of a block.  `depth` is the number of blocks open
    so far, `opened` whether any was opened, `offset` the distance from the
    first line, and `last` the distance of the last line that is not
    blank. -/
def sweepFrom (depth : Int) (opened : Bool) (offset last : Nat) :
    List LineProfile → Nat
  | [] => offset - 1
  | line :: rest =>
      -- No body was opened: the unit is a single statement.
      if !opened && 0 < offset && line.unit.isSome then last
      else
        let depth := depth + line.opens - line.closes
        let opened := opened || 0 < line.opens
        if opened && depth ≤ 0 then offset
        else if !opened && line.endsStatement then offset
        else
          sweepFrom depth opened (offset + 1)
            (if line.isBlank then last else offset) rest

/-- The distance from the first line of a block to its last one.  A block
    that is never closed extends to the last line of all. -/
def sweep (lines : List LineProfile) : Nat := sweepFrom 0 false 0 0 lines

/-- The distance from the first line to the last one of the unit or block
    that starts a list of lines. -/
def span : List LineProfile → Nat
  | [] => 0
  | line :: rest => if line.isOneLiner then 0 else sweep (line :: rest)

/-- The index of the last line of the block that starts at an index;
    nothing if there is no such line. -/
def endOf? (lines : List LineProfile) (start : Nat) : Option Nat :=
  match lines.drop start with
  | [] => none
  | line :: rest => some (start + span (line :: rest))

/-- The index of the last line of the block that starts at an index, under
    the marks of some language. -/
def endIndex? (marks : BlockMarks) (lines : List Text) (start : Nat) :
    Option Nat :=
  endOf? (lines.map marks.profile) start

/-- The block of a unit, from the lines that follow a number of others. -/
def ofUnit (before : Nat) (name : String) (lines : List LineProfile) : Block :=
  { name
    startLine := before + 1
    endLine := before + 1 + span lines
    body := Text.unlines ((lines.take (span lines + 1)).map (·.text))
    start_pos := by omega
    start_le_end := by omega }

/-- The blocks of the units among some lines that follow a number of
    others. -/
def scanFrom (before : Nat) : List LineProfile → List Block
  | [] => []
  | line :: rest =>
      match line.unit with
      | none => scanFrom (before + 1) rest
      | some name =>
          ofUnit before name (line :: rest) :: scanFrom (before + 1) rest

/-- The blocks of the units in a list of lines, in order. -/
def scanLines (marks : BlockMarks) (lines : List Text) : List Block :=
  scanFrom 0 (lines.map marks.scanProfile)

/-- The blocks of the units of a content, nested ones included, in
    order. -/
def scan (content : Text) (language : Option Language) : List Block :=
  match language.bind BlockMarks.ofLanguage? with
  | none => []
  | some marks => scanLines marks (Text.lines content)

end Block

end CodeReview

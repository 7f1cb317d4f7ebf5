import CodeReview.Block.Scan
import CodeReview.Config.Basic
import CodeReview.Finding
import CodeReview.Path

/-! # Detectors

    A detector looks at one file and reports findings.  It keeps no state
    and never sees what other detectors report. -/

namespace CodeReview

/-- What a detector looks at: one file, its blocks and the thresholds. -/
structure Subject where
  path : String
  content : Text
  language : Option Language
  blocks : List Block
  config : Config

namespace Subject

/-- A file with the blocks found in it. -/
def ofContent (path : String) (content : Text) (language : Option Language)
    (config : Config) : Subject :=
  ⟨path, content, language, Block.scan content language, config⟩

/-- The lines of the file. -/
def lines (s : Subject) : List Text := Text.lines s.content

/-- The file's name. -/
def name (s : Subject) : String := (Path.parse s.path).name

/-- Whether the file is a test. -/
def isTest (s : Subject) : Bool := (Path.parse s.path).isTest

/-- Whether the file lies in a folder of this name. -/
def inFolder (s : Subject) (folder : String) : Bool :=
  (Path.parse s.path).hasFolder folder

/-- The line that an offset into the content lies on. -/
def lineOf (s : Subject) (offset : Nat) : Nat := Text.lineOf s.content offset

/-- The line of a pattern's first match. -/
def firstLine (s : Subject) (p : Pattern) : Option Nat :=
  (p.search s.content).map fun m => s.lineOf m.start

/-- Every match of a pattern in the content, with its line. -/
def allMatches (s : Subject) (p : Pattern) : List (Nat × Match) :=
  (p.findAll s.content).map fun m => (s.lineOf m.start, m)

/-- The numbers of the lines that satisfy a test. -/
def lineNumbers (s : Subject) (test : Text → Bool) : List Nat :=
  s.lines.zipIdx.filterMap fun (line, i) => if test line then some (i + 1) else none

/-- The numbers of the lines that a pattern matches in. -/
def linesWith (s : Subject) (p : Pattern) : List Nat := s.lineNumbers p.occursIn

/-- Whether the content holds a text. -/
def mentions (s : Subject) (fragment : String) : Bool :=
  Text.occurs fragment.toList s.content

/-- A finding about a line of the file; a file without lines has only
    findings about the whole. -/
def findingAt (s : Subject) (category : Category) (severity : Severity)
    (message suggestion : String) (line : Option Nat) : Finding :=
  { file := s.path
    line := if s.lines.isEmpty then none else line
    category, severity, message, suggestion }

/-- A finding about the file as a whole. -/
def finding (s : Subject) (category : Category) (severity : Severity)
    (message suggestion : String) : Finding :=
  s.findingAt category severity message suggestion none

end Subject

/-- Why a detector cannot go on. -/
inductive DetectorFault where
  /-- A block is followed from a line that the file does not have. -/
  | noSuchLine
deriving DecidableEq, Repr

/-- The wording of a fault. -/
def DetectorFault.message : DetectorFault → String
  | .noSuchLine => "list index out of range"

/-- A named rule that reports findings about a file. -/
structure Detector where
  name : String
  findings : Subject → Except DetectorFault (List Finding)

namespace Detector

/-- The index of the last line of the block that starts at an index. -/
def blockEnd (lines : List LineProfile) (start : Nat) :
    Except DetectorFault Nat :=
  match Block.endOf? lines start with
  | none => .error .noSuchLine
  | some last => .ok last

/-- What a detector reports, or the reason why it fails or one of its
    findings is refused. -/
def run (d : Detector) (s : Subject) : Except String (List Finding) := do
  let findings ← (d.findings s).mapError DetectorFault.message
  (findings.mapM Finding.checked).mapError Finding.Flaw.message

end Detector

end CodeReview

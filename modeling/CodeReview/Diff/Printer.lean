import CodeReview.Diff.Basic

/-! # Writing diffs

    A change of a file, written as a diff: a header, the names on both
    sides, and hunks whose first lines give the true numbers of lines.  The
    lines of a body may hold any text without newlines. -/

namespace CodeReview

/-- A line of a hunk's body. -/
inductive BodyLine where
  | context (text : Text)
  | removed (text : Text)
  | inserted (text : Text)
deriving DecidableEq, Repr

namespace BodyLine

/-- The text of the line. -/
def text : BodyLine → Text
  | .context text => text
  | .removed text => text
  | .inserted text => text

/-- The mark of the line's kind. -/
def mark : BodyLine → Char
  | .context _ => ' '
  | .removed _ => '-'
  | .inserted _ => '+'

/-- The line with its mark in front. -/
def line (b : BodyLine) : Text := b.mark :: b.text

/-- Whether the line stands on the source side. -/
def isOnSource : BodyLine → Bool
  | .inserted _ => false
  | _ => true

/-- Whether the line stands on the target side. -/
def isOnTarget : BodyLine → Bool
  | .removed _ => false
  | _ => true

end BodyLine

/-- A hunk with its body, and what is written behind its spans. -/
structure FullHunk where
  sourceStart : Nat
  targetStart : Nat
  body : List BodyLine
  heading : Text := []
deriving DecidableEq, Repr

namespace FullHunk

/-- The spans of a hunk, counted from its body. -/
def spans (h : FullHunk) : Hunk where
  source := ⟨h.sourceStart, h.body.countP BodyLine.isOnSource⟩
  target := ⟨h.targetStart, h.body.countP BodyLine.isOnTarget⟩

/-- A length behind its comma; one is not written. -/
def lengthText (length : Nat) : Text :=
  if length = 1 then [] else ',' :: Nat.toDigits 10 length

/-- A span as it stands in the first line of a hunk. -/
def spanText (span : Span) : Text :=
  Nat.toDigits 10 span.start ++ lengthText span.length

/-- The first line of a hunk. -/
def headLine (h : FullHunk) : Text :=
  "@@ -".toList ++ (spanText h.spans.source ++ (" +".toList
    ++ (spanText h.spans.target ++ (" @@".toList ++ h.heading))))

/-- The lines of a hunk. -/
def lines (h : FullHunk) : List Text := h.headLine :: h.body.map BodyLine.line

end FullHunk

/-- The kinds of files that a mode tells apart. -/
inductive FileMode where
  | regular
  | executable
  | link
deriving DecidableEq, Repr

/-- The digits of a mode. -/
def FileMode.digits : FileMode → String
  | .regular => "100644"
  | .executable => "100755"
  | .link => "120000"

/-- A change of a file: a new file and a deleted one with their lines, a
    changed or renamed one with its hunks. -/
inductive FileChange where
  | added (path : Text) (lines : List Text) (mode : FileMode := .regular)
  | deleted (path : Text) (lines : List Text) (mode : FileMode := .regular)
  | modified (path : Text) (hunks : List FullHunk)
  | renamed (source target : Text) (hunks : List FullHunk)
deriving DecidableEq, Repr

namespace FileChange

/-- The path of the file on the source side. -/
def sourcePath : FileChange → Text
  | .added path _ _ => path
  | .deleted path _ _ => path
  | .modified path _ => path
  | .renamed source _ _ => source

/-- The path of the file after the change; of a deleted file, before
    it. -/
def path : FileChange → Text
  | .renamed _ target _ => target
  | change => change.sourcePath

/-- What happens to the file. -/
def status : FileChange → ChangeStatus
  | .added _ _ _ => .added
  | .deleted _ _ _ => .deleted
  | .modified _ _ => .modified
  | .renamed _ _ _ => .renamed

/-- The hunks of a change. -/
def hunks : FileChange → List FullHunk
  | .added _ lines _ =>
      [{ sourceStart := 0, targetStart := 1, body := lines.map .inserted }]
  | .deleted _ lines _ =>
      [{ sourceStart := 1, targetStart := 0, body := lines.map .removed }]
  | .modified _ hunks => hunks
  | .renamed _ _ hunks => hunks

/-- The source side's name with its mark. -/
def sourceName (change : FileChange) : Text := 'a' :: '/' :: change.sourcePath

/-- The target side's name with its mark. -/
def targetName (change : FileChange) : Text := 'b' :: '/' :: change.path

/-- The line that says that a file is new or gone. -/
def modeLine : FileChange → List Text
  | .added _ _ mode => ["new file mode ".toList ++ mode.digits.toList]
  | .deleted _ _ mode => ["deleted file mode ".toList ++ mode.digits.toList]
  | _ => []

/-- The name in the line of the source side. -/
def sourceLineName (change : FileChange) : Text :=
  if change.status = .added then FileDiff.noFile else change.sourceName

/-- The name in the line of the target side. -/
def targetLineName (change : FileChange) : Text :=
  if change.status = .deleted then FileDiff.noFile else change.targetName

/-- The lines of a change. -/
def lines (change : FileChange) : List Text :=
  ("diff --git ".toList ++ (change.sourceName ++ ' ' :: change.targetName))
    :: change.modeLine
    ++ ("--- ".toList ++ change.sourceLineName)
    :: ("+++ ".toList ++ change.targetLineName)
    :: change.hunks.flatMap FullHunk.lines

end FileChange

namespace Diff

/-- Lines as one text, each with its newline. -/
def ofLines (lines : List Text) : Text := lines.flatMap (· ++ ['\n'])

/-- Changes as one diff. -/
def render (changes : List FileChange) : Text :=
  ofLines (changes.flatMap FileChange.lines)

end Diff

end CodeReview

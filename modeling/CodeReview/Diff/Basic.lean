import CodeReview.Text.Basic

/-! # Diffs

    What a diff says about the files it changes: the names on both sides,
    and which lines its hunks span.  From these follow the path of a change
    and its status. -/

namespace CodeReview

/-- The lines of one side that a hunk spans. -/
structure Span where
  start : Nat
  length : Nat
deriving DecidableEq, Repr

/-- Whether a span stands before the first line and is empty, as on the
    side where a file does not exist. -/
def Span.isVoid (span : Span) : Bool := span.start == 0 && span.length == 0

/-- The spans of a hunk on both sides. -/
structure Hunk where
  source : Span
  target : Span
deriving DecidableEq, Repr

/-- What happened to a file. -/
inductive ChangeStatus where
  | added
  | deleted
  | renamed
  | modified
deriving DecidableEq, Repr

/-- The name of a status. -/
def ChangeStatus.name : ChangeStatus → String
  | .added => "added"
  | .deleted => "deleted"
  | .renamed => "renamed"
  | .modified => "modified"

/-- One file of a diff. -/
structure FileDiff where
  source : Text
  target : Text
  hunks : List Hunk := []
deriving DecidableEq, Repr

namespace FileDiff

/-- The name on the side where a file does not exist. -/
def noFile : Text := "/dev/null".toList

/-- Whether the only hunk is void on a side. -/
def isVoidOn (side : Hunk → Span) (file : FileDiff) : Bool :=
  match file.hunks with
  | [hunk] => (side hunk).isVoid
  | _ => false

/-- Whether the file is new. -/
def isAdded (file : FileDiff) : Bool :=
  file.source == noFile || file.isVoidOn Hunk.source

/-- Whether the file is gone. -/
def isDeleted (file : FileDiff) : Bool :=
  file.target == noFile || file.isVoidOn Hunk.target

/-- Whether the file has another name: the sides differ behind their first
    two characters. -/
def isRenamed (file : FileDiff) : Bool :=
  file.source != noFile && file.target != noFile
    && file.source.drop 2 != file.target.drop 2

/-- What happened to the file. -/
def status (file : FileDiff) : ChangeStatus :=
  if file.isAdded then .added
  else if file.isDeleted then .deleted
  else if file.isRenamed then .renamed
  else .modified

/-- The letters and digits that stand for a side before a slash. -/
def sideMarks : List Char := "abciow12".toList

/-- A name without the mark of its side. -/
def dropSide : Text → Text
  | mark :: '/' :: rest =>
      if sideMarks.contains mark then rest else mark :: '/' :: rest
  | name => name

/-- A name without the mark of its side; quotes around the name stay. -/
def plainName (name : Text) : Text :=
  if name.head? = some '"' && name.getLast? = some '"' then
    '"' :: dropSide (name.drop 1).dropLast ++ ['"']
  else dropSide name

/-- The side that names the file: the target, if the file is new or
    renamed. -/
def side (file : FileDiff) : Text :=
  if file.source == noFile || file.isRenamed then file.target else file.source

/-- The path of the file. -/
def path (file : FileDiff) : String := String.ofList (plainName file.side)

end FileDiff

end CodeReview

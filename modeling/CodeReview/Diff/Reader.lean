import CodeReview.Diff.Line
import CodeReview.Log

/-! # Reading diffs

    A diff is read line by line.  The state of the reader is a value: the
    files that are complete, the one that is open, and what is expected
    next.  The lines of a hunk's body are counted, not looked at, so a body
    may hold any text. -/

namespace CodeReview

/-- Why a text is no diff. -/
inductive DiffError where
  | unexpectedNewFile (line : Text)
  | unexpectedDeletedFile (line : Text)
  | targetWithoutSource (line : Text)
  | unexpectedHunk (line : Text)
  | unexpectedMarker (line : Text)
  | markerWithoutHunk
  | unexpectedBinaryPatch (line : Text)
  | bodyLineExpected (line : Text)
  | hunkTooLong
  | hunkTooShort
  | numberTooLong (digits : Nat)
deriving DecidableEq, Repr

namespace DiffError

/-- What is wrong with the structure of a diff. -/
def text : DiffError → String
  | .unexpectedNewFile line => s!"Unexpected new file found: {String.ofList line}"
  | .unexpectedDeletedFile line =>
      s!"Unexpected deleted file found: {String.ofList line}"
  | .targetWithoutSource line => s!"Target without source: {String.ofList line}"
  | .unexpectedHunk line => s!"Unexpected hunk found: {String.ofList line}"
  | .unexpectedMarker line => s!"Unexpected marker: {String.ofList line}"
  | .markerWithoutHunk => "Unexpected marker: No newline at end of file"
  | .unexpectedBinaryPatch line =>
      s!"Unexpected binary patch marker: {String.ofList line}"
  | .bodyLineExpected line => s!"Hunk diff line expected: {String.ofList line}"
  | .hunkTooLong => "Hunk is longer than expected"
  | .hunkTooShort => "Hunk is shorter than expected"
  | .numberTooLong digits =>
      s!"Exceeds the limit ({Text.maxDigits} digits) for integer string "
        ++ s!"conversion: value has {digits} digits; "
        ++ "use sys.set_int_max_str_digits() to increase the limit"

/-- The wording of an error; a number is at fault on its own. -/
def message : DiffError → String
  | .numberTooLong digits => (DiffError.numberTooLong digits).text
  | e => "Could not parse diff: " ++ e.text

end DiffError

/-- How many lines of a hunk's body are still to come on each side. -/
structure Remaining where
  source : Nat
  target : Nat
deriving DecidableEq, Repr

namespace Remaining

/-- Whether the body is complete. -/
def isDone (r : Remaining) : Bool := r.source == 0 && r.target == 0

/-- Takes lines from both sides. -/
def take (r : Remaining) (source target : Nat) : Except DiffError Remaining :=
  if source ≤ r.source && target ≤ r.target then
    .ok ⟨r.source - source, r.target - target⟩
  else .error .hunkTooLong

/-- Takes one line of a body: its first character tells on which sides it
    stands. -/
def step (r : Remaining) (line : Text) : Except DiffError Remaining :=
  match line.head? with
  | some '+' => r.take 0 1
  | some '-' => r.take 1 0
  | some '\\' => r.take 0 0
  | some ' ' => r.take 1 1
  | some '\n' => r.take 1 1
  | some '\r' => r.take 1 1
  | _ => .error (.bodyLineExpected line)

end Remaining

/-- The state of the reader: the complete files, the open one, whether the
    lines before its first hunk are still being read, the last name of a
    source side, and the rest of an open hunk. -/
structure DiffState where
  closed : List FileDiff := []
  current : Option FileDiff := none
  inPreamble : Bool := false
  pending : Option Text := none
  body : Option Remaining := none
deriving DecidableEq, Repr

namespace DiffState

/-- The files read so far. -/
def files (s : DiffState) : List FileDiff := s.closed ++ s.current.toList

/-- Closes the open file. -/
def close (s : DiffState) : DiffState :=
  { s with closed := s.files, current := none }

/-- Opens another file. -/
def begin (s : DiffState) (file : FileDiff) : DiffState :=
  { s with closed := s.files, current := some file }

/-- Changes the open file while its preamble is read. -/
def amend (s : DiffState) (e : DiffError) (f : FileDiff → FileDiff) :
    Except DiffError DiffState :=
  match s.current, s.inPreamble with
  | some file, true => .ok { s with current := some (f file) }
  | _, _ => .error e

/-- Takes the name of a target side. -/
def target (s : DiffState) (line name : Text) : Except DiffError DiffState :=
  match s.current, s.pending with
  | some file, _ =>
      if file.target = name then .ok s else .error (.targetWithoutSource line)
  | none, none => .error (.targetWithoutSource line)
  | none, some source =>
      .ok { s.begin { source, target := name } with
        inPreamble := false, pending := none }

/-- Starts a hunk. -/
def openHunk (s : DiffState) (line : Text) (hunk : Hunk) :
    Except DiffError DiffState :=
  match s.current with
  | none => .error (.unexpectedHunk line)
  | some file => .ok { s with
      current := some { file with hunks := file.hunks ++ [hunk] }
      inPreamble := false
      body := some ⟨hunk.source.length, hunk.target.length⟩ }

/-- Passes over a line outside of files: an open file whose preamble is
    over ends there. -/
def passOver (s : DiffState) : DiffState :=
  if s.inPreamble then s else { s.close with inPreamble := true }

/-- Ends the open file after binary contents. -/
def endBinary (s : DiffState) : DiffState := { s.close with inPreamble := false }

/-- Whether the open file has a hunk. -/
def hasHunk (s : DiffState) : Bool :=
  match s.current with
  | some file => !file.hunks.isEmpty
  | none => false

/-- Takes a line that says what a binary file is called. -/
def binary (s : DiffState) (source target : Text) : DiffState :=
  let s := { s.passOver with pending := some source }
  if s.current.isSome then s.endBinary else (s.begin { source, target }).endBinary

/-- Takes a line outside of hunks. -/
def stepLine (s : DiffState) (line : Text) : DiffLine → Except DiffError DiffState
  | .header source target =>
      .ok { s.begin { source, target } with
        inPreamble := true, pending := some source }
  | .newFile => s.amend (.unexpectedNewFile line) ({ · with source := FileDiff.noFile })
  | .deletedFile =>
      s.amend (.unexpectedDeletedFile line) ({ · with target := FileDiff.noFile })
  | .source name =>
      let s := if s.inPreamble then s else s.close
      .ok { s with pending := some name }
  | .target name => s.target line name
  | .hunk hunk => s.openHunk line hunk
  | .overlong digits =>
      if s.current.isSome then .error (.numberTooLong digits)
      else .error (.unexpectedHunk line)
  | .noNewline =>
      if s.hasHunk then .ok s
      else if s.current.isSome then .error .markerWithoutHunk
      else .error (.unexpectedMarker line)
  | .empty => .ok (if s.hasHunk then s else s.passOver)
  | .binary source target => .ok (s.binary source target)
  | .binaryPatch =>
      let s := s.passOver
      if s.current.isSome then .ok s.endBinary
      else .error (.unexpectedBinaryPatch line)
  | .other => .ok s.passOver

/-- Takes a line: of the body of the open hunk, or else outside of
    hunks. -/
def step (s : DiffState) (line : Text) : Except DiffError DiffState :=
  match s.body with
  | some remaining => do
      let rest ← remaining.step line
      return { s with body := if rest.isDone then none else some rest }
  | none => s.stepLine line (.parse line)

/-- Ends the reading; an open hunk must not miss lines. -/
def finish (s : DiffState) : Except DiffError (List FileDiff) :=
  match s.body with
  | some remaining => if remaining.isDone then .ok s.files else .error .hunkTooShort
  | none => .ok s.files

end DiffState

namespace Diff

/-- The lines of a text with their newlines. -/
def lines : Text → List Text
  | [] => []
  | c :: rest =>
      if c = '\n' then ['\n'] :: lines rest
      else
        match lines rest with
        | [] => [[c]]
        | line :: more => (c :: line) :: more

/-- Reads a diff. -/
def parse (text : Text) : Except DiffError (List FileDiff) := do
  let state ← (lines text).foldlM DiffState.step {}
  state.finish

/-- The paths that a diff leaves in place, in order; with the deleted ones,
    if asked for. -/
def changedPaths (text : Text) (includeDeletions : Bool) :
    Except DiffError (Logged (List String)) := do
  let files ← parse text
  let kept := files.filter fun file => includeDeletions || file.status != .deleted
  let dropped := files.filter fun file => !(includeDeletions || file.status != .deleted)
  return ⟨kept.map FileDiff.path,
    dropped.map fun file => ⟨.debug, s!"Skipping {file.path} - deleted in diff"⟩⟩

end Diff

end CodeReview

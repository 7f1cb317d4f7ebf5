import CodeReview.Pattern.Match

/-! # Searching a text

    A pattern matches at the first place, from the left, where it has a
    result; all matches of a text are taken from the left without
    overlaps. -/

namespace CodeReview

/-- One match: the offsets where it starts and ends, the text behind it,
    and the stretches it remembered. -/
structure Match where
  start : Nat
  stop : Nat
  after : Text
  captures : List (Nat × Capture)
deriving DecidableEq, Repr

namespace Match

/-- The stretch remembered under a number. -/
def capture? (m : Match) (index : Nat) : Option Capture :=
  m.captures.lookup index

/-- The text remembered under a number, empty if there is none. -/
def group (m : Match) (index : Nat) : Text :=
  ((m.capture? index).map Capture.text).getD []

/-- The text remembered under a number, as a name. -/
def name (m : Match) (index : Nat) : String := String.ofList (m.group index)

/-- Where the stretch remembered under a number starts. -/
def groupStart (m : Match) (index : Nat) : Nat :=
  ((m.capture? index).map Capture.start).getD m.start

/-- The match between two places. -/
def between (s t : Cursor) : Match := ⟨s.offset, t.offset, t.rest, t.captures⟩

end Match

namespace Pattern

/-- The match that starts at a place. -/
def matchAt (p : Pattern) (s : Cursor) : Option Match :=
  p.find s fun t => some (Match.between s t)

/-- The match at the very start of a text. -/
def matchStart (p : Pattern) (text : Text) : Option Match :=
  p.matchAt (.atStart text)

/-- The first match from a place on. -/
def searchFrom (p : Pattern) (before : Option Char) (offset : Nat) :
    Text → Option Match
  | [] => p.matchAt ⟨before, [], offset, []⟩
  | c :: rest =>
      (p.matchAt ⟨before, c :: rest, offset, []⟩).orElse fun _ =>
        searchFrom p (some c) (offset + 1) rest

/-- The first match in a text. -/
def search (p : Pattern) (text : Text) : Option Match :=
  p.searchFrom none 0 text

/-- Whether a pattern matches somewhere in a text. -/
def occursIn (p : Pattern) (text : Text) : Bool := (p.search text).isSome

/-- Whether a pattern matches at the start of a text. -/
def startsIn (p : Pattern) (text : Text) : Bool := (p.matchStart text).isSome

/-- The matches from a place on, without overlaps.  `skip` is how many
    characters of the last match are still to be passed over. -/
def findAllFrom (p : Pattern) (before : Option Char) (offset : Nat) :
    (skip : Nat) → Text → List Match
  | 0, [] => (p.matchAt ⟨before, [], offset, []⟩).toList
  | _ + 1, [] => []
  | 0, c :: rest =>
      match p.matchAt ⟨before, c :: rest, offset, []⟩ with
      | none => findAllFrom p (some c) (offset + 1) 0 rest
      | some m =>
          m :: findAllFrom p (some c) (offset + 1) (m.stop - offset - 1) rest
  | skip + 1, c :: rest => findAllFrom p (some c) (offset + 1) skip rest

/-- All matches in a text, without overlaps, from the left. -/
def findAll (p : Pattern) (text : Text) : List Match :=
  p.findAllFrom none 0 0 text

/-- How often a pattern matches in a text, without overlaps. -/
def count (p : Pattern) (text : Text) : Nat := (p.findAll text).length

/-- The match at a place is the preferred way to match there. -/
theorem matchAt_eq (p : Pattern) (s : Cursor) :
    p.matchAt s = ((p.results s).map (Match.between s)).head? := by
  rw [matchAt, find_eq_findSome?]
  cases p.results s <;> simp

end Pattern

end CodeReview

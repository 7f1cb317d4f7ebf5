import CodeReview.Pattern.Basic

/-! # Where a pattern matches

    `results` lists every way a pattern can match at a place, the preferred
    one first; it is the meaning of a pattern.  `find` walks through the
    same ways one at a time and stops at the first that the rest of the
    work accepts; `find_eq_findSome?` states that the two agree. -/

namespace CodeReview

/-- A remembered stretch: where it starts, and its text. -/
structure Capture where
  start : Nat
  text : Text
deriving DecidableEq, Repr

/-- A place in a text: the character before it, the text after it, its
    offset, and the stretches remembered on the way there. -/
structure Cursor where
  before : Option Char
  rest : Text
  offset : Nat
  captures : List (Nat × Capture) := []
deriving DecidableEq, Repr

namespace Cursor

/-- The start of a text. -/
def atStart (text : Text) : Cursor := ⟨none, text, 0, []⟩

/-- The stretch of text from one place to a later one. -/
def textTo (s t : Cursor) : Text := s.rest.take (t.offset - s.offset)

/-- Whether a character, or the lack of one, is a word character. -/
def wordAt (c : Option Char) : Bool := c.any Text.isWord

/-- Whether a place is an edge of some kind. -/
def isAt (s : Cursor) : Edge → Bool
  | .textStart => s.before.isNone
  | .lineStart => s.before.isNone || s.before == some '\n'
  | .textEnd => s.rest.isEmpty || s.rest == ['\n']
  | .lineEnd => s.rest.isEmpty || s.rest.head? == some '\n'
  | .word => wordAt s.before != wordAt s.rest.head?

/-- The place after the next character, if that is of a class. -/
def advance (s : Cursor) (p : Char → Bool) : Option Cursor :=
  match s.rest with
  | [] => none
  | c :: rest =>
      if p c then some { s with before := some c, rest, offset := s.offset + 1 }
      else none

/-- The later place `t`, with the stretch up to it remembered. -/
def remember (s t : Cursor) (index : Nat) : Cursor :=
  { t with captures := (index, ⟨s.offset, s.textTo t⟩) :: t.captures }

end Cursor

namespace Pattern

/-- The places that repetitions of a step lead to.  Each repetition must
    consume something; `fuel` bounds their number. -/
def iterate (step : Cursor → List Cursor) (isLazy : Bool) :
    (fuel : Nat) → Cursor → List Cursor
  | 0, s => [s]
  | fuel + 1, s =>
      let more := (step s).flatMap fun t =>
        if s.offset < t.offset then iterate step isLazy fuel t else []
      if isLazy then s :: more else more ++ [s]

/-- Every place that a pattern can lead to, the preferred one first. -/
def results : Pattern → Cursor → List Cursor
  | nothing, s => [s]
  | one p, s => (s.advance p).toList
  | seq p q, s => (results p s).flatMap (results q)
  | alt p q, s => results p s ++ results q s
  | star isLazy p, s => iterate (results p) isLazy s.rest.length s
  | group index p, s => (results p s).map fun t => s.remember t index
  | edge e, s => if s.isAt e then [s] else []
  | ahead wanted p, s => if (results p s).isEmpty == wanted then [] else [s]
  | notAfter p, s => if s.before.any p then [] else [s]

/-- The first outcome among the places that repetitions of a step lead
    to. -/
def findIterate {α : Type} (step : Cursor → (Cursor → Option α) → Option α)
    (isLazy : Bool) (accept : Cursor → Option α) :
    (fuel : Nat) → Cursor → Option α
  | 0, s => accept s
  | fuel + 1, s =>
      let more := fun (_ : Unit) => step s fun t =>
        if s.offset < t.offset then findIterate step isLazy accept fuel t
        else none
      if isLazy then (accept s).orElse more
      else (more ()).orElse fun _ => accept s

/-- The first outcome that the rest of the work has at the places that a
    pattern can lead to. -/
def find {α : Type} :
    Pattern → Cursor → (accept : Cursor → Option α) → Option α
  | nothing, s, accept => accept s
  | one p, s, accept => (s.advance p).bind accept
  | seq p q, s, accept => find p s fun t => find q t accept
  | alt p q, s, accept => (find p s accept).orElse fun _ => find q s accept
  | star isLazy p, s, accept =>
      findIterate (find p) isLazy accept s.rest.length s
  | group index p, s, accept => find p s fun t => accept (s.remember t index)
  | edge e, s, accept => if s.isAt e then accept s else none
  | ahead wanted p, s, accept =>
      if (results p s).isEmpty == wanted then none else accept s
  | notAfter p, s, accept => if s.before.any p then none else accept s

private theorem findSome?_flatMap {α : Type} (xs : List Cursor)
    (f : Cursor → List Cursor) (accept : Cursor → Option α) :
    (xs.flatMap f).findSome? accept
      = xs.findSome? fun t => (f t).findSome? accept := by
  induction xs with
  | nil => rfl
  | cons x xs ih =>
      rw [List.flatMap_cons, List.findSome?_append, ih, List.findSome?_cons]
      cases (f x).findSome? accept <;> rfl

private theorem findIterate_eq {α : Type}
    {step : Cursor → (Cursor → Option α) → Option α}
    {steps : Cursor → List Cursor}
    (hstep : ∀ s accept, step s accept = (steps s).findSome? accept)
    (isLazy : Bool) (accept : Cursor → Option α) (fuel : Nat) (s : Cursor) :
    findIterate step isLazy accept fuel s
      = (iterate steps isLazy fuel s).findSome? accept := by
  induction fuel generalizing s with
  | zero => simp [findIterate, iterate]
  | succ fuel ih =>
      -- what follows a first turn, which may end the repetition here
      have hmore : (step s fun t =>
            if s.offset < t.offset then findIterate step isLazy accept fuel t
            else none)
          = ((steps s).flatMap fun t =>
              if s.offset < t.offset then iterate steps isLazy fuel t
              else []).findSome? accept := by
        rw [hstep, findSome?_flatMap]
        congr 1
        funext t
        split
        · exact ih t
        · rfl
      cases isLazy with
      | false =>
          simp only [findIterate, iterate, Bool.false_eq_true, if_false,
            List.findSome?_append, hmore]
          cases List.findSome? accept _ <;> simp
      | true =>
          simp only [findIterate, iterate, if_true, List.findSome?_cons, hmore]
          cases accept s <;> rfl

/-- Walking through the ways to match finds the first acceptable one of
    them. -/
theorem find_eq_findSome? {α : Type} (p : Pattern) (s : Cursor)
    (accept : Cursor → Option α) :
    p.find s accept = (p.results s).findSome? accept := by
  induction p generalizing s accept with
  | nothing => simp [find, results]
  | one p => cases h : s.advance p <;> simp [find, results, h]
  | seq p q ihp ihq =>
      rw [find, results, findSome?_flatMap, ihp]
      congr 1
      funext t
      exact ihq t accept
  | alt p q ihp ihq =>
      rw [find, results, List.findSome?_append, ihp, ihq]
      cases List.findSome? accept _ <;> rfl
  | star isLazy p ih => exact findIterate_eq ih isLazy accept _ s
  | group index p ih =>
      rw [find, results, List.findSome?_map, ih]
      rfl
  | edge e => by_cases h : s.isAt e <;> simp [find, results, h]
  | ahead wanted p => by_cases h : (results p s).isEmpty == wanted <;>
      simp [find, results, h]
  | notAfter p => by_cases h : s.before.any p <;> simp [find, results, h]

end Pattern

end CodeReview

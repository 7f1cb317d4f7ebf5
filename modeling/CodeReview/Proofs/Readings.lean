import CodeReview.Detector.Schema
import CodeReview.Proofs.LineNumbers
import Mathlib.Data.List.TakeWhile

/-! # Reading members line by line

    The members of a definition are read line by line, and all that is kept
    between two lines is a `Reading`: the number of open parentheses and
    whether a description is open.  What one line does to it
    (`Reading.members_cons`) gives what a run of lines does: the members
    behind some lines depend on the reading behind them alone
    (`Reading.members_append`). -/

namespace CodeReview

/-! ## Marks in a line -/

namespace Text

theorem countFrom_skip (fragment w rest : Text) :
    countFrom fragment w.length (w ++ rest) = countFrom fragment 0 rest := by
  induction w with
  | nil => rfl
  | cons c w ih => exact ih

/-- What stands in front is counted once. -/
theorem occurrences_append {fragment : Text} (h : fragment ≠ [])
    (rest : Text) :
    occurrences fragment (fragment ++ rest)
      = occurrences fragment rest + 1 := by
  obtain ⟨c, w, rfl⟩ := List.exists_cons_of_ne_nil h
  rw [occurrences, List.cons_append, countFrom, ← List.cons_append,
    if_pos (List.isPrefixOf_iff_prefix.mpr (List.prefix_append _ _))]
  exact congrArg (· + 1) (countFrom_skip (c :: w) w rest)

theorem occurrences_eq_zero_iff {fragment text : Text} (h : fragment ≠ []) :
    occurrences fragment text = 0 ↔ ¬ fragment <:+: text := by
  induction text with
  | nil =>
      rw [List.infix_nil]
      exact iff_of_true rfl h
  | cons c rest ih =>
      rw [occurrences, countFrom, List.infix_cons_iff, not_or, ← ih,
        ← List.isPrefixOf_iff_prefix]
      split
      · rename_i hprefix
        exact iff_of_false (Nat.succ_ne_zero _) fun hnot => hnot.1 hprefix
      · rename_i hprefix
        exact (and_iff_right hprefix).symm

/-- A text is trimmed of what is blank around it. -/
theorem trim_around {margin tail : Text}
    (hmargin : ∀ c ∈ margin, isBlank c = true)
    (htail : ∀ c ∈ tail, isBlank c = true) (text : Text) :
    trim (margin ++ (text ++ tail)) = trim text := by
  rw [trim, trim, List.dropWhile_append_of_pos hmargin, List.dropWhile_append]
  split
  · rename_i hempty
    rw [List.isEmpty_iff.mp hempty, List.dropWhile_eq_nil_iff.mpr htail]
  · rw [trimRight, trimRight, dropRight, List.reverse_append,
      List.dropWhile_append_of_pos fun c hc => htail c (List.mem_reverse.mp hc)]
    rfl

/-- A text whose ends are not blank is trimmed already. -/
theorem trim_concat {w : Text} {c : Char}
    (hhead : (w ++ [c]).dropWhile isBlank = w ++ [c])
    (hc : isBlank c = false) : trim (w ++ [c]) = w ++ [c] := by
  rw [trim, hhead, trimRight, dropRight_concat hc]

/-- What starts a text behind its margin starts it trimmed. -/
theorem prefix_trim_iff {w text : Text} {c : Char} (hc : isBlank c = false) :
    w ++ [c] <+: trim text ↔ w ++ [c] <+: text.dropWhile isBlank := by
  have hkept : ∀ rest, dropRight isBlank (w ++ [c] ++ rest)
      = w ++ [c] ++ dropRight isBlank rest := dropRight_append_concat hc w
  constructor
  · intro h
    exact h.trans (dropRight_prefix_self isBlank _)
  · rintro ⟨rest, hrest⟩
    rw [trim, trimRight, ← hrest, hkept]
    exact List.prefix_append _ _

end Text

namespace Detector

open Pattern

/-! ## Line by line -/

/-- What is kept of the lines read: how many parentheses are open, and
    whether a description is. -/
structure Reading where
  parens : Int
  inside : Bool
deriving DecidableEq, Repr

namespace Reading

/-- Nothing is open. -/
def start : Reading := ⟨0, false⟩

/-- Whether a line is passed over: within a description, or blank, or a
    comment. -/
def passesOver (r : Reading) (line : Text) : Bool :=
  r.inside || (Text.trim line).isEmpty || (Text.trim line).head? == some '#'

/-- What is kept behind a line. -/
def step (r : Reading) (line : Text) : Reading :=
  if togglesDescription (Text.trim line) then { r with inside := !r.inside }
  else if r.passesOver line then r
  else { r with parens := r.parens + parenBalance line }

/-- What is kept behind some lines. -/
def after (r : Reading) (ls : List Text) : Reading := ls.foldl step r

/-- Whether a line is taken for a member. -/
def takes (r : Reading) (pattern : Pattern) (line : Text) : Bool :=
  !togglesDescription (Text.trim line) && !r.passesOver line
    && (r.parens == 0 && pattern.startsIn line)

/-- The members among some lines. -/
def members (r : Reading) (pattern : Pattern) (index : Nat)
    (ls : List Text) : List (Nat × Text) :=
  membersFrom pattern index r.parens r.inside ls

variable {pattern : Pattern} {r : Reading}

/-- One line: it is a member or not, and the others are read behind it. -/
theorem members_cons (index : Nat) (line : Text) (rest : List Text) :
    r.members pattern index (line :: rest)
      = (if r.takes pattern line then [(index, line)] else [])
        ++ (r.step line).members pattern (index + 1) rest := by
  show (if togglesDescription (Text.trim line) then _
    else if r.passesOver line then _ else _) = _
  rw [takes, step]
  cases togglesDescription (Text.trim line) with
  | true => rfl
  | false =>
      cases r.passesOver line with
      | true => rfl
      | false => cases r.parens == 0 && pattern.startsIn line <;> rfl

/-- A run of lines: what is kept behind the first ones is all that the
    others need. -/
theorem members_append (front back : List Text) :
    ∀ (r : Reading) (index : Nat),
      r.members pattern index (front ++ back)
        = r.members pattern index front
          ++ (r.after front).members pattern (index + front.length) back := by
  induction front with
  | nil => intro r index; rfl
  | cons line front ih =>
      intro r index
      rw [List.cons_append, members_cons, ih, members_cons, List.append_assoc,
        List.length_cons, Nat.add_right_comm]
      rfl

/-- The members among some lines are counted from the first one on. -/
theorem bounds_of_mem_members {member : Nat × Text} {ls : List Text} :
    ∀ {r : Reading} {index : Nat}, member ∈ r.members pattern index ls →
      index ≤ member.1 ∧ member.1 < index + ls.length := by
  induction ls with
  | nil => intro r index h; exact nomatch h
  | cons line ls ih =>
      intro r index h
      rw [members_cons] at h
      rw [List.length_cons]
      rcases List.mem_append.mp h with hline | hlater
      · split at hline
        · rw [List.mem_singleton.mp hline]
          show index ≤ index ∧ index < index + (ls.length + 1)
          omega
        · exact absurd hline List.not_mem_nil
      · have hbounds := ih hlater
        omega

end Reading

end Detector

end CodeReview

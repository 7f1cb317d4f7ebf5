import CodeReview.Text.Lines

/-! # Lines of printed text

    Writing lines with a newline after each and splitting the text again
    gives the lines back (`lines_print`), and only the empty content has no
    lines. -/

namespace CodeReview.Text

/-- Lines as a text, a newline after each. -/
def print (ls : List Text) : Text := ls.flatMap fun line => line ++ ['\n']

private theorem print_cons (line : Text) (ls : List Text) :
    print (line :: ls) = line ++ '\n' :: print ls := by
  rw [print, List.flatMap_cons, List.append_assoc, List.singleton_append,
    print]

/-- One more character belongs to the first piece. -/
theorem splitOn_cons_of_ne {sep c : Char} (hc : c ≠ sep)
    {text piece : Text} {pieces : List Text}
    (h : splitOn sep text = piece :: pieces) :
    splitOn sep (c :: text) = (c :: piece) :: pieces := by
  rw [splitOn, if_neg hc, h]

/-- A piece up to the first separator is split off whole. -/
theorem splitOn_append_cons {sep : Char} {piece : Text} (h : sep ∉ piece)
    (rest : Text) :
    splitOn sep (piece ++ sep :: rest) = piece :: splitOn sep rest := by
  induction piece with
  | nil =>
      show (if sep = sep then [] :: splitOn sep rest else _) = _
      rw [if_pos rfl]
  | cons c piece ih =>
      rw [List.mem_cons, not_or] at h
      rw [List.cons_append, splitOn, if_neg (Ne.symm h.1), ih h.2]

theorem splitOn_print {ls : List Text} (h : ∀ line ∈ ls, '\n' ∉ line) :
    splitOn '\n' (print ls) = ls ++ [[]] := by
  induction ls with
  | nil => rfl
  | cons line ls ih =>
      rw [print_cons, splitOn_append_cons (h line List.mem_cons_self),
        ih fun other hother => h other (List.mem_cons_of_mem _ hother)]
      rfl

/-- A text without the trailing characters of a class it does not hold is
    the text itself. -/
theorem dropRight_eq_self {p : Char → Bool} {text : Text}
    (h : ∀ c ∈ text, p c = false) : dropRight p text = text := by
  rw [dropRight]
  cases hrev : text.reverse with
  | nil =>
      rw [List.reverse_eq_nil_iff.mp hrev]
      rfl
  | cons c rest =>
      have hc : c ∈ text :=
        List.mem_reverse.mp (hrev ▸ List.mem_cons_self)
      rw [List.dropWhile_cons_of_neg (by rw [h c hc]; exact Bool.false_ne_true),
        ← hrev, List.reverse_reverse]

theorem dropRight_of_not_mem {c : Char} {text : Text} (h : c ∉ text) :
    dropRight (· == c) text = text := by
  refine dropRight_eq_self ?_
  intro d hd
  refine beq_false_of_ne ?_
  rintro rfl
  exact h hd

/-- A text whose last character is not of a class keeps all of its
    characters. -/
theorem dropRight_concat {p : Char → Bool} {c : Char} (h : p c = false)
    (text : Text) : dropRight p (text ++ [c]) = text ++ [c] := by
  rw [dropRight, List.reverse_concat,
    List.dropWhile_cons_of_neg (by rw [h]; exact Bool.false_ne_true),
    List.reverse_cons, List.reverse_reverse]

/-- The lines of a printed text are those that were printed, if none of
    them ends with a carriage return. -/
theorem lines_print_trimmed {ls : List Text}
    (h : ∀ line ∈ ls, '\n' ∉ line ∧ dropRight (· == '\r') line = line) :
    lines (print ls) = ls := by
  rw [lines, dropFinalEmpty, splitOn_print fun line hline => (h line hline).1,
    if_pos List.getLast?_concat, List.dropLast_concat,
    List.map_congr_left fun line hline => (h line hline).2, List.map_id']

/-- **PRINTED LINES**: the lines of a printed text are those that were
    printed. -/
theorem lines_print {ls : List Text}
    (h : ∀ line ∈ ls, '\n' ∉ line ∧ '\r' ∉ line) : lines (print ls) = ls := by
  refine lines_print_trimmed fun line hline => ⟨(h line hline).1, ?_⟩
  exact dropRight_of_not_mem (h line hline).2

/-- Only the empty content has no lines. -/
theorem lines_eq_nil_iff {content : Text} :
    lines content = [] ↔ content = [] := by
  constructor
  · intro h
    have hpieces : dropFinalEmpty (splitOn '\n' content) = [] :=
      List.map_eq_nil_iff.mp h
    have hjoin := join_splitOn '\n' content
    rw [dropFinalEmpty] at hpieces
    split at hpieces
    · rename_i hlast
      -- all that is left of the pieces is the empty one at the end
      obtain ⟨pieces, hsplit⟩ := List.getLast?_eq_some_iff.mp hlast
      rw [hsplit, List.dropLast_concat] at hpieces
      rw [hsplit, hpieces] at hjoin
      exact hjoin.symm
    · exact absurd hpieces (splitOn_ne_nil '\n' content)
  · rintro rfl
    rfl

end CodeReview.Text

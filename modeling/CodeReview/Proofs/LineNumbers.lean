import CodeReview.Proofs.Scanning
import CodeReview.Proofs.Stretches
import Mathlib.Data.List.TakeWhile

/-! # Line numbers of offsets

    The line of an offset is found by counting newlines.  The count is
    limited by the number of lines, since a newline at the very end starts
    no line; but it stays below it for every offset that has a character
    (`lineOf_of_lt`), because a character in front adds a line if it is a
    newline, and else none (`length_lines_cons_of_ne`). -/

namespace CodeReview.Text

/-! ## One character in front -/

theorem lines_cons_newline (text : Text) :
    lines ('\n' :: text) = [] :: lines text := by
  have hparts : lines (['\n'] ++ text) = lines ['\n'] ++ lines text :=
    lines_append_parts (.inr rfl) text
  exact hparts

/-- A character that starts no line belongs to the first one. -/
theorem length_lines_cons_of_ne {c : Char} (hc : c ≠ '\n') {text : Text}
    (htext : text ≠ []) : (lines (c :: text)).length = (lines text).length := by
  obtain ⟨piece, pieces, hsplit⟩ :=
    List.exists_cons_of_ne_nil (splitOn_ne_nil '\n' text)
  rw [lines, lines, List.length_map, List.length_map,
    splitOn_cons_of_ne hc hsplit, hsplit]
  cases pieces with
  | nil =>
      have hpiece : piece ≠ [] := by
        rintro rfl
        have hjoin := join_splitOn '\n' text
        rw [hsplit] at hjoin
        exact htext hjoin.symm
      simp [dropFinalEmpty, hpiece]
  | cons next pieces =>
      have hfinal : ∀ first : Text, dropFinalEmpty (first :: next :: pieces)
          = first :: dropFinalEmpty (next :: pieces) := fun first =>
        dropFinalEmpty_append [first] (List.cons_ne_nil next pieces)
      rw [hfinal, hfinal, List.length_cons, List.length_cons]

/-! ## Lines behind a number of newlines -/

/-- A text has more lines than there are newlines before one of its
    characters. -/
theorem count_lt_length_lines (front : Text) {back : Text} (h : back ≠ []) :
    front.count '\n' < (lines (front ++ back)).length := by
  induction front with
  | nil => exact List.length_pos_iff.mpr (mt lines_eq_nil_iff.mp h)
  | cons c front ih =>
      rw [List.cons_append]
      by_cases hc : c = '\n'
      · rw [hc, lines_cons_newline, List.count_cons_self, List.length_cons]
        exact Nat.succ_lt_succ ih
      · have hne : front ++ back ≠ [] :=
          List.append_ne_nil_of_right_ne_nil front h
        rwa [List.count_cons_of_ne hc, length_lines_cons_of_ne hc hne]

/-- The line of a character is one more than the newlines before it. -/
theorem lineOf_of_lt {front back : Text} (h : back ≠ []) :
    lineOf (front ++ back) front.length = front.count '\n' + 1 := by
  have hlt := count_lt_length_lines front h
  rw [lineOf, newlinesBefore, List.take_left]
  omega

/-- The line of a place in front of a character. -/
theorem lineOf_pass {content front back : Text}
    (hcontent : content = front ++ back) (h : back ≠ []) :
    lineOf content ((Cursor.atStart content).pass front).offset
      = front.count '\n' + 1 := by
  have hoffset : ((Cursor.atStart content).pass front).offset = front.length :=
    Nat.zero_add _
  rw [hoffset, hcontent]
  exact lineOf_of_lt h

/-! ## Ends of lines -/

/-- A text is what is kept of it, and trailing characters of the class. -/
theorem exists_dropRight_append (p : Char → Bool) (text : Text) :
    ∃ tail, text = dropRight p text ++ tail ∧ ∀ c ∈ tail, p c = true := by
  refine ⟨(text.reverse.takeWhile p).reverse, ?_, fun c hc => ?_⟩
  · rw [dropRight, ← List.reverse_append, List.takeWhile_append_dropWhile,
      List.reverse_reverse]
  · exact List.mem_takeWhile_imp (List.mem_reverse.mp hc)

theorem dropRight_prefix_self (p : Char → Bool) (text : Text) :
    dropRight p text <+: text := by
  obtain ⟨tail, htail, _⟩ := exists_dropRight_append p text
  exact ⟨tail, htail.symm⟩

theorem dropRight_eq_nil_iff {p : Char → Bool} {text : Text} :
    dropRight p text = [] ↔ text.all p = true := by
  rw [dropRight, List.reverse_eq_nil_iff, List.dropWhile_eq_nil_iff,
    List.all_eq_true]
  simp only [List.mem_reverse]

/-- What is dropped at the end of a text stops at the last character that is
    not of the class. -/
theorem dropRight_append (p : Char → Bool) (w text : Text) :
    dropRight p (w ++ text)
      = if text.all p then dropRight p w else w ++ dropRight p text := by
  simp only [← dropRight_eq_nil_iff, dropRight, List.reverse_append,
    List.dropWhile_append, List.isEmpty_iff, List.reverse_eq_nil_iff]
  split
  · rfl
  · rw [List.reverse_append, List.reverse_reverse]

/-- What ends with a character of its own keeps it. -/
theorem dropRight_append_concat {p : Char → Bool} {c : Char}
    (h : p c = false) (w text : Text) :
    dropRight p (w ++ [c] ++ text) = w ++ [c] ++ dropRight p text := by
  rw [dropRight_append]
  split
  · rename_i hall
    rw [dropRight_concat h, dropRight_eq_nil_iff.mpr hall, List.append_nil]
  · rfl

end CodeReview.Text

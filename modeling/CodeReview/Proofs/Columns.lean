import CodeReview.Detector.Basic
import CodeReview.Proofs.LineNumbers
import CodeReview.Proofs.NormalPath
import Mathlib.Order.Monotone.Defs

/-! # Places as offsets and as lines

    A place in a file is an offset into the content, or a line and a column
    on it.  Both name the same character, as long as it is not part of the
    end of its line: cut behind the last newline before an offset, the text
    above has one line for each newline (`length_lines_above`), and below
    them stands what is kept of the line around the offset
    (`exists_line_around`). -/

namespace CodeReview

namespace Text

/-- The offset behind the last newline before an offset, zero if there is
    none: what stands before the offset, without the characters at its end
    that are no newlines. -/
def lineStart (content : Text) (offset : Nat) : Nat :=
  (dropRight (· != '\n') (content.take offset)).length

/-- What stands from an offset on to the end of its line. -/
def restOfLine (content : Text) (offset : Nat) : Text :=
  (content.drop offset).takeWhile (· != '\n')

/-- Whether a carriage return is followed by nothing but carriage returns on
    its line. -/
def IsTrailingReturn (content : Text) (offset : Nat) : Prop :=
  content[offset]? = some '\r'
    ∧ (restOfLine content offset).all (· == '\r') = true

instance (content : Text) (offset : Nat) :
    Decidable (IsTrailingReturn content offset) :=
  inferInstanceAs (Decidable (_ ∧ _))

/-! ## Ends that are dropped -/

/-- A text of which something is kept keeps its first character. -/
theorem head?_dropRight {p : Char → Bool} {text : Text}
    (h : text.all p = false) : (dropRight p text).head? = text.head? := by
  have hkept : dropRight p text ≠ [] := by
    rw [Ne, dropRight_eq_nil_iff, h]
    exact Bool.false_ne_true
  obtain ⟨c, kept, hcons⟩ := List.exists_cons_of_ne_nil hkept
  obtain ⟨tail, htext⟩ := dropRight_prefix_self p text
  rw [hcons] at htext ⊢
  rw [← htext]
  rfl

/-- The character behind a first part is kept with what stands behind it, or
    dropped with it. -/
theorem getElem?_dropRight_append (p : Char → Bool) (w text : Text) :
    (dropRight p (w ++ text))[w.length]?
      = if text.all p then none else text.head? := by
  rw [dropRight_append]
  split
  · refine List.getElem?_eq_none ?_
    exact (dropRight_prefix_self p w).length_le
  · rename_i hall
    rw [List.getElem?_append_right (Nat.le_refl _), Nat.sub_self,
      ← List.head?_eq_getElem?, head?_dropRight (Bool.eq_false_iff.mpr hall)]

/-- What is kept ends with a character that is not of the class. -/
theorem dropRight_eq_nil_or_getLast? (p : Char → Bool) (text : Text) :
    dropRight p text = []
      ∨ ∃ c, (dropRight p text).getLast? = some c ∧ p c = false := by
  rw [dropRight]
  cases hkept : text.reverse.dropWhile p with
  | nil => exact .inl rfl
  | cons c kept =>
      refine .inr ⟨c, by rw [List.reverse_cons, List.getLast?_concat], ?_⟩
      have hhead := List.head?_dropWhile_not p text.reverse
      rw [hkept] at hhead
      exact hhead

/-! ## Lines above, and the line around a place -/

/-- A text that is cut behind a newline has one line for each newline. -/
theorem length_lines_above {front : Text}
    (h : front = [] ∨ front.getLast? = some '\n') :
    (lines front).length = front.count '\n' := by
  induction front with
  | nil => rfl
  | cons c front ih =>
      have hlast := h.resolve_left (List.cons_ne_nil c front)
      by_cases hnil : front = []
      · -- the last character is the newline
        rw [hnil] at hlast ⊢
        cases hlast
        rfl
      rw [List.getLast?_cons_of_ne_nil hnil] at hlast
      have hrest := ih (.inr hlast)
      by_cases hc : c = '\n'
      · rw [hc, lines_cons_newline, List.count_cons_self, List.length_cons,
          hrest]
      · rw [List.count_cons_of_ne hc, length_lines_cons_of_ne hc hnil, hrest]

/-- A text starts with what is kept of its first line. -/
theorem head?_lines_append {line after : Text} (hline : '\n' ∉ line)
    (hafter : after = [] ∨ after.head? = some '\n')
    (hne : line ++ after ≠ []) :
    (lines (line ++ after)).head? = some (dropRight (· == '\r') line) := by
  cases after with
  | nil =>
      rw [List.append_nil] at hne ⊢
      rw [lines, splitOn_of_not_mem hline]
      simp [dropFinalEmpty, hne]
  | cons c after =>
      obtain rfl : c = '\n' := by
        rcases hafter with h | h
        · exact absurd h (List.cons_ne_nil c after)
        · exact Option.some.inj h
      rw [lines, splitOn_append_cons hline, ← List.singleton_append,
        dropFinalEmpty_append [line] (splitOn_ne_nil '\n' after)]
      rfl

/-- Below the lines above stands what is kept of the next line. -/
theorem getElem?_lines_append {above line after : Text}
    (habove : above = [] ∨ above.getLast? = some '\n')
    (hline : '\n' ∉ line) (hafter : after = [] ∨ after.head? = some '\n')
    (hne : line ++ after ≠ []) :
    (lines (above ++ (line ++ after)))[above.count '\n']?
      = some (dropRight (· == '\r') line) := by
  rw [lines_append_parts habove, ← length_lines_above habove,
    List.getElem?_append_right (Nat.le_refl _), Nat.sub_self,
    ← List.head?_eq_getElem?]
  exact head?_lines_append hline hafter hne

theorem newline_not_mem_restOfLine (content : Text) (offset : Nat) :
    '\n' ∉ restOfLine content offset := by
  intro hmem
  exact absurd (List.mem_takeWhile_imp hmem) (by decide)

/-- What stands in front of an offset: lines above, and the beginning of its
    line. -/
theorem exists_above (content : Text) (offset : Nat) :
    ∃ above before, content.take offset = above ++ before
      ∧ above.length = lineStart content offset
      ∧ (above = [] ∨ above.getLast? = some '\n')
      ∧ '\n' ∉ before := by
  obtain ⟨before, htake, hbefore⟩ :=
    exists_dropRight_append (· != '\n') (content.take offset)
  refine ⟨dropRight (· != '\n') (content.take offset), before, htake, rfl,
    ?_, ?_⟩
  · refine (dropRight_eq_nil_or_getLast? _ _).imp_right ?_
    rintro ⟨c, hlast, hc⟩
    rw [hlast, bne_eq_false_iff_eq.mp hc]
  · intro hnewline
    exact absurd (hbefore '\n' hnewline) (by decide)

/-- What stands from an offset on: the rest of its line, and what is below
    it. -/
theorem exists_below (content : Text) (offset : Nat) :
    ∃ after, content.drop offset = restOfLine content offset ++ after
      ∧ (after = [] ∨ after.head? = some '\n') := by
  refine ⟨(content.drop offset).dropWhile (· != '\n'),
    List.takeWhile_append_dropWhile.symm, ?_⟩
  cases hafter : (content.drop offset).dropWhile (· != '\n') with
  | nil => exact .inl rfl
  | cons c after =>
      have hhead := List.head?_dropWhile_not (· != '\n') (content.drop offset)
      rw [hafter] at hhead
      exact .inr (congrArg some (bne_eq_false_iff_eq.mp hhead))

/-! ## Lines and columns of offsets -/

variable {content : Text} {offset : Nat}

/-- An offset into a content has something from there on. -/
theorem drop_ne_nil (h : offset < content.length) :
    content.drop offset ≠ [] := by
  rw [Ne, List.drop_eq_nil_iff]
  exact Nat.not_le_of_lt h

/-- The number of a line is that of the newlines above it, without a
    limit. -/
theorem lineOf_eq_count (h : offset < content.length) :
    lineOf content offset = (content.take offset).count '\n' + 1 := by
  have hline : lineOf (content.take offset ++ content.drop offset)
      (content.take offset).length = _ := lineOf_of_lt (drop_ne_nil h)
  rwa [List.take_append_drop, List.length_take_of_le (Nat.le_of_lt h)] at hline

/-- The line of an offset: what is kept of its beginning and the rest from
    the offset on, which starts at the column. -/
theorem exists_line_around (h : offset < content.length) :
    ∃ before, before.length = offset - lineStart content offset
      ∧ (lines content)[lineOf content offset - 1]?
        = some (dropRight (· == '\r')
            (before ++ restOfLine content offset)) := by
  obtain ⟨above, before, htake, hstart, habove, hbefore⟩ :=
    exists_above content offset
  obtain ⟨after, hdrop, hafter⟩ := exists_below content offset
  refine ⟨before, ?_, ?_⟩
  · have hlength := congrArg List.length htake
    rw [List.length_take_of_le (Nat.le_of_lt h), List.length_append,
      hstart] at hlength
    omega
  · -- the text around the place: the lines above, the line, and what is below
    -- it
    have hcontent : content
        = above ++ (before ++ restOfLine content offset ++ after) := by
      rw [List.append_assoc before, ← hdrop, ← List.append_assoc, ← htake,
        List.take_append_drop]
    have hnumber : lineOf content offset - 1 = above.count '\n' := by
      rw [lineOf_eq_count h, htake, List.count_append,
        List.count_eq_zero.mpr hbefore]
      rfl
    have hline : '\n' ∉ before ++ restOfLine content offset := by
      rw [List.mem_append, not_or]
      exact ⟨hbefore, newline_not_mem_restOfLine content offset⟩
    have hne : before ++ restOfLine content offset ++ after ≠ [] := by
      rw [List.append_assoc, ← hdrop]
      exact List.append_ne_nil_of_right_ne_nil before (drop_ne_nil h)
    rw [hnumber, congrArg lines hcontent]
    exact getElem?_lines_append habove hline hafter hne

/-- **ON ITS LINE**: a stretch without newlines stands on the line with the
    number of the offset that it starts at. -/
theorem exists_line_of_stretch {w : Text} {c : Char}
    (hw : '\n' ∉ w ++ [c]) (hc : c ≠ '\r') (front back : Text) :
    ∃ line, (lines (front ++ (w ++ [c] ++ back)))[front.count '\n']?
        = some line ∧ w ++ [c] <:+: line := by
  have hstretch : w ++ [c] ++ back ≠ [] :=
    List.append_ne_nil_of_left_ne_nil (List.concat_ne_nil c w) back
  have hlt : front.length < (front ++ (w ++ [c] ++ back)).length := by
    rw [List.length_append]
    exact Nat.lt_add_of_pos_right (List.length_pos_iff.mpr hstretch)
  have hrest : restOfLine (front ++ (w ++ [c] ++ back)) front.length
      = w ++ [c] ++ back.takeWhile (· != '\n') := by
    rw [restOfLine, List.drop_left, List.takeWhile_append_of_pos]
    intro d hd
    exact bne_iff_ne.mpr fun hnewline => hw (hnewline ▸ hd)
  obtain ⟨before, _, hline⟩ := exists_line_around hlt
  rw [lineOf_of_lt hstretch, Nat.add_sub_cancel, hrest] at hline
  refine ⟨_, hline, ?_⟩
  have hkept := dropRight_append_concat (p := (· == '\r'))
    (beq_false_of_ne hc) (before ++ w) (back.takeWhile (· != '\n'))
  rw [List.append_assoc w, ← List.append_assoc before, ← List.append_assoc,
    hkept, List.append_assoc before]
  exact List.infix_append before (w ++ [c]) _

/-- The rest of a line is nothing but carriage returns from an offset on
    that is part of the end of the line. -/
theorem all_restOfLine_iff (h : offset < content.length) :
    (restOfLine content offset).all (· == '\r') = true
      ↔ content[offset] = '\n' ∨ IsTrailingReturn content offset := by
  rw [IsTrailingReturn, List.getElem?_eq_getElem h, Option.some.injEq,
    restOfLine, List.drop_eq_getElem_cons h]
  by_cases hnewline : content[offset] = '\n'
  · rw [List.takeWhile_cons_of_neg (by simp [hnewline])]
    simp [hnewline]
  · rw [List.takeWhile_cons_of_pos (by simp [hnewline])]
    simp [hnewline]

theorem head?_restOfLine (h : offset < content.length)
    (hne : content[offset] ≠ '\n') :
    (restOfLine content offset).head? = some content[offset] := by
  rw [restOfLine, List.drop_eq_getElem_cons h,
    List.takeWhile_cons_of_pos (by exact bne_iff_ne.mpr hne), List.head?_cons]

/-- The line of an offset holds the character of the offset at its column,
    unless that is part of the end of the line. -/
theorem getElem?_lines_lineOf (h : offset < content.length) :
    ((lines content)[lineOf content offset - 1]?.bind fun kept =>
        kept[offset - lineStart content offset]?)
      = if content[offset] = '\n' ∨ IsTrailingReturn content offset then none
        else some content[offset] := by
  obtain ⟨before, hcolumn, hline⟩ := exists_line_around h
  have hkept := getElem?_dropRight_append (· == '\r') before
    (restOfLine content offset)
  rw [hline, Option.bind_some, ← hcolumn, hkept]
  by_cases hend : content[offset] = '\n' ∨ IsTrailingReturn content offset
  · rw [if_pos hend, if_pos ((all_restOfLine_iff h).mpr hend)]
  · rw [if_neg hend, if_neg (mt (all_restOfLine_iff h).mp hend)]
    exact head?_restOfLine h (not_or.mp hend).1

end Text

namespace Subject

/-- **PLACES**: an offset and its line agree.  The number of the line is one
    more than that of the newlines before the offset, without a limit, and
    the file has the line.  At the column of the offset, the line holds the
    character of the offset, exactly if that is neither a newline nor one of
    the carriage returns at the end of a line.  A later offset is on no
    earlier line. -/
theorem lineOf_places (s : Subject) :
    (∀ offset (h : offset < s.content.length),
        s.lineOf offset = 1 + (s.content.take offset).count '\n'
          ∧ 1 ≤ s.lineOf offset ∧ s.lineOf offset ≤ s.lines.length
          ∧ ((s.lines[s.lineOf offset - 1]?.bind fun kept =>
                kept[offset - Text.lineStart s.content offset]?)
                = some s.content[offset]
            ↔ s.content[offset] ≠ '\n'
              ∧ ¬ Text.IsTrailingReturn s.content offset))
      ∧ Monotone s.lineOf := by
  refine ⟨fun offset h => ⟨?_, ?_, ?_, ?_⟩, ?_⟩
  · rw [Nat.add_comm]
    exact Text.lineOf_eq_count h
  · exact Text.lineOf_pos s.content offset
  · refine Text.lineOf_le s.content offset (mt Text.lines_eq_nil_iff.mp ?_)
    exact List.ne_nil_of_length_pos (Nat.zero_lt_of_lt h)
  · -- a character is on its line unless it ends it
    have hplace := Text.getElem?_lines_lineOf h
    rw [← not_or]
    show (((Text.lines s.content)[Text.lineOf s.content offset - 1]?.bind _)
      = _) ↔ _
    rw [hplace]
    split
    · rename_i hend
      exact iff_of_false (Option.some_ne_none _).symm (not_not_intro hend)
    · rename_i hkept
      exact iff_of_true rfl hkept
  · exact fun _ _ hle => Text.lineOf_mono s.content hle

/-- A file whose second line begins with a carriage return and ends with
    one. -/
def oddReturns : Subject where
  path := "cart.js"
  content := "x\n\ra\r\n".toList
  language := some .javascript
  blocks := []
  config := {}

theorem lineOf_oddReturns :
    ∃ h : 2 < oddReturns.content.length,
      oddReturns.content[2] ≠ '\n'
        ∧ ¬ Text.IsTrailingReturn oddReturns.content 2
        ∧ (oddReturns.lines[oddReturns.lineOf 2 - 1]?.bind fun kept =>
            kept[2 - Text.lineStart oddReturns.content 2]?)
          = some oddReturns.content[2] := by
  have h : 2 < oddReturns.content.length := by decide
  have hchar : oddReturns.content[2] ≠ '\n' := by decide +revert
  have hkept : ¬ Text.IsTrailingReturn oddReturns.content 2 := by decide
  refine ⟨h, hchar, hkept, ?_⟩
  exact ((lineOf_places oddReturns).1 2 h).2.2.2.mpr ⟨hchar, hkept⟩

end Subject

end CodeReview

import CodeReview.Detector.Script
import CodeReview.Proofs.Columns
import CodeReview.Proofs.FirstMatches
import CodeReview.Proofs.Rule
import Mathlib.Data.List.TakeWhile

/-! # Lines of leftover debugging

    A finding about a call of the console stands on the line of the call.
    A finding about a debugger statement stands on the first of the blank
    lines right above the statement, because the blanks that the pattern
    passes before the word may be newlines (`pointed`); so it stands on the
    line of the statement exactly if that line is the first one or the line
    above is not blank.  The search is followed line by line, with the
    blank lines since the last match or the last other line in a gap
    (`lines_allFrom`); where a statement starts is a matter of the text
    behind a line start alone (`stopsInDebugger_of_results`). -/

namespace CodeReview.Detector

open Pattern

/-! ## Debugger statements -/

/-- The word that stops in the debugger. -/
def debuggerWord : Text := "debugger".toList

/-- Whether a text begins, behind its blanks, with the word. -/
def stopsInDebugger (text : Text) : Bool :=
  let rest := text.dropWhile Text.isBlank
  debuggerWord.isPrefixOf rest
    && !(rest.drop debuggerWord.length).head?.any Text.isWord

/-- Dropping blanks in front of the word stops at the word. -/
theorem dropWhile_blank_word {w rest : Text}
    (hw : ∀ c ∈ w, Text.isBlank c = true) :
    (w ++ (debuggerWord ++ rest)).dropWhile Text.isBlank
      = debuggerWord ++ rest := by
  rw [List.dropWhile_append_of_pos hw]
  rfl

/-- A line stops in the debugger if the word stands behind its blanks, with
    nothing that would go on with it. -/
theorem stopsInDebugger_iff {text : Text} :
    stopsInDebugger text = true
      ↔ ∃ rest, text.dropWhile Text.isBlank = debuggerWord ++ rest
        ∧ rest.head?.any Text.isWord = false := by
  rw [stopsInDebugger, Bool.and_eq_true, List.isPrefixOf_iff_prefix,
    Bool.not_eq_true']
  constructor
  · rintro ⟨⟨rest, hrest⟩, hedge⟩
    rw [← hrest, List.drop_left] at hedge
    exact ⟨rest, hrest.symm, hedge⟩
  · rintro ⟨rest, hrest, hedge⟩
    rw [hrest, List.drop_left]
    exact ⟨⟨rest, rfl⟩, hedge⟩

/-- The pattern matches only at the start of a line, before a text that
    begins with the word. -/
theorem stopsInDebugger_of_results {s : Cursor}
    (h : debuggerStatement.results s ≠ []) :
    s.isAt .lineStart = true ∧ stopsInDebugger s.rest = true := by
  obtain ⟨t, ht⟩ := List.exists_mem_of_ne_nil _ h
  obtain ⟨u, hu, hedge⟩ := mem_results_seq.mp ht
  obtain ⟨v, hv, hword⟩ := mem_results_seq.mp hu
  obtain ⟨x, hx, hblanks⟩ := mem_results_seq.mp hv
  obtain ⟨hline, rfl⟩ := mem_results_edge.mp hx
  obtain ⟨w, hw, hbefore, rfl⟩ := (reads_many Text.isBlank _ v).mp hblanks
  obtain ⟨_, rfl, hbehind, rfl⟩ := (reads_text "debugger" _ u).mp hword
  obtain ⟨hends, rfl⟩ := mem_results_edge.mp hedge
  obtain ⟨rest, hrest⟩ := append_prefix_iff.mpr ⟨hbefore, hbehind⟩
  have hstretch : x.rest = w ++ (debuggerWord ++ rest) :=
    hrest.symm.trans (List.append_assoc _ _ _)
  refine ⟨hline, stopsInDebugger_iff.mpr ⟨rest, ?_, ?_⟩⟩
  · rw [hstretch, dropWhile_blank_word hw]
  · have hlast : Cursor.wordAt debuggerWord.getLast? = true := by decide
    have hnext := (Cursor.isAt_word_pass hlast).mp hends
    rwa [show ((x.pass w).pass debuggerWord).rest = rest from
      rest_pass (rest_pass hstretch)] at hnext

/-- Before such a text, the match takes the blanks and the word. -/
theorem head?_results_debugger {s : Cursor} {w rest : Text}
    (hline : s.isAt .lineStart = true) (hw : ∀ c ∈ w, Text.isBlank c = true)
    (hrest : s.rest = w ++ (debuggerWord ++ rest))
    (hedge : rest.head?.any Text.isWord = false) :
    (debuggerStatement.results s).head? = some (s.pass (w ++ debuggerWord)) := by
  have hblanks : blanks.Takes w (debuggerWord ++ rest) :=
    takes_many_one hw (by decide : Text.isBlank 'd' = false)
  have hbehind : (s.pass w).rest = debuggerWord ++ rest := rest_pass hrest
  have hlast : Cursor.wordAt debuggerWord.getLast? = true := by decide
  have hends : ((s.pass w).pass debuggerWord).isAt .word = true := by
    refine (Cursor.isAt_word_pass hlast).mpr ?_
    rw [rest_pass hbehind]
    exact hedge
  rw [Cursor.pass_append]
  exact head?_results_seq (head?_results_seq (head?_results_seq
    (head?_results_edge hline) (hblanks s hrest))
    (takes_text "debugger" rest _ hbehind)) (head?_results_edge hends)

/-! ## Blanks behind a text -/

/-- A blank line does not stop in the debugger. -/
theorem stopsInDebugger_blank {text : Text}
    (h : ∀ c ∈ text, Text.isBlank c = true) : stopsInDebugger text = false := by
  rw [stopsInDebugger, List.dropWhile_eq_nil_iff.mpr h]
  rfl

/-- Blanks before a text do not decide whether it begins with the word. -/
theorem stopsInDebugger_gap {gap : Text}
    (h : ∀ c ∈ gap, Text.isBlank c = true) (text : Text) :
    stopsInDebugger (gap ++ text) = stopsInDebugger text := by
  rw [stopsInDebugger, stopsInDebugger, List.dropWhile_append_of_pos h]

/-- What starts a text and its tail starts the text, unless the tail goes on
    with one of its characters. -/
theorem prefix_of_prefix_append {w text tail : Text}
    (htail : ∀ c, tail.head? = some c → c ∉ w) (h : w <+: text ++ tail) :
    w <+: text := by
  rcases List.prefix_or_prefix_of_prefix h (List.prefix_append text tail) with
    htext | ⟨more, rfl⟩
  · exact htext
  · cases more with
    | nil => exact ⟨[], by simp⟩
    | cons c more =>
        obtain ⟨back, hback⟩ := h
        rw [List.append_assoc] at hback
        refine absurd (List.mem_append_right text List.mem_cons_self) (htail c ?_)
        rw [← List.append_cancel_left hback]
        rfl

section Tail

variable {text tail : Text}
  (htail : ∀ c, tail.head? = some c → Text.isBlank c = true)

include htail

/-- No word goes on with a blank. -/
theorem any_head?_append (h : text.head?.any Text.isWord = false) :
    (text ++ tail).head?.any Text.isWord = false := by
  cases text with
  | cons c text => exact h
  | nil =>
      cases tail with
      | nil => rfl
      | cons c tail => exact Text.isWord_of_isBlank (htail c rfl)

/-- Blanks behind a text do not decide whether it begins with the word. -/
theorem stopsInDebugger_append (htext : Text.isAllBlank text = false) :
    stopsInDebugger (text ++ tail) = stopsInDebugger text := by
  -- the text has more than blanks, so the blanks in front end within it
  have hinner : text.dropWhile Text.isBlank ≠ [] := by
    intro hnil
    have hall := List.dropWhile_eq_nil_iff.mp hnil
    exact Bool.false_ne_true (htext.symm.trans (List.all_eq_true.mpr hall))
  have hletters : ∀ c, tail.head? = some c → c ∉ debuggerWord := by
    intro c hc hmem
    have hword : ∀ c ∈ debuggerWord, Text.isWord c = true :=
      List.all_eq_true.mp (by decide)
    exact Bool.false_ne_true
      ((Text.isWord_of_isBlank (htail c hc)).symm.trans (hword c hmem))
  rw [Bool.eq_iff_iff, stopsInDebugger_iff, stopsInDebugger_iff,
    List.dropWhile_append, if_neg (mt List.isEmpty_iff.mp hinner)]
  constructor
  · -- the word cannot reach into the tail, which starts with no letter of it
    rintro ⟨rest, hrest, hedge⟩
    obtain ⟨more, hmore⟩ := prefix_of_prefix_append hletters ⟨rest, hrest.symm⟩
    refine ⟨more, hmore.symm, ?_⟩
    rw [← hmore, List.append_assoc] at hrest
    rw [← List.append_cancel_left hrest] at hedge
    cases more with
    | nil => rfl
    | cons c more => exact hedge
  · rintro ⟨rest, hrest, hedge⟩
    refine ⟨rest ++ tail, ?_, any_head?_append htail hedge⟩
    rw [hrest, List.append_assoc]

end Tail

/-! ## Line by line -/

/-- What follows a line: nothing, or a newline and the other lines. -/
def behindLine : List Text → Text
  | [] => []
  | line :: rest => '\n' :: Text.unlines (line :: rest)

/-- A text of lines is its first line and what stands behind it. -/
theorem unlines_cons (line : Text) (rest : List Text) :
    Text.unlines (line :: rest) = line ++ behindLine rest := by
  cases rest with
  | nil => exact (List.append_nil line).symm
  | cons next rest =>
      exact (Text.join_cons _ line (List.cons_ne_nil next rest)).trans
        (List.append_assoc _ _ _)

/-- What stands behind a line starts with its newline, if it is not
    empty. -/
theorem isBlank_head?_behindLine (rest : List Text) :
    ∀ c, (behindLine rest).head? = some c → Text.isBlank c = true := by
  intro c hc
  cases rest with
  | nil => exact nomatch hc
  | cons line rest =>
      rw [← Option.some.inj hc]
      decide

/-- The numbers that the statements among some lines are reported with: that
    of the first of the blank lines right above, or of the statement.
    `first` is the number of the first blank line above, `number` that of
    the line itself. -/
def pointedFrom : (first number : Nat) → List Text → List Nat
  | _, _, [] => []
  | first, number, line :: rest =>
      if Text.isAllBlank line then pointedFrom first (number + 1) rest
      else
        (if stopsInDebugger line then [first] else [])
          ++ pointedFrom (number + 1) (number + 1) rest

/-- Where no line starts, and before any other text, nothing matches. -/
theorem results_debugger_eq_nil {s : Cursor}
    (h : s.isAt .lineStart = true → stopsInDebugger s.rest = false) :
    debuggerStatement.results s = [] := by
  refine by_contra fun hne => ?_
  obtain ⟨hline, hstops⟩ := stopsInDebugger_of_results hne
  exact Bool.false_ne_true ((h hline).symm.trans hstops)

/-- A place behind the first character of a line starts no line. -/
theorem isAt_lineStart_pass {w : Text} (hne : w ≠ []) (hw : '\n' ∉ w)
    (s : Cursor) (v : Text) : (s.pass (v ++ w)).isAt .lineStart = false := by
  obtain ⟨init, last, rfl⟩ := (List.eq_nil_or_concat' w).resolve_left hne
  have hlast : last ≠ '\n' := by
    rintro rfl
    exact hw (List.mem_append_right init List.mem_cons_self)
  rw [Cursor.pass_append, Cursor.isAt, Cursor.pass]
  simp [hlast]

section Search

variable {s : Cursor} {gap line : Text} {rest : List Text}

/-- Before nothing but blanks there is no statement. -/
theorem allFrom_debugger_blank (hs : s.captures = [])
    (h : ∀ c ∈ s.rest, Text.isBlank c = true) :
    debuggerStatement.allFrom s = [] := by
  have hrest : s.rest = s.rest ++ [] := (List.append_nil s.rest).symm
  have hend : (s.pass s.rest).rest = [] := rest_pass hrest
  have hnone := results_debugger_eq_nil (s := ⟨(s.pass s.rest).before, [],
    (s.pass s.rest).offset, []⟩) fun _ => rfl
  rw [allFrom_quiet hs hrest, allFrom, hend, findAllFrom, matchAt_eq, hnone]
  · rfl
  · intro v c _
    refine results_debugger_eq_nil fun _ => stopsInDebugger_blank fun d hd => ?_
    exact h d (List.mem_of_mem_drop hd)

/-- Behind the word of a statement there is no match in its line. -/
theorem allFrom_behindWord {w tail more : Text} (hs : s.captures = [])
    (hrest : s.rest = w ++ debuggerWord ++ (tail ++ more)) (htail : '\n' ∉ tail) :
    debuggerStatement.allFrom (s.pass (w ++ debuggerWord))
      = debuggerStatement.allFrom (s.pass (w ++ debuggerWord ++ tail)) := by
  rw [Cursor.pass_append s (w ++ debuggerWord) tail]
  refine allFrom_quiet hs (rest_pass hrest) ?_
  rintro v c ⟨inner, hinner⟩
  refine results_debugger_eq_nil fun hstart => ?_
  have hword : '\n' ∉ debuggerWord ++ v := by
    rw [List.mem_append, not_or]
    refine ⟨by decide, fun h => htail ?_⟩
    rw [← hinner, List.append_assoc]
    exact List.mem_append_left _ h
  rw [← Cursor.pass_append, List.append_assoc] at hstart
  have hwithin := isAt_lineStart_pass (List.append_ne_nil_of_left_ne_nil
    (List.cons_ne_nil 'd' _) v) hword s w
  exact nomatch hwithin.symm.trans hstart

section Line

variable (hs : s.captures = [])
  (hrest : s.rest = gap ++ line ++ behindLine rest)
  (hgap : ∀ c ∈ gap, Text.isBlank c = true) (hline : '\n' ∉ line)

include hs hrest hgap hline

/-- A line that is no statement is passed over, with the gap before it. -/
theorem allFrom_otherLine (hblank : Text.isAllBlank line = false)
    (hstops : stopsInDebugger line = false) :
    debuggerStatement.allFrom s
      = debuggerStatement.allFrom (s.pass (gap ++ line)) := by
  have hnot : ∀ gap' : Text, (∀ c ∈ gap', Text.isBlank c = true) →
      stopsInDebugger (gap' ++ (line ++ behindLine rest)) = false := by
    intro gap' hgap'
    rw [stopsInDebugger_gap hgap',
      stopsInDebugger_append (isBlank_head?_behindLine rest) hblank, hstops]
  refine allFrom_quiet hs hrest ?_
  rintro v c ⟨more, hmore⟩
  refine results_debugger_eq_nil fun hstart => ?_
  rw [List.append_assoc] at hmore hrest
  -- the place lies in the gap, or at the start of the line, or within it
  rcases List.append_eq_append_iff.mp hmore with
    ⟨gap', rfl, _⟩ | ⟨front, rfl, hfront⟩
  · rw [List.append_assoc] at hrest
    rw [rest_pass hrest]
    exact hnot gap' fun c hc => hgap c (List.mem_append_right v hc)
  · cases front with
    | nil =>
        rw [List.append_nil, rest_pass hrest]
        exact hnot [] fun c hc => nomatch hc
    | cons d front =>
        have hinner := isAt_lineStart_pass (List.cons_ne_nil d front)
          (fun h => hline (hfront ▸ List.mem_append_left _ h)) s gap
        exact nomatch hinner.symm.trans hstart

/-- A statement is matched from the start of the gap before it. -/
theorem allFrom_statement (hstart : s.isAt .lineStart = true)
    (hstops : stopsInDebugger line = true) :
    ∃ m : Match, m.start = s.offset ∧ debuggerStatement.allFrom s
      = m :: debuggerStatement.allFrom (s.pass (gap ++ line)) := by
  obtain ⟨tail, htail, hedge⟩ := stopsInDebugger_iff.mp hstops
  -- the match takes the blanks above the statement with those before the
  -- word
  let w := gap ++ line.takeWhile Text.isBlank
  have hw : ∀ c ∈ w, Text.isBlank c = true :=
    List.forall_mem_append.mpr ⟨hgap, fun c hc => List.mem_takeWhile_imp hc⟩
  have hcut : gap ++ line = w ++ debuggerWord ++ tail := by
    rw [List.append_assoc, ← htail, List.append_assoc,
      List.takeWhile_append_dropWhile]
  have hword : s.rest = w ++ debuggerWord ++ (tail ++ behindLine rest) := by
    rw [hrest, hcut, List.append_assoc]
  have htail' : '\n' ∉ tail := fun h => hline
    ((List.dropWhile_suffix Text.isBlank).subset
      (htail ▸ List.mem_append_right debuggerWord h))
  have hne : w ++ debuggerWord ≠ [] :=
    List.append_ne_nil_of_right_ne_nil w (List.cons_ne_nil 'd' _)
  have hfirst := head?_results_debugger hstart hw
    (hword.trans (List.append_assoc _ _ _))
    (any_head?_append (isBlank_head?_behindLine rest) hedge)
  refine ⟨Match.between s (s.pass (w ++ debuggerWord)), rfl, ?_⟩
  rw [allFrom_match hs hword hne hfirst rfl,
    allFrom_behindWord hs hword htail', ← hcut]

end Line

/-- Behind a line the search goes on with the next one. -/
theorem allFrom_behindLine {next : Text} (hs : s.captures = [])
    (hrest : s.rest = gap ++ line ++ behindLine (next :: rest))
    (hne : line ≠ []) (hline : '\n' ∉ line) :
    debuggerStatement.allFrom (s.pass (gap ++ line))
      = debuggerStatement.allFrom (s.pass (gap ++ line ++ ['\n'])) := by
  rw [Cursor.pass_append s (gap ++ line) ['\n']]
  have hnext : (s.pass (gap ++ line)).rest
      = ['\n'] ++ Text.unlines (next :: rest) := rest_pass hrest
  refine allFrom_quiet hs hnext ?_
  intro v c hv
  have hv' : v = [] := by
    have hlength := hv.length_le
    rw [List.length_append] at hlength
    exact List.eq_nil_of_length_eq_zero
      (Nat.le_zero.mp (Nat.le_of_succ_le_succ hlength))
  refine results_debugger_eq_nil fun hstart => ?_
  rw [hv', Cursor.pass_nil, isAt_lineStart_pass hne hline s gap] at hstart
  exact nomatch hstart

/-- **THE SEARCH**: with a gap of blanks behind a line start, the lines of
    the matches are those pointed at. -/
theorem lines_allFrom {content : Text} {pieces : List Text} :
    (∀ piece ∈ pieces, '\n' ∉ piece) → ∀ {front gap : Text},
      content = front ++ (gap ++ Text.unlines pieces) →
      (front = [] ∨ front.getLast? = some '\n') →
      (∀ c ∈ gap, Text.isBlank c = true) →
      (debuggerStatement.allFrom ((Cursor.atStart content).pass front)).map
          (fun m => Text.lineOf content m.start)
        = pointedFrom (front.count '\n' + 1) ((front ++ gap).count '\n' + 1)
            pieces := by
  induction pieces with
  | nil =>
      intro _ front gap hcontent _ hgap
      have hrest : ((Cursor.atStart content).pass front).rest = gap ++ [] :=
        rest_pass hcontent
      rw [allFrom_debugger_blank rfl]
      · rfl
      · rwa [hrest, List.append_nil]
  | cons piece pieces ih =>
      intro hpieces front gap hcontent hfront hgap
      obtain ⟨hpiece, hpieces⟩ := List.forall_mem_cons.mp hpieces
      let s := (Cursor.atStart content).pass front
      have hrest : s.rest = gap ++ piece ++ behindLine pieces := by
        rw [List.append_assoc, ← unlines_cons]
        exact rest_pass hcontent
      have hcount : (front ++ (gap ++ piece ++ ['\n'])).count '\n'
          = (front ++ gap).count '\n' + 1 := by
        simp only [List.count_append, List.count_eq_zero.mpr hpiece]
        rfl
      rw [pointedFrom]
      split
      · rename_i hblank
        have hwider : ∀ c ∈ gap ++ piece, Text.isBlank c = true :=
          List.forall_mem_append.mpr ⟨hgap, List.all_eq_true.mp hblank⟩
        cases pieces with
        | nil =>
            rw [allFrom_debugger_blank rfl]
            · rfl
            · rwa [hrest, behindLine, List.append_nil]
        | cons next rest =>
            -- the blank line joins the gap
            have hnext : content = front
                ++ (gap ++ piece ++ ['\n'] ++ Text.unlines (next :: rest)) := by
              rw [hcontent, unlines_cons piece]
              simp [behindLine]
            have hlines := ih hpieces hnext hfront
              (List.forall_mem_append.mpr
                ⟨hwider, List.forall_mem_singleton.mpr (by decide)⟩)
            rwa [hcount] at hlines
      · rename_i hinner
        have hblank : Text.isAllBlank piece = false := Bool.eq_false_iff.mpr hinner
        have hne : piece ≠ [] := by
          rintro rfl
          exact hinner rfl
        have hbehind : (debuggerStatement.allFrom (s.pass (gap ++ piece))).map
              (fun m => Text.lineOf content m.start)
            = pointedFrom ((front ++ gap).count '\n' + 1 + 1)
                ((front ++ gap).count '\n' + 1 + 1) pieces := by
          cases pieces with
          | nil =>
              have hend : (s.pass (gap ++ piece)).rest = [] := rest_pass hrest
              rw [allFrom_debugger_blank rfl (by simp [hend])]
              rfl
          | cons next rest =>
              have hnext : content = front ++ (gap ++ piece ++ ['\n'])
                  ++ ([] ++ Text.unlines (next :: rest)) := by
                rw [hcontent, unlines_cons piece]
                simp [behindLine]
              have hlines := ih hpieces hnext (.inr (by simp))
                fun c hc => nomatch hc
              rw [List.append_nil, hcount, Cursor.pass_append] at hlines
              rw [allFrom_behindLine rfl hrest hne hpiece]
              exact hlines
        cases hstops : stopsInDebugger piece with
        | false =>
            rw [allFrom_otherLine rfl hrest hgap hpiece hblank hstops, hbehind]
            rfl
        | true =>
            have hstart : s.isAt .lineStart = true := by
              rcases hfront with rfl | hlast
              · rfl
              · obtain ⟨above, rfl⟩ := List.getLast?_eq_some_iff.mp hlast
                simp [s, Cursor.isAt, Cursor.pass]
            obtain ⟨m, hm, hall⟩ :=
              allFrom_statement rfl hrest hgap hpiece hstart hstops
            have hbehindGap : gap ++ Text.unlines (piece :: pieces) ≠ [] := by
              rw [unlines_cons]
              simp [hne]
            have hnumber := Text.lineOf_pass hcontent hbehindGap
            rw [hall, List.map_cons, hm, hbehind]
            exact congrArg (· :: _) hnumber

end Search

/-! ## Lines pointed at -/

/-- How many blank lines stand right above a line. -/
def blanksAbove (ls : List Text) (index : Nat) : Nat :=
  ((ls.take index).reverse.takeWhile Text.isAllBlank).length

/-- The numbers that the debugger statements among the lines of a file are
    reported with. -/
def pointed (ls : List Text) : List Nat :=
  (ls.zipIdx.filter (stopsInDebugger ·.1)).map fun (_, i) =>
    i + 1 - blanksAbove ls i

/-- The blank lines above a line are the last blank ones of those before
    it. -/
theorem blanksAbove_append (above rest : List Text) :
    blanksAbove (above ++ rest) above.length
      = (above.reverse.takeWhile Text.isAllBlank).length := by
  rw [blanksAbove, List.take_left]

/-- A line pointed at is found by counting the blank lines above. -/
theorem pointedFrom_append (rest : List Text) :
    ∀ above : List Text,
      pointedFrom
          (above.length + 1 - (above.reverse.takeWhile Text.isAllBlank).length)
          (above.length + 1) rest
        = ((rest.zipIdx above.length).filter (stopsInDebugger ·.1)).map
            fun (_, i) => i + 1 - blanksAbove (above ++ rest) i := by
  -- induction over the lines to come; those above are general, and only the
  -- blank ones at their end count
  induction rest with
  | nil => intro above; rfl
  | cons line rest ih =>
      intro above
      have hrest := ih (above ++ [line])
      rw [List.append_assoc, List.singleton_append, List.length_append,
        List.length_singleton, List.reverse_concat] at hrest
      rw [List.zipIdx_cons, List.filter_cons, pointedFrom]
      cases hblank : Text.isAllBlank line with
      | true =>
          -- a blank line makes the run of blank lines longer
          have hnot : stopsInDebugger line = false :=
            stopsInDebugger_blank (List.all_eq_true.mp hblank)
          rw [List.takeWhile_cons_of_pos hblank, List.length_cons,
            Nat.add_sub_add_right] at hrest
          simp only [hnot, if_true, Bool.false_eq_true, if_false]
          exact hrest
      | false =>
          -- any other line is pointed at or not, and the run starts again
          -- behind it
          rw [List.takeWhile_cons_of_neg (Bool.eq_false_iff.mp hblank)] at hrest
          rw [if_neg Bool.false_ne_true, ← blanksAbove_append above (line :: rest)]
          cases stopsInDebugger line with
          | true =>
              simp only [if_true, List.map_cons, ← hrest]
              rfl
          | false =>
              simp only [Bool.false_eq_true, if_false, ← hrest]
              rfl

/-- Followed from the first line on, the lines pointed at are those of the
    whole file. -/
theorem pointedFrom_eq_pointed (ls : List Text) :
    pointedFrom 1 1 ls = pointed ls :=
  pointedFrom_append ls []

/-- Carriage returns at its end do not change what a line is. -/
theorem sameLine_dropRight (piece : Text) :
    let line := Text.dropRight (· == '\r') piece
    Text.isAllBlank piece = Text.isAllBlank line
      ∧ stopsInDebugger piece = stopsInDebugger line := by
  intro line
  obtain ⟨tail, hpiece, hreturns⟩ :=
    Text.exists_dropRight_append (· == '\r') piece
  have htail : ∀ c ∈ tail, Text.isBlank c = true := by
    intro c hc
    rw [beq_iff_eq.mp (hreturns c hc)]
    decide
  have hblank : Text.isAllBlank piece = Text.isAllBlank line := by
    rw [hpiece, Text.isAllBlank, List.all_append, List.all_eq_true.mpr htail,
      Bool.and_true]
    rfl
  refine ⟨hblank, ?_⟩
  cases hline : Text.isAllBlank line with
  | true =>
      rw [stopsInDebugger_blank (List.all_eq_true.mp (hblank.trans hline)),
        stopsInDebugger_blank (List.all_eq_true.mp hline)]
  | false =>
      have happend : stopsInDebugger (line ++ tail) = stopsInDebugger line :=
        stopsInDebugger_append
          (fun c hc => htail c (List.mem_of_mem_head? hc)) hline
      rwa [← hpiece] at happend

/-- Carriage returns at the ends of lines do not change which lines are
    pointed at, since they are blank. -/
theorem pointedFrom_map_dropRight (pieces : List Text) :
    ∀ first number, pointedFrom first number
        (pieces.map (Text.dropRight (· == '\r')))
      = pointedFrom first number pieces := by
  induction pieces with
  | nil => intro first number; rfl
  | cons piece pieces ih =>
      intro first number
      obtain ⟨hblank, hstops⟩ := sameLine_dropRight piece
      rw [List.map_cons, pointedFrom, pointedFrom, ih, ih, hblank, hstops]

/-- An empty piece behind the lines is no statement. -/
theorem pointedFrom_concat_nil (pieces : List Text) :
    ∀ first number, pointedFrom first number (pieces ++ [[]])
      = pointedFrom first number pieces := by
  induction pieces with
  | nil => intro first number; rfl
  | cons piece pieces ih =>
      intro first number
      rw [List.cons_append, pointedFrom, pointedFrom, ih, ih]

/-- The matches in a content start on the lines pointed at: each at the
    first of the blank lines above its statement. -/
theorem lines_findAll_debugger (content : Text) :
    (debuggerStatement.findAll content).map
        (fun m => Text.lineOf content m.start)
      = pointed (Text.lines content) := by
  have hcontent : content
      = [] ++ ([] ++ Text.unlines (Text.splitOn '\n' content)) :=
    (Text.join_splitOn '\n' content).symm
  rw [findAll_eq_allFrom]
  refine (lines_allFrom Text.not_mem_of_mem_splitOn hcontent (.inl rfl)
    fun c hc => nomatch hc).trans ?_
  rw [← pointedFrom_eq_pointed, Text.lines, pointedFrom_map_dropRight,
    Text.dropFinalEmpty]
  split
  · rename_i hlast
    obtain ⟨pieces, hpieces⟩ := List.getLast?_eq_some_iff.mp hlast
    rw [hpieces, List.dropLast_concat]
    exact pointedFrom_concat_nil pieces 1 1
  · rfl

/-! ## Calls of the console -/

/-- A call of the console, as it is written. -/
def consoleText (method : String) : Text :=
  "console.".toList ++ method.toList ++ ['(']

/-- Where the pattern matches, a call stands, and its method is
    remembered. -/
theorem exists_call_of_results {s t : Cursor}
    (h : t ∈ consoleCall.results s) :
    ∃ method, consoleText method <+: s.rest
      ∧ (Match.between s t).name 1 = method
      ∧ '\n' ∉ consoleText method := by
  obtain ⟨u, hu, hparen⟩ := mem_results_seq.mp h
  obtain ⟨v, hv, hmethod⟩ := mem_results_seq.mp hu
  obtain ⟨x, hx, hconsole⟩ := mem_results_seq.mp hv
  obtain ⟨_, rfl⟩ := mem_results_edge.mp hx
  obtain ⟨_, rfl, hfirst, rfl⟩ := (reads_text "console." _ v).mp hconsole
  obtain ⟨_, ⟨method, hmem, rfl⟩, hsecond, rfl⟩ :=
    (reads_texts _).mem_results_group.mp hmethod
  obtain ⟨_, rfl, hthird, rfl⟩ := (reads_char '(' _ t).mp hparen
  have hnewline : ∀ method ∈ ["log", "debug", "info", "warn", "error", "trace"],
      '\n' ∉ consoleText method := by decide
  refine ⟨method, ?_, String.ofList_toList, hnewline method hmem⟩
  refine append_prefix_iff.mpr ⟨append_prefix_iff.mpr ⟨hfirst, hsecond⟩, ?_⟩
  rw [List.length_append, ← List.drop_drop]
  exact hthird

/-- A match stands on the line with its number, with its method. -/
theorem exists_line_of_call {s : Subject} {line : Nat} {m : Match}
    (h : (line, m) ∈ s.allMatches consoleCall) :
    ∃ text, s.lines[line - 1]? = some text ∧ 0 < line
      ∧ consoleText (m.name 1) <:+: text := by
  obtain ⟨hm, rfl⟩ := Subject.mem_allMatches h
  obtain ⟨front, ⟨back, hback⟩, t, ht, rfl⟩ := exists_place_of_mem_findAll hm
  obtain ⟨method, hcall, hname, hnewline⟩ := exists_call_of_results ht
  rw [rest_pass hback.symm] at hcall
  obtain ⟨more, rfl⟩ := hcall
  obtain ⟨text, htext, hstretch⟩ := Text.exists_line_of_stretch hnewline
    (by decide) front more
  have hne : consoleText method ++ more ≠ [] :=
    List.append_ne_nil_of_left_ne_nil
      (List.append_ne_nil_of_right_ne_nil _ (List.cons_ne_nil '(' [])) more
  have hline : s.lineOf ((Cursor.atStart s.content).pass front).offset
      = front.count '\n' + 1 := Text.lineOf_pass hback.symm hne
  refine ⟨text, ?_, ?_, by rwa [hname]⟩
  · show (Text.lines s.content)[s.lineOf (Cursor.offset _) - 1]? = _
    rw [hline, ← hback]
    exact htext
  · exact hline ▸ Nat.succ_pos _

/-! ## Findings -/

/-- The finding about a call of the console. -/
def consoleFinding (s : Subject) (method : String) (line : Nat) : Finding :=
  s.findingAt .bestPractice .warning
    s!"Found console.{method}() statement"
    "Remove debug statements before committing or use a logger library"
    (some line)

/-- The finding about a debugger statement. -/
def debuggerFinding (s : Subject) (line : Nat) : Finding :=
  s.findingAt .bestPractice .warning
    "Found debugger statement"
    "Remove debugger statements before committing"
    (some line)

/-- In a file that is no test, calls of the console are reported at their
    own lines, and stops in the debugger at the lines pointed at. -/
theorem findings_debugStatements {s : Subject} (htest : s.isTest = false) :
    debugStatements.findings s = .ok
      (((s.allMatches consoleCall).map fun (line, m) =>
          consoleFinding s (m.name 1) line)
        ++ (pointed s.lines).map (debuggerFinding s)) := by
  have hdebuggers : (s.allMatches debuggerStatement).map
        (fun (line, _) => debuggerFinding s line)
      = (pointed s.lines).map (debuggerFinding s) := by
    rw [Subject.lines, ← lines_findAll_debugger, Subject.allMatches,
      List.map_map, List.map_map]
    rfl
  rw [← hdebuggers]
  show Except.ok (if s.isTest then [] else _) = _
  rw [htest]
  rfl

/-- There is one finding for each statement. -/
theorem length_pointed (ls : List Text) :
    (pointed ls).length = ls.countP stopsInDebugger := by
  rw [pointed, List.length_map, ← List.countP_eq_length_filter]
  conv_rhs => rw [← List.zipIdx_map_fst 0 ls, List.countP_map]
  rfl

/-- The lines that pass a test, by their numbers from one. -/
theorem lineNumbers_eq (s : Subject) (test : Text → Bool) :
    s.lineNumbers test
      = (s.lines.zipIdx.filter (test ·.1)).map fun (_, i) => i + 1 := by
  rw [Subject.lineNumbers, ← List.filterMap_eq_filter, List.map_filterMap]
  refine List.filterMap_congr ?_
  rintro ⟨line, i⟩ _
  cases htest : test line <;> simp [Option.guard, htest]

/-- No blank line stands right above a line exactly if the line above is
    not blank. -/
theorem blanksAbove_succ_eq_zero_iff {ls : List Text} {i : Nat} {above : Text}
    (h : ls[i]? = some above) :
    blanksAbove ls (i + 1) = 0 ↔ Text.isAllBlank above = false := by
  rw [blanksAbove, List.take_add_one, h, Option.toList_some,
    List.reverse_concat]
  cases hblank : Text.isAllBlank above with
  | true => simp [hblank]
  | false => simp [hblank]

/-- The statements are pointed at exactly if no blank line stands right
    above any of them. -/
theorem pointed_eq_lineNumbers_iff (s : Subject) :
    pointed s.lines = s.lineNumbers stopsInDebugger
      ↔ ∀ i above line, s.lines[i]? = some above →
          s.lines[i + 1]? = some line → stopsInDebugger line = true →
          Text.isAllBlank above = false := by
  have hmem : ∀ line i, (line, i) ∈ s.lines.zipIdx.filter (stopsInDebugger ·.1)
      ↔ s.lines[i]? = some line ∧ stopsInDebugger line = true := by
    intro line i
    rw [List.mem_filter, List.mem_zipIdx_iff_getElem?]
  -- both are made of the same statements, so they agree if each number does
  rw [lineNumbers_eq, pointed, List.map_inj_left]
  constructor
  · intro h i above line habove hline hstops
    have hnumber := h (line, i + 1) ((hmem line (i + 1)).mpr ⟨hline, hstops⟩)
    refine (blanksAbove_succ_eq_zero_iff habove).mp ?_
    dsimp only at hnumber
    omega
  · rintro h ⟨line, i⟩ hstatement
    obtain ⟨hline, hstops⟩ := (hmem line i).mp hstatement
    cases i with
    | zero => rfl
    | succ i =>
        have hlength := (List.getElem?_eq_some_iff.mp hline).1
        have habove : s.lines[i]? = some s.lines[i] :=
          List.getElem?_eq_getElem (Nat.lt_of_succ_lt hlength)
        have hnone := (blanksAbove_succ_eq_zero_iff habove).mpr
          (h i _ line habove hline hstops)
        show i + 1 + 1 - blanksAbove s.lines (i + 1) = _
        rw [hnone]
        rfl

/-- **DEBUG FINDINGS**: outside of tests, every finding about a call of the
    console is on a line with that call, and there is one finding for each
    line that begins with a debugger statement.  These findings are on the
    lines of the statements exactly if no statement has a blank line right
    above it; any other is on the first of the blank lines above. -/
theorem debugStatements_points {s : Subject} (htest : s.isTest = false) :
    (∃ calls : List (String × Nat),
        debugStatements.findings s = .ok
          (calls.map (fun (method, line) => consoleFinding s method line)
            ++ (pointed s.lines).map (debuggerFinding s))
        ∧ ∀ method line, (method, line) ∈ calls →
          ∃ text, s.lines[line - 1]? = some text ∧ 0 < line
            ∧ consoleText method <:+: text)
      ∧ (pointed s.lines).length = s.lines.countP stopsInDebugger
      ∧ (pointed s.lines = s.lineNumbers stopsInDebugger
          ↔ ∀ i above line, s.lines[i]? = some above →
              s.lines[i + 1]? = some line → stopsInDebugger line = true →
              Text.isAllBlank above = false) := by
  refine ⟨⟨(s.allMatches consoleCall).map fun (line, m) => (m.name 1, line),
    ?_, ?_⟩, length_pointed s.lines, pointed_eq_lineNumbers_iff s⟩
  · rw [findings_debugStatements htest, List.map_map]
    rfl
  · intro method line hcall
    obtain ⟨⟨_, m⟩, hmem, heq⟩ := List.mem_map.mp hcall
    obtain ⟨rfl, rfl⟩ := Prod.mk.inj heq
    exact exists_line_of_call hmem

/-- A script with a call and two statements. -/
def debuggedScript : Subject where
  path := "cart.js"
  content := "  x && console.log(x);\r\n\tdebugger;\n\nrun();\ndebugger\r\n".toList
  language := some .javascript
  blocks := []
  config := {}

/-- With no blank lines above them, two statements are reported where they
    stand. -/
theorem debugStatements_debuggedScript :
    debuggedScript.lineNumbers stopsInDebugger = [2, 5]
      ∧ ∃ calls : List (String × Nat),
        debugStatements.findings debuggedScript = .ok
          (calls.map (fun (method, line) =>
              consoleFinding debuggedScript method line)
            ++ [2, 5].map (debuggerFinding debuggedScript)) := by
  have htest : debuggedScript.isTest = false := by decide +kernel
  obtain ⟨⟨calls, hfindings, _⟩, _, hiff⟩ := debugStatements_points htest
  have hnumbers : debuggedScript.lineNumbers stopsInDebugger = [2, 5] := by
    decide +kernel
  have habove : ∀ i, ∀ above line, debuggedScript.lines[i]? = some above →
      debuggedScript.lines[i + 1]? = some line → stopsInDebugger line = true →
      Text.isAllBlank above = false := by
    intro i above line hfirst hsecond
    have hlines : ∀ i < debuggedScript.lines.length,
        ∀ above ∈ debuggedScript.lines[i]?,
        ∀ line ∈ debuggedScript.lines[i + 1]?, stopsInDebugger line = true →
          Text.isAllBlank above = false := by decide +kernel
    exact hlines i (List.getElem?_eq_some_iff.mp hfirst).1 above hfirst line
      hsecond
  rw [hiff.mpr habove, hnumbers] at hfindings
  exact ⟨hnumbers, calls, hfindings⟩

/-- With a blank line above, the finding is on that line. -/
theorem debugStatements_blankAbove :
    let s : Subject := ⟨"cart.js", "total();\n\n  debugger;\n".toList,
      some .javascript, [], {}⟩
    s.isTest = false ∧ s.lineNumbers stopsInDebugger = [3]
      ∧ (debugStatements.findings s).toOption = some [debuggerFinding s 2] := by
  decide +kernel

end CodeReview.Detector

import CodeReview.Proofs.NestedBlocks

/-! # Where a block ends

    A sweep keeps a depth, a flag and the last line with text, and leaves
    by one of four exits.  What it finds can be said without any of them:
    only the first opener, the first end of a statement and the next unit
    matter (`declaredSpan`).  The state of a sweep after a number of lines
    is a function of these lines: as long as they are quiet nothing is open
    (`sweep_of_quiet`), and from an opener on the sweep looks for the first
    line by which all blocks are closed (`sweepFrom_opened`). -/

namespace CodeReview.Block

/-! ## The end of a block, declared -/

/-- The total of a count over some lines. -/
def totalOf (count : LineProfile → Nat) (lines : List LineProfile) : Nat :=
  lines.foldr (fun line total => count line + total) 0

/-- How many more blocks some lines open than close. -/
def depthAfter (lines : List LineProfile) : Int :=
  totalOf LineProfile.opens lines - totalOf LineProfile.closes lines

/-- Whether some lines close at least as many blocks as they open. -/
def Settled (lines : List LineProfile) : Prop :=
  totalOf LineProfile.opens lines ≤ totalOf LineProfile.closes lines

instance (lines : List LineProfile) : Decidable (Settled lines) :=
  inferInstanceAs (Decidable (_ ≤ _))

/-- The index of the first line that opens a block. -/
def firstOpener? (lines : List LineProfile) : Option Nat :=
  lines.findIdx? fun line => 0 < line.opens

/-- The index of the first line that ends a statement. -/
def firstStatement? (lines : List LineProfile) : Option Nat :=
  lines.findIdx? LineProfile.endsStatement

/-- The index of the first line behind the first one that starts a unit. -/
def nextUnit? (lines : List LineProfile) : Option Nat :=
  (lines.tail.findIdx? fun line => line.unit.isSome).map (· + 1)

/-- The index of the first line, from an opener on, by which all blocks are
    closed. -/
def closing? (lines : List LineProfile) (opener : Nat) : Option Nat :=
  (List.range' opener (lines.length - opener)).find? fun i =>
    Settled (lines.take (i + 1))

/-- The index of the last line with text, that of the first line if there
    is none. -/
def lastText (lines : List LineProfile) : Nat :=
  ((List.range lines.length).filter fun i =>
    lines[i]?.any fun line => !line.isBlank).getLast?.getD 0

/-- The distance from the first line of a block to its last one.  A body
    counts if it is opened before the next unit and not behind the end of
    the first statement; otherwise the block is a statement, and ends where
    that ends or where the next unit cuts it off. -/
def declaredSpan (lines : List LineProfile) : Nat :=
  match (firstOpener? lines).filter fun opener =>
      (∀ u ∈ nextUnit? lines, opener < u)
        ∧ ∀ s ∈ firstStatement? lines, opener ≤ s with
  | some opener => (closing? lines opener).getD (lines.length - 1)
  | none =>
      match (firstStatement? lines).filter fun s =>
          ∀ u ∈ nextUnit? lines, s < u with
      | some s => s
      | none =>
          match nextUnit? lines with
          | some u => lastText (lines.take u)
          | none => lines.length - 1

/-! ## The state of a sweep -/

/-- Lines are settled if they close at least what they open. -/
theorem settled_iff_depthAfter_le (lines : List LineProfile) :
    Settled lines ↔ depthAfter lines ≤ 0 := by
  unfold Settled depthAfter
  omega

/-- One more line adds its own count. -/
theorem totalOf_concat (count : LineProfile → Nat) (lines : List LineProfile)
    (line : LineProfile) :
    totalOf count (lines ++ [line]) = totalOf count lines + count line := by
  induction lines with
  | nil => exact Nat.add_comm _ _
  | cons first rest ih =>
      show count first + totalOf count (rest ++ [line])
        = count first + totalOf count rest + count line
      rw [ih, Nat.add_assoc]

/-- One more line adds what it opens and takes what it closes. -/
theorem depthAfter_concat (lines : List LineProfile) (line : LineProfile) :
    depthAfter (lines ++ [line]) = depthAfter lines + line.opens - line.closes := by
  rw [depthAfter, depthAfter, totalOf_concat, totalOf_concat]
  omega

/-- The last line with text is the new one, unless that is blank. -/
theorem lastText_concat (lines : List LineProfile) (line : LineProfile) :
    lastText (lines ++ [line])
      = if line.isBlank then lastText lines else lines.length := by
  have hbefore : ∀ i ∈ List.range lines.length,
      ((lines ++ [line])[i]?.any fun line => !line.isBlank)
        = (lines[i]?.any fun line => !line.isBlank) := by
    intro i hi
    rw [List.getElem?_append_left (List.mem_range.mp hi)]
  rw [lastText, List.length_append, List.length_singleton, List.range_succ,
    List.filter_append, List.filter_congr hbefore]
  cases hblank : line.isBlank with
  | true => simp [hblank, lastText]
  | false => simp [hblank]

/-- Whether nothing happens on the lines before an index: no block is
    opened, no statement ends, and no unit starts behind the first line. -/
def QuietUpTo (lines : List LineProfile) (n : Nat) : Prop :=
  ∀ i line, i < n → lines[i]? = some line →
    line.opens = 0 ∧ line.endsStatement = false ∧ (0 < i → line.unit = none)

/-- **QUIET LINES**: a sweep passes lines on which nothing happens; its
    state is the depth of these lines and the last one with text. -/
theorem sweep_of_quiet {lines : List LineProfile} {n : Nat}
    (hn : n ≤ lines.length) (hquiet : QuietUpTo lines n) :
    sweep lines
      = sweepFrom (depthAfter (lines.take n)) false n (lastText (lines.take n))
          (lines.drop n) := by
  -- by induction on the number of lines that were passed
  induction n with
  | zero => rfl
  | succ n ih =>
      have hline : lines[n]? = some lines[n] := List.getElem?_eq_getElem hn
      obtain ⟨hopens, hends, hunit⟩ :=
        hquiet n lines[n] (Nat.lt_succ_self n) hline
      have hbefore := ih (Nat.le_of_succ_le hn) fun i line hi =>
        hquiet i line (Nat.lt_succ_of_lt hi)
      have hcut : (0 < n && lines[n].unit.isSome) = false := by
        cases n with
        | zero => rfl
        | succ n => rw [hunit (Nat.succ_pos n)]; rfl
      have htake : lines.take (n + 1) = lines.take n ++ [lines[n]] :=
        List.take_succ_eq_append_getElem hn
      have hlength : (lines.take n).length = n :=
        List.length_take_of_le (Nat.le_of_succ_le hn)
      rw [hbefore, List.drop_eq_getElem_cons hn, sweepFrom, htake,
        depthAfter_concat, lastText_concat, hlength]
      simp [hopens, hends, hcut]

/-- **OPEN BLOCKS**: a sweep inside a block looks for the first line by
    which all blocks are closed; without one it goes to the last line. -/
theorem sweepFrom_opened (lines : List LineProfile) :
    ∀ {left n : Nat} (last : Nat), n + left = lines.length →
      sweepFrom (depthAfter (lines.take n)) true n last (lines.drop n)
        = ((List.range' n left).find? fun i =>
            Settled (lines.take (i + 1))).getD (lines.length - 1) := by
  intro left
  -- by induction on the number of lines that are left
  induction left with
  | zero =>
      intro n last hn
      rw [List.drop_eq_nil_of_le (by omega), sweepFrom]
      show n - 1 = lines.length - 1
      omega
  | succ left ih =>
      intro n last hn
      have hlt : n < lines.length := by omega
      have hdepth : depthAfter (lines.take n) + lines[n].opens - lines[n].closes
          = depthAfter (lines.take (n + 1)) := by
        rw [List.take_succ_eq_append_getElem hlt, depthAfter_concat]
      rw [List.drop_eq_getElem_cons hlt, sweepFrom_opened_cons, hdepth,
        List.range'_succ, List.find?_cons]
      by_cases hclosed : Settled (lines.take (n + 1))
      · simp [hclosed, (settled_iff_depthAfter_le _).mp hclosed]
      · rw [if_neg (mt (settled_iff_depthAfter_le _).mpr hclosed),
          ih _ (by omega), decide_eq_false hclosed]

/-- A line that opens a block sets the sweep inside it. -/
theorem sweepFrom_of_opens {line : LineProfile} (hopens : 0 < line.opens)
    {offset : Nat} (hunit : 0 < offset → line.unit = none) (depth : Int)
    (last : Nat) (rest : List LineProfile) :
    sweepFrom depth false offset last (line :: rest)
      = sweepFrom depth true offset last (line :: rest) := by
  rw [sweepFrom, sweepFrom]
  rcases Nat.eq_zero_or_pos offset with rfl | hoffset
  · simp [hopens]
  · simp [hopens, hunit hoffset]

/-! ## First places -/

/-- Before the first line that passes a test, none does. -/
theorem eq_false_of_findIdx? {α : Type} {test : α → Bool} {xs : List α}
    {n : Nat} (h : ∀ first ∈ xs.findIdx? test, n ≤ first) {i : Nat} {x : α}
    (hi : i < n) (hx : xs[i]? = some x) : test x = false := by
  obtain ⟨hlt, rfl⟩ := List.getElem?_eq_some_iff.mp hx
  cases hfirst : xs.findIdx? test with
  | none => exact List.findIdx?_eq_none_iff.mp hfirst _ (List.getElem_mem hlt)
  | some first =>
      obtain ⟨_, _, hbefore⟩ := List.findIdx?_eq_some_iff_getElem.mp hfirst
      have hle : n ≤ first := h first hfirst
      simpa using hbefore i (by omega)

/-- Before the next unit, no line behind the first one starts a unit. -/
theorem unit_eq_none_of_nextUnit? {lines : List LineProfile} {n i : Nat}
    (h : ∀ u ∈ nextUnit? lines, n ≤ u) (hi : i < n) (hpos : 0 < i)
    {line : LineProfile} (hline : lines[i]? = some line) :
    line.unit = none := by
  obtain ⟨i, rfl⟩ := Nat.exists_eq_succ_of_ne_zero (Nat.ne_of_gt hpos)
  have htail : lines.tail[i]? = some line := by
    rw [List.getElem?_tail]
    exact hline
  have hfirst : ∀ first ∈ lines.tail.findIdx? fun line => line.unit.isSome,
      n - 1 ≤ first := by
    intro first hfirst
    have hle := h (first + 1) (Option.mem_map_of_mem _ hfirst)
    omega
  simpa using eq_false_of_findIdx? hfirst (by omega) htail

/-- Before the first opener, the first end of a statement and the next unit
    nothing happens. -/
theorem quietUpTo_of_first {lines : List LineProfile} {n : Nat}
    (hopener : ∀ opener ∈ firstOpener? lines, n ≤ opener)
    (hstatement : ∀ s ∈ firstStatement? lines, n ≤ s)
    (hunit : ∀ u ∈ nextUnit? lines, n ≤ u) : QuietUpTo lines n := by
  intro i line hi hline
  refine ⟨?_, eq_false_of_findIdx? hstatement hi hline, ?_⟩
  · simpa using eq_false_of_findIdx? hopener hi hline
  · intro hpos
    exact unit_eq_none_of_nextUnit? hunit hi hpos hline

/-! ## The four ways to end -/

variable {lines : List LineProfile}

/-- A body that is opened in time ends where all blocks are closed. -/
theorem sweep_of_opener {opener : Nat}
    (hfirst : firstOpener? lines = some opener)
    (hunit : ∀ u ∈ nextUnit? lines, opener < u)
    (hstatement : ∀ s ∈ firstStatement? lines, opener ≤ s) :
    sweep lines = (closing? lines opener).getD (lines.length - 1) := by
  obtain ⟨hlt, hopens, _⟩ := List.findIdx?_eq_some_iff_getElem.mp hfirst
  have hquiet : QuietUpTo lines opener := by
    refine quietUpTo_of_first ?_ hstatement fun u hu =>
      Nat.le_of_lt (hunit u hu)
    rw [hfirst]
    rintro _ ⟨⟩
    exact Nat.le_refl opener
  have hhead : 0 < opener → lines[opener].unit = none := fun hpos =>
    unit_eq_none_of_nextUnit? hunit (Nat.lt_succ_self opener) hpos
      (List.getElem?_eq_getElem hlt)
  rw [sweep_of_quiet (Nat.le_of_lt hlt) hquiet, List.drop_eq_getElem_cons hlt,
    sweepFrom_of_opens (by simpa using hopens) hhead,
    ← List.drop_eq_getElem_cons hlt,
    sweepFrom_opened lines _ (Nat.add_sub_cancel' (Nat.le_of_lt hlt))]
  rfl

/-- A statement that ends before any body or unit is the whole block. -/
theorem sweep_of_statement {s : Nat} (hfirst : firstStatement? lines = some s)
    (hopener : ∀ opener ∈ firstOpener? lines, s < opener)
    (hunit : ∀ u ∈ nextUnit? lines, s < u) : sweep lines = s := by
  obtain ⟨hlt, hends, _⟩ := List.findIdx?_eq_some_iff_getElem.mp hfirst
  have hline : lines[s]? = some lines[s] := List.getElem?_eq_getElem hlt
  have hquiet : QuietUpTo lines s := by
    refine quietUpTo_of_first (fun o ho => Nat.le_of_lt (hopener o ho)) ?_
      fun u hu => Nat.le_of_lt (hunit u hu)
    rw [hfirst]
    rintro _ ⟨⟩
    exact Nat.le_refl s
  have hopens : lines[s].opens = 0 := by
    simpa using eq_false_of_findIdx? (n := s + 1) hopener (Nat.lt_succ_self s)
      hline
  rw [sweep_of_quiet (Nat.le_of_lt hlt) hquiet, List.drop_eq_getElem_cons hlt,
    sweepFrom]
  rcases Nat.eq_zero_or_pos s with rfl | hpos
  · simp [hopens, hends]
  · have hhead : lines[s].unit = none :=
      unit_eq_none_of_nextUnit? hunit (Nat.lt_succ_self s) hpos hline
    simp [hopens, hends, hhead]

/-- A block without a body ends before the next unit, at the last line with
    text. -/
theorem sweep_of_unit {u : Nat} (hfirst : nextUnit? lines = some u)
    (hopener : ∀ opener ∈ firstOpener? lines, u ≤ opener)
    (hstatement : ∀ s ∈ firstStatement? lines, u ≤ s) :
    sweep lines = lastText (lines.take u) := by
  have hquiet : QuietUpTo lines u := by
    refine quietUpTo_of_first hopener hstatement ?_
    rw [hfirst]
    rintro _ ⟨⟩
    exact Nat.le_refl u
  obtain ⟨before, hbefore, rfl⟩ := Option.map_eq_some_iff.mp hfirst
  obtain ⟨hlt, hunit, _⟩ := List.findIdx?_eq_some_iff_getElem.mp hbefore
  rw [List.length_tail] at hlt
  rw [List.getElem_tail] at hunit
  have hplace : before + 1 < lines.length := by omega
  rw [sweep_of_quiet (Nat.le_of_lt hplace) hquiet,
    List.drop_eq_getElem_cons hplace, sweepFrom, if_pos]
  simpa using hunit

/-- A block in which nothing happens goes to the last line. -/
theorem sweep_of_none (hopener : firstOpener? lines = none)
    (hstatement : firstStatement? lines = none)
    (hunit : nextUnit? lines = none) : sweep lines = lines.length - 1 := by
  have hquiet : QuietUpTo lines lines.length := by
    apply quietUpTo_of_first
    · rw [hopener]
      rintro _ ⟨⟩
    · rw [hstatement]
      rintro _ ⟨⟩
    · rw [hunit]
      rintro _ ⟨⟩
  rw [sweep_of_quiet (Nat.le_refl _) hquiet, List.drop_length]
  rfl

/-- **DECLARED ENDS**: a sweep ends where it is declared to end. -/
theorem sweep_eq_declaredSpan (lines : List LineProfile) :
    sweep lines = declaredSpan lines := by
  unfold declaredSpan
  split
  · rename_i opener hbody
    obtain ⟨hfirst, hintime⟩ := Option.filter_eq_some_iff.mp hbody
    obtain ⟨hunit, hstatement⟩ := of_decide_eq_true hintime
    exact sweep_of_opener hfirst hunit hstatement
  · rename_i hbody
    -- an opener comes too late: behind a statement, or not before a unit
    have hlate : ∀ opener ∈ firstOpener? lines,
        (∃ u ∈ nextUnit? lines, u ≤ opener)
          ∨ ∃ s ∈ firstStatement? lines, s < opener := by
      intro opener hopener
      have hnot := Option.filter_eq_none_iff.mp hbody opener hopener
      rw [decide_eq_true_eq] at hnot
      rcases Decidable.not_and_iff_not_or_not.mp hnot with hunit | hstatement
      · exact .inl (by simpa using hunit)
      · exact .inr (by simpa using hstatement)
    split
    · rename_i s hends
      obtain ⟨hfirst, hbefore⟩ := Option.filter_eq_some_iff.mp hends
      have hunit := of_decide_eq_true hbefore
      refine sweep_of_statement hfirst ?_ hunit
      intro opener hopener
      rcases hlate opener hopener with ⟨u, hu, hle⟩ | ⟨s', hs', hlt⟩
      · exact Nat.lt_of_lt_of_le (hunit u hu) hle
      · cases hfirst.symm.trans hs'
        exact hlt
    · rename_i hends
      have hstatement : ∀ s ∈ firstStatement? lines,
          ∃ u ∈ nextUnit? lines, u ≤ s := by
        intro s hs
        have hnot := Option.filter_eq_none_iff.mp hends s hs
        simpa using hnot
      split
      · rename_i u hu
        have hs : ∀ s ∈ firstStatement? lines, u ≤ s := by
          intro s hs
          obtain ⟨u', hu', hle⟩ := hstatement s hs
          cases hu.symm.trans hu'
          exact hle
        refine sweep_of_unit hu ?_ hs
        intro opener hopener
        rcases hlate opener hopener with ⟨u', hu', hle⟩ | ⟨s, hsome, hlt⟩
        · cases hu.symm.trans hu'
          exact hle
        · exact Nat.le_trans (hs s hsome) (Nat.le_of_lt hlt)
      · rename_i hu
        have hnone : firstStatement? lines = none := by
          rw [Option.eq_none_iff_forall_not_mem]
          intro s hs
          obtain ⟨u, hsome, _⟩ := hstatement s hs
          exact nomatch hu.symm.trans hsome
        refine sweep_of_none ?_ hnone hu
        rw [Option.eq_none_iff_forall_not_mem]
        intro opener hopener
        rcases hlate opener hopener with ⟨u, hsome, _⟩ | ⟨s, hsome, _⟩
        · exact nomatch hu.symm.trans hsome
        · exact nomatch hnone.symm.trans hsome

/-! ## Ends within the file -/

/-- A sweep stays within its lines. -/
theorem sweepFrom_lt :
    ∀ (depth : Int) (opened : Bool) {offset last : Nat},
      last < offset + lines.length →
      sweepFrom depth opened offset last lines < offset + lines.length := by
  induction lines with
  | nil =>
      intro depth opened offset last hlast
      rw [sweepFrom]
      omega
  | cons line rest ih =>
      intro depth opened offset last hlast
      rw [List.length_cons] at hlast ⊢
      cases swept depth opened offset last line with
      | cutOff _ _ heq => rwa [heq]
      | ended heq =>
          rw [heq]
          omega
      | passed depth' opened' last' _ hlast' heq =>
          rw [heq]
          have hlater := ih depth' opened'
            (show last' < offset + 1 + rest.length by omega)
          omega

/-- A span ends within its lines. -/
theorem span_lt_length (h : lines ≠ []) : span lines < lines.length := by
  obtain ⟨line, rest, rfl⟩ := List.exists_cons_of_ne_nil h
  rw [span]
  split
  · exact Nat.succ_pos _
  · have hlt := sweepFrom_lt 0 false
      (show 0 < 0 + (line :: rest).length by simp)
    rwa [Nat.zero_add] at hlt

/-- The end of a block, from the lines on which it starts. -/
theorem endIndex?_eq_span (marks : BlockMarks) {lines : List Text}
    {start : Nat} (h : start < lines.length) :
    endIndex? marks lines start
      = some (start + span ((lines.drop start).map marks.profile)) := by
  rw [endIndex?, endOf?, ← List.map_drop, List.drop_eq_getElem_cons h]
  rfl

/-- **WHERE A BLOCK ENDS**: the block that starts at an index has an end
    within the lines: the same line for a unit on one line, and otherwise
    the declared one. -/
theorem endIndex?_declared (marks : BlockMarks) (lines : List Text)
    {start : Nat} (h : start < lines.length) :
    ∃ last, endIndex? marks lines start = some last
      ∧ start ≤ last ∧ last ≤ lines.length - 1
      ∧ last = if marks.isOneLiner lines[start] then start
          else start + declaredSpan ((lines.drop start).map marks.profile) := by
  have hdrop : lines.drop start = lines[start] :: lines.drop (start + 1) :=
    List.drop_eq_getElem_cons h
  refine ⟨_, endIndex?_eq_span marks h, Nat.le_add_right _ _, ?_, ?_⟩
  · have hlt : span ((lines.drop start).map marks.profile)
        < ((lines.drop start).map marks.profile).length := by
      refine span_lt_length ?_
      rw [hdrop]
      exact List.cons_ne_nil _ _
    rw [List.length_map, List.length_drop] at hlt
    omega
  · rw [← sweep_eq_declaredSpan, hdrop, List.map_cons, span]
    show start + (if marks.isOneLiner lines[start] = true then 0 else _) = _
    split
    · rfl
    · rfl

/-- An arrow function whose body is on a line of its own, and a function
    that starts where the first brace is opened. -/
def wrappedArrow : List Text :=
  ["", "const twice = (x) =>", "  x * 2", "", "function run(x) \x7b",
    "\x7d"].map String.toList

/-- The brace belongs to the next unit, so the arrow function ends at its
    last line with text. -/
theorem endIndex?_wrappedArrow :
    1 < wrappedArrow.length
      ∧ (firstOpener? ((wrappedArrow.drop 1).map BlockMarks.script.profile)
          = some 3
        ∧ nextUnit? ((wrappedArrow.drop 1).map BlockMarks.script.profile)
          = some 3)
      ∧ endIndex? .script wrappedArrow 1 = some 2 := by
  obtain ⟨last, hlast, _, _, hdeclared⟩ := endIndex?_declared .script
    wrappedArrow (show 1 < wrappedArrow.length by decide)
  refine ⟨by decide, by decide +kernel, ?_⟩
  rw [hlast, hdeclared]
  decide +kernel

end CodeReview.Block

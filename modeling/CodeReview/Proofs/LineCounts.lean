import Mathlib.Data.List.Forall2
import CodeReview.Block.Complexity
import CodeReview.Proofs.FirstMatches
import CodeReview.Proofs.NestedBlocks

/-! # Counting line by line

    A pattern that asks neither for a newline nor for the ends of the whole
    text sees the same of a line in its place as of the line alone: the
    places it leads to correspond (`results_beside`), so its matches are
    counted line by line (`count_append_newline`).  The branch words and the
    logical operators are such patterns, whence the complexity of joined
    lines is that of the lines, and a block is at least as complex as one
    within it. -/

namespace CodeReview

/-! ## A line alone and in its place -/

/-- Whether two places see the same line, the second one with a text below
    the line and with other lines above it. -/
structure Cursor.Beside (shift : Nat) (below : Text) (s t : Cursor) : Prop where
  rest_eq : t.rest = s.rest ++ below
  offset_eq : t.offset = s.offset + shift
  before_eq : t.before = s.before ∨ s.before = none ∧ t.before = some '\n'

namespace Pattern

/-- Whether a pattern asks neither for a newline nor for the ends of the
    whole text. -/
def staysOnLine : Pattern → Bool
  | nothing => true
  | one p => !p '\n'
  | seq p q => staysOnLine p && staysOnLine q
  | alt p q => staysOnLine p && staysOnLine q
  | star _ p => staysOnLine p
  | group _ p => staysOnLine p
  | edge e => e != .textStart && e != .textEnd
  | ahead _ p => staysOnLine p
  | notAfter p => !p '\n'

section Beside

variable {shift : Nat} {below : Text}

/-- Places beside each other have the same kind of character before them. -/
theorem wordAt_before_beside {s t : Cursor} (h : s.Beside shift below t) :
    Cursor.wordAt t.before = Cursor.wordAt s.before := by
  rcases h.before_eq with hsame | ⟨hs, ht⟩
  · rw [hsame]
  · rw [hs, ht]
    decide +kernel

/-- A line ends where the text below it begins. -/
theorem head?_rest_beside (hbelow : below.head?.all (· == '\n') = true)
    {s t : Cursor} (h : s.Beside shift below t) :
    t.rest.head? = s.rest.head?
      ∨ s.rest = [] ∧ t.rest.head? = some '\n' := by
  rw [h.rest_eq]
  cases hs : s.rest with
  | cons c rest => exact .inl rfl
  | nil =>
      cases below with
      | nil => exact .inl rfl
      | cons c below => exact .inr ⟨rfl, congrArg some (beq_iff_eq.mp hbelow)⟩

/-- An edge that stays on its line is at both of two places beside each
    other, or at neither. -/
theorem isAt_beside (hbelow : below.head?.all (· == '\n') = true) {e : Edge}
    (he : (edge e).staysOnLine = true) {s t : Cursor}
    (h : s.Beside shift below t) : t.isAt e = s.isAt e := by
  -- an edge looks at the characters around it; where the two places differ,
  -- one has a newline and the other has the end of the text
  have hhead := head?_rest_beside hbelow h
  cases e with
  | textStart => exact nomatch he
  | textEnd => exact nomatch he
  | lineStart =>
      rw [Cursor.isAt, Cursor.isAt]
      rcases h.before_eq with hsame | ⟨hs, ht⟩
      · rw [hsame]
      · rw [hs, ht]
        rfl
  | lineEnd =>
      have hend : ∀ u : Cursor, u.isAt .lineEnd = u.rest.head?.all (· == '\n') := by
        rintro ⟨before, rest, offset, captures⟩
        cases rest <;> simp [Cursor.isAt]
      rw [hend, hend]
      rcases hhead with hsame | ⟨hs, ht⟩
      · rw [hsame]
      · rw [hs, ht]
        rfl
  | word =>
      have hnext : Cursor.wordAt t.rest.head? = Cursor.wordAt s.rest.head? := by
        rcases hhead with hsame | ⟨hs, ht⟩
        · rw [hsame]
        · rw [hs, ht]
          decide +kernel
      rw [Cursor.isAt, Cursor.isAt, wordAt_before_beside h, hnext]

/-- A character that is no newline leads from two places beside each other
    to two such places. -/
theorem results_one_beside (hbelow : below.head?.all (· == '\n') = true)
    {p : Char → Bool} (hp : p '\n' = false) {s t : Cursor}
    (h : s.Beside shift below t) :
    List.Forall₂ (Cursor.Beside shift below) ((one p).results s)
      ((one p).results t) := by
  have hrest := h.rest_eq
  rw [results, results, Cursor.advance, Cursor.advance]
  cases hs : s.rest with
  | cons c rest =>
      rw [hs, List.cons_append] at hrest
      rw [hrest]
      cases hc : p c with
      | false => simp [hc]
      | true =>
          have hoffset := h.offset_eq
          simp only [hc, if_true, Option.toList_some]
          exact .cons ⟨rfl, by simp only; omega, .inl rfl⟩ .nil
  | nil =>
      rw [hs, List.nil_append] at hrest
      rw [hrest]
      cases below with
      | nil => exact .nil
      | cons c below =>
          have hc : c = '\n' := beq_iff_eq.mp hbelow
          simp [hc, hp]

/-- Repetitions keep places beside each other, by induction on how often
    there may be another one. -/
theorem iterate_beside {step : Cursor → List Cursor}
    (hstep : ∀ s t, s.Beside shift below t →
      List.Forall₂ (Cursor.Beside shift below) (step s) (step t))
    (isLazy : Bool) :
    ∀ (fuel : Nat) {s t : Cursor}, s.Beside shift below t →
      List.Forall₂ (Cursor.Beside shift below) (iterate step isLazy fuel s)
        (iterate step isLazy fuel t) := by
  intro fuel
  induction fuel with
  | zero => intro s t h; exact .cons h .nil
  | succ fuel ih =>
      intro s t h
      have hmore : List.Forall₂ (Cursor.Beside shift below)
          ((step s).flatMap fun u =>
            if s.offset < u.offset then iterate step isLazy fuel u else [])
          ((step t).flatMap fun u =>
            if t.offset < u.offset then iterate step isLazy fuel u else []) := by
        refine List.rel_flatMap (hstep s t h) fun u v huv => ?_
        -- a turn moves here exactly if it moves there
        have hiff : t.offset < v.offset ↔ s.offset < u.offset := by
          rw [h.offset_eq, huv.offset_eq]
          omega
        by_cases hlater : s.offset < u.offset
        · rw [if_pos hlater, if_pos (hiff.mpr hlater)]
          exact ih huv
        · rw [if_neg hlater, if_neg (mt hiff.mp hlater)]
          exact .nil
      cases isLazy with
      | true => exact .cons h hmore
      | false => exact List.rel_append hmore (.cons h .nil)

/-- **THE SAME LINE**: a pattern that stays on a line leads to places that
    correspond. -/
theorem results_beside (hbelow : below.head?.all (· == '\n') = true)
    {p : Pattern} (hp : p.staysOnLine = true) :
    ∀ s t, s.Beside shift below t →
      List.Forall₂ (Cursor.Beside shift below) (p.results s) (p.results t) := by
  induction p with
  | nothing => intro s t h; exact .cons h .nil
  | one p =>
      intro s t h
      exact results_one_beside hbelow (by simpa [staysOnLine] using hp) h
  | seq p q ihp ihq =>
      intro s t h
      obtain ⟨hp, hq⟩ := Bool.and_eq_true_iff.mp hp
      exact List.rel_flatMap (ihp hp s t h) (ihq hq)
  | alt p q ihp ihq =>
      intro s t h
      obtain ⟨hp, hq⟩ := Bool.and_eq_true_iff.mp hp
      exact List.rel_append (ihp hp s t h) (ihq hq s t h)
  | star isLazy p ih =>
      intro s t h
      -- more repetitions than the line alone has characters do no harm
      have hlength : s.rest.length ≤ t.rest.length := by
        rw [h.rest_eq, List.length_append]
        exact Nat.le_add_right ..
      have hs : (star isLazy p).results s
          = iterate p.results isLazy t.rest.length s :=
        (iterate_of_le (reaches_of_mem_results p) isLazy hlength).symm
      rw [hs]
      exact iterate_beside (ih hp) isLazy _ h
  | group index p ih =>
      intro s t h
      exact List.rel_map (R := Cursor.Beside shift below)
        (fun u v huv => ⟨huv.rest_eq, huv.offset_eq, huv.before_eq⟩)
        (ih hp s t h)
  | edge e =>
      intro s t h
      rw [results, results, isAt_beside hbelow hp h]
      split
      · exact .cons h .nil
      · exact .nil
  | ahead wanted p ih =>
      intro s t h
      have hempty : (p.results t).isEmpty = (p.results s).isEmpty := by
        have hresults := ih hp s t h
        generalize p.results s = us at hresults ⊢
        generalize p.results t = us' at hresults ⊢
        cases hresults <;> rfl
      rw [results, results, hempty]
      split
      · exact .nil
      · exact .cons h .nil
  | notAfter p =>
      intro s t h
      have hnewline : p '\n' = false := by simpa [staysOnLine] using hp
      have hany : t.before.any p = s.before.any p := by
        rcases h.before_eq with hsame | ⟨hs, ht⟩
        · rw [hsame]
        · rw [hs, ht]
          exact hnewline
      rw [results, results, hany]
      split
      · exact .nil
      · exact .cons h .nil

/-- The matches at the two places correspond. -/
theorem matchAt_beside (hbelow : below.head?.all (· == '\n') = true)
    {p : Pattern} (hp : p.staysOnLine = true) {s t : Cursor}
    (h : s.Beside shift below t) :
    (p.matchAt t).map Match.stop
      = (p.matchAt s).map fun m => m.stop + shift := by
  have hresults := results_beside hbelow hp s t h
  rw [matchAt_eq, matchAt_eq]
  generalize p.results s = us at hresults ⊢
  generalize p.results t = us' at hresults ⊢
  cases hresults with
  | nil => rfl
  | cons huv _ => exact congrArg some huv.offset_eq

/-- A match ends where the text does, or before. -/
theorem stop_le_of_matchAt {p : Pattern} {s : Cursor} {m : Match}
    (h : p.matchAt s = some m) : m.stop ≤ s.offset + s.rest.length := by
  obtain ⟨t, ht, rfl⟩ := exists_results_of_matchAt h
  have hextent := (reaches_of_mem_results p s t ht).extent
  show t.offset ≤ _
  omega

/-- How many matches there are behind the newline that a text starts
    with. -/
def countBelow (p : Pattern) (offset : Nat) : Text → Nat
  | [] => 0
  | c :: rest => (p.findAllFrom (some c) (offset + 1) 0 rest).length

/-- **LINE AND REST**: the matches from a place on a line are those on the
    line and those below it. -/
theorem length_findAllFrom_beside
    (hbelow : below.head?.all (· == '\n') = true) {p : Pattern}
    (hp : p.staysOnLine = true) :
    ∀ {line : Text} {before before' : Option Char} {offset skip : Nat},
      skip ≤ line.length →
      (before' = before ∨ before = none ∧ before' = some '\n') →
      (p.findAllFrom before' (offset + shift) skip (line ++ below)).length
        = (p.findAllFrom before offset skip line).length
          + p.countBelow (offset + shift + line.length) below := by
  intro line
  induction line with
  | nil =>
      intro before before' offset skip hskip hbefore
      obtain rfl : skip = 0 := Nat.le_zero.mp hskip
      have hbeside : Cursor.Beside shift below ⟨before, [], offset, []⟩
          ⟨before', below, offset + shift, []⟩ := ⟨rfl, rfl, hbefore⟩
      have hmatch := matchAt_beside hbelow hp hbeside
      rw [List.nil_append, findAllFrom]
      cases hs : p.matchAt ⟨before, [], offset, []⟩ with
      | none =>
          rw [hs, Option.map_none, Option.map_eq_none_iff] at hmatch
          cases below with
          | nil => simp [findAllFrom, countBelow, hmatch]
          | cons c below => simp [findAllFrom, countBelow, hmatch]
      | some m =>
          rw [hs] at hmatch
          obtain ⟨m', hm', hstop'⟩ := Option.map_eq_some_iff.mp hmatch
          -- a match at the end of a line is empty
          have hstop := stop_le_of_matchAt hs
          have hnone : m'.stop - (offset + shift) - 1 = 0 := by
            have hstop : m.stop ≤ offset + 0 := hstop
            have hstop' : m'.stop = m.stop + shift := hstop'
            omega
          cases below with
          | nil => simp [findAllFrom, countBelow, hm']
          | cons c below =>
              simp [findAllFrom, countBelow, hm', hnone]
              omega
  | cons c line ih =>
      intro before before' offset skip hskip hbefore
      have hlater : ∀ skip ≤ line.length,
          (p.findAllFrom (some c) (offset + shift + 1) skip
              (line ++ below)).length
            = (p.findAllFrom (some c) (offset + 1) skip line).length
              + p.countBelow (offset + shift + (line.length + 1)) below := by
        intro skip hskip
        rw [Nat.add_right_comm, ih hskip (.inl rfl)]
        congr 2
        omega
      have hbeside : Cursor.Beside shift below
          ⟨before, c :: line, offset, []⟩
          ⟨before', c :: (line ++ below), offset + shift, []⟩ :=
        ⟨rfl, rfl, hbefore⟩
      have hmatch := matchAt_beside hbelow hp hbeside
      rw [List.cons_append, List.length_cons]
      cases skip with
      | succ skip => exact hlater skip (Nat.le_of_succ_le_succ hskip)
      | zero =>
          rw [findAllFrom, findAllFrom]
          cases hs : p.matchAt ⟨before, c :: line, offset, []⟩ with
          | none =>
              rw [hs, Option.map_none, Option.map_eq_none_iff] at hmatch
              rw [hmatch]
              exact hlater 0 (Nat.zero_le _)
          | some m =>
              rw [hs] at hmatch
              obtain ⟨m', hm', hstop'⟩ := Option.map_eq_some_iff.mp hmatch
              have hstop : m.stop ≤ offset + (line.length + 1) :=
                stop_le_of_matchAt hs
              have hskip' : m'.stop - (offset + shift) - 1
                  = m.stop - offset - 1 := by
                have hstop' : m'.stop = m.stop + shift := hstop'
                omega
              rw [hm']
              simp only [List.length_cons, hskip']
              rw [hlater _ (by omega)]
              omega

end Beside

/-- **LINE BY LINE**: the matches of a pattern that stays on a line are
    counted before a newline and behind it. -/
theorem count_append_newline {p : Pattern} (hp : p.staysOnLine = true)
    (x y : Text) : p.count (x ++ '\n' :: y) = p.count x + p.count y := by
  have hfirst : p.count (x ++ '\n' :: y)
      = p.count x + p.countBelow x.length ('\n' :: y) := by
    have hlength : (p.findAllFrom none (0 + 0) 0 (x ++ '\n' :: y)).length
        = p.count x + p.countBelow (0 + 0 + x.length) ('\n' :: y) :=
      length_findAllFrom_beside (by rfl) hp (Nat.zero_le _) (.inl rfl)
    rwa [Nat.add_zero, Nat.zero_add] at hlength
  -- below the newline, the text is a line of its own
  have hrest : p.countBelow x.length ('\n' :: y) = p.count y := by
    have hlength : (p.findAllFrom (some '\n') (0 + (x.length + 1)) 0
          (y ++ [])).length = p.count y + 0 :=
      length_findAllFrom_beside (by rfl) hp (Nat.zero_le _) (.inr ⟨rfl, rfl⟩)
    rwa [List.append_nil, Nat.zero_add] at hlength
  rw [hfirst, hrest]

end Pattern

namespace Block

/-- **BODIES ARE LINES**: the body of a block is its lines, joined. -/
theorem body_of_mem_scan {content : Text} {language : Option Language}
    {block : Block} (h : block ∈ scan content language) :
    block.body = Text.unlines
      (((Text.lines content).drop (block.startLine - 1)).take
        block.lineCount) := by
  rw [scan] at h
  split at h
  · exact absurd h List.not_mem_nil
  · rename_i marks hmarks
    rw [scanLines_eq hmarks] at h
    -- a block is a cut of the lines: those above it, and its span
    obtain ⟨front, line, rest, name, hlines, _, rfl⟩ :=
      mem_scanFrom_iff.mp h
    have htexts : Text.lines content
        = (front ++ line :: rest).map LineProfile.text := by
      rw [← hlines, List.map_map]
      exact (List.map_id _).symm
    have hcount : (ofUnit (0 + front.length) name (line :: rest)).lineCount
        = span (line :: rest) + 1 := by
      show 0 + front.length + 1 + span _ - (0 + front.length + 1) + 1 = _
      omega
    rw [hcount, htexts, ← List.map_drop, ← List.map_take]
    show _ = Text.unlines (((List.drop (0 + front.length + 1 - 1) _).take _).map _)
    rw [Nat.add_sub_cancel, Nat.zero_add, List.drop_left]
    rfl

/-- The lines of a block within another one are among those of that one. -/
theorem lines_sublist_of_encloses {outer inner : Block}
    (h : outer.Encloses inner) (lines : List Text) :
    ((lines.drop (inner.startLine - 1)).take inner.lineCount).Sublist
      ((lines.drop (outer.startLine - 1)).take outer.lineCount) := by
  obtain ⟨hstart, hend⟩ := h
  have hpos := outer.start_pos
  have hle := inner.start_le_end
  let down := inner.startLine - outer.startLine
  have hdown : inner.startLine - 1 = outer.startLine - 1 + down := by
    show _ = outer.startLine - 1 + (inner.startLine - outer.startLine)
    omega
  have hcount : down + inner.lineCount ≤ outer.lineCount := by
    show inner.startLine - outer.startLine
      + (inner.endLine - inner.startLine + 1)
      ≤ outer.endLine - outer.startLine + 1
    omega
  rw [hdown, ← List.drop_drop, List.take_drop]
  exact (List.drop_sublist _ _).trans
    (List.take_prefix_take_left hcount).sublist

end Block

namespace Complexity

open Pattern

/-! ## Complexity -/

/-- The pattern of a branch does not look beyond its line. -/
theorem staysOnLine_branch (language : Option Language) :
    (branch language).staysOnLine = true := by
  cases language with
  | none => decide
  | some language => cases language <;> decide

/-- The branch points of two texts with a newline between them. -/
theorem branchPoints_append_newline (language : Option Language)
    (x y : Text) :
    branchPoints language (x ++ '\n' :: y)
      = branchPoints language x + branchPoints language y := by
  have hoperators : logicalOperator.staysOnLine = true := by decide
  rw [branchPoints, count_append_newline (staysOnLine_branch language),
    count_append_newline hoperators, branchPoints, branchPoints]
  omega

/-- Nothing branches in the empty text. -/
theorem branchPoints_nil (language : Option Language) :
    branchPoints language [] = 0 := by
  cases language with
  | none => decide
  | some language => cases language <;> decide

/-- The sum of the complexities of some lines, each less one. -/
def excess (language : Option Language) (ls : List Text) : Nat :=
  ls.foldr (fun line total => estimate language line - 1 + total) 0

/-- The branches of a text are those of its first line and of the others. -/
theorem excess_cons (language : Option Language) (line : Text)
    (ls : List Text) :
    excess language (line :: ls)
      = branchPoints language line + excess language ls := by
  show 1 + branchPoints language line - 1 + excess language ls = _
  rw [Nat.add_sub_cancel_left]

/-- The branches of two texts behind one another are those of both. -/
theorem excess_append (language : Option Language) (above below : List Text) :
    excess language (above ++ below)
      = excess language above + excess language below := by
  induction above with
  | nil => exact (Nat.zero_add _).symm
  | cons line above ih =>
      rw [List.cons_append, excess_cons, excess_cons, ih, Nat.add_assoc]

/-- **SUM OF LINES**: joined lines have the branch points of the lines. -/
theorem branchPoints_unlines (language : Option Language) (ls : List Text) :
    branchPoints language (Text.unlines ls) = excess language ls := by
  induction ls with
  | nil => exact branchPoints_nil language
  | cons line ls ih =>
      rw [excess_cons, ← ih]
      cases ls with
      | nil =>
          show branchPoints language line = _ + branchPoints language []
          rw [branchPoints_nil, Nat.add_zero]
      | cons next ls =>
          have hjoin : Text.unlines (line :: next :: ls)
              = line ++ '\n' :: Text.unlines (next :: ls) := by
            rw [Text.unlines, Text.join_cons _ _ (List.cons_ne_nil next ls)]
            exact List.append_assoc ..
          rw [hjoin, branchPoints_append_newline]

/-- More lines have no fewer branch points. -/
theorem excess_le_of_sublist {language : Option Language}
    {part whole : List Text} (h : part.Sublist whole) :
    excess language part ≤ excess language whole := by
  induction h with
  | slnil => exact Nat.le_refl _
  | cons line _ ih =>
      rw [excess_cons]
      exact Nat.le_add_left_of_le ih
  | cons_cons line _ ih =>
      rw [excess_cons, excess_cons]
      exact Nat.add_le_add_left ih _

/-- **COMPLEXITY ADDS UP**: the complexity of joined lines is one more than
    the sum of what each line has beyond one; a block is at least as complex
    as every block within it; and cutting a text between two lines leaves
    all branch points. -/
theorem estimate_adds_up (language : Option Language) :
    (∀ ls : List Text, estimate language (Text.unlines ls)
        = 1 + excess language ls)
      ∧ (∀ content : Text, ∀ outer ∈ Block.scan content language,
        ∀ inner ∈ Block.scan content language, outer.Encloses inner →
          estimate language inner.body ≤ estimate language outer.body)
      ∧ ∀ above below : List Text,
        branchPoints language (Text.unlines (above ++ below))
          = branchPoints language (Text.unlines above)
            + branchPoints language (Text.unlines below) := by
  refine ⟨?_, ?_, ?_⟩
  · intro ls
    rw [estimate, branchPoints_unlines]
  · intro content outer houter inner hinner hencloses
    rw [Block.body_of_mem_scan houter, Block.body_of_mem_scan hinner, estimate,
      estimate, branchPoints_unlines, branchPoints_unlines]
    exact Nat.add_le_add_left (excess_le_of_sublist
      (Block.lines_sublist_of_encloses hencloses _)) 1
  · intro above below
    rw [branchPoints_unlines, branchPoints_unlines, branchPoints_unlines,
      excess_append]

/-- A method with another one in it; operators meet at the ends of its
    lines. -/
def busyMethod : Text :=
  "def a\n  x &\n  & y if z &&& w\n  def b\n    y unless z?\n  end\nend\n".toList

/-- The inner method has one condition; the outer one has that and a
    condition and an operator of its own. -/
theorem estimate_busyMethod_adds_up :
    ∃ outer ∈ Block.scan busyMethod (some .ruby),
      ∃ inner ∈ Block.scan busyMethod (some .ruby),
        outer.Encloses inner
          ∧ estimate (some .ruby) inner.body
            ≤ estimate (some .ruby) outer.body
          ∧ estimate (some .ruby) inner.body = 2
          ∧ estimate (some .ruby) outer.body = 4 := by
  obtain ⟨outer, houter, inner, hinner, hencloses, hscores⟩ :
      ∃ outer ∈ Block.scan busyMethod (some .ruby),
        ∃ inner ∈ Block.scan busyMethod (some .ruby),
          (outer.startLine ≤ inner.startLine ∧ inner.endLine ≤ outer.endLine)
            ∧ estimate (some .ruby) inner.body = 2
            ∧ estimate (some .ruby) outer.body = 4 := by
    decide +kernel
  exact ⟨outer, houter, inner, hinner, hencloses,
    (estimate_adds_up (some .ruby)).2.1 busyMethod outer houter inner hinner
      hencloses, hscores⟩

end Complexity

end CodeReview

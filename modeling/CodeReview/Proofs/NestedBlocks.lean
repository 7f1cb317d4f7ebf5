import CodeReview.Proofs.Nesting
import CodeReview.Proofs.RubyUnits
import CodeReview.Proofs.Scanning

/-! # Blocks nest

    Every unit is swept on its own, over lines that need not match up.
    Still, a sweep that reaches the start of another unit is inside a body
    of its own there (`sweepFrom_reaches`), since a unit that has none is
    cut off by the next one; and from there on it counts the same lines as
    the sweep of the other unit, only deeper, so it does not stop before
    that one (`sweepFrom_deeper`).  In Ruby, where every unit opens a body
    or ends on its line, two blocks are nested or apart. -/

namespace CodeReview

namespace Block

/-! ## Two sweeps over the same lines -/

/-- An open sweep never turns back. -/
theorem le_sweepFrom_opened (lines : List LineProfile) :
    ∀ (depth : Int) (offset last : Nat),
      offset ≤ sweepFrom depth true (offset + 1) last lines := by
  induction lines with
  | nil => intro depth offset last; exact Nat.le_refl offset
  | cons line rest ih =>
      intro depth offset last
      rw [sweepFrom_opened_cons]
      split
      · exact Nat.le_succ offset
      · exact Nat.le_of_succ_le (ih _ (offset + 1) _)

/-- **DEEPER SWEEPS**: over the same lines, a sweep that starts deeper does
    not stop earlier, wherever the two count their lines from. -/
theorem sweepFrom_deeper (lines : List LineProfile) :
    ∀ {depth depth' : Int} (offset n last last' : Nat), depth ≤ depth' →
      n + sweepFrom depth true (offset + 1) last lines
        ≤ sweepFrom depth' true (n + offset + 1) last' lines := by
  induction lines with
  | nil =>
      intro depth depth' offset n last last' _
      exact Nat.le_refl _
  | cons line rest ih =>
      intro depth depth' offset n last last' hdepth
      rw [sweepFrom_opened_cons, sweepFrom_opened_cons]
      by_cases hdeep : depth' + line.opens - line.closes ≤ 0
      · rw [if_pos hdeep, if_pos (by omega)]
        exact Nat.le_refl _
      · rw [if_neg hdeep]
        split
        · exact le_sweepFrom_opened rest _ (n + offset + 1) _
        · exact ih (offset + 1) n _ _ (by omega)

/-- A sweep that reaches the start of another unit is inside an open block
    there. -/
theorem sweepFrom_reaches {line : LineProfile} (hunit : line.unit.isSome = true)
    (front rest : List LineProfile) :
    ∀ {depth : Int} {opened : Bool} {offset last : Nat},
      (opened = true → 0 < depth) → last < offset →
      offset + front.length
        ≤ sweepFrom depth opened offset last (front ++ line :: rest) →
      ∃ (depth' : Int) (last' : Nat), 0 < depth'
        ∧ sweepFrom depth opened offset last (front ++ line :: rest)
          = sweepFrom depth' true (offset + front.length) last'
              (line :: rest) := by
  -- the invariant: an open sweep is inside its block, and the last line
  -- with text lies behind the sweep
  induction front with
  | nil =>
      intro depth opened offset last hdepth hlast hreach
      cases opened with
      | true => exact ⟨depth, last, hdepth rfl, rfl⟩
      | false =>
          have hcut : sweepFrom depth false offset last (line :: rest)
              = last := by
            rw [sweepFrom, if_pos]
            simp only [Bool.not_false, Bool.true_and, hunit, Bool.and_true,
              decide_eq_true_eq]
            omega
          rw [List.nil_append, hcut, List.length_nil] at hreach
          omega
  | cons first front ih =>
      intro depth opened offset last hdepth hlast hreach
      rw [List.cons_append] at hreach ⊢
      rw [List.length_cons] at hreach ⊢
      cases swept depth opened offset last first with
      | cutOff _ _ heq =>
          rw [heq] at hreach
          omega
      | ended heq =>
          rw [heq] at hreach
          omega
      | passed depth' opened' last' hdepth' hlast' heq =>
          rw [heq, ← Nat.add_assoc, Nat.add_right_comm] at hreach
          have hlast : last' < offset + 1 := by omega
          obtain ⟨deep, final, hdeep, hend⟩ := ih hdepth' hlast hreach
          refine ⟨deep, final, hdeep, ?_⟩
          rw [heq, hend, Nat.add_assoc, Nat.add_comm 1]

/-! ## Two units -/

theorem span_of_oneLiner {line : LineProfile} (h : line.isOneLiner = true)
    (rest : List LineProfile) : span (line :: rest) = 0 := by
  rw [span, if_pos h]

/-- A sweep that starts with an opener is open from the first line on. -/
theorem span_of_opens {line : LineProfile} (hone : line.isOneLiner = false)
    (hopens : 0 < line.opens) (rest : List LineProfile) :
    span (line :: rest) = sweepFrom 0 true 0 0 (line :: rest) := by
  rw [span, hone, sweep, sweepFrom, sweepFrom]
  simp [hopens]

/-- A unit whose span reaches the start of another one is inside an open
    block there. -/
theorem span_reaches {first line : LineProfile}
    {front rest : List LineProfile} (hunit : line.unit.isSome = true)
    (hreach : front.length + 1 ≤ span (first :: (front ++ line :: rest))) :
    ∃ (depth : Int) (last : Nat), 0 < depth
      ∧ span (first :: (front ++ line :: rest))
        = sweepFrom depth true (front.length + 1) last (line :: rest) := by
  -- a unit on one line would have ended the span at once
  have hfirst : first.isOneLiner = false := by
    refine Bool.eq_false_iff.mpr fun hone => ?_
    rw [span_of_oneLiner hone] at hreach
    omega
  have hspan : span (first :: (front ++ line :: rest))
      = sweepFrom 0 false 0 0 (first :: (front ++ line :: rest)) := by
    rw [span, hfirst]
    rfl
  rw [hspan] at hreach ⊢
  cases swept 0 false 0 0 first with
  | cutOff _ hoffset _ => exact absurd hoffset (Nat.lt_irrefl 0)
  | ended heq =>
      rw [heq] at hreach
      omega
  | passed depth' opened' last' hdepth' hlast' heq =>
      rw [heq, Nat.add_comm front.length] at hreach
      rw [heq, Nat.add_comm front.length]
      exact sweepFrom_reaches hunit front rest hdepth' (by omega) hreach

/-- **NESTED SPANS**: a unit that starts within another one and ends on its
    line or opens a block there ends within the other one. -/
theorem span_nested {first line : LineProfile}
    {front rest : List LineProfile} (hunit : line.unit.isSome = true)
    (hbody : line.isOneLiner = true ∨ 0 < line.opens)
    (hreach : front.length + 1 ≤ span (first :: (front ++ line :: rest))) :
    front.length + 1 + span (line :: rest)
      ≤ span (first :: (front ++ line :: rest)) := by
  cases hone : line.isOneLiner with
  | true =>
      rw [span_of_oneLiner hone]
      exact hreach
  | false =>
      have hopens : 0 < line.opens :=
        hbody.resolve_left (by rw [hone]; exact Bool.false_ne_true)
      obtain ⟨depth, last, hdepth, houter⟩ := span_reaches hunit hreach
      rw [houter] at hreach ⊢
      rw [span_of_opens hone hopens, sweepFrom_opened_cons]
      by_cases hclosed : (0 : Int) + line.opens - line.closes ≤ 0
      · rw [if_pos hclosed]
        exact hreach
      · -- the inner block stays open behind its first line, and so does
        -- the outer one, which is deeper
        have hdeeper : (0 : Int) + line.opens - line.closes
            ≤ depth + line.opens - line.closes := by omega
        have hopen : ¬ depth + line.opens - line.closes ≤ 0 := by omega
        rw [if_neg hclosed, sweepFrom_opened_cons, if_neg hopen]
        exact sweepFrom_deeper rest 0 (front.length + 1) _ _ hdeeper

/-- Two units of the same lines, the second one further down: what lies
    between them. -/
theorem exists_between {above above' : List LineProfile}
    {line line' : LineProfile} {rest rest' : List LineProfile}
    (h : above ++ line :: rest = above' ++ line' :: rest')
    (hlt : above.length < above'.length) :
    ∃ front, above' = above ++ line :: front
      ∧ rest = front ++ line' :: rest' := by
  rcases List.append_eq_append_iff.mp h with
    ⟨front, habove, hrest⟩ | ⟨front, habove, _⟩
  · cases front with
    | nil =>
        rw [habove, List.append_nil] at hlt
        exact absurd hlt (Nat.lt_irrefl _)
    | cons first front =>
        obtain ⟨rfl, htail⟩ := List.cons.inj hrest
        exact ⟨front, habove, htail⟩
  · rw [habove, List.length_append] at hlt
    omega

/-- **NESTED BLOCKS**: a block that starts within another one, on a line
    that ends a unit or opens a block, ends within the other one. -/
theorem endLine_le_of_mem_scanFrom {lines : List LineProfile}
    {outer inner : Block} (houter : outer ∈ scanFrom 0 lines)
    (hinner : inner ∈ scanFrom 0 lines)
    (hstart : outer.startLine < inner.startLine)
    (hwithin : inner.startLine ≤ outer.endLine)
    (hbody : ∃ line, lines[inner.startLine - 1]? = some line
      ∧ (line.isOneLiner = true ∨ 0 < line.opens)) :
    inner.endLine ≤ outer.endLine := by
  -- both blocks are cuts of the same lines; the inner one starts behind the
  -- outer one's first line
  obtain ⟨above, first, rest, name, rfl, _, rfl⟩ := mem_scanFrom_iff.mp houter
  obtain ⟨above', line, rest', name', hlines, hunit, rfl⟩ :=
    mem_scanFrom_iff.mp hinner
  have hlt : above.length < above'.length := by
    have hstarts : 0 + above.length + 1 < 0 + above'.length + 1 := hstart
    omega
  obtain ⟨front, rfl, rfl⟩ := exists_between hlines hlt
  have hline : line.isOneLiner = true ∨ 0 < line.opens := by
    obtain ⟨line', hline', hbody⟩ := hbody
    have hplace : (above ++ first :: (front ++ line :: rest'))[
        0 + (above ++ first :: front).length + 1 - 1]? = some line := by
      rw [hlines, Nat.zero_add, Nat.add_sub_cancel]
      exact List.getElem?_append_right (Nat.le_refl _) |>.trans (by simp)
    cases hplace.symm.trans hline'
    exact hbody
  -- the inner block starts within the span of the outer one
  have hreach : front.length + 1
      ≤ span (first :: (front ++ line :: rest')) := by
    have hends : 0 + (above ++ first :: front).length + 1
        ≤ 0 + above.length + 1 + span (first :: (front ++ line :: rest')) :=
      hwithin
    rw [List.length_append, List.length_cons] at hends
    omega
  have hspan := span_nested (by rw [hunit]; rfl) hline hreach
  show 0 + (above ++ first :: front).length + 1 + span (line :: rest')
    ≤ 0 + above.length + 1 + span (first :: (front ++ line :: rest'))
  rw [List.length_append, List.length_cons]
  omega

/-- No two blocks start on one line. -/
theorem eq_of_startLine_eq {lines : List LineProfile} {a b : Block}
    (ha : a ∈ scanFrom 0 lines) (hb : b ∈ scanFrom 0 lines)
    (h : a.startLine = b.startLine) : a = b := by
  obtain ⟨above, line, rest, name, rfl, hunit, rfl⟩ := mem_scanFrom_iff.mp ha
  obtain ⟨above', line', rest', name', hlines, hunit', rfl⟩ :=
    mem_scanFrom_iff.mp hb
  have hlength : above.length = above'.length := by
    have hstarts : 0 + above.length + 1 = 0 + above'.length + 1 := h
    omega
  obtain ⟨rfl, htail⟩ := List.append_inj hlines hlength
  obtain ⟨rfl, rfl⟩ := List.cons.inj htail
  cases hunit.symm.trans hunit'
  rfl

/-! ## Blocks of a text -/

/-- The line that a block starts on. -/
def openingLine? (content : Text) (block : Block) : Option Text :=
  (Text.lines content)[block.startLine - 1]?

/-- Whether a block lies within another one. -/
def Encloses (outer inner : Block) : Prop :=
  outer.startLine ≤ inner.startLine ∧ inner.endLine ≤ outer.endLine

/-- Whether a block ends before another one starts. -/
def Precedes (first second : Block) : Prop :=
  first.endLine < second.startLine

theorem endLine_le_of_mem_scan {language : Language} {marks : BlockMarks}
    (hmarks : BlockMarks.ofLanguage? language = some marks) {content : Text}
    {outer inner : Block} (houter : outer ∈ scan content (some language))
    (hinner : inner ∈ scan content (some language))
    (hstart : outer.startLine < inner.startLine)
    (hwithin : inner.startLine ≤ outer.endLine)
    (hbody : ∃ line, inner.openingLine? content = some line
      ∧ (marks.isOneLiner line = true ∨ marks.openers line ≠ [])) :
    inner.endLine ≤ outer.endLine := by
  rw [scan_eq hmarks] at houter hinner
  refine endLine_le_of_mem_scanFrom houter hinner hstart hwithin ?_
  obtain ⟨line, hline, hopens⟩ := hbody
  refine ⟨marks.profile line, ?_, hopens.imp_right List.length_pos_iff.mpr⟩
  rw [List.getElem?_map]
  exact congrArg (Option.map marks.profile) hline

/-- A block starts on a line that starts a unit. -/
theorem exists_openingLine {language : Language} {marks : BlockMarks}
    (hmarks : BlockMarks.ofLanguage? language = some marks) {content : Text}
    {block : Block} (h : block ∈ scan content (some language)) :
    ∃ line, block.openingLine? content = some line
      ∧ marks.unitName line = some block.name := by
  rw [scan_eq hmarks] at h
  obtain ⟨above, line, rest, name, hlines, hunit, rfl⟩ := mem_scanFrom_iff.mp h
  have hplace : ((Text.lines content).map marks.profile)[above.length]?
      = some line := by
    rw [hlines]
    simp
  rw [List.getElem?_map, Option.map_eq_some_iff] at hplace
  obtain ⟨text, htext, rfl⟩ := hplace
  refine ⟨text, ?_, hunit⟩
  show (Text.lines content)[0 + above.length + 1 - 1]? = some text
  rwa [Nat.zero_add, Nat.add_sub_cancel]

/-- In Ruby, a block that starts within another one ends within it. -/
theorem endLine_le_of_ruby {content : Text} {outer inner : Block}
    (houter : outer ∈ scan content (some .ruby))
    (hinner : inner ∈ scan content (some .ruby))
    (hstart : outer.startLine < inner.startLine)
    (hwithin : inner.startLine ≤ outer.endLine) :
    inner.endLine ≤ outer.endLine := by
  obtain ⟨line, hline, hunit⟩ := exists_openingLine rfl hinner
  refine endLine_le_of_mem_scan rfl houter hinner hstart hwithin
    ⟨line, hline, ?_⟩
  have hnamed : BlockMarks.ruby.unitName line ≠ none := by
    rw [hunit]
    exact nofun
  exact (BlockMarks.isOneLiner_or_mem_openers hnamed).imp_right
    List.ne_nil_of_mem

/-- Blocks of Ruby are nested or apart. -/
theorem nested_or_apart {content : Text} {a b : Block}
    (ha : a ∈ scan content (some .ruby)) (hb : b ∈ scan content (some .ruby)) :
    a.Precedes b ∨ b.Precedes a ∨ a.Encloses b ∨ b.Encloses a := by
  rcases Nat.lt_trichotomy a.startLine b.startLine with hlt | heq | hgt
  · by_cases hwithin : b.startLine ≤ a.endLine
    · exact .inr (.inr (.inl
        ⟨Nat.le_of_lt hlt, endLine_le_of_ruby ha hb hlt hwithin⟩))
    · exact .inl (Nat.lt_of_not_le hwithin)
  · have hsame : a = b := by
      rw [scan_eq rfl] at ha hb
      exact eq_of_startLine_eq ha hb heq
    rw [hsame]
    exact .inr (.inr (.inl ⟨Nat.le_refl _, Nat.le_refl _⟩))
  · by_cases hwithin : a.startLine ≤ b.endLine
    · exact .inr (.inr (.inr
        ⟨Nat.le_of_lt hgt, endLine_le_of_ruby hb ha hgt hwithin⟩))
    · exact .inr (.inl (Nat.lt_of_not_le hwithin))

/-- **BLOCKS NEST**: of two blocks of a text, one that starts within the
    other and whose first line ends a unit or opens a block ends within the
    other.  In Ruby every line that starts a unit is of that kind, so blocks
    are nested or apart, whatever the text. -/
theorem scan_nests :
    (∀ (language : Language) (marks : BlockMarks),
      BlockMarks.ofLanguage? language = some marks →
      ∀ content : Text, ∀ outer ∈ scan content (some language),
        ∀ inner ∈ scan content (some language),
          outer.startLine < inner.startLine →
          inner.startLine ≤ outer.endLine →
          (∃ line, inner.openingLine? content = some line
            ∧ (marks.isOneLiner line = true ∨ marks.openers line ≠ [])) →
          inner.endLine ≤ outer.endLine)
      ∧ (∀ line, BlockMarks.ruby.unitName line ≠ none →
        BlockMarks.ruby.isOneLiner line = true
          ∨ .defWord ∈ BlockMarks.ruby.openers line)
      ∧ ∀ content : Text, ∀ a ∈ scan content (some .ruby),
        ∀ b ∈ scan content (some .ruby),
          a.Precedes b ∨ b.Precedes a ∨ a.Encloses b ∨ b.Encloses a := by
  refine ⟨?_, ?_, ?_⟩
  · intro language marks hmarks content outer houter inner hinner hstart hwithin
      hbody
    exact endLine_le_of_mem_scan hmarks houter hinner hstart hwithin hbody
  · intro line hunit
    exact BlockMarks.isOneLiner_or_mem_openers hunit
  · intro content a ha b hb
    exact nested_or_apart ha hb

/-- A function that is never closed, around one that is. -/
def unclosedScript : Text := "function a() \x7b\n function b() \x7b\n \x7d\n".toList

/-- The inner function ends within the outer one, which has no end of its
    own. -/
theorem scan_unclosedScript_nests :
    ∃ outer ∈ scan unclosedScript (some .javascript),
      ∃ inner ∈ scan unclosedScript (some .javascript),
        (outer.startLine < inner.startLine ∧ inner.startLine ≤ outer.endLine
          ∧ inner.openingLine? unclosedScript = some " function b() \x7b".toList
          ∧ BlockMarks.script.openers " function b() \x7b".toList ≠ [])
        ∧ inner.endLine ≤ outer.endLine := by
  obtain ⟨outer, houter, inner, hinner, hboth⟩ :
      ∃ outer ∈ scan unclosedScript (some .javascript),
        ∃ inner ∈ scan unclosedScript (some .javascript),
          outer.startLine < inner.startLine ∧ inner.startLine ≤ outer.endLine
            ∧ inner.openingLine? unclosedScript = some " function b() \x7b".toList
            ∧ BlockMarks.script.openers " function b() \x7b".toList ≠ [] := by
    decide +kernel
  refine ⟨outer, houter, inner, hinner, hboth, ?_⟩
  obtain ⟨hstart, hwithin, hline, hopens⟩ := hboth
  exact scan_nests.1 .javascript .script rfl unclosedScript outer houter inner
    hinner hstart hwithin ⟨_, hline, .inr hopens⟩

end Block

end CodeReview

import CodeReview.Proofs.BlockEnds
import CodeReview.Proofs.Stretches

/-! # Blocks and their ends on demand

    A scan sums up every line once and sweeps over the summaries; a
    detector that needs the end of a block asks for it on demand.  Both see
    the same blocks (`scan_onDemand`): a scan finds what one gets from the
    lines that name a unit, the end of each found on demand and its span
    checked. -/

namespace CodeReview

namespace Block

/-! ## Blocks on demand -/

/-- The lines that start a unit, where they follow a number of others: the
    name of the unit, and the index of the line. -/
def unitStarts (marks : BlockMarks) (before : Nat) (lines : List Text) :
    List (String × Nat) :=
  (lines.zipIdx before).filterMap fun x => (marks.unitName x.1).map (·, x.2)

theorem unitStarts_cons (marks : BlockMarks) (before : Nat) (line : Text)
    (rest : List Text) :
    unitStarts marks before (line :: rest)
      = ((marks.unitName line).map (·, before)).toList
        ++ unitStarts marks (before + 1) rest := by
  rw [unitStarts, List.zipIdx_cons, List.filterMap_cons]
  cases marks.unitName line with
  | none => rfl
  | some name => rfl

/-- The lines from one index up to another one. -/
def linesBetween (lines : List Text) (first last : Nat) : List Text :=
  (lines.drop first).take (last + 1 - first)

/-- The block of a unit, its end found on demand and its span checked. -/
def onDemand? (marks : BlockMarks) (lines : List Text)
    (unit : String × Nat) : Option Block := do
  let last ← endIndex? marks lines unit.2
  (ofSpan unit.1 (unit.2 + 1) (last + 1)
    (Text.unlines (linesBetween lines unit.2 last))).toOption

/-- On demand one gets the block that a scan makes of the same lines. -/
theorem onDemand?_eq (marks : BlockMarks) (above : List Text) (line : Text)
    (rest : List Text) (name : String) :
    onDemand? marks (above ++ line :: rest) (name, above.length)
      = some (ofUnit above.length name ((line :: rest).map marks.profile)) := by
  have hlt : above.length < (above ++ line :: rest).length := by simp
  have hdrop : (above ++ line :: rest).drop above.length = line :: rest :=
    List.drop_left
  have hspan : (1 : Int) ≤ above.length + 1
      ∧ (above.length : Int) + 1
        ≤ ((above.length + span ((line :: rest).map marks.profile) : Nat) : Int)
          + 1 := by omega
  have htake : above.length + span ((line :: rest).map marks.profile) + 1
      - above.length = span ((line :: rest).map marks.profile) + 1 := by omega
  -- profiles keep the texts of their lines, so the body is the same
  have htexts : (((line :: rest).map marks.profile).take
        (span ((line :: rest).map marks.profile) + 1)).map LineProfile.text
      = (line :: rest).take (span ((line :: rest).map marks.profile) + 1) := by
    rw [← List.map_take, List.map_map]
    exact List.map_id _
  rw [onDemand?, endIndex?_eq_span marks hlt, hdrop]
  show (ofSpan _ _ _ _).toOption = _
  rw [ofSpan, dif_pos hspan, linesBetween, hdrop, htake]
  refine congrArg some ?_
  unfold ofUnit
  congr 1
  · show Int.toNat _ = _
    omega
  · rw [htexts]

/-- **ONE PASS, UNIT BY UNIT**: scanning the lines that follow others gives
    the blocks of their units on demand. -/
theorem mapM_onDemand? (marks : BlockMarks) (rest : List Text) :
    ∀ above : List Text,
      (unitStarts marks above.length rest).mapM
          (onDemand? marks (above ++ rest))
        = some (scanFrom above.length (rest.map marks.profile)) := by
  induction rest with
  | nil => intro above; rfl
  | cons line rest ih =>
      intro above
      have hrest := ih (above ++ [line])
      rw [List.length_append, List.length_singleton, List.append_assoc,
        List.singleton_append] at hrest
      have hprofile : (marks.profile line).unit = marks.unitName line := rfl
      rw [unitStarts_cons, List.map_cons, scanFrom, hprofile]
      cases marks.unitName line with
      | none => exact hrest
      | some name =>
          show ((name, above.length)
            :: unitStarts marks (above.length + 1) rest).mapM _ = _
          rw [List.mapM_cons, onDemand?_eq, hrest]
          rfl

/-- The units of a scan are those of the lines, with their places. -/
theorem map_unit_scanFrom (marks : BlockMarks) (rest : List Text) :
    ∀ before : Nat, (scanFrom before (rest.map marks.profile)).map
        (fun block => (block.name, block.startLine - 1))
      = unitStarts marks before rest := by
  induction rest with
  | nil => intro before; rfl
  | cons line rest ih =>
      intro before
      have hprofile : (marks.profile line).unit = marks.unitName line := rfl
      rw [unitStarts_cons, List.map_cons, scanFrom, hprofile, ← ih]
      cases marks.unitName line with
      | none => rfl
      | some name => rfl

/-- Blocks are found in the order of their first lines. -/
theorem pairwise_scanFrom (lines : List LineProfile) :
    ∀ before, (scanFrom before lines).Pairwise
      (·.startLine < ·.startLine) := by
  induction lines with
  | nil => intro before; exact .nil
  | cons line rest ih =>
      intro before
      rw [scanFrom]
      split
      · exact ih (before + 1)
      · refine List.pairwise_cons.mpr ⟨?_, ih (before + 1)⟩
        intro block hblock
        exact lt_startLine_of_mem_scanFrom hblock

/-- Whether a block is that of a unit of some lines: it has a name, lies
    within the lines, ends where the end on demand is, and holds its
    lines. -/
structure IsUnitOf (marks : BlockMarks) (lines : List Text) (block : Block) :
    Prop where
  name_ne_empty : block.name ≠ ""
  one_le_start : 1 ≤ block.startLine
  start_le_end : block.startLine ≤ block.endLine
  end_le_length : block.endLine ≤ lines.length
  end_eq : endIndex? marks lines (block.startLine - 1)
    = some (block.endLine - 1)
  body_eq : block.body = Text.unlines
    (linesBetween lines (block.startLine - 1) (block.endLine - 1))

/-- A block on demand is that of its unit. -/
theorem isUnitOf_of_onDemand? {marks : BlockMarks} {lines : List Text}
    {name : String} {i : Nat} {block : Block} (hname : name ≠ "")
    (h : onDemand? marks lines (name, i) = some block) :
    block.IsUnitOf marks lines := by
  obtain ⟨last, hlast, hspan⟩ := Option.bind_eq_some_iff.mp h
  have hlt : i < lines.length := by
    refine Nat.lt_of_not_le fun hle => ?_
    rw [endIndex?, endOf?, ← List.map_drop, List.drop_eq_nil_of_le hle] at hlast
    cases hlast
  obtain ⟨_, hsome, hstart, hend, _⟩ := endIndex?_declared marks lines hlt
  cases hlast.symm.trans hsome
  have hvalid : (1 : Int) ≤ i + 1 ∧ (i : Int) + 1 ≤ last + 1 := by omega
  rw [ofSpan, dif_pos hvalid] at hspan
  cases hspan
  constructor
  · exact hname
  · exact Block.start_pos _
  · exact Block.start_le_end _
  · show ((last : Int) + 1).toNat ≤ lines.length
    omega
  · exact hlast
  · rfl

theorem isUnitOf_of_mem_scanFrom {language : Language} {marks : BlockMarks}
    (hmarks : BlockMarks.ofLanguage? language = some marks)
    {lines : List Text} {block : Block}
    (h : block ∈ scanFrom 0 (lines.map marks.profile)) :
    block.IsUnitOf marks lines := by
  obtain ⟨front, line, rest, name, hlines, hunit, rfl⟩ :=
    mem_scanFrom_iff.mp h
  obtain ⟨above, behind, rfl, rfl, hbehind⟩ := List.map_eq_append_iff.mp hlines
  obtain ⟨text, texts, rfl, rfl, rfl⟩ := List.map_eq_cons_iff.mp hbehind
  have hdemand := onDemand?_eq marks above text texts name
  rw [List.length_map, Nat.zero_add]
  exact isUnitOf_of_onDemand? (BlockMarks.unitName_ne_empty hmarks hunit)
    hdemand

/-- **SCANNING ON DEMAND**: where a language has blocks, a scan finds one
    for each line that names a unit and no other, in the order of the
    lines; it is the block that one gets on demand, with its end looked up
    and its span checked, and none of these checks fails. -/
theorem scan_onDemand {language : Language} {marks : BlockMarks}
    (hmarks : BlockMarks.ofLanguage? language = some marks) (content : Text) :
    let lines := Text.lines content
    let blocks := scan content (some language)
    (unitStarts marks 0 lines).mapM (onDemand? marks lines) = some blocks
      ∧ blocks.map (fun block => (block.name, block.startLine - 1))
        = unitStarts marks 0 lines
      ∧ blocks.Pairwise (·.startLine < ·.startLine)
      ∧ ∀ block ∈ blocks, block.IsUnitOf marks lines := by
  intro lines blocks
  have hblocks : blocks = scanFrom 0 (lines.map marks.profile) :=
    scan_eq hmarks content
  rw [hblocks]
  refine ⟨mapM_onDemand? marks lines [], map_unit_scanFrom marks lines 0,
    pairwise_scanFrom _ 0, ?_⟩
  intro block hblock
  exact isUnitOf_of_mem_scanFrom hmarks hblock

/-- A method that is never closed, around two others. -/
def nestedMethods : Text :=
  "def total\n  def size() = 3\n  def area\n    1\n  end\n".toList

/-- The outer method goes to the last line, like its end on demand. -/
theorem scan_nestedMethods_onDemand :
    BlockMarks.ofLanguage? .ruby = some .ruby
      ∧ (unitStarts .ruby 0 (Text.lines nestedMethods)).mapM
          (onDemand? .ruby (Text.lines nestedMethods))
        = some (scan nestedMethods (some .ruby))
      ∧ (scan nestedMethods (some .ruby)).map
          (fun block => (block.name, block.startLine - 1))
        = [("total", 0), ("size", 1), ("area", 2)]
      ∧ endIndex? .ruby (Text.lines nestedMethods) 0 = some 4 := by
  obtain ⟨hdemand, hunits, _, _⟩ := scan_onDemand
    (show BlockMarks.ofLanguage? .ruby = some .ruby from rfl) nestedMethods
  refine ⟨rfl, hdemand, ?_, by decide +kernel⟩
  rw [hunits]
  decide +kernel

end Block

end CodeReview

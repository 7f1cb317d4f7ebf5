import CodeReview.Proofs.Frozen
import CodeReview.Result.Display
import Mathlib.Data.List.ProdSigma

/-! # Display sections

    A section shows the first findings of one category and severity, and
    counts the others.  There is a section exactly where there are findings
    (`map_kind_all`), and what it shows and what it counts make up all of
    them (`accounts_cut`).  So the sections of a category account for its
    bucket, whatever the limit (`sum_findings_ofCategory`). -/

namespace CodeReview

namespace ReviewResult

/-- The findings of a severity in the bucket of a category. -/
def matching (r : ReviewResult) (category : Category)
    (severity : Severity) : List Finding :=
  (r.bucket category).filter (·.severity = severity)

/-- Whether a severity occurs in the bucket of a category. -/
def occurs (r : ReviewResult) (kind : Category × Severity) : Bool :=
  (r.bucket kind.1).any (·.severity = kind.2)

/-- A section is empty exactly if its category and severity do not occur. -/
theorem matching_eq_nil_iff {r : ReviewResult} {category : Category}
    {severity : Severity} :
    r.matching category severity = []
      ↔ r.occurs (category, severity) = false := by
  rw [matching, occurs, List.filter_eq_nil_iff, List.any_eq_false]

/-- The severities account for a bucket. -/
theorem sum_length_matching (r : ReviewResult) (category : Category) :
    (Severity.all.map fun severity =>
        (r.matching category severity).length).sum
      = (r.bucket category).length := by
  have hsorted : (Aggregator.sortBySeverity (r.bucket category)).length
      = (r.bucket category).length :=
    List.length_mergeSort _
  rw [Aggregator.sortBySeverity_eq_flatMap, List.length_flatMap] at hsorted
  exact hsorted

end ReviewResult

namespace DisplaySection

open ReviewResult

/-! ## One section -/

/-- No more findings are shown than there are. -/
theorem limited_le (number : Nat) (limit : Int) :
    limited number limit ≤ number := by
  rw [limited]
  split
  · omega
  · exact Nat.min_le_left _ _

/-- A limit that is not negative cuts at its own value. -/
theorem limited_of_nonneg {limit : Int} (h : 0 ≤ limit) (number : Nat) :
    limited number limit = min limit.toNat number := by
  rw [limited, if_neg (Int.not_lt.mpr h), Nat.min_comm]

/-- What a section is about. -/
def kind (s : DisplaySection) : Category × Severity := (s.category, s.severity)

/-- The number of findings that a section accounts for. -/
def findings (s : DisplaySection) : Nat := s.shown.length + s.hidden

/-- The section of a category and severity that has findings. -/
def cut (r : ReviewResult) (limit : Int) (category : Category)
    (severity : Severity) : DisplaySection :=
  let found := r.matching category severity
  let count := limited found.length limit
  ⟨category, severity, found.take count, found.length - count⟩

/-- There is a section for a category and a severity exactly if they occur
    together. -/
theorem of?_eq (r : ReviewResult) (limit : Int) (category : Category)
    (severity : Severity) :
    of? r limit category severity
      = if r.occurs (category, severity) then
          some (cut r limit category severity)
        else none := by
  rw [of?, cut, matching]
  split
  · rename_i hnil
    rw [matching_eq_nil_iff.mp hnil]
    rfl
  · rename_i hne
    rw [if_pos]
    by_contra hfalse
    exact hne (matching_eq_nil_iff.mpr (Bool.eq_false_of_not_eq_true hfalse))

/-- What a section says about the findings of its category and severity. -/
structure Accounts (r : ReviewResult) (limit : Int) (s : DisplaySection) :
    Prop where
  /-- It shows the first of them, in the order of the bucket. -/
  shown_isPrefix : s.shown <+: r.matching s.category s.severity
  /-- Those it shows and those it counts are all of them. -/
  findings_eq : s.shown.length + s.hidden
    = (r.matching s.category s.severity).length
  /-- It shows as many as the limit allows. -/
  length_shown : 0 ≤ limit → s.shown.length
    = min limit.toNat (r.matching s.category s.severity).length

/-- A section shows the first findings and counts those that it hides. -/
theorem accounts_cut (r : ReviewResult) (limit : Int) (category : Category)
    (severity : Severity) :
    (cut r limit category severity).Accounts r limit := by
  have hle := limited_le (r.matching category severity).length limit
  have hlength : (cut r limit category severity).shown.length
      = limited (r.matching category severity).length limit :=
    List.length_take_of_le hle
  refine ⟨List.take_prefix _ _, ?_, ?_⟩
  · rw [hlength]
    exact Nat.add_sub_cancel' hle
  · intro hlimit
    rw [hlength]
    exact limited_of_nonneg hlimit _

/-! ## The sections of a category and of a result -/

/-- The sections of a category are those of its severities that occur, in
    their order. -/
theorem ofCategory_eq (r : ReviewResult) (limit : Int) (category : Category) :
    ofCategory r limit category
      = (Severity.all.filter fun severity =>
          r.occurs (category, severity)).map (cut r limit category) := by
  have hof : of? r limit category = fun severity =>
      if r.occurs (category, severity) then
        (some ∘ cut r limit category) severity
      else none := by
    funext severity
    exact of?_eq r limit category severity
  rw [ofCategory, hof, ← List.filterMap_filter, List.filterMap_eq_map]

/-- The sections of a category account for its bucket: a severity without a
    section has no findings. -/
theorem sum_findings_ofCategory (r : ReviewResult) (limit : Int)
    (category : Category) :
    ((ofCategory r limit category).map findings).sum
      = (r.bucket category).length := by
  have hcut : findings ∘ cut r limit category = fun severity =>
      (r.matching category severity).length := by
    funext severity
    exact (accounts_cut r limit category severity).findings_eq
  have hsum (severities : List Severity) :
      ((severities.filter fun severity => r.occurs (category, severity)).map
          fun severity => (r.matching category severity).length).sum
        = (severities.map fun severity =>
            (r.matching category severity).length).sum := by
    induction severities with
    | nil => rfl
    | cons severity rest ih =>
        cases hoccurs : r.occurs (category, severity) with
        | true => simp [hoccurs, ih]
        | false => simp [hoccurs, matching_eq_nil_iff.mpr hoccurs, ih]
  rw [ofCategory_eq, List.map_map, hcut, hsum, sum_length_matching]

/-- Each section of a category is of a severity of its own. -/
theorem map_kind_ofCategory (r : ReviewResult) (limit : Int)
    (category : Category) :
    (ofCategory r limit category).map kind
      = (Severity.all.map (category, ·)).filter r.occurs := by
  rw [ofCategory_eq, List.map_map, List.filter_map]
  rfl

/-- **SECTIONS**: there is one section for each category and severity that
    occurs, category by category, the most severe first. -/
theorem map_kind_all (r : ReviewResult) (limit : Int) :
    (all r limit).map kind
      = (Category.all ×ˢ Severity.all).filter r.occurs := by
  rw [all, List.map_flatMap]
  simp only [map_kind_ofCategory]
  exact List.filter_flatMap.symm

/-- Each section accounts for its category and severity. -/
theorem accounts_of_mem_all {r : ReviewResult} {limit : Int}
    {s : DisplaySection} (h : s ∈ all r limit) : s.Accounts r limit := by
  obtain ⟨category, _, hs⟩ := List.mem_flatMap.mp h
  rw [ofCategory_eq] at hs
  obtain ⟨severity, _, rfl⟩ := List.mem_map.mp hs
  exact accounts_cut r limit category severity

/-- No category and severity has two sections. -/
theorem nodup_kind_all (r : ReviewResult) (limit : Int) :
    ((all r limit).map kind).Nodup := by
  have hpairs : (Category.all ×ˢ Severity.all).Nodup :=
    List.Nodup.product (by decide) (by decide)
  rw [map_kind_all]
  exact List.filter_sublist.nodup hpairs

/-- The sections of a category are those of the result that are about
    it. -/
theorem filter_category_all (r : ReviewResult) (limit : Int)
    (category : Category) :
    (all r limit).filter (·.category = category)
      = ofCategory r limit category := by
  have hown (c : Category) :
      (ofCategory r limit c).filter (·.category = category)
        = if c = category then ofCategory r limit category else [] := by
    rw [ofCategory_eq, List.filter_map]
    split
    · rename_i heq
      subst heq
      simp [cut, ofCategory_eq, Function.comp_def]
    · rename_i hne
      simp [cut, hne, Function.comp_def]
  rw [all, List.filter_flatMap]
  simp only [hown]
  cases category <;> simp [Category.all]

/-! ## Frozen results -/

/-- What the sections of a category show comes severity by severity, each in
    the order of the bucket. -/
theorem shown_sublist (r : ReviewResult) (limit : Int) (category : Category) :
    ((ofCategory r limit category).flatMap shown).Sublist
      (Severity.all.flatMap (r.matching category)) := by
  rw [ofCategory_eq]
  induction Severity.all with
  | nil => exact List.Sublist.slnil
  | cons severity rest ih =>
      rw [List.flatMap_cons]
      have hshown := (accounts_cut r limit category severity).shown_isPrefix
      cases hoccurs : r.occurs (category, severity) with
      | true =>
          rw [List.filter_cons, hoccurs, if_pos rfl, List.map_cons,
            List.flatMap_cons]
          exact hshown.sublist.append ih
      | false =>
          rw [List.filter_cons, hoccurs, if_neg Bool.false_ne_true]
          exact ih.trans (List.sublist_append_right _ _)

/-- The bucket of a frozen result is in the order of the severities. -/
theorem flatMap_matching_freeze (a : Aggregator) (category : Category) :
    Severity.all.flatMap (a.freeze.matching category)
      = a.freeze.bucket category := by
  have hbucket : a.freeze.bucket category
      = Aggregator.shelf a.kept category :=
    Aggregator.getD_lookup_buckets a.kept category
  have hmatching : a.freeze.matching category = fun severity =>
      (a.kept.filter (·.category = category)).filter
        (·.severity = severity) := by
    funext severity
    rw [matching, hbucket, Aggregator.shelf, Aggregator.filter_sortBySeverity]
  rw [hmatching, hbucket, Aggregator.shelf,
    Aggregator.sortBySeverity_eq_flatMap]

end DisplaySection

end CodeReview

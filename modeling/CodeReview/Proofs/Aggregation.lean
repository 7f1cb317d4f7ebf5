import CodeReview.Proofs.Distinct

/-! # What a result holds

    A bucket lists the findings of its category severity by severity, each
    in the order they were kept (`sortBySeverity_eq_flatMap`).  So a result
    depends only on the findings of each class, a category and a severity:
    lists that agree class by class (`Finding.SameClasses`) have the same
    buckets and the same counts, and the findings read back from a result
    agree with those that were kept. -/

namespace CodeReview

/-- What the entries hold that some of the elements come to. -/
theorem flatMap_filterMap {α β : Type} (f : α → Option β)
    (g : β → List Finding) (xs : List α) :
    (xs.filterMap f).flatMap g = xs.flatMap fun x => (f x).elim [] g := by
  induction xs with
  | nil => rfl
  | cons x xs ih =>
      rw [List.flatMap_cons, ← ih]
      cases hx : f x with
      | none => rw [List.filterMap_cons_none hx]; rfl
      | some y => rw [List.filterMap_cons_some hx]; rfl

namespace Finding

/-- Whether a finding has a category and a severity. -/
def isIn (category : Category) (severity : Severity) (f : Finding) : Bool :=
  f.category = category && f.severity = severity

/-- Two lists hold the same findings of each category and severity, in the
    same order. -/
def SameClasses (xs ys : List Finding) : Prop :=
  ∀ category severity,
    xs.filter (isIn category severity) = ys.filter (isIn category severity)

/-- Findings of a category and a severity can be picked out one criterion
    after the other. -/
theorem filter_isIn (category : Category) (severity : Severity)
    (findings : List Finding) :
    findings.filter (isIn category severity)
      = (findings.filter (·.category = category)).filter
          (·.severity = severity) := by
  rw [List.filter_filter]
  refine List.filter_congr ?_
  intro f _
  exact Bool.and_comm _ _

namespace SameClasses

theorem refl (xs : List Finding) : SameClasses xs xs := fun _ _ => rfl

theorem trans {xs ys zs : List Finding} (h : SameClasses xs ys)
    (h' : SameClasses ys zs) : SameClasses xs zs :=
  fun category severity => (h category severity).trans (h' category severity)

/-- Lists in the same classes stay so behind one another. -/
theorem append {xs ys xs' ys' : List Finding} (h : SameClasses xs ys)
    (h' : SameClasses xs' ys') : SameClasses (xs ++ xs') (ys ++ ys') := by
  intro category severity
  rw [List.filter_append, List.filter_append, h, h']

/-- Lists in the same classes stay so under any test, since a class keeps
    its order. -/
theorem filter {xs ys : List Finding} (h : SameClasses xs ys)
    (test : Finding → Bool) :
    SameClasses (xs.filter test) (ys.filter test) := by
  intro category severity
  have hswap (fs : List Finding) :
      (fs.filter test).filter (isIn category severity)
        = (fs.filter (isIn category severity)).filter test := by
    rw [List.filter_filter, List.filter_filter]
    simp only [Bool.and_comm]
  rw [hswap, hswap, h]

/-- Lists that agree class by class are rearrangements of each other. -/
theorem perm {xs ys : List Finding} (h : SameClasses xs ys) : xs.Perm ys := by
  refine List.perm_iff_count.mpr ?_
  intro f
  have hclass (fs : List Finding) :
      fs.count f = (fs.filter (isIn f.category f.severity)).count f := by
    refine (List.count_filter ?_).symm
    simp [isIn]
  rw [hclass xs, hclass ys, h]

/-- Lists in the same classes have the same keys. -/
theorem mem_keys_iff {xs ys : List Finding} (h : SameClasses xs ys)
    {key : Key} :
    key ∈ xs.map Finding.key ↔ key ∈ ys.map Finding.key :=
  (h.perm.map Finding.key).mem_iff

/-- Lists in the same classes repeat the same keys. -/
theorem nodup_keys {xs ys : List Finding} (h : SameClasses xs ys)
    (hys : (ys.map Finding.key).Nodup) : (xs.map Finding.key).Nodup :=
  (h.perm.map Finding.key).nodup_iff.mpr hys

/-- The first of each key, with the same findings behind. -/
theorem distinct_append_right {xs ys : List Finding}
    (h : SameClasses (distinct xs) (distinct ys)) (zs : List Finding) :
    SameClasses (distinct (xs ++ zs)) (distinct (ys ++ zs)) := by
  have hkeys (key : Key) :
      key ∈ xs.map Finding.key ↔ key ∈ ys.map Finding.key := by
    rw [← mem_keys_distinct, h.mem_keys_iff, mem_keys_distinct]
  rw [distinct_append, distinct_append]
  simp only [hkeys]
  exact h.append (refl _)

/-- The first of each key, with the same findings in front. -/
theorem distinct_append_left {xs ys : List Finding}
    (h : SameClasses (distinct xs) (distinct ys)) (zs : List Finding) :
    SameClasses (distinct (zs ++ xs)) (distinct (zs ++ ys)) := by
  rw [distinct_append, distinct_append]
  exact (refl _).append (h.filter _)

/-- Taking the first of each key keeps the agreement, part by part, where
    no part repeats a key. -/
theorem distinct_flatMap {α : Type} {part part' : α → List Finding}
    {xs : List α} (h : ∀ x ∈ xs, SameClasses (part x) (part' x))
    (hkeys : ∀ x ∈ xs, ((part' x).map Finding.key).Nodup) :
    SameClasses (distinct (xs.flatMap part)) (distinct (xs.flatMap part')) := by
  induction xs with
  | nil => exact refl _
  | cons x xs ih =>
      have hx := h x List.mem_cons_self
      have hx' := hkeys x List.mem_cons_self
      -- neither part repeats a key, so both are kept whole
      have hpart : SameClasses (distinct (part x)) (distinct (part' x)) := by
        rw [distinct_eq_self (hx.nodup_keys hx'), distinct_eq_self hx']
        exact hx
      have hrest := ih (fun y hy => h y (List.mem_cons_of_mem _ hy))
        (fun y hy => hkeys y (List.mem_cons_of_mem _ hy))
      rw [List.flatMap_cons, List.flatMap_cons]
      exact (hpart.distinct_append_right _).trans (hrest.distinct_append_left _)

end SameClasses

end Finding

namespace Aggregator

open Finding

/-! ## Order within a bucket -/

private theorem rank_trans (f g h : Finding)
    (hfg : decide (f.severity.rank ≤ g.severity.rank) = true)
    (hgh : decide (g.severity.rank ≤ h.severity.rank) = true) :
    decide (f.severity.rank ≤ h.severity.rank) = true :=
  decide_eq_true
    (Nat.le_trans (of_decide_eq_true hfg) (of_decide_eq_true hgh))

private theorem rank_total (f g : Finding) :
    (decide (f.severity.rank ≤ g.severity.rank)
      || decide (g.severity.rank ≤ f.severity.rank)) = true := by
  rw [Bool.or_eq_true, decide_eq_true_eq, decide_eq_true_eq]
  exact Nat.le_total _ _

/-- Ordering by severity is stable. -/
theorem filter_sortBySeverity (severity : Severity)
    (findings : List Finding) :
    (sortBySeverity findings).filter (·.severity = severity)
      = findings.filter (·.severity = severity) := by
  have hsorted : (findings.filter (·.severity = severity)).Pairwise
      fun f g => decide (f.severity.rank ≤ g.severity.rank) = true := by
    refine List.pairwise_of_forall_mem_list ?_
    intro f hf g hg
    rw [of_decide_eq_true (List.mem_filter.mp hf).2,
      of_decide_eq_true (List.mem_filter.mp hg).2]
    exact decide_eq_true (Nat.le_refl _)
  -- findings of one severity are in order already, so the sort keeps them
  have hsub : (findings.filter (·.severity = severity)).Sublist
      (sortBySeverity findings) :=
    List.sublist_mergeSort rank_trans rank_total hsorted List.filter_sublist
  have hlength : (findings.filter (·.severity = severity)).length
      = ((sortBySeverity findings).filter (·.severity = severity)).length :=
    ((List.mergeSort_perm findings _).filter _).length_eq.symm
  have hfilter := hsub.filter (·.severity = severity)
  simp only [List.filter_filter, Bool.and_self] at hfilter
  exact (hfilter.eq_of_length hlength).symm

/-- A list in order of severity is its critical findings, then its
    warnings, then its suggestions. -/
private theorem eq_flatMap_of_sorted {findings : List Finding}
    (h : findings.Pairwise fun f g => f.severity.rank ≤ g.severity.rank) :
    findings
      = Severity.all.flatMap fun severity =>
          findings.filter (·.severity = severity) := by
  induction findings with
  | nil => rfl
  | cons f rest ih =>
      rw [List.pairwise_cons] at h
      have hrest := ih h.2
      -- what is more severe than the first finding does not come later
      have hnone (severity : Severity)
          (hlt : severity.rank < f.severity.rank) :
          rest.filter (·.severity = severity) = [] := by
        refine List.filter_eq_nil_iff.mpr ?_
        intro g hg heq
        have hle := h.1 g hg
        rw [of_decide_eq_true heq] at hle
        exact absurd hlt (Nat.not_lt.mpr hle)
      simp only [Severity.all, List.flatMap_cons, List.flatMap_nil,
        List.append_nil] at hrest ⊢
      cases hf : f.severity with
      | critical => simpa [hf] using hrest
      | warning =>
          have hcritical := hnone .critical (by rw [hf]; decide)
          rw [hcritical, List.nil_append] at hrest
          simpa [hf, hcritical] using hrest
      | suggestion =>
          have hcritical := hnone .critical (by rw [hf]; decide)
          have hwarning := hnone .warning (by rw [hf]; decide)
          rw [hcritical, hwarning, List.nil_append, List.nil_append] at hrest
          simpa [hf, hcritical, hwarning] using hrest

/-- Ordering by severity puts the severities one after the other and keeps
    the order within each. -/
theorem sortBySeverity_eq_flatMap (findings : List Finding) :
    sortBySeverity findings
      = Severity.all.flatMap fun severity =>
          findings.filter (·.severity = severity) := by
  have hsorted : (sortBySeverity findings).Pairwise
      fun f g => f.severity.rank ≤ g.severity.rank :=
    (List.pairwise_mergeSort rank_trans rank_total findings).imp
      of_decide_eq_true
  refine (eq_flatMap_of_sorted hsorted).trans ?_
  simp only [filter_sortBySeverity]

/-! ## Buckets and counts -/

/-- The findings of a category, in the order of its bucket. -/
def shelf (findings : List Finding) (category : Category) : List Finding :=
  sortBySeverity (findings.filter (·.category = category))

/-- The entry of a category in the buckets, if it has findings. -/
def bucketOf? (findings : List Finding) (category : Category) :
    Option (Category × List Finding) :=
  if shelf findings category = [] then none
  else some (category, shelf findings category)

/-- There is a bucket for each category that occurs, in the order of the
    categories. -/
theorem buckets_eq (findings : List Finding) :
    buckets findings = Category.all.filterMap (bucketOf? findings) := by
  rw [buckets]
  congr 1
  funext category
  rw [bucketOf?, shelf]
  split
  · rename_i hnil
    rw [hnil, if_pos]
    exact List.mergeSort_nil
  · rename_i hne
    rw [if_neg]
    intro hnil
    have hlength := congrArg List.length hnil
    rw [sortBySeverity, List.length_mergeSort] at hlength
    exact hne (List.eq_nil_of_length_eq_zero hlength)

private theorem lookup_entries (findings : List Finding) (category : Category)
    (categories : List Category) :
    ((categories.filterMap (bucketOf? findings)).lookup category).getD []
      = if category ∈ categories then shelf findings category else [] := by
  induction categories with
  | nil => rfl
  | cons c rest ih =>
      by_cases hempty : shelf findings c = []
      · have hentry : bucketOf? findings c = none := if_pos hempty
        rw [List.filterMap_cons_none hentry, ih]
        by_cases hc : category = c
        · rw [hc, hempty, ite_self, ite_self]
        · simp [hc]
      · have hentry : bucketOf? findings c = some (c, shelf findings c) :=
          if_neg hempty
        rw [List.filterMap_cons_some hentry, List.lookup_cons]
        by_cases hc : category = c
        · simp [hc]
        · rw [beq_false_of_ne hc]
          simpa [hc] using ih

/-- The bucket of a category holds its findings. -/
theorem getD_lookup_buckets (findings : List Finding) (category : Category) :
    ((buckets findings).lookup category).getD [] = shelf findings category := by
  rw [buckets_eq, lookup_entries, if_pos (Category.mem_all category)]

/-- The shelf of a category holds the findings of that category. -/
theorem mem_shelf {findings : List Finding} {category : Category}
    {f : Finding} :
    f ∈ shelf findings category ↔ f ∈ findings ∧ f.category = category := by
  rw [shelf, sortBySeverity, List.mem_mergeSort, List.mem_filter,
    decide_eq_true_iff]

private theorem filter_flatMap_shelf (findings : List Finding)
    (category : Category) (severity : Severity)
    (categories : List Category) (hnodup : categories.Nodup) :
    (categories.flatMap (shelf findings)).filter (isIn category severity)
      = if category ∈ categories then findings.filter (isIn category severity)
        else [] := by
  induction categories with
  | nil => rfl
  | cons c rest ih =>
      rw [List.nodup_cons] at hnodup
      rw [List.flatMap_cons, List.filter_append, ih hnodup.2]
      by_cases hc : category = c
      · -- the bucket in question, which comes only once
        subst hc
        have hall : (shelf findings category).filter
            (·.category = category) = shelf findings category := by
          refine List.filter_eq_self.mpr ?_
          intro f hf
          exact decide_eq_true (mem_shelf.mp hf).2
        rw [if_neg hnodup.1, if_pos List.mem_cons_self, List.append_nil,
          filter_isIn, hall, shelf, filter_sortBySeverity, filter_isIn]
      · -- another bucket holds nothing of the category
        have hnone : (shelf findings c).filter (isIn category severity)
            = [] := by
          refine List.filter_eq_nil_iff.mpr ?_
          intro f hf hin
          have hcat : f.category = category :=
            of_decide_eq_true (Bool.and_eq_true _ _ ▸ hin).1
          exact hc (hcat.symm.trans (mem_shelf.mp hf).2)
        rw [hnone, List.nil_append]
        simp [hc]

/-- **READING BACK**: the findings of a result agree, class by class, with
    those it was made of. -/
theorem sameClasses_allFindings {findings : List Finding} {r : ReviewResult}
    (h : r.findings = buckets findings) :
    SameClasses r.allFindings findings := by
  intro category severity
  have hall : r.allFindings = Category.all.flatMap (shelf findings) := by
    rw [ReviewResult.allFindings]
    congr 1
    funext c
    rw [ReviewResult.bucket, h, getD_lookup_buckets]
  rw [hall, filter_flatMap_shelf findings category severity Category.all
    (by decide), if_pos (Category.mem_all category)]

/-- The buckets depend on the classes of the findings only. -/
theorem buckets_congr {xs ys : List Finding} (h : SameClasses xs ys) :
    buckets xs = buckets ys := by
  have hshelf : shelf xs = shelf ys := by
    funext category
    rw [shelf, shelf, sortBySeverity_eq_flatMap, sortBySeverity_eq_flatMap]
    congr 1
    funext severity
    rw [← filter_isIn, ← filter_isIn, h]
  rw [buckets_eq, buckets_eq]
  congr 1
  funext category
  rw [bucketOf?, bucketOf?, hshelf]

/-- The counts depend on the classes of the findings only. -/
theorem countSeverities_congr {xs ys : List Finding} (h : SameClasses xs ys) :
    countSeverities xs = countSeverities ys := by
  rw [countSeverities, countSeverities]
  congr 1
  funext severity
  rw [h.perm.countP_eq]

end Aggregator

namespace ReviewResult

open Finding Aggregator

private theorem kept_merge (results : List ReviewResult) :
    (results.foldl (fun a r => a.add r.allFindings) ({} : Aggregator)).kept
      = distinct (results.flatMap (·.allFindings)) := by
  rw [foldl_add, kept_add_empty]

/-- Merging keeps the first finding of each key, result by result. -/
theorem findings_merge (results : List ReviewResult) :
    (merge results).findings
      = buckets (distinct (results.flatMap (·.allFindings))) := by
  rw [← kept_merge]
  rfl

/-- The counts of merged results are those of their findings. -/
theorem counts_merge (results : List ReviewResult) :
    (merge results).counts
      = countSeverities (distinct (results.flatMap (·.allFindings))) := by
  rw [← kept_merge]
  rfl

end ReviewResult

end CodeReview

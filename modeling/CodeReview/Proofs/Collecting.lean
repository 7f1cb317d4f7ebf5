import CodeReview.Proofs.Frozen
import CodeReview.Result.Collector

/-! # Collecting and aggregating

    What a collector holds is told by the findings that an aggregator keeps
    (`Collects`): the set of seen keys by their keys, the bucket of a
    category by those of them that have it.  Each step keeps this up, so
    both answer alike at every point of a run and come to the same result
    (`collect_refines`). -/

namespace CodeReview

namespace Collector

open Aggregator Finding

/-- Whether a collector holds what an aggregator keeps. -/
structure Collects (c : Collector) (a : Aggregator) : Prop where
  seen : ∀ key, c.seen.contains key = a.hasKey key
  bucket : ∀ category,
    c.bucket category = a.kept.filter (·.category = category)
  duplicates : c.duplicates = a.dropped
  positives : c.positives = a.positives

/-- A finding goes to the end of the bucket of its category. -/
theorem lookup_place (f : Finding) (buckets : List (Category × List Finding))
    (category : Category) :
    ((place f buckets).lookup category).getD []
      = (buckets.lookup category).getD []
        ++ if f.category = category then [f] else [] := by
  induction buckets with
  | nil =>
      rw [place, List.lookup_cons]
      -- no bucket yet: the finding opens one, which other categories do not
      -- see
      by_cases hcategory : category = f.category
      · rw [beq_iff_eq.mpr hcategory, if_pos hcategory.symm]
        rfl
      · rw [beq_false_of_ne hcategory, if_neg (Ne.symm hcategory)]
        rfl
  | cons entry rest ih =>
      obtain ⟨owner, bucket⟩ := entry
      rw [place]
      -- the first bucket of the category takes the finding, and the search
      -- goes no further
      by_cases howner : owner = f.category
      · rw [if_pos howner, List.lookup_cons, List.lookup_cons]
        by_cases hcategory : category = owner
        · rw [beq_iff_eq.mpr hcategory, if_pos (howner ▸ hcategory.symm)]
          rfl
        · rw [beq_false_of_ne hcategory,
            if_neg fun h => hcategory (h.symm.trans howner.symm),
            List.append_nil]
      · rw [if_neg howner, List.lookup_cons, List.lookup_cons]
        by_cases hcategory : category = owner
        · rw [beq_iff_eq.mpr hcategory,
            if_neg fun h => howner (hcategory.symm.trans h.symm),
            List.append_nil]
        · rw [beq_false_of_ne hcategory]
          exact ih

/-- A new collector holds what a new aggregator keeps. -/
theorem collects_empty : Collects {} {} :=
  ⟨fun _ => rfl, fun _ => rfl, rfl, rfl⟩

variable {c : Collector} {a : Aggregator}

/-- Adding one finding keeps this up, and counts it where it is kept. -/
theorem Collects.addOne (h : Collects c a) (added : Nat) (f : Finding) :
    Collects (addOne (c, added) f).1 (a.addOne f)
      ∧ (addOne (c, added) f).2 + a.kept.length
        = added + (a.addOne f).kept.length := by
  rw [Collector.addOne, Aggregator.addOne, h.seen]
  cases hkey : a.hasKey f.key with
  | true =>
      -- a copy is counted and changes nothing else
      exact ⟨⟨h.seen, h.bucket, congrArg (· + 1) h.duplicates, h.positives⟩, rfl⟩
  | false =>
      -- a new finding is seen, goes into its bucket and is counted
      refine ⟨⟨fun key => ?_, fun category => ?_, h.duplicates, h.positives⟩, ?_⟩
      · show (f.key :: c.seen).contains key
          = ((a.kept ++ [f]).map Finding.key).contains key
        rw [List.map_append, List.contains_append, List.contains_cons, h.seen,
          Bool.or_comm]
        exact congrArg (a.hasKey key || ·) (Bool.or_false _).symm
      · show ((place f c.buckets).lookup category).getD []
          = (a.kept ++ [f]).filter (·.category = category)
        rw [lookup_place, List.filter_append, List.filter_singleton,
          ← h.bucket]
        by_cases hcategory : f.category = category
        · rw [if_pos hcategory, decide_eq_true hcategory]
          rfl
        · rw [if_neg hcategory, decide_eq_false hcategory]
          rfl
      · show added + 1 + a.kept.length = added + (a.kept ++ [f]).length
        rw [List.length_append, List.length_singleton]
        omega

/-- So does adding the findings of a file, which counts the new ones. -/
theorem Collects.addFile (h : Collects c a) (findings : List Finding) :
    Collects (c.addFile findings).1 (a.add findings)
      ∧ (c.addFile findings).2 = a.newCount findings := by
  have hrun : ∀ (c : Collector) (a : Aggregator) (added : Nat), Collects c a →
      Collects (findings.foldl Collector.addOne (c, added)).1 (a.add findings)
        ∧ (findings.foldl Collector.addOne (c, added)).2 + a.kept.length
          = added + (a.add findings).kept.length := by
    induction findings with
    | nil => exact fun _ _ _ h => ⟨h, rfl⟩
    | cons f rest ih =>
        intro c a added h
        obtain ⟨hone, hcount⟩ := h.addOne added f
        obtain ⟨hrest, hcounts⟩ := ih _ _ _ hone
        refine ⟨hrest, ?_⟩
        have hrestCount : (rest.foldl Collector.addOne
            (Collector.addOne (c, added) f)).2 + (a.addOne f).kept.length
          = (Collector.addOne (c, added) f).2
            + ((a.addOne f).add rest).kept.length := hcounts
        show (rest.foldl Collector.addOne (Collector.addOne (c, added) f)).2
          + a.kept.length = added + ((a.addOne f).add rest).kept.length
        omega
  obtain ⟨hcollects, hcount⟩ := hrun c a 0 h
  refine ⟨hcollects, ?_⟩
  rw [Nat.zero_add, length_add, Nat.add_comm] at hcount
  exact Nat.add_left_cancel hcount

/-- Asking the buckets for a category is asking the list of what was
    kept. -/
theorem Collects.hasCategory_eq (h : Collects c a)
    (categories : List Category) :
    c.hasCategory categories = a.hasCategory categories := by
  rw [Bool.eq_iff_iff, Collector.hasCategory, Aggregator.hasCategory,
    List.any_eq_true, List.any_eq_true]
  have hmember (category : Category) :
      (!(c.bucket category).isEmpty) = true
        ↔ ∃ f ∈ a.kept, f.category = category := by
    rw [h.bucket, Bool.not_eq_true', List.isEmpty_eq_false_iff_exists_mem]
    simp only [List.mem_filter, decide_eq_true_eq]
  simp only [hmember, List.contains_iff_mem]
  constructor
  · rintro ⟨category, hcategory, f, hf, rfl⟩
    exact ⟨f, hf, hcategory⟩
  · rintro ⟨f, hf, hcategory⟩
    exact ⟨f.category, hcategory, f, hf, rfl⟩

/-- Positives are set in the same way. -/
theorem Collects.setPositives (h : Collects c a) (notes : List String) :
    Collects (c.setPositives notes) (a.setPositives notes) :=
  ⟨h.seen, h.bucket, h.duplicates, rfl⟩

/-- Counting findings one by one adds up what there is of each severity. -/
theorem foldl_countOne (findings : List Finding)
    (counts : List (Severity × Int)) :
    findings.foldl countOne counts
      = counts.map fun (severity, n) =>
          (severity, n + (findings.countP (·.severity = severity) : Int)) := by
  induction findings generalizing counts with
  | nil => simp
  | cons f rest ih =>
      rw [List.foldl_cons, ih, countOne, List.map_map]
      refine List.map_congr_left fun entry _ => ?_
      obtain ⟨severity, n⟩ := entry
      simp only [Function.comp_apply, List.countP_cons, decide_eq_true_eq]
      by_cases hseverity : severity = f.severity
      · rw [if_pos hseverity, if_pos hseverity.symm, Int.natCast_add,
          Int.add_assoc, Int.add_comm 1]
        rfl
      · rw [if_neg hseverity, if_neg (Ne.symm hseverity), Nat.add_zero]

/-- The buckets of a result hold the findings that it lists. -/
theorem flatMap_buckets (a : Aggregator) :
    (Aggregator.buckets a.kept).flatMap (·.2) = a.freeze.allFindings := by
  have hbucket : a.freeze.bucket = shelf a.kept :=
    funext fun category => getD_lookup_buckets a.kept category
  rw [ReviewResult.allFindings, hbucket, buckets_eq, flatMap_filterMap]
  congr 1
  funext category
  rw [bucketOf?]
  split
  · rename_i hnil
    exact hnil.symm
  · rfl

/-- Sorted, the buckets are those of the list. -/
theorem Collects.sortedBuckets_eq (h : Collects c a) :
    c.sortedBuckets = Aggregator.buckets a.kept := by
  rw [sortedBuckets]
  simp only [h.bucket]
  rfl

/-- Both come to the same result. -/
theorem Collects.freeze_eq (h : Collects c a) : c.freeze = a.freeze := by
  have hcounts : c.freeze.counts = a.freeze.counts := by
    show c.sortedBuckets.foldl _ _ = countSeverities a.kept
    rw [h.sortedBuckets_eq, ← List.foldl_flatMap, foldl_countOne,
      flatMap_buckets, countSeverities, ReviewResult.zeroCounts, List.map_map]
    refine List.map_congr_left fun severity _ => ?_
    show (severity, (0 : Int) + _) = _
    rw [(sameClasses_freeze a).perm.countP_eq, Int.zero_add]
  exact congr (congr (congrArg ReviewResult.mk h.sortedBuckets_eq) hcounts)
    h.positives

/-- What is logged when a result is frozen is the same. -/
theorem Collects.freezeLog_eq (h : Collects c a) :
    c.freezeLog = a.freezeLog := by
  rw [Collector.freezeLog, Aggregator.freezeLog, h.duplicates]

/-! ## Runs -/

/-- Does one thing. -/
def perform (c : Collector) : Action → Collector
  | .add findings => (c.addFile findings).1
  | .setPositives notes => c.setPositives notes

/-- A new collector after some actions. -/
def ofActions (actions : List Action) : Collector :=
  actions.foldl perform {}

/-- **STEP**: every action on a collector is one on its list. -/
theorem Collects.perform (h : Collects c a) (action : Action) :
    Collects (c.perform action) (a.perform action) := by
  cases action with
  | add findings => exact (h.addFile findings).1
  | setPositives notes => exact h.setPositives notes

/-- **RUN**: after any actions a collector collects what its list does. -/
theorem collects_ofActions (actions : List Action) :
    Collects (ofActions actions) (Aggregator.ofActions actions) := by
  have hrun : ∀ (c : Collector) (a : Aggregator), Collects c a →
      Collects (actions.foldl Collector.perform c)
        (actions.foldl Aggregator.perform a) := by
    induction actions with
    | nil => exact fun _ _ h => h
    | cons action rest ih => exact fun c a h => ih _ _ (h.perform action)
  exact hrun {} {} collects_empty

/-- **REFINEMENT**: after the same actions a collector answers like an
    aggregator: it reports as many new findings, has findings of the same
    categories, and comes to the same result and the same log. -/
theorem collect_refines (actions : List Action) :
    let c := ofActions actions
    let a := Aggregator.ofActions actions
    (∀ findings, (c.addFile findings).2 = a.newCount findings)
      ∧ (∀ categories, c.hasCategory categories = a.hasCategory categories)
      ∧ c.freeze = a.freeze
      ∧ c.freezeLog = a.freezeLog := by
  intro c a
  have h := collects_ofActions actions
  exact ⟨fun findings => (h.addFile findings).2, h.hasCategory_eq, h.freeze_eq,
    h.freezeLog_eq⟩

end Collector

end CodeReview

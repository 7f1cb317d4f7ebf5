import CodeReview.Proofs.Aggregation
import Mathlib.Algebra.GroupWithZero.Nat
import Mathlib.Data.Finset.Card

/-! # Frozen results

    What an aggregator makes of what was added to it.  `ReviewResult.listing`
    says on plain lists what the result of some findings is: the categories
    that occur, in order, each with its critical findings, then its
    warnings, then its suggestions.  Freezing gives the listing of the
    findings that were kept (`Aggregator.freeze_eq`), and after any run of
    actions no key and no observation is kept twice
    (`Aggregator.sound_ofActions`). -/

namespace CodeReview

open Finding

/-! ## Listings -/

/-- There is one finding for each key. -/
theorem Finding.length_distinct (findings : List Finding) :
    (distinct findings).length = (findings.map Finding.key).toFinset.card := by
  have hkeys : ((distinct findings).map Finding.key).toFinset
      = (findings.map Finding.key).toFinset := by
    ext key
    rw [List.mem_toFinset, List.mem_toFinset, mem_keys_distinct]
  rw [← hkeys, List.toFinset_card_of_nodup (nodup_keys_distinct findings),
    List.length_map]

namespace ReviewResult

/-- The findings of a category, severity by severity. -/
def ranked (kept : List Finding) (category : Category) : List Finding :=
  kept.filter (isIn category .critical)
    ++ kept.filter (isIn category .warning)
    ++ kept.filter (isIn category .suggestion)

/-- The number of findings of a severity. -/
def number (kept : List Finding) (severity : Severity) : Int :=
  (kept.filter (·.severity = severity)).length

/-- The result that lists some findings. -/
def listing (kept : List Finding) : ReviewResult where
  findings :=
    (Category.all.filter fun category => kept.any (·.category = category)).map
      fun category => (category, ranked kept category)
  counts :=
    [(.critical, number kept .critical), (.warning, number kept .warning),
     (.suggestion, number kept .suggestion)]
  positives := []

end ReviewResult

namespace Aggregator

open ReviewResult

/-- Sorting a shelf by severity puts critical findings first, then warnings,
    then suggestions, each in their order. -/
theorem shelf_eq_ranked (kept : List Finding) (category : Category) :
    shelf kept category = ranked kept category := by
  rw [shelf, sortBySeverity_eq_flatMap]
  simp only [Severity.all, List.flatMap_cons, List.flatMap_nil,
    List.append_nil, ← filter_isIn]
  exact (List.append_assoc _ _ _).symm

/-- A category has no shelf exactly if no finding is of it. -/
theorem shelf_eq_nil_iff {kept : List Finding} {category : Category} :
    shelf kept category = [] ↔ kept.any (·.category = category) = false := by
  rw [List.eq_nil_iff_forall_not_mem, List.any_eq_false]
  constructor
  · intro h f hf hcategory
    exact h f (mem_shelf.mpr ⟨hf, of_decide_eq_true hcategory⟩)
  · intro h f hf
    have hf' := mem_shelf.mp hf
    exact h f hf'.1 (decide_eq_true hf'.2)

/-- The buckets list the findings category by category. -/
theorem buckets_eq_listing (kept : List Finding) :
    buckets kept = (listing kept).findings := by
  have hentry : bucketOf? kept = fun category =>
      if kept.any (·.category = category) = true
      then (some ∘ fun category => (category, ranked kept category)) category
      else none := by
    funext category
    rw [bucketOf?, shelf_eq_ranked]
    by_cases hany : kept.any (·.category = category) = true
    · have hne : ¬ ranked kept category = [] := by
        rw [← shelf_eq_ranked, shelf_eq_nil_iff, hany]
        exact Bool.noConfusion
      rw [if_neg hne, if_pos hany]
      rfl
    · have hnil : ranked kept category = [] := by
        rw [← shelf_eq_ranked, shelf_eq_nil_iff]
        exact Bool.eq_false_of_not_eq_true hany
      rw [if_pos hnil, if_neg hany]
  rw [buckets_eq, hentry, ← List.filterMap_filter, List.filterMap_eq_map]
  rfl

/-- The counts are those of the listing, for every severity. -/
theorem countSeverities_eq_listing (kept : List Finding) :
    countSeverities kept = (listing kept).counts := by
  simp only [countSeverities, Severity.all, List.map_cons, List.map_nil,
    List.countP_eq_length_filter]
  rfl

/-- **FREEZING**: the result lists the findings that were kept. -/
theorem freeze_eq (a : Aggregator) :
    a.freeze = { listing a.kept with positives := a.positives } := by
  rw [freeze, buckets_eq_listing, countSeverities_eq_listing]

/-- Freezing keeps the order of the findings of a category and a
    severity. -/
theorem sameClasses_freeze (a : Aggregator) :
    SameClasses a.freeze.allFindings a.kept :=
  sameClasses_allFindings rfl

/-- The severities account for all findings. -/
theorem length_eq_numbers (kept : List Finding) :
    (kept.length : Int)
      = number kept .critical + number kept .warning
        + number kept .suggestion := by
  have hsorted : (sortBySeverity kept).length = kept.length :=
    List.length_mergeSort kept
  rw [sortBySeverity_eq_flatMap] at hsorted
  simp only [Severity.all, List.flatMap_cons, List.flatMap_nil,
    List.append_nil, List.length_append] at hsorted
  simp only [number]
  omega

/-- The total counts the findings that were kept. -/
theorem total_freeze (a : Aggregator) : a.freeze.total = a.kept.length := by
  rw [freeze_eq, length_eq_numbers]
  simp only [total, listing, List.map_cons, List.map_nil, List.foldr_cons,
    List.foldr_nil]
  omega

/-- Freezing loses no finding and adds none. -/
theorem length_allFindings_freeze (a : Aggregator) :
    a.freeze.allFindings.length = a.kept.length :=
  (sameClasses_freeze a).perm.length_eq

/-! ## Runs of an aggregator -/

/-- What can be done to an aggregator. -/
inductive Action where
  | add (findings : List Finding)
  | setPositives (notes : List String)

/-- Does one thing. -/
def perform (a : Aggregator) : Action → Aggregator
  | .add findings => a.add findings
  | .setPositives notes => a.setPositives notes

/-- A new aggregator after some actions. -/
def ofActions (actions : List Action) : Aggregator :=
  actions.foldl perform {}

/-- No key and no observation is kept twice. -/
structure Sound (a : Aggregator) : Prop where
  nodup_keys : (a.kept.map Finding.key).Nodup
  nodup_positives : a.positives.Nodup

/-- Adding findings leaves the positives as they are. -/
theorem positives_add (a : Aggregator) (findings : List Finding) :
    (a.add findings).positives = a.positives := by
  induction findings generalizing a with
  | nil => rfl
  | cons f rest ih =>
      show ((a.addOne f).add rest).positives = _
      rw [ih, addOne]
      split
      · rfl
      · rfl

/-- Where no key is kept twice, adding keeps the first of each key. -/
theorem Sound.kept_add {a : Aggregator} (h : a.Sound)
    (findings : List Finding) :
    (a.add findings).kept = distinct (a.kept ++ findings) := by
  rw [Aggregator.kept_add, distinct_append, distinct_eq_self h.nodup_keys]

/-- One action keeps an aggregator sound. -/
theorem Sound.perform {a : Aggregator} (h : a.Sound) (action : Action) :
    (a.perform action).Sound := by
  cases action with
  | add findings =>
      refine ⟨?_, ?_⟩
      · show ((a.add findings).kept.map Finding.key).Nodup
        rw [h.kept_add]
        exact nodup_keys_distinct _
      · show (a.add findings).positives.Nodup
        rw [positives_add]
        exact h.nodup_positives
  | setPositives notes => exact ⟨h.nodup_keys, nodup_eraseDups notes⟩

/-- So do all actions together. -/
theorem sound_ofActions (actions : List Action) :
    (ofActions actions).Sound := by
  have hrun : ∀ a : Aggregator, a.Sound → (actions.foldl perform a).Sound := by
    induction actions with
    | nil => exact fun _ h => h
    | cons action rest ih => exact fun a h => ih _ (h.perform action)
  exact hrun {} ⟨List.nodup_nil, List.nodup_nil⟩

/-! ## Runs of additions -/

/-- The numbers that a run of additions reports, one for each part. -/
def newCounts (a : Aggregator) : List (List Finding) → List Nat
  | [] => []
  | part :: rest => a.newCount part :: (a.add part).newCounts rest

private theorem newCounts_cons (a : Aggregator) (part : List Finding)
    (rest : List (List Finding)) :
    a.newCounts (part :: rest)
      = a.newCount part :: (a.add part).newCounts rest := rfl

/-- What is reported as new is the number of keys that were not there. -/
theorem newCount_eq (a : Aggregator) (part : List Finding) :
    a.newCount part
      = ((distinct part).filter fun f =>
          f.key ∉ a.kept.map Finding.key).length := by
  rw [newCount, kept_add, List.length_append, Nat.add_sub_cancel_left]

/-- Adding findings keeps as many more as are reported to be new. -/
theorem length_add (a : Aggregator) (part : List Finding) :
    (a.add part).kept.length = a.kept.length + a.newCount part := by
  rw [kept_add, List.length_append, newCount_eq]

/-- What is reported as new adds up to what is kept. -/
theorem length_foldl_add (parts : List (List Finding)) (a : Aggregator) :
    (parts.foldl add a).kept.length
      = a.kept.length + (a.newCounts parts).sum := by
  induction parts generalizing a with
  | nil => rfl
  | cons part rest ih =>
      rw [List.foldl_cons, ih, length_add, newCounts_cons, List.sum_cons]
      omega

/-- **AGGREGATION**: however findings are cut into parts, the result lists
    the first finding of each key, and its total is the number of keys. -/
theorem freeze_additions (parts : List (List Finding)) :
    let findings := parts.flatten
    let result := (parts.foldl add {}).freeze
    result = listing (distinct findings)
      ∧ (result.allFindings.map Finding.key).Nodup
      ∧ result.total = result.allFindings.length
      ∧ result.total = ((({} : Aggregator).newCounts parts).sum : Nat)
      ∧ result.total = (findings.map Finding.key).toFinset.card := by
  intro findings result
  -- added part by part or all at once, the same findings are kept
  have hwhole : parts.foldl add {} = ({} : Aggregator).add findings := by
    have hfold := foldl_add id parts {}
    rwa [List.flatMap_id] at hfold
  have hkept : (parts.foldl add {}).kept = distinct findings := by
    rw [hwhole, kept_add_empty]
  have htotal : result.total = (distinct findings).length := by
    rw [← hkept]
    exact total_freeze _
  refine ⟨?_, ?_, ?_, ?_, ?_⟩
  · show (parts.foldl add {}).freeze = _
    rw [freeze_eq, hkept, hwhole, positives_add]
    rfl
  · -- the buckets rearrange what was kept
    have hsame := sameClasses_freeze (parts.foldl add {})
    rw [hkept] at hsame
    exact hsame.nodup_keys (nodup_keys_distinct findings)
  · rw [htotal, ← hkept]
    exact congrArg Nat.cast (length_allFindings_freeze _).symm
  · rw [htotal, ← hkept, length_foldl_add]
    exact congrArg Nat.cast (Nat.zero_add _)
  · rw [htotal, length_distinct]

end Aggregator

end CodeReview

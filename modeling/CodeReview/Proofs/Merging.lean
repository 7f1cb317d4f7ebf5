import CodeReview.Proofs.Frozen

/-! # Merging results

    Merging flattens results, keeps the first finding of each key, and sorts
    what is left into buckets again.  A group of results can be merged first
    without changing anything (`ReviewResult.merge_splice`), so it does not
    matter how a merge is bracketed, whatever the buckets of the results
    hold.  A result that an aggregator made is not changed by merging it
    alone, with the empty result or with itself. -/

namespace CodeReview

open Finding Aggregator

attribute [ext] ReviewResult

namespace ReviewResult

/-! ## How a merge is bracketed -/

theorem positives_merge (results : List ReviewResult) :
    (merge results).positives
      = (results.flatMap (·.positives)).eraseDups := rfl

/-- A merge depends on the first findings of each key, class by class, and
    on the observations. -/
theorem merge_congr {results results' : List ReviewResult}
    (hfindings : SameClasses (distinct (results.flatMap (·.allFindings)))
      (distinct (results'.flatMap (·.allFindings))))
    (hpositives : (results.flatMap (·.positives)).eraseDups
      = (results'.flatMap (·.positives)).eraseDups) :
    merge results = merge results' := by
  apply ReviewResult.ext
  · rw [findings_merge, findings_merge, buckets_congr hfindings]
  · rw [counts_merge, counts_merge, countSeverities_congr hfindings]
  · rw [positives_merge, positives_merge, hpositives]

/-- The findings of merged results agree with those that were merged. -/
theorem sameClasses_merge (results : List ReviewResult) :
    SameClasses (distinct (merge results).allFindings)
      (distinct (results.flatMap (·.allFindings))) := by
  have hsame := sameClasses_allFindings (findings_merge results)
  rw [distinct_eq_self (hsame.nodup_keys (nodup_keys_distinct _))]
  exact hsame

/-- **SPLICING**: a group of results can be merged first. -/
theorem merge_splice (before inner after : List ReviewResult) :
    merge (before ++ merge inner :: after)
      = merge (before ++ inner ++ after) := by
  apply merge_congr
  · simp only [List.flatMap_append, List.flatMap_cons, List.append_assoc]
    exact ((sameClasses_merge inner).distinct_append_right _).distinct_append_left _
  · simp only [List.flatMap_append, List.flatMap_cons, positives_merge]
    rw [← List.append_assoc]
    exact eraseDups_append_congr (eraseDups_append_eraseDups _ _) _

/-! ## Frozen results -/

/-- What an aggregator made is not changed by merging it. -/
theorem merge_freeze {a : Aggregator} (h : a.Sound) :
    merge [a.freeze] = a.freeze := by
  have hsame := sameClasses_freeze a
  have hkeys := hsame.nodup_keys h.nodup_keys
  apply ReviewResult.ext
  · rw [findings_merge, List.flatMap_singleton, distinct_eq_self hkeys,
      buckets_congr hsame]
    rfl
  · rw [counts_merge, List.flatMap_singleton, distinct_eq_self hkeys,
      countSeverities_congr hsame]
    rfl
  · rw [positives_merge, List.flatMap_singleton]
    exact eraseDups_eq_self h.nodup_positives

theorem merge_nil : merge [] = empty := rfl

/-- A result merged with itself. -/
theorem merge_pair_self (r : ReviewResult) : merge [r, r] = merge [r] := by
  apply merge_congr
  · simp only [List.flatMap_cons, List.flatMap_nil, List.append_nil,
      distinct_append_self]
    exact SameClasses.refl _
  · simp only [List.flatMap_cons, List.flatMap_nil, List.append_nil]
    exact eraseDups_append_of_subset (List.Subset.refl _)

/-- **MERGING**: merges can be bracketed in any way, and a frozen result is
    not changed by merging it alone, with the empty result or with
    itself. -/
theorem merge_monoid (a b c : ReviewResult) (actions : List Action) :
    let r := (ofActions actions).freeze
    (merge [merge [a, b], c] = merge [a, b, c]
        ∧ merge [a, merge [b, c]] = merge [a, b, c])
      ∧ merge [r] = r ∧ merge [r, empty] = r ∧ merge [empty, r] = r
      ∧ merge [r, r] = r := by
  intro r
  have hr : merge [r] = r := merge_freeze (sound_ofActions actions)
  refine ⟨⟨merge_splice [] [a, b] [c], merge_splice [a] [b, c] []⟩, hr, ?_, ?_,
    ?_⟩
  · rw [← merge_nil]
    exact (merge_splice [r] [] []).trans hr
  · rw [← merge_nil]
    exact (merge_splice [] [] [r]).trans hr
  · exact (merge_pair_self r).trans hr

end ReviewResult

end CodeReview

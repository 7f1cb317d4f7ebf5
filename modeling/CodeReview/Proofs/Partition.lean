import CodeReview.Proofs.Batch

/-! # Reviewing in parts

    A list of paths can be reviewed part by part: the merged results hold
    the findings of one review of the whole list.  The parts may share
    paths, and each part's findings have already been rearranged by its own
    buckets; what carries the argument is that the rearrangement leaves
    every class of findings in order, and that the first of each key is
    taken class by class. -/

namespace CodeReview

open Finding Aggregator

/-- What a review reports agrees, class by class, with the first findings
    of each key. -/
theorem sameClasses_review (input : ReviewInput) (paths : List String) :
    SameClasses (review input paths).value.allFindings
      (distinct ((Candidate.normal paths).flatMap
        (Review.findingsAt input))) :=
  sameClasses_allFindings (findings_review input paths)

/-- The merged parts and the whole agree class by class. -/
theorem sameClasses_parts (input : ReviewInput) (parts : List (List String)) :
    SameClasses
      (distinct ((parts.map fun paths => (review input paths).value).flatMap
        (·.allFindings)))
      (distinct ((Candidate.normal parts.flatten).flatMap
        (Review.findingsAt input))) := by
  have hwhole : (Candidate.normal parts.flatten).flatMap
        (Review.findingsAt input)
      = parts.flatMap fun paths =>
          (Candidate.normal paths).flatMap (Review.findingsAt input) := by
    rw [← List.flatMap_id, Candidate.normal_flatMap, List.flatMap_assoc]
    rfl
  rw [List.flatMap_map, hwhole, ← distinct_flatMap_distinct (fun paths =>
    (Candidate.normal paths).flatMap (Review.findingsAt input)) parts]
  refine SameClasses.distinct_flatMap ?_ ?_
  · intro paths _
    exact sameClasses_review input paths
  · intro paths _
    exact nodup_keys_distinct _

/-- **PARTITION**: merging the reviews of the parts of a list of paths gives
    the findings and the counts of one review of the whole list. -/
theorem merge_reviews_of_parts (input : ReviewInput)
    (parts : List (List String)) :
    let merged :=
      ReviewResult.merge (parts.map fun paths => (review input paths).value)
    let whole := (review input parts.flatten).value
    merged.findings = whole.findings ∧ merged.counts = whole.counts := by
  have hsame := sameClasses_parts input parts
  constructor
  · rw [ReviewResult.findings_merge, findings_review, buckets_congr hsame]
  · rw [ReviewResult.counts_merge, counts_review, countSeverities_congr hsame]

end CodeReview

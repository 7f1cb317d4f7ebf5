import CodeReview.Proofs.Aggregation
import CodeReview.Review.Basic

/-! # The analyses of a batch

    What a review does file by file, as a function of the paths: each
    normal path leads to at most one analysis, a repeated path to no other
    one.  The findings of a review are those of the analyses of its batch,
    the first of each key (`findings_review`). -/

namespace CodeReview

open Finding Aggregator

namespace Candidate

/-- Paths as they are compared with each other. -/
def normal (paths : List String) : List String :=
  paths.map fun path => (Path.parse path).posix

theorem normal_flatMap {α : Type} (part : α → List String) (xs : List α) :
    normal (xs.flatMap part) = xs.flatMap fun x => normal (part x) :=
  List.map_flatMap

/-- The candidates are those of the normal paths, each taken once. -/
theorem value_select (tree : FileTree) (config : Config) (project : Path)
    (paths : List String) :
    (select tree config project paths).value
      = (normal paths).eraseDups.filterMap fun path =>
          (check tree config project (Path.parse path)).value := by
  show (Logged.value (List.mapM _ _)).filterMap id = _
  rw [Logged.value_mapM, List.filterMap_map, List.filterMap_map]
  rfl

end Candidate

namespace Review

/-- The analyses of the candidates among some paths, without the skipped
    ones. -/
def analyses (input : ReviewInput) (paths : List String) : List FileReview :=
  (Candidate.select input.tree input.config input.project paths).value.filterMap
    fun c => (analyse input c.path (some c.language)).value

/-- The analysis that a path in normal form leads to, if any. -/
def analysisAt? (input : ReviewInput) (path : String) : Option FileReview :=
  (Candidate.check input.tree input.config input.project
    (Path.parse path)).value.bind fun c =>
      (analyse input c.path (some c.language)).value

/-- The findings that a path in normal form leads to. -/
def findingsAt (input : ReviewInput) (path : String) : List Finding :=
  (analysisAt? input path).elim [] FileReview.findings

theorem analyses_eq (input : ReviewInput) (paths : List String) :
    analyses input paths
      = (Candidate.normal paths).eraseDups.filterMap (analysisAt? input) := by
  rw [analyses, Candidate.value_select, List.filterMap_filterMap]
  rfl

theorem flatMap_analyses (input : ReviewInput) (paths : List String) :
    (analyses input paths).flatMap (·.findings)
      = (Candidate.normal paths).eraseDups.flatMap (findingsAt input) := by
  rw [analyses_eq]
  exact flatMap_filterMap _ _ _

/-- The aggregator of a batch keeps the first finding of each key. -/
theorem kept_collected (input : ReviewInput) (paths : List String) :
    ((analyses input paths).foldl (fun a r => a.add r.findings)
        ({} : Aggregator)).kept
      = distinct ((Candidate.normal paths).flatMap (findingsAt input)) := by
  rw [foldl_add, kept_add_empty, flatMap_analyses, distinct_flatMap_eraseDups]

/-- Observations leave the findings alone. -/
theorem kept_praise (input : ReviewInput) (a : Aggregator)
    (batch : List Subject) : (praise input a batch).value.kept = a.kept := by
  rw [praise]
  split
  · rfl
  · rfl

private theorem findings_aggregate (input : ReviewInput)
    (reviews : List FileReview) :
    (aggregate input reviews).value.findings
      = buckets (reviews.foldl (fun a r => a.add r.findings)
          ({} : Aggregator)).kept := by
  rw [← kept_praise input _ (reviews.map (·.subject))]
  rfl

private theorem counts_aggregate (input : ReviewInput)
    (reviews : List FileReview) :
    (aggregate input reviews).value.counts
      = countSeverities (reviews.foldl (fun a r => a.add r.findings)
          ({} : Aggregator)).kept := by
  rw [← kept_praise input _ (reviews.map (·.subject))]
  rfl

end Review

/-- A review is the aggregate of its analyses; without candidates it is the
    empty result. -/
theorem value_review (input : ReviewInput) (paths : List String) :
    (review input paths).value
      = if (Candidate.select input.tree input.config input.project
            paths).value.isEmpty then .empty
        else (Review.aggregate input (Review.analyses input paths)).value := by
  unfold review
  rw [Logged.value_bind]
  split
  · rfl
  · rw [Logged.value_bind, Logged.value_bind, Logged.value_mapM,
      List.filterMap_map]
    rfl

private theorem analyses_of_isEmpty {input : ReviewInput}
    {paths : List String}
    (h : (Candidate.select input.tree input.config input.project
      paths).value.isEmpty = true) : Review.analyses input paths = [] := by
  rw [Review.analyses, List.isEmpty_iff.mp h]
  rfl

/-- A review finds and counts what the aggregate of its analyses does: where
    no candidate is left, there is nothing to aggregate either. -/
private theorem review_agrees_aggregate (input : ReviewInput)
    (paths : List String) :
    let whole := (Review.aggregate input (Review.analyses input paths)).value
    (review input paths).value.findings = whole.findings
      ∧ (review input paths).value.counts = whole.counts := by
  rw [value_review]
  split
  · rename_i hnone
    rw [analyses_of_isEmpty hnone]
    exact ⟨rfl, rfl⟩
  · exact ⟨rfl, rfl⟩

/-- **THE FINDINGS OF A REVIEW**: the first of each key, path by path. -/
theorem findings_review (input : ReviewInput) (paths : List String) :
    (review input paths).value.findings
      = buckets (distinct
          ((Candidate.normal paths).flatMap (Review.findingsAt input))) := by
  rw [(review_agrees_aggregate input paths).1, Review.findings_aggregate,
    Review.kept_collected]

/-- The counts of a review are those of its findings. -/
theorem counts_review (input : ReviewInput) (paths : List String) :
    (review input paths).value.counts
      = countSeverities (distinct
          ((Candidate.normal paths).flatMap (Review.findingsAt input))) := by
  rw [(review_agrees_aggregate input paths).2, Review.counts_aggregate,
    Review.kept_collected]

end CodeReview

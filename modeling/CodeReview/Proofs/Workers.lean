import CodeReview.Proofs.Pool
import CodeReview.Proofs.Skipping

/-! # Reviews by several workers

    A review hands the analyses of its candidates to a pool if it has several
    of both, workers and candidates, and aggregates what comes of them in the
    order of the candidates, after all of them have ended.  The analyses are
    its tasks, and a schedule of the pool decides when each of them is taken,
    tells an entry or ends (`reviewIn?`).  Whatever the schedule, they come
    to what they come to one after the other (`Review.analyseIn?_eq_some`),
    and so does the rest of the review. -/

namespace CodeReview

namespace Review

/-- The analysis of a candidate. -/
def analyseCandidate (input : ReviewInput) (c : Candidate) :
    Logged (Option FileReview) :=
  analyse input c.path (some c.language)

/-- The candidates of a review. -/
def candidates (input : ReviewInput) (paths : List String) : List Candidate :=
  (Candidate.select input.tree input.config input.project paths).value

/-- The tasks of a review: the analysis of each candidate. -/
def tasks (input : ReviewInput) (paths : List String) :
    List (Logged (Option FileReview)) :=
  (candidates input paths).map (analyseCandidate input)

/-- The analyses of the candidates in order: by a pool on a schedule, if
    there are several workers and several candidates, or one after the
    other.  Nothing if the pool is not done at the end of the schedule. -/
def analyseIn? (input : ReviewInput) (workers : Int)
    (schedule : List Pool.Move) (paths : List String) :
    Option (Logged (List (Option FileReview))) :=
  if 1 < workers ∧ 1 < (candidates input paths).length then
    Pool.outcome? workers.toNat (tasks input paths) schedule
  else some ((candidates input paths).mapM (analyseCandidate input))

/-- Reviews the candidates among some paths, given their analyses. -/
def complete (input : ReviewInput) (paths : List String)
    (analyses : Logged (List (Option FileReview))) : Logged ReviewResult := do
  let candidates ← Candidate.select input.tree input.config input.project paths
  if candidates.isEmpty then
    .emit .info "No reviewable files found"
    return .empty
  else
    .emit .info s!"🔍 Reviewing {candidates.length} file(s)..."
    let reviews ← analyses
    aggregate input (reviews.filterMap id)

end Review

/-- Reviews the candidates among some paths by some workers, on a
    schedule. -/
def reviewIn? (input : ReviewInput) (workers : Int)
    (schedule : List Pool.Move) (paths : List String) :
    Option (Logged ReviewResult) :=
  (Review.analyseIn? input workers schedule paths).map
    (Review.complete input paths)

namespace Review

/-- A review analyses its candidates one after the other. -/
theorem review_eq_complete (input : ReviewInput) (paths : List String) :
    review input paths
      = complete input paths
          ((candidates input paths).mapM (analyseCandidate input)) := rfl

/-- The rest of a review depends on the values of the analyses, and hands
    their log on. -/
theorem complete_congr (input : ReviewInput) (paths : List String)
    {xs ys : Logged (List (Option FileReview))} (hvalue : xs.value = ys.value)
    (hlog : xs.log.Perm ys.log) :
    (complete input paths xs).value = (complete input paths ys).value
      ∧ (complete input paths xs).log.Perm (complete input paths ys).log := by
  constructor
  · simp only [complete, Logged.value_bind]
    split
    · rfl
    · simp only [Logged.value_bind, hvalue]
  · simp only [complete, Logged.log_bind]
    refine .append_left _ ?_
    split
    · exact .refl _
    · simp only [Logged.log_bind, hvalue]
      exact .append_left _ (.append_right _ hlog)

/-- However the analyses are scheduled, they have the values and, up to
    order, the log that they have one after the other. -/
theorem analyseIn?_eq_some {input : ReviewInput} {workers : Int}
    {schedule : List Pool.Move} {paths : List String}
    {analyses : Logged (List (Option FileReview))}
    (h : analyseIn? input workers schedule paths = some analyses) :
    analyses.value
        = ((candidates input paths).mapM (analyseCandidate input)).value
      ∧ analyses.log.Perm
        ((candidates input paths).mapM (analyseCandidate input)).log := by
  rw [analyseIn?] at h
  split at h
  · obtain ⟨hvalue, hlog⟩ := Pool.outcome?_eq_some h
    rw [tasks, List.map_map] at hvalue
    rw [tasks, List.flatMap_map] at hlog
    rw [Logged.value_mapM, Logged.log_mapM]
    exact ⟨hvalue, hlog⟩
  · cases h
    exact ⟨rfl, .refl _⟩

/-- The analyses come to an end on some continuation of every schedule. -/
theorem exists_analyseIn? {input : ReviewInput} {workers : Int}
    {schedule : List Pool.Move} {paths : List String}
    {pool : Pool (Option FileReview)}
    (h : Pool.run workers.toNat (.submitted (tasks input paths)) schedule
      = some pool) :
    ∃ rest, (analyseIn? input workers (schedule ++ rest) paths).isSome := by
  by_cases hpool : 1 < workers ∧ 1 < (candidates input paths).length
  · have hworkers : 0 < workers.toNat := by omega
    obtain ⟨rest, hrest⟩ := Pool.exists_outcome? hworkers h
    refine ⟨rest, ?_⟩
    rw [analyseIn?, if_pos hpool]
    exact hrest
  · refine ⟨[], ?_⟩
    rw [analyseIn?, if_neg hpool]
    rfl

end Review

/-- **WORKERS**: whatever the number of workers, a review by them comes to
    the result of the review one file after the other on every schedule, and
    tells the same in some order.  On the way no more analyses run than there
    are workers, every schedule can be carried on to the end of the review,
    and none is longer than the steps of the analyses. -/
theorem review_by_workers (input : ReviewInput) (workers : Int)
    (paths : List String) :
    (∀ schedule outcome,
        reviewIn? input workers schedule paths = some outcome →
        outcome.value = (review input paths).value
          ∧ outcome.log.Perm (review input paths).log)
      ∧ ∀ schedule pool,
          Pool.run workers.toNat (.submitted (Review.tasks input paths))
              schedule = some pool →
          pool.busy.length ≤ workers.toNat
            ∧ (∃ rest,
              (reviewIn? input workers (schedule ++ rest) paths).isSome)
            ∧ schedule.length ≤ Pool.steps (Review.tasks input paths) := by
  constructor
  · intro schedule outcome h
    obtain ⟨analyses, hanalyses, rfl⟩ := Option.map_eq_some_iff.mp h
    obtain ⟨hvalue, hlog⟩ := Review.analyseIn?_eq_some hanalyses
    rw [Review.review_eq_complete]
    exact Review.complete_congr input paths hvalue hlog
  · intro schedule pool h
    -- a pool stays staffed, and can always be brought to its end
    have hstaffed := (Pool.staffed_submitted (Review.tasks input paths)).run h
    obtain ⟨rest, hrest⟩ := Review.exists_analyseIn? h
    refine ⟨hstaffed.length_busy_le, ⟨rest, ?_⟩, Pool.length_le_steps h⟩
    rw [reviewIn?, Option.isSome_map]
    exact hrest

/-- Two workers, of whom the second overtakes the first. -/
def overtaking : List Pool.Move :=
  [.start 0 0, .start 1 1, .emit 1, .finish 1, .emit 0, .finish 0]

/-- A page and a file that is skipped: the warning about the second comes
    before the number of findings on the first. -/
theorem review_mixed_overtaking :
    ∃ outcome,
      reviewIn? mixedInput 2 overtaking ["gallery.erb", "latin.rb"]
          = some outcome
        ∧ outcome.value
          = (review mixedInput ["gallery.erb", "latin.rb"]).value
        ∧ outcome.log.Perm
          (review mixedInput ["gallery.erb", "latin.rb"]).log
        ∧ (Review.analyseIn? mixedInput 2 overtaking
            ["gallery.erb", "latin.rb"]).map (·.log.map (·.level))
          = some [.warning, .debug] := by
  have hlevels : (Review.analyseIn? mixedInput 2 overtaking
      ["gallery.erb", "latin.rb"]).map (·.log.map (·.level))
        = some [.warning, .debug] := by
    decide +kernel
  obtain ⟨analyses, hanalyses, _⟩ := Option.map_eq_some_iff.mp hlevels
  have hoverall : reviewIn? mixedInput 2 overtaking ["gallery.erb", "latin.rb"]
      = some (Review.complete mixedInput ["gallery.erb", "latin.rb"]
          analyses) := by
    rw [reviewIn?, hanalyses, Option.map_some]
  obtain ⟨hvalue, hlog⟩ :=
    (review_by_workers mixedInput 2 ["gallery.erb", "latin.rb"]).1
      overtaking _ hoverall
  exact ⟨_, hoverall, hvalue, hlog, hlevels⟩

end CodeReview

import CodeReview.Proofs.Batch
import CodeReview.Proofs.MachineReport
import CodeReview.Proofs.Steps

/-! # The phases of a run

    What a part of a run comes to depends on the options and the
    surroundings; the parts behind the review also depend on its result,
    which is given by them.  So a run fails with the first failure of its
    phases, or else completes with the result of its review
    (`outcome_reviewCommand_of_completes`). -/

namespace CodeReview

/-! ## Results of a review -/

/-- The result of a review was frozen from what was collected, also where
    there is nothing to review. -/
theorem exists_freeze_review (input : ReviewInput) (paths : List String) :
    ∃ a : Aggregator, (review input paths).value = a.freeze := by
  rw [value_review]
  split
  · exact ⟨{}, rfl⟩
  · exact ⟨_, rfl⟩

namespace Aggregator

/-- A frozen result fails if one of its findings is critical. -/
theorem isFailing_freeze_iff (a : Aggregator) :
    a.freeze.isFailing = true
      ↔ ∃ f ∈ a.freeze.allFindings, f.severity = .critical := by
  rw [ReviewResult.isFailing, count?_freeze, Option.getD_some,
    ← length_bySeverity_freeze, decide_eq_true_iff, Int.natCast_pos,
    List.length_pos_iff_exists_mem]
  refine exists_congr fun f => ?_
  rw [ReviewResult.bySeverity, List.mem_filter, decide_eq_true_iff]

end Aggregator

namespace CommandLine

/-! ## Phases -/

/-- The error that a computation fails with. -/
def error? {ε α : Type} : Except ε α → Option ε
  | .ok _ => none
  | .error e => some e

/-- What a computation fails with, as an equation. -/
theorem error?_eq_some_iff {ε α : Type} {x : Except ε α} {e : ε} :
    error? x = some e ↔ x = .error e := by
  cases x with
  | ok a => exact iff_of_false nofun nofun
  | error e' => rw [error?, Option.some.injEq, Except.error.injEq]

/-- Two steps fail with the first failure, where the second fails in the
    same way whatever the first gives. -/
theorem error?_bind {ε α β : Type} {x : Except ε α} {f : α → Except ε β}
    {failure : Option ε} (h : ∀ a, x = .ok a → error? (f a) = failure) :
    error? (x >>= f) = (error? x).or failure := by
  cases x with
  | ok a => exact h a rfl
  | error e => rfl

/-- Renaming an error renames what a computation fails with. -/
theorem error?_mapError {ε ε' α : Type} (g : ε → ε') (x : Except ε α) :
    error? (x.mapError g) = (error? x).map g := by
  cases x with
  | ok a => rfl
  | error e => rfl

/-- The result of the review, where a run gets that far. -/
def ReviewOptions.result (s : Surroundings) (o : ReviewOptions) :
    ReviewResult :=
  match o.reviewPaths? s with
  | .ok paths => (review (o.input s) paths).value
  | .error _ => .empty

/-- The result of a run is that of the review of its paths. -/
theorem ReviewOptions.result_of_ok {s : Surroundings} {o : ReviewOptions}
    {paths : List String} (h : o.reviewPaths? s = .ok paths) :
    o.result s = (review (o.input s) paths).value := by
  rw [result, h]

/-- The parts of a run that may fail, besides the review. -/
inductive Phase where
  | arguments
  | paths
  | diff
  | pull
  | report
  | delivery
  | posting
deriving DecidableEq, Repr

namespace Phase

/-- Every phase, in the order of a run. -/
def all : List Phase :=
  [.arguments, .paths, .diff, .pull, .report, .delivery, .posting]

/-- Every phase is one of a run. -/
theorem mem_all (phase : Phase) : phase ∈ all := by
  cases phase <;> decide

/-- The failure of a phase, if it fails on its own. -/
def failure? (s : Surroundings) (o : ReviewOptions) : Phase → Option Failure
  | .arguments => error? o.format
  | .paths => (error? (expandAll s.tree o.paths)).map .inaccessible
  | .diff => error? (outcome (givenPaths s o))
  | .pull => error? (outcome (pullPaths s o))
  | .report => error? (report? s o (o.result s))
  | .delivery => error? (deliver? s o)
  | .posting => error? (post? s o (o.result s))

/-- The first phase that fails. -/
def failing? (s : Surroundings) (o : ReviewOptions) : Option Phase :=
  all.find? fun phase => (phase.failure? s o).isSome

/-- The first failure among some phases. -/
def firstFailure? (s : Surroundings) (o : ReviewOptions) :
    List Phase → Option Failure
  | [] => none
  | phase :: rest => (phase.failure? s o).or (firstFailure? s o rest)

/-- The first failure is that of the first phase that fails. -/
theorem firstFailure?_eq (s : Surroundings) (o : ReviewOptions)
    (phases : List Phase) :
    firstFailure? s o phases
      = (phases.find? fun phase => (phase.failure? s o).isSome).bind
        (failure? s o) := by
  induction phases with
  | nil => rfl
  | cons phase rest ih =>
      rw [firstFailure?, List.find?_cons, ih]
      cases hfailure : phase.failure? s o with
      | none => rfl
      | some f => exact hfailure.symm

end Phase

namespace ReviewOptions

/-- Whether every phase of a run succeeds. -/
def Completes (s : Surroundings) (o : ReviewOptions) : Prop :=
  ∀ phase : Phase, phase.failure? s o = none

/-- A run completes exactly if no phase fails. -/
theorem completes_iff {s : Surroundings} {o : ReviewOptions} :
    o.Completes s ↔ Phase.failing? s o = none := by
  rw [Phase.failing?, List.find?_eq_none]
  constructor
  · intro h phase _
    rw [h phase]
    exact nofun
  · intro h phase
    exact Option.not_isSome_iff_eq_none.mp (h phase (Phase.mem_all phase))

end ReviewOptions

/-! ## Runs -/

open Phase

/-- The current folder can always be looked up. -/
theorem error?_expand_dot (tree : FileTree) :
    error? (expand tree ".") = none := by
  have hresolve : tree.resolve (Path.parse ".") = .ok [] := by
    rfl
  rw [expand, hresolve]
  rfl

/-- The candidates fail with the first failure of the three places that
    paths come from. -/
theorem error?_candidates (s : Surroundings) (o : ReviewOptions) :
    error? (outcome (candidates s o))
      = firstFailure? s o [.paths, .diff, .pull] := by
  rw [outcome_candidates, firstFailure?, failure?, ← error?_mapError]
  refine error?_bind fun named _ => error?_bind fun given _ =>
    error?_bind fun pulled _ => ?_
  split
  · rw [error?_mapError, error?_expand_dot]
    rfl
  · rfl

/-- Up to the review, a run fails with the first failure of its first four
    phases. -/
theorem error?_reviewPaths? (s : Surroundings) (o : ReviewOptions) :
    error? (o.reviewPaths? s)
      = firstFailure? s o [.arguments, .paths, .diff, .pull] :=
  error?_bind fun _ _ => error?_candidates s o

/-- **A RUN WITHOUT ITS LOG**: the result of the review is reported,
    delivered and posted, as long as nothing fails. -/
theorem outcome_reviewCommand (s : Surroundings) (o : ReviewOptions) :
    outcome (reviewCommand s o) = (do
      let paths ← o.reviewPaths? s
      let result := (review (o.input s) paths).value
      let _ ← report? s o result
      deliver? s o
      post? s o result
      return result) := by
  -- the logging steps fall away; what is left is compared step by step
  simp only [reviewCommand, ReviewOptions.reviewPaths?, outcome_bind,
    outcome_step_ofExcept, mapError_id, outcome_logged, bind_assoc, report?]
  cases o.format with
  | error failure => rfl
  | ok format =>
      show outcome (candidates s o) >>= _ = outcome (candidates s o) >>= _
      refine bind_congr fun paths => ?_
      show Except.mapError Failure.report (Report.render
          (review (o.input s) paths).value format o.pull (o.limit s)) >>= _
        = Except.mapError Failure.report (Report.render
          (review (o.input s) paths).value format o.pull (o.limit s)) >>= _
      refine bind_congr fun report => ?_
      show outcome (deliver s o report) >>= (fun _ => outcome (postReport s o
        (review (o.input s) paths).value (o.limit s)) >>= _) = _
      rw [outcome_deliver, outcome_postReport]
      rfl

/-- A run fails with the first failure of a phase. -/
theorem error?_reviewCommand (s : Surroundings) (o : ReviewOptions) :
    error? (outcome (reviewCommand s o))
      = (failing? s o).bind (failure? s o) := by
  have hrest (paths : List String) (hpaths : o.reviewPaths? s = .ok paths) :
      error? (do
        let result := (review (o.input s) paths).value
        let _ ← report? s o result
        deliver? s o
        post? s o result
        return result)
      = firstFailure? s o [.report, .delivery, .posting] := by
    rw [← ReviewOptions.result_of_ok hpaths]
    exact error?_bind fun _ _ => error?_bind fun _ _ => error?_bind fun _ _ => rfl
  rw [outcome_reviewCommand, error?_bind hrest, error?_reviewPaths?, failing?,
    ← firstFailure?_eq]
  simp only [Phase.all, firstFailure?, Option.or_assoc, Option.none_or]

/-- A run fails with the failure of its first phase that fails. -/
theorem outcome_reviewCommand_of_failing? {s : Surroundings}
    {o : ReviewOptions} {phase : Phase} (h : failing? s o = some phase) :
    ∃ f, phase.failure? s o = some f
      ∧ outcome (reviewCommand s o) = .error f := by
  have herror := error?_reviewCommand s o
  rw [h, Option.bind_some] at herror
  rw [failing?] at h
  have hfound := List.find?_some h
  obtain ⟨f, hf⟩ := Option.isSome_iff_exists.mp hfound
  exact ⟨f, hf, error?_eq_some_iff.mp (herror.trans hf)⟩

/-- A run that succeeds gives the result of the review of its paths. -/
theorem exists_paths_of_ok {s : Surroundings} {o : ReviewOptions}
    {result : ReviewResult} (h : outcome (reviewCommand s o) = .ok result) :
    ∃ paths, o.reviewPaths? s = .ok paths
      ∧ result = (review (o.input s) paths).value := by
  rw [outcome_reviewCommand] at h
  obtain ⟨paths, hpaths, h⟩ := bind_eq_ok_iff.mp h
  obtain ⟨_, _, h⟩ := bind_eq_ok_iff.mp h
  obtain ⟨_, _, h⟩ := bind_eq_ok_iff.mp h
  obtain ⟨_, _, h⟩ := bind_eq_ok_iff.mp h
  exact ⟨paths, hpaths, (Except.ok.inj h).symm⟩

/-- **COMPLETION**: a run whose phases all succeed gives the result of its
    review. -/
theorem outcome_reviewCommand_of_completes {s : Surroundings}
    {o : ReviewOptions} (h : o.Completes s) :
    outcome (reviewCommand s o) = .ok (o.result s) := by
  have herror := error?_reviewCommand s o
  rw [ReviewOptions.completes_iff.mp h, Option.bind_none] at herror
  cases houtcome : outcome (reviewCommand s o) with
  | error e =>
      rw [houtcome] at herror
      exact nomatch herror
  | ok result =>
      obtain ⟨paths, hpaths, rfl⟩ := exists_paths_of_ok houtcome
      rw [ReviewOptions.result_of_ok hpaths]

end CommandLine

end CodeReview

import CodeReview.CommandLine.Run
import CodeReview.Proofs.Outcome
import CodeReview.Proofs.Posting

/-! # The steps of a run

    What the steps of a run come to.  A step that logs or does something
    succeeds, and the others succeed or fail as the functions they call; so
    whether a report is delivered does not depend on what it says. -/

namespace CodeReview.CommandLine

variable {ε α : Type}

/-- What is logged does not stop a run. -/
@[simp] theorem outcome_logged (x : Logged α) :
    outcome (Step.logged x) = .ok x.value := rfl

/-- Doing something succeeds; what could prevent it has been asked
    before. -/
@[simp] theorem outcome_perform (event : Event) :
    outcome (Step.perform event) = .ok () := rfl

/-- A part of a run comes to what it does on its own, its error named after
    the part. -/
@[simp] theorem outcome_within (failure : ε → Failure)
    (x : ExceptT ε Traced α) :
    outcome (Step.within failure x) = (outcome x).mapError failure := rfl

/-- A step without a trace comes to its value, its error named after the
    step. -/
@[simp] theorem outcome_step_ofExcept (failure : ε → Failure)
    (x : Except ε α) :
    outcome (Step.ofExcept failure x) = x.mapError failure :=
  outcome_ofExcept _

/-- Two steps succeed exactly if the first does and the second does on what
    the first gives. -/
theorem bind_eq_ok_iff {β : Type} {x : Except ε α} {f : α → Except ε β}
    {b : β} : x >>= f = .ok b ↔ ∃ a, x = .ok a ∧ f a = .ok b := by
  cases x with
  | ok a =>
      constructor
      · intro h
        exact ⟨a, rfl, h⟩
      · rintro ⟨_, ha, hb⟩
        cases ha
        exact hb
  | error e =>
      refine iff_of_false nofun ?_
      rintro ⟨_, ha, _⟩
      exact nomatch ha

/-- Renaming an error leaves what succeeds as it is. -/
theorem mapError_eq_ok_iff {ε' : Type} {g : ε → ε'} {x : Except ε α}
    {a : α} : x.mapError g = .ok a ↔ x = .ok a := by
  cases x with
  | ok a' =>
      show Except.ok a' = Except.ok a ↔ _
      rw [Except.ok.injEq, Except.ok.injEq]
  | error e =>
      constructor
      · intro h
        cases h
      · intro h
        cases h

/-- An error under its own name is the same error. -/
theorem mapError_id (x : Except ε α) : x.mapError id = x := by
  cases x with
  | ok a => rfl
  | error e => rfl

/-! ## Gathering paths -/

/-- The paths that some changes leave in place. -/
def keptPaths (changes : List FileDiff) : List String :=
  (changes.filter (·.status != .deleted)).map FileDiff.path

/-- A diff gives the paths it leaves in place, if it can be read. -/
theorem outcome_diffPaths (text : Text) :
    outcome (diffPaths text)
      = ((Diff.parse text).map keptPaths).mapError .diff := by
  rw [diffPaths, outcome_bind, outcome_step_ofExcept, Diff.changedPaths]
  cases Diff.parse text with
  | ok changes => rfl
  | error e => rfl

/-- A diff from a file or from the standard input gives its kept paths; it
    has to be readable as a text first, and then as a diff. -/
theorem outcome_givenPaths (s : Surroundings) (o : ReviewOptions) :
    outcome (givenPaths s o)
      = match o.diffSource? with
        | none => .ok []
        | some source => (do
            let text ← readDiff s source
            ((Diff.parse text).map keptPaths).mapError .diff) := by
  rw [givenPaths]
  cases o.diffSource? with
  | none => rfl
  | some source =>
      simp only [outcome_bind, outcome_step_ofExcept, mapError_id,
        outcome_diffPaths]

/-- A pull request gives the kept paths of its diff, once that is
    fetched. -/
theorem outcome_pullPaths (s : Surroundings) (o : ReviewOptions) :
    outcome (pullPaths s o)
      = match o.pullRequest? with
        | none => .ok []
        | some pull => (do
            let text ← (outcome (pull.fetchDiff s.environment
              s.replies)).mapError .fetch
            ((Diff.parse text).map keptPaths).mapError .diff) := by
  rw [pullPaths]
  cases o.pullRequest? with
  | none => rfl
  | some pull =>
      simp only [outcome_bind, outcome_logged, outcome_within,
        outcome_diffPaths]
      rfl

/-- What is reviewed: the named paths, those of the given diff and those of
    the pull request, in this order.  Where that is nothing and nothing but
    paths was asked for, it is the current directory. -/
theorem outcome_candidates (s : Surroundings) (o : ReviewOptions) :
    outcome (candidates s o) = (do
      let named ← (expandAll s.tree o.paths).mapError .inaccessible
      let given ← outcome (givenPaths s o)
      let pulled ← outcome (pullPaths s o)
      if (named ++ given ++ pulled).isEmpty && o.diffSource?.isNone
          && o.repository?.isNone then
        (expand s.tree ".").mapError .inaccessible
      else .ok (named ++ given ++ pulled)) := by
  simp only [candidates, outcome_bind, outcome_step_ofExcept]
  refine bind_congr fun named => bind_congr fun given =>
    bind_congr fun pulled => ?_
  split
  · exact outcome_step_ofExcept _ _
  · rfl

namespace ReviewOptions

/-- The most findings that a report shows in a section. -/
def limit (s : Surroundings) (o : ReviewOptions) : Int :=
  (o.config s.environment).value.displayLimit

/-- What is reviewed under some options. -/
def input (s : Surroundings) (o : ReviewOptions) : ReviewInput where
  tree := s.tree
  config := (o.config s.environment).value
  project := s.project

/-- The paths that a run hands to the review, if it gets that far. -/
def reviewPaths? (s : Surroundings) (o : ReviewOptions) :
    Except Failure (List String) := do
  let _ ← o.format
  outcome (candidates s o)

end ReviewOptions

/-! ## Handing out the report -/

/-- The report on a result, if it can be written. -/
def report? (s : Surroundings) (o : ReviewOptions) (result : ReviewResult) :
    Except Failure String := do
  let format ← o.format
  (Report.render result format o.pull (o.limit s)).mapError .report

/-- Where a report is written to, if it is. -/
def deliver? (s : Surroundings) (o : ReviewOptions) : Except Failure Unit :=
  match o.output with
  | none => .ok ()
  | some output =>
      ((s.tree.writePlace (Path.parse output)).mapError .inaccessible).map
        fun _ => ()

/-- Whether a report can be delivered depends on where it goes, not on what
    it says. -/
theorem outcome_deliver (s : Surroundings) (o : ReviewOptions)
    (report : String) : outcome (deliver s o report) = deliver? s o := by
  rw [deliver, deliver?]
  cases o.output with
  | none => rfl
  | some output =>
      simp only [outcome_bind, outcome_step_ofExcept, outcome_perform,
        outcome_logged]
      cases s.tree.writePlace (Path.parse output) with
      | ok place => rfl
      | error e => rfl

/-- Whether a comment on a result is posted, where one is asked for. -/
def post? (s : Surroundings) (o : ReviewOptions) (result : ReviewResult) :
    Except Failure Unit :=
  match o.post, o.pullRequest? with
  | true, some pull => do
      let _ ← (Report.render result .github (some pull.number)
        (o.limit s)).mapError .report
      ((s.comments.post? s.environment pull
        (Report.marker pull.number)).mapError .post).map fun _ => ()
  | _, _ => .ok ()

/-- Whether the comment is posted depends on the server and on whether the
    comment can be rendered. -/
theorem outcome_postReport (s : Surroundings) (o : ReviewOptions)
    (result : ReviewResult) :
    outcome (postReport s o result (o.limit s)) = post? s o result := by
  rw [postReport, post?]
  cases o.post with
  | false => rfl
  | true =>
      cases o.pullRequest? with
      | none => rfl
      | some pull =>
          simp only [outcome_bind, outcome_step_ofExcept, outcome_within,
            CommentServer.outcome_post]
          refine bind_congr fun body => ?_
          cases s.comments.post? s.environment pull
              (Report.marker pull.number) with
          | ok id => rfl
          | error e => rfl

end CodeReview.CommandLine

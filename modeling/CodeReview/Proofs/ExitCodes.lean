import CodeReview.Proofs.Fetching
import CodeReview.Proofs.Phases

/-! # Exit codes

    The exit code tells a run that completes from one that fails, but for a
    failure that is not foreseen: it shares the code of a critical finding.
    Which failures are foreseen is read off the phase that fails
    (`foreseen_failure?_iff`). -/

namespace CodeReview.CommandLine

/-! ## Foreseen failures -/

/-- Whether a run tells about a failure. -/
def Failure.Foreseen (f : Failure) : Prop := ∃ entry, f.entry? = some entry

/-- A diff that cannot be fetched is told about exactly if the fault is one
    that is explained. -/
theorem foreseen_fetch_iff (e : FetchError) :
    (Failure.fetch e).Foreseen ↔ e.IsExplained := by
  cases e with
  | fault f =>
      obtain ⟨kind, message⟩ := f
      cases kind with
      | malformed name => exact iff_of_true ⟨_, rfl⟩ ⟨name, rfl⟩
      | _ => exact iff_of_false nofun nofun
  | retry f =>
      cases f with
      | undefined => exact iff_of_true ⟨_, rfl⟩ rfl
      | negative => exact iff_of_true ⟨_, rfl⟩ rfl
      | _ => exact iff_of_false nofun nofun
  | _ => exact iff_of_true ⟨_, rfl⟩ trivial

/-- Two steps fail as the first, or as the second on what the first
    gives. -/
theorem error?_bind_eq_some {ε α β : Type} {x : Except ε α}
    {f : α → Except ε β} {e : ε} (h : error? (x >>= f) = some e) :
    error? x = some e ∨ ∃ a, x = .ok a ∧ error? (f a) = some e := by
  cases x with
  | ok a => exact .inr ⟨a, rfl, h⟩
  | error e' => exact .inl h

/-- A renamed error is some error under its new name. -/
theorem error?_mapError_eq_some {ε ε' α : Type} {g : ε → ε'}
    {x : Except ε α} {e : ε'} (h : error? (x.mapError g) = some e) :
    ∃ e', error? x = some e' ∧ g e' = e := by
  rw [error?_mapError] at h
  exact Option.map_eq_some_iff.mp h

variable {s : Surroundings} {o : ReviewOptions} {f : Failure}

/-- An unknown format is told about. -/
theorem foreseen_format (h : error? o.format = some f) : f.Foreseen := by
  rw [ReviewOptions.format] at h
  split at h
  · cases h
    exact ⟨_, rfl⟩
  · split at h
    · cases h
      exact ⟨_, rfl⟩
    · exact nomatch h

/-- A diff that cannot be read is told about, whether its path, its file or
    its encoding is at fault. -/
theorem foreseen_readDiff {source : String}
    (h : error? (readDiff s source) = some f) : f.Foreseen := by
  rw [readDiff] at h
  split at h
  · exact nomatch h
  · rcases error?_bind_eq_some h with hpath | ⟨path, _, h⟩
    · obtain ⟨e, _, rfl⟩ := error?_mapError_eq_some hpath
      exact ⟨_, rfl⟩
    · rcases error?_bind_eq_some h with hread | ⟨bytes, _, h⟩
      · obtain ⟨e, _, rfl⟩ := error?_mapError_eq_some hread
        exact ⟨_, rfl⟩
      · rcases error?_bind_eq_some h with hdecode | ⟨text, _, h⟩
        · obtain ⟨e, _, rfl⟩ := error?_mapError_eq_some hdecode
          exact ⟨_, rfl⟩
        · exact nomatch h

/-- Whatever is wrong with a given diff is told about. -/
theorem foreseen_givenPaths (h : error? (outcome (givenPaths s o)) = some f) :
    f.Foreseen := by
  rw [outcome_givenPaths] at h
  split at h
  · exact nomatch h
  · rcases error?_bind_eq_some h with hread | ⟨text, _, hparse⟩
    · exact foreseen_readDiff hread
    · obtain ⟨e, _, rfl⟩ := error?_mapError_eq_some hparse
      exact ⟨_, rfl⟩

/-- Whether a pull request is asked for, and the requests for it come to
    grief. -/
def ReviewOptions.LosesPull (s : Surroundings) (o : ReviewOptions) : Prop :=
  ∃ pull, o.pullRequest? = some pull
    ∧ (∃ token, pull.access s.environment = .ok token)
    ∧ PullRequest.ComesToGrief s.replies

/-- A pull request is lost exactly if fetching it fails without an
    explanation. -/
theorem ReviewOptions.losesPull_iff {pull : PullRequest}
    (h : o.pullRequest? = some pull) :
    o.LosesPull s
      ↔ ∃ e, outcome (pull.fetchDiff s.environment s.replies) = .error e
        ∧ ¬ e.IsExplained := by
  rw [LosesPull, PullRequest.unexplained_fetchDiff_iff, h]
  simp only [Option.some.injEq, exists_eq_left']

/-- What goes wrong with a pull request is told about unless its requests
    come to grief. -/
theorem foreseen_pullPaths_iff
    (h : error? (outcome (pullPaths s o)) = some f) :
    f.Foreseen ↔ ¬ o.LosesPull s := by
  rw [outcome_pullPaths] at h
  split at h
  · exact nomatch h
  · rename_i pull hpull
    rw [ReviewOptions.losesPull_iff hpull]
    rcases error?_bind_eq_some h with hfetch | ⟨text, htext, hparse⟩
    · obtain ⟨e, he, rfl⟩ := error?_mapError_eq_some hfetch
      rw [foreseen_fetch_iff, error?_eq_some_iff.mp he]
      constructor
      · rintro hexplained ⟨e', he', hunexplained⟩
        cases he'
        exact hunexplained hexplained
      · intro hnone
        exact Classical.not_not.mp fun hunexplained =>
          hnone ⟨e, rfl, hunexplained⟩
    · -- the diff was fetched, but it is no diff
      obtain ⟨e, _, rfl⟩ := error?_mapError_eq_some hparse
      refine iff_of_true ⟨_, rfl⟩ ?_
      rintro ⟨e', he', _⟩
      rw [he'] at htext
      exact nomatch htext

/-- A report that cannot be delivered fails at its file. -/
theorem inaccessible_of_deliver? (h : error? (deliver? s o) = some f) :
    ∃ e, f = .inaccessible e := by
  rw [deliver?] at h
  split at h
  · cases h
  · rename_i output _
    cases hplace : s.tree.writePlace (Path.parse output) with
    | ok place =>
        rw [hplace] at h
        cases h
    | error e =>
        rw [hplace] at h
        cases h
        exact ⟨e, rfl⟩

/-- A report that cannot be delivered ends a run without a word about it. -/
theorem not_foreseen_deliver? (h : error? (deliver? s o) = some f) :
    ¬ f.Foreseen := by
  obtain ⟨e, rfl⟩ := inaccessible_of_deliver? h
  rintro ⟨entry, hentry⟩
  cases hentry

/-- A report that cannot be rendered is told about. -/
theorem foreseen_report? {result : ReviewResult}
    (h : error? (report? s o result) = some f) : f.Foreseen := by
  rcases error?_bind_eq_some h with hformat | ⟨format, _, hrender⟩
  · exact foreseen_format hformat
  · obtain ⟨e, _, rfl⟩ := error?_mapError_eq_some hrender
    exact ⟨_, rfl⟩

/-- A comment that cannot be posted is told about exactly if the fault is
    one that is explained. -/
theorem foreseen_post_iff (e : PostError) :
    (Failure.post e).Foreseen ↔ e.IsExplained := by
  cases e with
  | lost f =>
      obtain ⟨kind, message⟩ := f
      cases kind with
      | malformed name => exact iff_of_true ⟨_, rfl⟩ ⟨name, rfl⟩
      | _ => exact iff_of_false nofun nofun
  | _ => exact iff_of_true ⟨_, rfl⟩ trivial

/-- Whether a comment is asked for, and posting it ends with a request that
    does not come through. -/
def ReviewOptions.LosesComment (s : Surroundings) (o : ReviewOptions) : Prop :=
  ∃ e, error? (post? s o (o.result s)) = some (.post e) ∧ ¬ e.IsExplained

/-- A comment that can be written is lost where access is granted and the
    first objection to a step of posting it is not explained. -/
theorem ReviewOptions.losesComment_iff {pull : PullRequest} {body : String}
    (hpost : o.post = true) (hpull : o.pullRequest? = some pull)
    (hbody : Report.render (o.result s) .github (some pull.number) (o.limit s)
      = .ok body) :
    o.LosesComment s
      ↔ (∃ token, pull.access s.environment = .ok token)
        ∧ ∃ e, (s.comments.steps (Report.marker pull.number)).findSome?
            s.comments.objection? = some e
          ∧ ¬ e.IsExplained := by
  -- with the comment rendered, only the server can fail
  have herror (e : PostError) :
      error? (post? s o (o.result s)) = some (.post e)
        ↔ s.comments.post? s.environment pull (Report.marker pull.number)
          = .error e := by
    rw [post?, hpost, hpull]
    dsimp only
    rw [hbody]
    cases s.comments.post? s.environment pull (Report.marker pull.number) with
    | ok id =>
        constructor
        · intro h
          cases h
        · intro h
          cases h
    | error e' =>
        show some (Failure.post e') = some (Failure.post e) ↔ _
        rw [Option.some.injEq, Failure.post.injEq, Except.error.injEq]
  simp only [LosesComment, herror, CommentServer.post?_eq_error_iff]
  constructor
  · rintro ⟨e, ⟨_, _, rfl⟩ | ⟨htoken, hobjection⟩, hunexplained⟩
    · -- to be denied access is explained
      exact absurd trivial hunexplained
    · exact ⟨htoken, e, hobjection, hunexplained⟩
  · rintro ⟨htoken, e, hobjection, hunexplained⟩
    exact ⟨e, .inr ⟨htoken, hobjection⟩, hunexplained⟩

/-- What goes wrong with a comment is told about unless its requests are
    lost. -/
theorem foreseen_post?_iff (h : error? (post? s o (o.result s)) = some f) :
    f.Foreseen ↔ ¬ o.LosesComment s := by
  have hpost (e : PostError) (he : f = .post e) :
      f.Foreseen ↔ ¬ o.LosesComment s := by
    rw [ReviewOptions.LosesComment, h, he, foreseen_post_iff]
    simp
  have hloses := h
  rw [post?] at h
  split at h
  · rename_i pull _ _
    rcases error?_bind_eq_some h with hrender | ⟨body, _, h⟩
    · -- the report cannot be written as a comment, so nothing is posted
      obtain ⟨e, _, rfl⟩ := error?_mapError_eq_some hrender
      refine iff_of_true ⟨_, rfl⟩ ?_
      rintro ⟨e', he', _⟩
      rw [hloses] at he'
      cases he'
    · cases hserver : s.comments.post? s.environment pull
          (Report.marker pull.number) with
      | ok id =>
          rw [hserver] at h
          cases h
      | error e =>
          rw [hserver] at h
          cases h
          exact hpost e rfl
  · cases h

namespace Phase

/-- Whether a failure of a phase is not foreseen: a path that cannot be
    looked up, requests that come to grief, a report that cannot be written,
    and a comment that is lost on its way. -/
def Unforeseen (s : Surroundings) (o : ReviewOptions) : Phase → Prop
  | .paths => True
  | .pull => o.LosesPull s
  | .delivery => True
  | .posting => o.LosesComment s
  | _ => False

/-- What goes wrong in a phase is told about exactly if it is not one of the
    unforeseen ways of that phase. -/
theorem foreseen_failure?_iff {phase : Phase}
    (h : phase.failure? s o = some f) :
    f.Foreseen ↔ ¬ phase.Unforeseen s o := by
  cases phase with
  | arguments => exact iff_of_true (foreseen_format h) id
  | paths =>
      obtain ⟨e, _, rfl⟩ := Option.map_eq_some_iff.mp h
      exact iff_of_false nofun fun hforeseen => hforeseen trivial
  | diff => exact iff_of_true (foreseen_givenPaths h) id
  | pull => exact foreseen_pullPaths_iff h
  | report => exact iff_of_true (foreseen_report? h) id
  | delivery =>
      exact iff_of_false (not_foreseen_deliver? h)
        fun hforeseen => hforeseen trivial
  | posting => exact foreseen_post?_iff h

end Phase

/-! ## The code -/

namespace ReviewOptions

/-- Whether a run finds something critical. -/
def FindsCritical (s : Surroundings) (o : ReviewOptions) : Prop :=
  ∃ f ∈ (o.result s).allFindings, f.severity = .critical

/-- A result fails exactly if some detector reports something critical. -/
theorem isFailing_result_iff :
    (o.result s).isFailing = true ↔ o.FindsCritical s := by
  have hfreeze : ∃ a : Aggregator, o.result s = a.freeze := by
    rw [result]
    split
    · exact exists_freeze_review _ _
    · exact ⟨{}, rfl⟩
  obtain ⟨a, ha⟩ := hfreeze
  rw [FindsCritical, ha, Aggregator.isFailing_freeze_iff]

end ReviewOptions

/-- A run that reviews ends with the status of its review command. -/
theorem value_run {args : List String}
    (h : s.command? args = some (.review o)) :
    (run s args).value = (statusOf (outcome (reviewCommand s o))).value := by
  rw [run, h]
  rfl

/-- A run whose phases all succeed ends with one for a failing result and
    with zero otherwise. -/
theorem code_of_completes {args : List String}
    (h : s.command? args = some (.review o)) (hcompletes : o.Completes s) :
    (run s args).value.code = if (o.result s).isFailing then 1 else 0 := by
  rw [value_run h, outcome_reviewCommand_of_completes hcompletes, statusOf]
  cases (o.result s).isFailing with
  | true => rfl
  | false => rfl

/-- A run that fails in a phase ends with two if it tells about the failure,
    and with one if it does not. -/
theorem code_of_failing? {args : List String} {phase : Phase}
    (h : s.command? args = some (.review o))
    (hphase : Phase.failing? s o = some phase) :
    (phase.Unforeseen s o ∧ (run s args).value.code = 1)
      ∨ (¬ phase.Unforeseen s o ∧ (run s args).value.code = 2) := by
  obtain ⟨f, hf, houtcome⟩ := outcome_reviewCommand_of_failing? hphase
  have hforeseen := Phase.foreseen_failure?_iff hf
  rw [value_run h, houtcome, statusOf]
  split
  · rename_i hnone
    refine .inl ⟨?_, rfl⟩
    refine Classical.not_not.mp fun hunforeseen => ?_
    obtain ⟨entry, hentry⟩ := hforeseen.mpr hunforeseen
    exact nomatch hnone.symm.trans hentry
  · rename_i entry hentry
    exact .inr ⟨hforeseen.mp ⟨entry, hentry⟩, rfl⟩

/-- **EXIT CODES**: a review that is read from the command line exits with
    code 0 if every phase succeeds and nothing critical is found, with
    code 1 if something is, and with code 2 if a phase fails; but the first
    phase to fail yields code 1 as well where its failure is not
    foreseen. -/
theorem code_run_review {args : List String}
    (h : s.command? args = some (.review o)) :
    ((run s args).value.code = 0 ↔ o.Completes s ∧ ¬ o.FindsCritical s)
      ∧ ((run s args).value.code = 1
        ↔ (o.Completes s ∧ o.FindsCritical s)
          ∨ ∃ phase, Phase.failing? s o = some phase ∧ phase.Unforeseen s o)
      ∧ ((run s args).value.code = 2
        ↔ ∃ phase, Phase.failing? s o = some phase
          ∧ ¬ phase.Unforeseen s o) := by
  -- no phase fails and the result decides, or the first failing phase does
  cases hphase : Phase.failing? s o with
  | none =>
      have hcompletes := ReviewOptions.completes_iff.mpr hphase
      rw [code_of_completes h hcompletes, ← ReviewOptions.isFailing_result_iff]
      cases (o.result s).isFailing with
      | true => simp [hcompletes]
      | false => simp [hcompletes]
  | some phase =>
      have hcompletes : ¬ o.Completes s := by
        rw [ReviewOptions.completes_iff, hphase]
        exact nofun
      rcases code_of_failing? h hphase with ⟨hunforeseen, hcode⟩ | ⟨hforeseen, hcode⟩
      · simp [hcompletes, hcode, hunforeseen]
      · simp [hcompletes, hcode, hforeseen]

/-- Surroundings without files, and with a server that is not reached. -/
def bareSurroundings : Surroundings where
  tree := {}
  replies := fun _ => .fault ⟨.connection, "reset"⟩

/-- A comment on no pull request is refused. -/
theorem code_incompletePull :
    (run bareSurroundings ["review", "cart.rb", "--post"]).value.code = 2 := by
  have hread : bareSurroundings.command? ["review", "cart.rb", "--post"]
      = some (.review
          { paths := ["cart.rb"], post := true,
            thresholds := ReviewOptions.thresholdFields.map (·, none) }) := by
    decide
  exact (code_run_review hread).2.2.mpr ⟨.arguments, rfl, id⟩

/-- A report that is to be written into a missing folder. -/
def lostReport : ReviewOptions where
  paths := ["cart.rb"]
  output := some "reports/review.md"
  thresholds := ReviewOptions.thresholdFields.map (·, none)

/-- A run whose report cannot be written exits like one that finds something
    critical. -/
theorem code_lostReport :
    bareSurroundings.command?
        ["review", "cart.rb", "--output", "reports/review.md"]
        = some (.review lostReport)
      ∧ Phase.failing? bareSurroundings lostReport = some .delivery
      ∧ ¬ lostReport.FindsCritical bareSurroundings
      ∧ (run bareSurroundings ["review", "cart.rb", "--output",
          "reports/review.md"]).value.code = 1 := by
  have hread : bareSurroundings.command?
      ["review", "cart.rb", "--output", "reports/review.md"]
        = some (.review lostReport) := by
    decide
  have hphase : Phase.failing? bareSurroundings lostReport
      = some .delivery := by
    rfl
  have hclear : ¬ lostReport.FindsCritical bareSurroundings := by
    rw [← ReviewOptions.isFailing_result_iff]
    decide
  refine ⟨hread, hphase, hclear, ?_⟩
  rcases code_of_failing? hread hphase with ⟨_, hcode⟩ | ⟨hforeseen, _⟩
  · exact hcode
  · exact absurd trivial hforeseen

end CodeReview.CommandLine

import CodeReview.Proofs.ExitCodes
import CodeReview.Proofs.SingleComment

/-! # What a run leaves behind

    Requests and waits pass; what is printed, written or put into a comment
    stays.  Everything up to the report only reads, so a run that fails
    before that leaves nothing behind.  The report is delivered before
    anything is posted, and one result is the source of both
    (`traces_reviewCommand`). -/

namespace CodeReview

variable {ε ε' α β : Type}

/-- Whether something done stays. -/
def Event.stays : Event → Bool
  | .editComment _ _ => true
  | .createComment _ => true
  | .print _ => true
  | .write _ _ => true
  | _ => false

/-- The body of the comment that is edited or created. -/
def Event.comment? : Event → Option String
  | .editComment _ body => some body
  | .createComment body => some body
  | _ => none

/-- A comment stays. -/
theorem Event.stays_of_comment? {event : Event} {body : String}
    (h : event.comment? = some body) : event.stays = true := by
  cases event with
  | editComment id body => rfl
  | createComment body => rfl
  | _ => exact nomatch h

/-- What a computation leaves behind. -/
def traces (x : ExceptT ε Traced α) : List Event :=
  (doings x).filter Event.stays

/-- A computation that goes on leaves behind what both parts do, the second
    only if the first succeeds. -/
theorem traces_bind (x : ExceptT ε Traced α) (f : α → ExceptT ε Traced β) :
    traces (x >>= f) = traces x ++ match outcome x with
      | .ok a => traces (f a)
      | .error _ => [] := by
  rw [traces, doings_bind, List.filter_append]
  cases outcome x with
  | ok a => rfl
  | error e => rfl

/-- Using the value of a computation leaves nothing more behind. -/
theorem traces_bind_pure (x : ExceptT ε Traced α) (f : α → β) :
    traces (x >>= fun a => pure (f a)) = traces x := by
  rw [traces, doings_bind_of_silent fun _ => rfl, traces]

/-! ## Computations that only read -/

/-- Whether a computation leaves nothing behind. -/
def Traceless (x : ExceptT ε Traced α) : Prop := traces x = []

/-- A value leaves nothing behind. -/
theorem traceless_pure (a : α) : Traceless (pure a : ExceptT ε Traced α) := rfl

/-- What only succeeds or fails leaves nothing behind. -/
theorem traceless_ofExcept (x : Except ε α) :
    Traceless (MonadExcept.ofExcept x : ExceptT ε Traced α) := by
  rw [Traceless, traces, doings_ofExcept]
  rfl

/-- Something done leaves nothing behind if all of it passes. -/
theorem traceless_lift {x : Traced α} (h : x.events.filter Event.stays = []) :
    Traceless (ExceptT.lift x : ExceptT ε Traced α) := by
  rw [Traceless, traces, doings_lift, h]

/-- Behind a part that leaves nothing, the traces are those of the rest. -/
theorem Traceless.traces_bind {x : ExceptT ε Traced α} (h : Traceless x)
    (f : α → ExceptT ε Traced β) :
    traces (x >>= f) = match outcome x with
      | .ok a => traces (f a)
      | .error _ => [] := by
  rw [CodeReview.traces_bind, h, List.nil_append]

/-- Parts that leave nothing behind leave nothing together. -/
theorem Traceless.bind {x : ExceptT ε Traced α} {f : α → ExceptT ε Traced β}
    (h : Traceless x) (hf : ∀ a, Traceless (f a)) : Traceless (x >>= f) := by
  rw [Traceless, h.traces_bind]
  split
  · exact hf _
  · rfl

/-- Fetching leaves nothing behind: it sends requests and waits, however
    often it has to. -/
theorem PullRequest.traceless_fetchDiff (environment : Environment)
    (replies : Nat → HttpReply) (pull : PullRequest) :
    Traceless (pull.fetchDiff environment replies) := by
  have hevents (request : HttpRequest) (a : Attempts FetchError Text) :
      (fetchEvents request a).filter Event.stays = [] := by
    refine List.filter_eq_nil_iff.mpr ?_
    intro event hevent
    rcases List.mem_append.mp hevent with hpause | hlast
    · obtain ⟨pause, _, hpause⟩ := List.mem_flatMap.mp hpause
      simp only [List.mem_cons, List.not_mem_nil, or_false] at hpause
      rcases hpause with rfl | rfl
      · exact Bool.false_ne_true
      · exact Bool.false_ne_true
    · rw [List.mem_singleton.mp hlast]
      exact Bool.false_ne_true
  refine (traceless_ofExcept _).bind fun token => ?_
  refine Traceless.bind (x := fetchLoop token replies pull) ?_ fun text =>
    (traceless_lift rfl).bind fun _ => traceless_pure text
  rw [Traceless, traces, (fetchLoop_eq token replies pull).2.2]
  exact hevents _ _

/-! ## Posting -/

/-- Whether a computation leaves behind one thing at most. -/
def LeavesAtMost (event : Event) (x : ExceptT ε Traced α) : Prop :=
  traces x = [] ∨ traces x = [event]

/-- A part that leaves nothing does not add to what the rest leaves. -/
theorem Traceless.bind_leavesAtMost {event : Event} {x : ExceptT ε Traced α}
    {f : α → ExceptT ε Traced β} (h : Traceless x)
    (hf : ∀ a, LeavesAtMost event (f a)) : LeavesAtMost event (x >>= f) := by
  rw [LeavesAtMost, h.traces_bind]
  split
  · exact hf _
  · exact .inl rfl

namespace CommentServer

/-- A step on the server leaves nothing behind if what it does passes. -/
theorem traceless_perform (server : CommentServer) (step : PostStep)
    {event : Event} (h : event.stays = false) :
    Traceless (server.perform step event) := by
  rw [Traceless, traces, doings_perform, List.filter_cons_of_neg, List.filter_nil]
  rw [h]
  exact Bool.false_ne_true

/-- Editing or creating the comment leaves that behind, refused or not. -/
theorem traces_finish (server : CommentServer) (request : PostRequest) :
    traces (server.finish request)
      = [writing request.body
          (PostAction.choose request.marker server.comments)] := by
  rw [traces, doings_finish]
  cases PostAction.choose request.marker server.comments with
  | edit id => rfl
  | create => rfl

/-- Posting leaves behind the comment, or nothing if a step before it was
    refused. -/
theorem leavesAtMost_post (server : CommentServer) (environment : Environment)
    (connected : Bool) (request : PostRequest) :
    LeavesAtMost (writing request.body
        (PostAction.choose request.marker server.comments))
      (server.post environment connected request) := by
  have hfinish : LeavesAtMost (writing request.body
      (PostAction.choose request.marker server.comments))
      (server.finish request) := .inr (server.traces_finish request)
  -- the steps before the last one only look
  have hopen : LeavesAtMost (writing request.body
      (PostAction.choose request.marker server.comments)) (do
        server.perform .openRepository
          (.openRepository request.pull.repository)
        server.perform .openPull (.openPull request.pull.number)
        if request.marker != "" then
          server.perform .listComments .listComments
        server.finish request) := by
    refine Traceless.bind_leavesAtMost (traceless_perform _ _ rfl) fun _ => ?_
    refine Traceless.bind_leavesAtMost (traceless_perform _ _ rfl) fun _ => ?_
    cases request.marker != "" with
    | true =>
        exact Traceless.bind_leavesAtMost (traceless_perform _ _ rfl)
          fun _ => hfinish
    | false => exact hfinish
  refine (traceless_ofExcept _).bind_leavesAtMost fun token => ?_
  cases connected with
  | true => exact hopen
  | false =>
      exact Traceless.bind_leavesAtMost (traceless_lift rfl) fun _ => hopen

end CommentServer

namespace CommandLine

/-- What is logged is not a trace. -/
theorem traceless_logged (x : Logged α) : Traceless (Step.logged x) :=
  traceless_lift rfl

/-- A step that only succeeds or fails leaves nothing behind. -/
theorem traceless_step_ofExcept (failure : ε → Failure) (x : Except ε α) :
    Traceless (Step.ofExcept failure x) :=
  traceless_ofExcept _

/-- Naming the error of a part does not change what it leaves behind. -/
theorem traces_within (failure : ε → Failure) (x : ExceptT ε Traced α) :
    traces (Step.within failure x) = traces x := by
  have hdoings : doings (Step.within failure x) = doings x := by
    show doings x ++ [] = doings x
    rw [List.append_nil]
  rw [traces, hdoings, traces]

variable {s : Surroundings} {o : ReviewOptions}

/-- Reading a diff leaves nothing behind. -/
theorem traceless_diffPaths (text : Text) : Traceless (diffPaths text) :=
  (traceless_step_ofExcept _ _).bind fun _ => traceless_logged _

/-- Taking the paths from a given diff leaves nothing behind. -/
theorem traceless_givenPaths : Traceless (givenPaths s o) := by
  rw [givenPaths]
  split
  · exact traceless_pure _
  · exact (traceless_step_ofExcept _ _).bind traceless_diffPaths

/-- Taking the paths from a pull request leaves nothing behind. -/
theorem traceless_pullPaths : Traceless (pullPaths s o) := by
  rw [pullPaths]
  split
  · exact traceless_pure _
  · rename_i pull _
    refine (traceless_logged _).bind fun _ => ?_
    refine Traceless.bind ?_ traceless_diffPaths
    rw [Traceless, traces_within]
    exact pull.traceless_fetchDiff s.environment s.replies

/-- Gathering the paths leaves nothing behind. -/
theorem traceless_candidates : Traceless (candidates s o) := by
  refine (traceless_step_ofExcept _ _).bind fun named => ?_
  refine traceless_givenPaths.bind fun given => ?_
  refine traceless_pullPaths.bind fun pulled => ?_
  show Traceless (if _ then _ else _)
  split
  · exact traceless_step_ofExcept _ _
  · exact traceless_pure _

/-- Whether something done hands out a report. -/
def Delivers (s : Surroundings) (o : ReviewOptions) (report : String)
    (event : Event) : Prop :=
  match o.output with
  | none => event = .print (Text.printed (report ++ "\n"))
  | some output =>
      ∃ place, s.tree.writePlace (Path.parse output) = .ok place
        ∧ event = .write place (report ++ "\n")

/-- Delivering leaves the report behind, or nothing if it fails. -/
theorem traces_deliver (report : String) :
    ((∃ f, deliver? s o = .error f) ∧ traces (deliver s o report) = [])
      ∨ (deliver? s o = .ok ()
        ∧ ∃ event, Delivers s o report event
          ∧ traces (deliver s o report) = [event]) := by
  unfold deliver deliver? Delivers
  cases o.output with
  | none => exact .inr ⟨rfl, _, rfl, rfl⟩
  | some output =>
      dsimp only
      rw [(traceless_step_ofExcept _ _).traces_bind, outcome_step_ofExcept]
      cases s.tree.writePlace (Path.parse output) with
      | ok place => exact .inr ⟨rfl, _, ⟨place, rfl, rfl⟩, rfl⟩
      | error e => exact .inl ⟨⟨_, rfl⟩, rfl⟩

/-- The report of a run, if it gets that far. -/
def ReviewOptions.report? (s : Surroundings) (o : ReviewOptions) :
    Except Failure String := do
  let _ ← o.reviewPaths? s
  CommandLine.report? s o (o.result s)

/-- What handing out a result leaves behind. -/
def handedOut (s : Surroundings) (o : ReviewOptions) (result : ReviewResult)
    (report : String) : List Event :=
  traces (deliver s o report) ++ match deliver? s o with
    | .error _ => []
    | .ok _ => traces (postReport s o result (o.limit s))

/-- What a run leaves behind once its result is there: nothing if the report
    cannot be written, else what is handed out. -/
theorem traces_handOut {format : Report.Format} (h : o.format = .ok format)
    (result : ReviewResult) :
    traces (do
      let report ← Step.ofExcept .report
        (Report.render result format o.pull (o.limit s))
      deliver s o report
      postReport s o result (o.limit s)
      return result)
      = match report? s o result with
        | .error _ => []
        | .ok report => handedOut s o result report := by
  have hreport : report? s o result
      = (Report.render result format o.pull (o.limit s)).mapError .report := by
    rw [report?, h]
    rfl
  rw [(traceless_step_ofExcept _ _).traces_bind, outcome_step_ofExcept,
    hreport]
  cases Report.render result format o.pull (o.limit s) with
  | error e => rfl
  | ok report =>
      -- with the report written, delivery decides whether anything is
      -- posted
      show traces (deliver s o report >>= _) = handedOut s o result report
      rw [traces_bind, outcome_deliver, handedOut]
      congr 1
      cases deliver? s o with
      | error f => rfl
      | ok _ =>
          exact traces_bind_pure _ fun _ => result

/-- **WHAT STAYS**: a run leaves nothing behind until it has its report;
    then it hands out the result of its review. -/
theorem traces_reviewCommand :
    traces (reviewCommand s o) = match o.report? s with
      | .error _ => []
      | .ok report => handedOut s o (o.result s) report := by
  have hpaths : o.reviewPaths? s
      = o.format >>= fun _ => outcome (candidates s o) := rfl
  -- the steps up to the review only read, so all that counts is how they end
  rw [reviewCommand, (traceless_step_ofExcept _ _).traces_bind,
    outcome_step_ofExcept, mapError_id, ReviewOptions.report?, hpaths]
  cases hformat : o.format with
  | error f => rfl
  | ok format =>
      dsimp only
      rw [(traceless_logged _).traces_bind, outcome_logged]
      dsimp only
      rw [traceless_candidates.traces_bind]
      cases hcandidates : outcome (candidates s o) with
      | error f => rfl
      | ok paths =>
          rw [hformat, hcandidates] at hpaths
          dsimp only
          rw [(traceless_logged _).traces_bind, outcome_logged]
          show traces (do
            let report ← Step.ofExcept .report (Report.render
              (review (o.input s) paths).value format o.pull (o.limit s))
            deliver s o report
            postReport s o (review (o.input s) paths).value (o.limit s)
            return (review (o.input s) paths).value) = _
          rw [← ReviewOptions.result_of_ok hpaths, traces_handOut hformat]
          rfl

/-! ## Early failures -/

/-- Whether a failure comes before the report: the options were refused, the
    diff could not be read or parsed, or it could not be fetched. -/
def Failure.IsEarly : Failure → Prop
  | .unknownFormat _ => True
  | .incompletePull => True
  | .badDiffPath _ => True
  | .unreadableDiff _ _ => True
  | .undecodableDiff _ => True
  | .diff _ => True
  | .fetch _ => True
  | .inaccessible _ => False
  | .report _ => False
  | .post _ => False

/-- A report that cannot be delivered is no early failure. -/
theorem not_isEarly_deliver? {f : Failure}
    (h : error? (deliver? s o) = some f) : ¬ f.IsEarly := by
  obtain ⟨e, rfl⟩ := inaccessible_of_deliver? h
  exact id

/-- A comment that cannot be posted is no early failure. -/
theorem not_isEarly_post? {result : ReviewResult} {f : Failure}
    (h : error? (post? s o result) = some f) : ¬ f.IsEarly := by
  rw [post?] at h
  split at h
  · rename_i pull _ _
    rcases error?_bind_eq_some h with hrender | ⟨body, _, h⟩
    · obtain ⟨e, _, rfl⟩ := error?_mapError_eq_some hrender
      exact id
    · cases hpost : s.comments.post? s.environment pull
          (Report.marker pull.number) with
      | ok id =>
          rw [hpost] at h
          cases h
      | error e =>
          rw [hpost] at h
          cases h
          exact id
  · cases h

/-- A run that has its report does not fail early. -/
theorem not_isEarly_of_report? {report : String} {f : Failure}
    (h : o.report? s = .ok report)
    (hf : outcome (reviewCommand s o) = .error f) : ¬ f.IsEarly := by
  obtain ⟨paths, hpaths, hreport⟩ := bind_eq_ok_iff.mp h
  rw [ReviewOptions.result_of_ok hpaths] at hreport
  rw [← error?_eq_some_iff, outcome_reviewCommand, hpaths] at hf
  rcases error?_bind_eq_some hf with hnone | ⟨_, hok, hf⟩
  · exact nomatch hnone
  · cases hok
    rcases error?_bind_eq_some hf with hnone | ⟨_, _, hf⟩
    · rw [hreport] at hnone
      exact nomatch hnone
    · rcases error?_bind_eq_some hf with hdeliver | ⟨_, _, hf⟩
      · exact not_isEarly_deliver? hdeliver
      · rcases error?_bind_eq_some hf with hpost | ⟨_, _, hf⟩
        · exact not_isEarly_post? hpost
        · exact nomatch hf

/-- A run that fails early leaves nothing behind. -/
theorem traces_of_isEarly {f : Failure}
    (h : outcome (reviewCommand s o) = .error f) (hearly : f.IsEarly) :
    traces (reviewCommand s o) = [] := by
  rw [traces_reviewCommand]
  cases hreport : o.report? s with
  | error e => rfl
  | ok report => exact absurd hearly (not_isEarly_of_report? hreport h)

/-! ## Comments -/

/-- Delivering a report posts no comment. -/
theorem comment?_of_delivers {report : String} {event : Event}
    (h : Delivers s o report event) : event.comment? = none := by
  unfold Delivers at h
  split at h
  · rw [h]
    rfl
  · obtain ⟨place, _, rfl⟩ := h
    rfl

/-- Both ways to post a comment write the body that they are given. -/
theorem comment?_writing (body : String) (action : PostAction) :
    (CommentServer.writing body action).comment? = some body := by
  cases action with
  | edit id => rfl
  | create => rfl

/-- What posting the report on a result leaves behind. -/
theorem traces_postReport {result : ReviewResult} {limit : Int} :
    traces (postReport s o result limit) = []
      ∨ ∃ pull body action, o.pullRequest? = some pull
        ∧ Report.render result .github (some pull.number) limit = .ok body
        ∧ traces (postReport s o result limit)
          = [CommentServer.writing body action] := by
  unfold postReport
  split
  · rename_i pull _ hpull
    rw [(traceless_step_ofExcept _ _).traces_bind, outcome_step_ofExcept]
    cases hrender : Report.render result .github (some pull.number) limit with
    | error e => exact .inl rfl
    | ok body =>
        have hpost := s.comments.leavesAtMost_post s.environment false
          { pull, body, marker := Report.marker pull.number }
        dsimp only [Except.mapError]
        rw [traces_bind_pure, traces_within]
        rcases hpost with hnone | hone
        · exact .inl hnone
        · exact .inr ⟨pull, body, _, hpull, hrender, hone⟩
  · exact .inl rfl

/-- What a review does is what its command does; reading the arguments adds
    nothing. -/
theorem events_run {args : List String}
    (h : s.command? args = some (.review o)) :
    (run s args).events = doings (reviewCommand s o) := by
  have hstatus (x : Except Failure ReviewResult) : (statusOf x).events = [] := by
    unfold statusOf
    split
    · rfl
    · split
      · rfl
      · rfl
  rw [run, h]
  show doings (reviewCommand s o) ++ (statusOf _).events = _
  rw [hstatus, List.append_nil]

/-- A comment that a run leaves behind comes right after the report, and
    renders the same result. -/
theorem traces_of_comment? {event : Event} {body : String}
    (h : event ∈ traces (reviewCommand s o))
    (hbody : event.comment? = some body) :
    ∃ pull report delivery, o.pullRequest? = some pull
      ∧ report? s o (o.result s) = .ok report
      ∧ Delivers s o report delivery
      ∧ Report.render (o.result s) .github (some pull.number) (o.limit s)
        = .ok body
      ∧ traces (reviewCommand s o) = [delivery, event] := by
  rw [traces_reviewCommand] at h ⊢
  cases hreport : o.report? s with
  | error f =>
      rw [hreport] at h
      exact nomatch h
  | ok report =>
      rw [hreport] at h
      dsimp only at h ⊢
      obtain ⟨_, _, hresult⟩ := bind_eq_ok_iff.mp hreport
      rw [handedOut] at h ⊢
      -- a comment is posted only once the report is delivered
      rcases traces_deliver (s := s) (o := o) report with
        ⟨⟨f, hf⟩, htraces⟩ | ⟨hok, delivery, hdelivers, htraces⟩
      · rw [htraces, hf] at h
        exact nomatch h
      · rw [htraces, hok] at h ⊢
        dsimp only at h ⊢
        rcases List.mem_cons.mp h with rfl | h
        · -- what is printed or written is no comment
          rw [comment?_of_delivers hdelivers] at hbody
          exact nomatch hbody
        · -- so it comes from posting, which leaves one thing at most
          rcases traces_postReport (s := s) (o := o) with
            hnone | ⟨pull, body', action, hpull, hrender, hposted⟩
          · rw [hnone] at h
            exact nomatch h
          · rw [hposted] at h ⊢
            obtain rfl := List.mem_singleton.mp h
            rw [comment?_writing] at hbody
            cases hbody
            exact ⟨pull, report, delivery, hpull, hresult, hdelivers, hrender,
              rfl⟩

/-- **NO TRACE OF A FAILED RUN**: a command line that cannot be read is
    refused without doing anything.  A review that fails because its options
    are refused, the diff cannot be read or parsed, or the fetch fails
    leaves nothing behind: it prints nothing, writes nothing and touches no
    comment.  And if a comment is edited or created, the run leaves behind
    that comment and, before it, the report, and both render the same
    result. -/
theorem run_without_trace (s : Surroundings) (args : List String) :
    (s.command? args = none →
        (run s args).value.code = 2 ∧ (run s args).events = [])
      ∧ ∀ o, s.command? args = some (.review o) →
        (∀ f, outcome (reviewCommand s o) = .error f → f.IsEarly →
          (run s args).events.filter Event.stays = [])
        ∧ ∀ event ∈ (run s args).events, ∀ body, event.comment? = some body →
          ∃ pull report delivery, o.pullRequest? = some pull
            ∧ report? s o (o.result s) = .ok report
            ∧ Delivers s o report delivery
            ∧ Report.render (o.result s) .github (some pull.number) (o.limit s)
              = .ok body
            ∧ (run s args).events.filter Event.stays = [delivery, event] := by
  refine ⟨?_, ?_⟩
  · intro hread
    rw [run, hread]
    exact ⟨rfl, rfl⟩
  · intro o hread
    rw [events_run hread]
    refine ⟨?_, ?_⟩
    · intro f hf hearly
      exact traces_of_isEarly hf hearly
    · intro event hevent body hbody
      exact traces_of_comment?
        (List.mem_filter.mpr ⟨hevent, Event.stays_of_comment? hbody⟩) hbody

/-- A project without files, and a server with one answer to every
    request. -/
def answering (response : HttpResponse) : Surroundings where
  tree := {}
  environment := [("GITHUB_TOKEN", "secret")]
  replies := fun _ => .response response

/-- A review of a pull request that is to be posted. -/
def postedReview : ReviewOptions where
  repository := some "acme/shop"
  pull := some 8
  post := true
  thresholds := ReviewOptions.thresholdFields.map (·, none)

/-- A command line without workers is refused; a pull request that is
    missing is asked for, but nothing stays; and one without changes is
    reported on and commented. -/
theorem run_without_trace_answering :
    let args := ["review", "--repo", "acme/shop", "--pr", "8", "--post"]
    let missing := run (answering ⟨404, [], "Not Found"⟩) args
    let unchanged := run (answering ⟨200, [], "OK"⟩) args
    (run bareSurroundings ["review", "--workers", "0"]).events = []
      ∧ missing.events.length = 1 ∧ missing.events.filter Event.stays = []
      ∧ ∃ event ∈ unchanged.events, ∃ body delivery,
        event.comment? = some body
          ∧ unchanged.events.filter Event.stays = [delivery, event] := by
  intro args missing unchanged
  have hread (response : HttpResponse) :
      (answering response).command? args = some (.review postedReview) := by
    show (answering ⟨0, [], ""⟩).command? args = _
    decide +kernel
  have hcomment : unchanged.events.any (·.comment?.isSome) = true := by
    decide +kernel
  obtain ⟨event, hevent, hsome⟩ := List.any_eq_true.mp hcomment
  obtain ⟨body, hbody⟩ := Option.isSome_iff_exists.mp hsome
  refine ⟨?_, by decide +kernel, ?_, event, hevent, body, ?_⟩
  · exact ((run_without_trace bareSurroundings _).1 (by decide +kernel)).2
  · exact ((run_without_trace _ args).2 postedReview (hread _)).1
      (.fetch (.notFound ⟨"acme/shop", 8⟩)) rfl trivial
  · obtain ⟨_, _, delivery, _, _, _, _, htraces⟩ :=
      ((run_without_trace _ args).2 postedReview (hread _)).2 event hevent body hbody
    exact ⟨delivery, hbody, htraces⟩

end CommandLine

end CodeReview

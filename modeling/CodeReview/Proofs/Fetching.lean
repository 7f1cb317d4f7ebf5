import CodeReview.Proofs.Awaiting
import CodeReview.PullRequest.Fetch

/-! # Fetching under every reply

    How fetching a diff ends, as a function of what the server replies.  A
    lost connection is tried again, twice at most; what comes after that is
    read off the last reply (`fetchDiff_of_access`). -/

namespace CodeReview

/-- Whether a request was lost: the connection failed, or the answer was
    late. -/
def HttpFault.IsLost (f : HttpFault) : Prop :=
  f.kind ∈ [.connection, .proxy, .encryption, .connectTimeout, .readTimeout,
    .timeout]

/-- A request is made again exactly if the connection was lost. -/
theorem HttpFault.mayPass_iff_isLost {f : HttpFault} :
    f.mayPass = true ↔ f.IsLost := by
  obtain ⟨kind, message⟩ := f
  cases kind <;> simp [mayPass, IsLost]

/-- Whether a reply is a lost request. -/
def HttpReply.IsLost (reply : HttpReply) : Prop :=
  ∃ f, reply = .fault f ∧ f.IsLost

/-- Whether a reply is a failure that is neither lost nor the fault of the
    request. -/
def HttpReply.IsStray (reply : HttpReply) : Prop :=
  ∃ name message, reply = .fault ⟨.other name, message⟩

/-- Whether an answer reports an error. -/
def HttpResponse.IsError (r : HttpResponse) : Prop :=
  400 ≤ r.status ∧ r.status < 600

/-- Whether an error is explained to whoever asked: all are, but for a
    request that failed without being malformed. -/
def FetchError.IsExplained : FetchError → Prop
  | .fault f => ∃ name, f.kind = .malformed name
  | .retry f => f.isBadValue = true
  | _ => True

/-- Whether something done is a request. -/
def Event.isRequest : Event → Bool
  | .get _ => true
  | _ => false

/-- The number of requests that a computation makes. -/
def requests {ε α : Type} (x : ExceptT ε Traced α) : Nat :=
  (doings x).countP Event.isRequest

namespace PullRequest

open Attempts

/-- The attempts to fetch a diff. -/
def fetchAttempts (replies : Nat → HttpReply) (pull : PullRequest) :
    Attempts FetchError Text :=
  fetchPolicy.run FetchError.mayPass fun n => pull.diffOf (replies n)

/-- Fetching tries three times at most, and goes on only where the
    connection was lost. -/
theorem tried_fetchAttempts (replies : Nat → HttpReply) (pull : PullRequest) :
    Tried FetchError.mayPass (fun n => pull.diffOf (replies n)) 0 2
      (fetchAttempts replies pull) :=
  tried_tryFrom _ _ 2 0

/-- A reply is passed over exactly if it says that the connection was
    lost. -/
theorem passing_diffOf_iff (pull : PullRequest) (reply : HttpReply) :
    Passing FetchError.mayPass (pull.diffOf reply) ↔ reply.IsLost := by
  cases reply with
  | fault f =>
      constructor
      · rintro ⟨e, he, hpass⟩
        rw [← Except.error.inj he] at hpass
        exact ⟨f, rfl, HttpFault.mayPass_iff_isLost.mp hpass⟩
      · rintro ⟨f', hf, hlost⟩
        cases hf
        exact ⟨.fault f, rfl, HttpFault.mayPass_iff_isLost.mpr hlost⟩
  | response r =>
      constructor
      · rintro ⟨e, he, hpass⟩
        rw [diffOf] at he
        split at he
        · cases he; exact nomatch hpass
        · split at he
          · cases he; exact nomatch hpass
          · split at he
            · cases he; exact nomatch hpass
            · exact nomatch he
      · rintro ⟨f, hf, _⟩
        exact nomatch hf

/-- The two waits that fetching a diff can come to are one second and two
    seconds. -/
theorem waits_fetchPolicy : ∀ attempt < 2, fetchPolicy.Waits attempt := by
  unfold RetryPolicy.Waits
  decide

/-- Every wait between the attempts takes place. -/
theorem waits_of_mem_pauses {replies : Nat → HttpReply} {pull : PullRequest}
    {pause : Pause FetchError}
    (h : pause ∈ (fetchAttempts replies pull).pauses) :
    fetchPolicy.Waits pause.attempt := by
  have htried := tried_fetchAttempts replies pull
  have hnumber : pause.attempt
      ∈ (fetchAttempts replies pull).pauses.map (·.attempt) :=
    List.mem_map_of_mem h
  rw [htried.numbered, List.mem_range'_1, Nat.zero_add] at hnumber
  exact waits_fetchPolicy _ (Nat.lt_of_lt_of_le hnumber.2 htried.bounded)

/-- The requests and waits of some attempts. -/
def fetchEvents (request : HttpRequest) (a : Attempts FetchError Text) :
    List Event :=
  a.pauses.flatMap (fun pause =>
    [.get request, .sleep (fetchPolicy.delay pause.attempt)]) ++ [.get request]

/-- The requests of a diff, with the waits between them. -/
def fetchLoop (token : String) (replies : Nat → HttpReply)
    (pull : PullRequest) : ExceptT FetchError Traced Text :=
  fetchPolicy.perform FetchError.mayPass
    (fetchPolicy.pauseEntry "fetch_raw_diff" FetchError.message) .retry
    fun n => pull.requestDiff token (replies n)

/-- The requests come to what the record of the attempts says, and one entry
    is logged for each wait. -/
theorem fetchLoop_eq (token : String) (replies : Nat → HttpReply)
    (pull : PullRequest) :
    let tries := fetchAttempts replies pull
    tries.outcome = some (outcome (fetchLoop token replies pull))
      ∧ entries (fetchLoop token replies pull)
        = tries.pauses.map
          (fetchPolicy.pauseEntry "fetch_raw_diff" FetchError.message)
      ∧ doings (fetchLoop token replies pull)
        = fetchEvents (pull.diffRequest token) tries := by
  intro tries
  obtain ⟨houtcome, hentries, hdoings⟩ :=
    fetchPolicy.perform_of_waits FetchError.mayPass
      (fetchPolicy.pauseEntry "fetch_raw_diff" FetchError.message) .retry
      (fun n => pull.requestDiff token (replies n)) (by decide)
      fun _ => waits_of_mem_pauses
  refine ⟨houtcome, ?_, hdoings⟩
  refine hentries.trans ?_
  -- a request itself logs nothing
  show tries.pauses.flatMap (fun pause => [_]) ++ [] = _
  rw [List.append_nil, List.map_eq_flatMap]

/-- One request goes with each call. -/
theorem countP_fetchEvents (request : HttpRequest)
    (a : Attempts FetchError Text) :
    (fetchEvents request a).countP Event.isRequest = a.pauses.length + 1 := by
  have hpauses : ∀ pauses : List (Pause FetchError),
      (pauses.flatMap fun pause =>
        [Event.get request, .sleep (fetchPolicy.delay pause.attempt)]).countP
          Event.isRequest = pauses.length := by
    intro pauses
    induction pauses with
    | nil => rfl
    | cons pause rest ih =>
        rw [List.flatMap_cons, List.countP_append, ih, List.length_cons,
          Nat.add_comm]
        rfl
  rw [fetchEvents, List.countP_append, hpauses]
  rfl

variable {environment : Environment} {pull : PullRequest}

/-- A request that is denied is not made. -/
theorem fetchDiff_of_denied {e : AccessDenied}
    (h : pull.access environment = .error e) (replies : Nat → HttpReply) :
    outcome (pull.fetchDiff environment replies) = .error (.denied e)
      ∧ requests (pull.fetchDiff environment replies) = 0 := by
  rw [fetchDiff, h]
  exact ⟨rfl, rfl⟩

/-- The number of lost requests that are followed by another. -/
def lostRequests (replies : Nat → HttpReply) (pull : PullRequest) : Nat :=
  (fetchAttempts replies pull).pauses.length

/-- Where access is granted, fetching is the requests and a note about the
    length of the diff. -/
theorem fetchDiff_of_ok {token : String}
    (h : pull.access environment = .ok token) (replies : Nat → HttpReply) :
    outcome (pull.fetchDiff environment replies)
        = outcome (fetchLoop token replies pull)
      ∧ doings (pull.fetchDiff environment replies)
        = doings (fetchLoop token replies pull) := by
  have haccess : outcome (MonadExcept.ofExcept
      ((pull.access environment).mapError .denied)
        : ExceptT FetchError Traced String) = .ok token := by
    rw [outcome_ofExcept, h]
    rfl
  rw [fetchDiff, outcome_bind, haccess, doings_bind_of_ok haccess,
    doings_ofExcept, List.nil_append]
  exact bind_note (fetchLoop token replies pull) fun text => rfl

/-- Where access is granted, what is done are the attempts. -/
theorem doings_fetchDiff_of_access {token : String}
    (h : pull.access environment = .ok token) (replies : Nat → HttpReply) :
    doings (pull.fetchDiff environment replies)
      = fetchEvents (pull.diffRequest token) (fetchAttempts replies pull) := by
  rw [(fetchDiff_of_ok h replies).2]
  exact (fetchLoop_eq token replies pull).2.2

/-- Where access is granted, the reply behind the lost requests decides. -/
theorem fetchDiff_of_access {token : String}
    (h : pull.access environment = .ok token) (replies : Nat → HttpReply) :
    outcome (pull.fetchDiff environment replies)
        = pull.diffOf (replies (lostRequests replies pull))
      ∧ requests (pull.fetchDiff environment replies)
        = lostRequests replies pull + 1 := by
  constructor
  · have hlast := (tried_fetchAttempts replies pull).outcome_eq
    rw [(fetchLoop_eq token replies pull).1, Nat.zero_add] at hlast
    rw [(fetchDiff_of_ok h replies).1]
    exact Option.some.inj hlast
  · rw [requests, doings_fetchDiff_of_access h, countP_fetchEvents]
    rfl

/-- No more than two lost requests are followed by another. -/
theorem lostRequests_le (replies : Nat → HttpReply) (pull : PullRequest) :
    lostRequests replies pull ≤ 2 :=
  (tried_fetchAttempts replies pull).bounded

/-- Every request that is followed by another was lost. -/
theorem isLost_of_lt {replies : Nat → HttpReply} {n : Nat}
    (hn : n < lostRequests replies pull) : (replies n).IsLost := by
  have hpassing := (tried_fetchAttempts replies pull).passing_of_lt hn
  rw [Nat.zero_add] at hpassing
  exact (passing_diffOf_iff pull _).mp hpassing

/-- The last request was lost only if three were. -/
theorem lostRequests_eq_of_isLost {replies : Nat → HttpReply}
    (h : (replies (lostRequests replies pull)).IsLost) :
    lostRequests replies pull = 2 := by
  rcases Nat.lt_or_eq_of_le (lostRequests_le replies pull) with hlt | heq
  · have hsettled := (tried_fetchAttempts replies pull).settled hlt
    rw [Nat.zero_add] at hsettled
    exact absurd ((passing_diffOf_iff pull _).mpr h) hsettled
  · exact heq

/-- Whether fetching ends with the text of an answer that is no error, or
    with an error that is explained. -/
def EndsWell (environment : Environment) (replies : Nat → HttpReply)
    (pull : PullRequest) : Prop :=
  (∃ n r, requests (pull.fetchDiff environment replies) = n + 1
      ∧ replies n = .response r ∧ ¬ r.IsError
      ∧ outcome (pull.fetchDiff environment replies) = .ok r.text)
    ∨ ∃ e, outcome (pull.fetchDiff environment replies) = .error e
      ∧ e.IsExplained

/-- Whether fetching comes to grief: three requests are lost, or before that
    one goes astray. -/
def ComesToGrief (replies : Nat → HttpReply) : Prop :=
  (∀ n < 3, (replies n).IsLost)
    ∨ ∃ n < 3, (∀ m < n, (replies m).IsLost) ∧ (replies n).IsStray

/-- The last reply tells whether the requests came to grief. -/
theorem comesToGrief_iff (replies : Nat → HttpReply) (pull : PullRequest) :
    ComesToGrief replies
      ↔ (replies (lostRequests replies pull)).IsLost
        ∨ (replies (lostRequests replies pull)).IsStray := by
  have hle := lostRequests_le replies pull
  constructor
  · rintro (hall | ⟨n, _, hbefore, hn⟩)
    · exact .inl (hall _ (by omega))
    · rcases Nat.lt_trichotomy n (lostRequests replies pull) with hlt | heq | hgt
      · -- a request that went astray was not lost
        obtain ⟨f, hf, hkind⟩ := isLost_of_lt hlt
        obtain ⟨name, message, hother⟩ := hn
        rw [hf] at hother
        cases hother
        simp [HttpFault.IsLost] at hkind
      · exact .inr (heq ▸ hn)
      · exact .inl (hbefore _ hgt)
  · rintro (hlost | hstray)
    · -- the third lost request in a row
      have htwo := lostRequests_eq_of_isLost hlost
      refine .inl fun n hn => ?_
      rcases Nat.lt_or_eq_of_le (Nat.le_of_lt_succ hn) with hlt | rfl
      · exact isLost_of_lt (htwo ▸ hlt)
      · exact htwo ▸ hlost
    · exact .inr ⟨_, Nat.lt_succ_of_le hle, fun m hm => isLost_of_lt hm, hstray⟩

/-- An answer is read, or the error it reports is explained. -/
theorem diffOf_response (pull : PullRequest) (r : HttpResponse) :
    (¬ r.IsError ∧ pull.diffOf (.response r) = .ok r.text)
      ∨ ∃ e, pull.diffOf (.response r) = .error e ∧ e.IsExplained := by
  rw [diffOf]
  split
  · exact .inr ⟨_, rfl, trivial⟩
  · split
    · exact .inr ⟨_, rfl, trivial⟩
    · split
      · exact .inr ⟨_, rfl, trivial⟩
      · rename_i herror
        exact .inl ⟨herror, rfl⟩

/-- A fault is left unexplained if the connection was lost, or if the fault
    is none that requests are known for. -/
theorem not_isExplained_fault_iff (f : HttpFault) :
    ¬ (FetchError.fault f).IsExplained
      ↔ (HttpReply.fault f).IsLost ∨ (HttpReply.fault f).IsStray := by
  obtain ⟨kind, message⟩ := f
  cases kind <;>
    simp [FetchError.IsExplained, HttpReply.IsLost, HttpFault.IsLost,
      HttpReply.IsStray]

/-- A reply is passed on unexplained if it is lost or astray. -/
theorem unexplained_diffOf_iff (pull : PullRequest) (reply : HttpReply) :
    (∃ e, pull.diffOf reply = .error e ∧ ¬ e.IsExplained)
      ↔ reply.IsLost ∨ reply.IsStray := by
  cases reply with
  | fault f =>
      rw [← not_isExplained_fault_iff]
      constructor
      · rintro ⟨e, he, hunexplained⟩
        cases he
        exact hunexplained
      · intro hunexplained
        exact ⟨_, rfl, hunexplained⟩
  | response r =>
      refine iff_of_false ?_ ?_
      · rintro ⟨e, he, hunexplained⟩
        rcases diffOf_response pull r with ⟨_, htext⟩ | ⟨e', he', hexplained⟩
        · exact nomatch htext.symm.trans he
        · cases he'.symm.trans he
          exact hunexplained hexplained
      · rintro (⟨f, hf, _⟩ | ⟨name, message, hf⟩)
        · exact nomatch hf
        · exact nomatch hf

/-- **GRIEF**: fetching fails unexplained where access is granted and the
    requests come to grief. -/
theorem unexplained_fetchDiff_iff (environment : Environment)
    (replies : Nat → HttpReply) (pull : PullRequest) :
    (∃ e, outcome (pull.fetchDiff environment replies) = .error e
        ∧ ¬ e.IsExplained)
      ↔ (∃ token, pull.access environment = .ok token)
        ∧ ComesToGrief replies := by
  cases haccess : pull.access environment with
  | error denied =>
      rw [(fetchDiff_of_denied haccess replies).1]
      refine iff_of_false ?_ ?_
      · rintro ⟨e, he, hunexplained⟩
        cases he
        exact hunexplained trivial
      · rintro ⟨⟨token, htoken⟩, _⟩
        exact nomatch htoken
  | ok token =>
      rw [(fetchDiff_of_access haccess replies).1, unexplained_diffOf_iff,
        ← comesToGrief_iff]
      exact ⟨fun hgrief => ⟨⟨token, rfl⟩, hgrief⟩, fun h => h.2⟩

/-- A text that was fetched is that of the last answer. -/
theorem endsWell_of_ok {replies : Nat → HttpReply} {text : Text}
    (h : outcome (pull.fetchDiff environment replies) = .ok text) :
    EndsWell environment replies pull := by
  cases haccess : pull.access environment with
  | error denied =>
      rw [(fetchDiff_of_denied haccess replies).1] at h
      exact nomatch h
  | ok token =>
      obtain ⟨houtcome, hrequests⟩ := fetchDiff_of_access haccess replies
      rw [houtcome] at h
      rw [EndsWell, houtcome, hrequests]
      cases hreply : replies (lostRequests replies pull) with
      | fault f =>
          rw [hreply] at h
          exact nomatch h
      | response r =>
          rcases diffOf_response pull r with ⟨herror, htext⟩ | hexplained
          · exact .inl ⟨_, r, rfl, hreply, herror, htext⟩
          · exact .inr hexplained

/-- A run ends well exactly if it does not fail without an explanation. -/
theorem endsWell_iff (environment : Environment)
    (replies : Nat → HttpReply) (pull : PullRequest) :
    EndsWell environment replies pull
      ↔ ¬ ∃ e, outcome (pull.fetchDiff environment replies) = .error e
          ∧ ¬ e.IsExplained := by
  constructor
  · rintro (⟨_, _, _, _, _, htext⟩ | ⟨e, he, hexplained⟩) ⟨e', he', hunexplained⟩
    · exact nomatch htext.symm.trans he'
    · cases he.symm.trans he'
      exact hunexplained hexplained
  · intro hexplained
    cases houtcome : outcome (pull.fetchDiff environment replies) with
    | ok text => exact endsWell_of_ok houtcome
    | error e =>
        refine .inr ⟨e, houtcome, ?_⟩
        exact Classical.not_not.mp fun h => hexplained ⟨e, houtcome, h⟩

/-- **FETCHING**: a diff is requested three times at most, and again only
    after a lost request.  Fetching ends with the text of an answer that is
    no error or with an error that is explained, unless access is granted
    and the requests come to grief. -/
theorem fetchDiff_ends (environment : Environment)
    (replies : Nat → HttpReply) (pull : PullRequest) :
    requests (pull.fetchDiff environment replies) ≤ 3
      ∧ (∀ n, n + 1 < requests (pull.fetchDiff environment replies) →
          (replies n).IsLost)
      ∧ (EndsWell environment replies pull
          ↔ ¬ ((∃ token, pull.access environment = .ok token)
            ∧ ComesToGrief replies)) := by
  refine ⟨?_, ?_, ?_⟩
  · -- without access nothing is requested
    cases haccess : pull.access environment with
    | error denied =>
        rw [(fetchDiff_of_denied haccess replies).2]
        exact Nat.zero_le 3
    | ok token =>
        rw [(fetchDiff_of_access haccess replies).2]
        exact Nat.succ_le_succ (lostRequests_le replies pull)
  · intro n hn
    cases haccess : pull.access environment with
    | error denied =>
        rw [(fetchDiff_of_denied haccess replies).2] at hn
        exact absurd hn (Nat.not_lt_zero _)
    | ok token =>
        rw [(fetchDiff_of_access haccess replies).2] at hn
        exact isLost_of_lt (Nat.lt_of_succ_lt_succ hn)
  · rw [endsWell_iff, unexplained_fetchDiff_iff]

/-- A server that resets every connection is not explained. -/
theorem not_endsWell_of_resets :
    ¬ EndsWell [("GITHUB_TOKEN", "secret")]
      (fun _ => .fault ⟨.connection, "reset"⟩) ⟨"acme/shop", 1⟩ := by
  rw [endsWell_iff, unexplained_fetchDiff_iff, Classical.not_not]
  refine ⟨⟨"secret", rfl⟩, .inl fun n _ => ?_⟩
  exact ⟨_, rfl, by simp [HttpFault.IsLost]⟩

end PullRequest

end CodeReview

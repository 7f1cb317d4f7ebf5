import CodeReview.Proofs.Outcome
import CodeReview.Proofs.Retrying
import Mathlib.Data.List.Basic

/-! # Calls and waits in order

    Trying an action makes calls, and logs and waits between them.  The
    record of the attempts says which: a round for each pause, and the last
    call behind them (`perform_eq`).  The loop comes to what the record says
    if every wait takes place (`perform_of_waits`), and to a fault at the
    first one that does not (`perform_of_fault`). -/

namespace CodeReview

variable {ε α : Type}

namespace RetryPolicy
open Attempts

variable {policy : RetryPolicy} {mayPass : ε → Bool}
  {entry : Pause ε → LogEntry} {grief : RetryFault → ε}
  {call : Nat → Traced (Except ε α)}

/-- A failed call and the wait behind it. -/
def failAndWait (policy : RetryPolicy) (entry : Pause ε → LogEntry)
    (grief : RetryFault → ε) (call : Nat → Traced (Except ε α))
    (pause : Pause ε) : ExceptT ε Traced Unit := do
  let _ ← ExceptT.lift (call pause.attempt)
  ExceptT.adapt grief (policy.await (entry pause) pause.attempt)

/-- Makes a call and yields what it comes to. -/
def lastCall (call : Nat → Traced (Except ε α)) (attempt : Nat) :
    ExceptT ε Traced α := do
  MonadExcept.ofExcept (← ExceptT.lift (call attempt))

/-- The last call allowed, or one that settles the matter, is all that is
    done. -/
theorem performFrom_of_settled {attempt left : Nat}
    (h : left = 0 ∨ ¬ Passing mayPass (call attempt).value) :
    policy.performFrom mayPass entry grief call (left + 1) attempt
      = lastCall call attempt := by
  refine lift_bind_congr ?_
  cases hcall : (call attempt).value with
  | ok value => rfl
  | error reason => exact if_neg (not_again_of_settled h hcall)

/-- A call that may succeed later is told about and waited for, and the loop
    goes on with the next. -/
theorem performFrom_of_passing {attempt left : Nat} {reason : ε}
    (hfailed : (call attempt).value = .error reason)
    (hpass : mayPass reason = true) :
    policy.performFrom mayPass entry grief call (left + 2) attempt
      = policy.failAndWait entry grief call ⟨attempt, reason⟩ >>= fun _ =>
          policy.performFrom mayPass entry grief call (left + 1)
            (attempt + 1) := by
  rw [failAndWait, bind_assoc]
  refine lift_bind_congr ?_
  rw [hfailed]
  have hagain : (mayPass reason && decide (0 < left + 1)) = true := by
    rw [hpass, decide_eq_true (Nat.succ_pos left)]
    rfl
  exact if_pos hagain

/-- **IN ORDER**: trying an action is its failed calls that may pass, each
    with the wait behind it, and then its last call. -/
theorem performFrom_eq (policy : RetryPolicy) (mayPass : ε → Bool)
    (entry : Pause ε → LogEntry) (grief : RetryFault → ε)
    (call : Nat → Traced (Except ε α)) (left attempt : Nat) :
    let tries := tryFrom mayPass (fun n => (call n).value) (left + 1) attempt
    policy.performFrom mayPass entry grief call (left + 1) attempt
      = (do
          tries.pauses.forM (policy.failAndWait entry grief call)
          lastCall call (attempt + tries.pauses.length)) := by
  -- a call that settles the matter comes behind no round at all
  have hsettled (attempt : Nat) : lastCall call attempt = (do
      ([] : List (Pause ε)).forM (policy.failAndWait entry grief call)
      lastCall call attempt) := (pure_bind PUnit.unit fun _ => _).symm
  induction left generalizing attempt with
  | zero =>
      rw [tryFrom_of_settled (.inl rfl), performFrom_of_settled (.inl rfl)]
      exact hsettled attempt
  | succ left ih =>
      by_cases hpassing : Passing mayPass (call attempt).value
      · obtain ⟨reason, hfailed, hpass⟩ := hpassing
        rw [tryFrom_of_passing hfailed hpass,
          performFrom_of_passing hfailed hpass, ih]
        simp only [afterPause, List.forM_eq_forM, List.forM_cons, bind_assoc,
          List.length_cons]
        rw [Nat.add_right_comm, Nat.add_assoc]
      · rw [tryFrom_of_settled (.inr hpassing),
          performFrom_of_settled (.inr hpassing)]
        exact hsettled attempt

/-- Whether the wait after a call takes place. -/
def Waits (policy : RetryPolicy) (attempt : Nat) : Prop :=
  attempt < waitLimit ∧ waitFault? (policy.delay attempt) = none

/-- Where the delay can be waited for, waiting takes it and no more. -/
theorem await_of_waits {attempt : Nat} (h : policy.Waits attempt)
    (line : LogEntry) :
    policy.await line attempt
      = ExceptT.mk ⟨.ok (), [line], [.sleep (policy.delay attempt)]⟩ := by
  rw [await, if_neg (Nat.not_le_of_lt h.1), h.2]
  rfl

section Rounds

variable (policy mayPass entry grief call)

/-- A round writes and does what its call and its wait do. -/
theorem failAndWait_eq (pause : Pause ε) :
    let wait := policy.await (entry pause) pause.attempt
    let round := policy.failAndWait entry grief call pause
    outcome round = (outcome wait).mapError grief
      ∧ entries round = (call pause.attempt).log ++ entries wait
      ∧ doings round = (call pause.attempt).events ++ doings wait := by
  intro wait round
  obtain ⟨houtcome, hentries, hdoings⟩ := adapt_eq grief wait
  obtain ⟨hround, hroundEntries, hroundDoings⟩ :=
    lift_bind_eq (call pause.attempt) fun _ => ExceptT.adapt grief wait
  refine ⟨hround.trans houtcome, ?_, ?_⟩
  · rw [← hentries]
    exact hroundEntries
  · rw [← hdoings]
    exact hroundDoings

/-- The last call decides. -/
theorem lastCall_eq (attempt : Nat) :
    outcome (lastCall call attempt) = (call attempt).value
      ∧ entries (lastCall call attempt) = (call attempt).log
      ∧ doings (lastCall call attempt) = (call attempt).events := by
  obtain ⟨houtcome, hentries, hdoings⟩ :=
    lift_bind_eq (call attempt) (MonadExcept.ofExcept (m := ExceptT ε Traced))
  refine ⟨houtcome.trans (outcome_ofExcept _), ?_, ?_⟩
  · rw [lastCall, hentries, entries_ofExcept, List.append_nil]
  · rw [lastCall, hdoings, doings_ofExcept, List.append_nil]

/-- The loop is the rounds of the record and the last call. -/
theorem perform_eq (hallowed : 1 ≤ policy.attempts) :
    let tries := policy.run mayPass fun n => (call n).value
    policy.perform mayPass entry grief call
      = (do
          tries.pauses.forM (policy.failAndWait entry grief call)
          lastCall call tries.pauses.length) := by
  obtain ⟨left, hleft⟩ := Nat.exists_eq_add_of_le' hallowed
  intro tries
  have hloop := performFrom_eq policy mayPass entry grief call left 0
  rw [perform, hleft, hloop, Nat.zero_add, ← hleft]
  rfl

/-- A round whose wait takes place logs one entry and waits once. -/
theorem failAndWait_of_waits {pause : Pause ε} (h : policy.Waits pause.attempt) :
    outcome (policy.failAndWait entry grief call pause) = .ok ()
      ∧ entries (policy.failAndWait entry grief call pause)
        = (call pause.attempt).log ++ [entry pause]
      ∧ doings (policy.failAndWait entry grief call pause)
        = (call pause.attempt).events
          ++ [.sleep (policy.delay pause.attempt)] := by
  have heq := failAndWait_eq policy entry grief call pause
  rw [await_of_waits h] at heq
  exact heq

/-- Rounds whose waits take place, one after the other. -/
theorem rounds_of_waits {pauses : List (Pause ε)}
    (h : ∀ pause ∈ pauses, policy.Waits pause.attempt) :
    let rounds := pauses.forM (policy.failAndWait entry grief call)
    outcome rounds = .ok ()
      ∧ entries rounds = pauses.flatMap (fun pause =>
          (call pause.attempt).log ++ [entry pause])
      ∧ doings rounds = pauses.flatMap (fun pause =>
          (call pause.attempt).events
            ++ [.sleep (policy.delay pause.attempt)]) := by
  obtain ⟨houtcome, hentries, hdoings⟩ := forM_of_ok fun pause hpause =>
    (failAndWait_of_waits policy entry grief call (h pause hpause)).1
  refine ⟨houtcome, ?_, ?_⟩
  · rw [hentries, List.flatMap_congr fun pause hpause =>
      (failAndWait_of_waits policy entry grief call (h pause hpause)).2.1]
  · rw [hdoings, List.flatMap_congr fun pause hpause =>
      (failAndWait_of_waits policy entry grief call (h pause hpause)).2.2]

/-- **PERFORMED**: where every wait takes place, the loop comes to what the
    record of its calls says.  Each failure on the way is logged once and
    waited after once, before the next call is made. -/
theorem perform_of_waits (hallowed : 1 ≤ policy.attempts)
    (hwaits : ∀ pause ∈ (policy.run mayPass fun n => (call n).value).pauses,
      policy.Waits pause.attempt) :
    let tries := policy.run mayPass fun n => (call n).value
    let loop := policy.perform mayPass entry grief call
    tries.outcome = some (outcome loop)
      ∧ entries loop
        = tries.pauses.flatMap (fun pause =>
            (call pause.attempt).log ++ [entry pause])
          ++ (call tries.pauses.length).log
      ∧ doings loop
        = tries.pauses.flatMap (fun pause =>
            (call pause.attempt).events ++ [.sleep (policy.delay pause.attempt)])
          ++ (call tries.pauses.length).events := by
  intro tries loop
  -- the loop is its rounds with the last call behind them, and all rounds
  -- succeed
  have hloop : loop = _ := perform_eq policy mayPass entry grief call hallowed
  obtain ⟨houtcome, hentries, hdoings⟩ :=
    rounds_of_waits policy entry grief call hwaits
  obtain ⟨hlast, hlastEntries, hlastDoings⟩ :=
    lastCall_eq call tries.pauses.length
  refine ⟨?_, ?_, ?_⟩
  · rw [hloop, outcome_bind, houtcome,
      (tried_run policy mayPass _ hallowed).outcome_eq, Nat.zero_add]
    exact congrArg some hlast.symm
  · rw [hloop, entries_bind_of_ok houtcome, hentries, hlastEntries]
  · rw [hloop, doings_bind_of_ok houtcome, hdoings, hlastDoings]

/-- The first wait that does not take place ends the loop with what is wrong
    about it; later calls are not made. -/
theorem perform_of_fault (hallowed : 1 ≤ policy.attempts)
    {before after : List (Pause ε)} {pause : Pause ε} {fault : RetryFault}
    (hpauses : (policy.run mayPass fun n => (call n).value).pauses
      = before ++ pause :: after)
    (hbefore : ∀ earlier ∈ before, policy.Waits earlier.attempt)
    (hfault : outcome (policy.await (entry pause) pause.attempt)
      = .error fault) :
    let wait := policy.await (entry pause) pause.attempt
    let loop := policy.perform mayPass entry grief call
    outcome loop = .error (grief fault)
      ∧ entries loop
        = before.flatMap (fun earlier =>
            (call earlier.attempt).log ++ [entry earlier])
          ++ ((call pause.attempt).log ++ entries wait)
      ∧ doings loop
        = before.flatMap (fun earlier =>
            (call earlier.attempt).events
              ++ [.sleep (policy.delay earlier.attempt)])
          ++ ((call pause.attempt).events ++ doings wait) := by
  intro wait loop
  -- the loop is its rounds with the last call behind them; the rounds
  -- before the faulty one all succeed
  have hloop : loop = _ := perform_eq policy mayPass entry grief call hallowed
  rw [hpauses] at hloop
  obtain ⟨hround, hroundEntries, hroundDoings⟩ :=
    failAndWait_eq policy entry grief call pause
  rw [hfault] at hround
  obtain ⟨hrounds, hentries, hdoings⟩ :=
    rounds_of_waits policy entry grief call hbefore
  obtain ⟨hstop, hstopEntries, hstopDoings⟩ :=
    forM_of_error after hrounds hround
  -- the last call is not reached
  obtain ⟨hend, hendEntries, hendDoings⟩ := bind_of_error hstop
    fun _ => lastCall call (before ++ pause :: after).length
  refine ⟨?_, ?_, ?_⟩
  · rw [hloop, hend]
  · rw [hloop, hendEntries, hstopEntries, hentries, hroundEntries]
  · rw [hloop, hendDoings, hstopDoings, hdoings, hroundDoings]

end Rounds

end RetryPolicy

end CodeReview

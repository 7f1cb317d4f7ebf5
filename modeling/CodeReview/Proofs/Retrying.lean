import CodeReview.Retry

/-! # What trying again comes to

    A run of attempts as a whole: every failure on the way may pass, they
    follow each other from the first call on, and the outcome is that of
    the call behind them, which is the last one that was left or does not
    fail in passing (`tried_tryFrom`). -/

namespace CodeReview

/-- Whether an outcome is a failure that may pass. -/
def Passing {ε α : Type} (mayPass : ε → Bool) (outcome : Except ε α) : Prop :=
  ∃ reason, outcome = .error reason ∧ mayPass reason = true

namespace Attempts

variable {ε α : Type} {mayPass : ε → Bool} {action : Nat → Except ε α}

/-- Whether some attempts are what comes of an action from a call on, where
    a number of calls is left behind that one. -/
structure Tried (mayPass : ε → Bool) (action : Nat → Except ε α)
    (attempt left : Nat) (a : Attempts ε α) : Prop where
  numbered : a.pauses.map (·.attempt) = List.range' attempt a.pauses.length
  passing : ∀ pause ∈ a.pauses,
    action pause.attempt = .error pause.reason ∧ mayPass pause.reason = true
  bounded : a.pauses.length ≤ left
  outcome_eq : a.outcome = some (action (attempt + a.pauses.length))
  settled : a.pauses.length < left →
    ¬ Passing mayPass (action (attempt + a.pauses.length))

/-- A failure behind which no call is left, or that does not pass, is not
    tried again. -/
theorem not_again_of_settled {left : Nat} {outcome : Except ε α} {reason : ε}
    (h : left = 0 ∨ ¬ Passing mayPass outcome)
    (hfailed : outcome = .error reason) :
    ¬ (mayPass reason && decide (0 < left)) = true := by
  intro hagain
  obtain ⟨hpass, hleft⟩ := Bool.and_eq_true_iff.mp hagain
  rcases h with rfl | hsettled
  · exact Bool.noConfusion hleft
  · exact hsettled ⟨reason, hfailed, hpass⟩

/-- Where no call is left, or the outcome does not pass, there is one
    call. -/
theorem tryFrom_of_settled {attempt left : Nat}
    (h : left = 0 ∨ ¬ Passing mayPass (action attempt)) :
    tryFrom mayPass action (left + 1) attempt
      = { outcome := some (action attempt) } := by
  rw [tryFrom]
  cases hcall : action attempt with
  | ok value => rfl
  | error reason =>
      simp only [not_again_of_settled h hcall, Bool.false_eq_true, if_false]

theorem tryFrom_of_passing {attempt left : Nat} {reason : ε}
    (hfailed : action attempt = .error reason) (hpass : mayPass reason = true) :
    tryFrom mayPass action (left + 2) attempt
      = (tryFrom mayPass action (left + 1) (attempt + 1)).afterPause
          ⟨attempt, reason⟩ := by
  rw [tryFrom, hfailed]
  simp only [hpass, Nat.zero_lt_succ, decide_true, Bool.and_self, if_true]

theorem tried_of_settled {attempt left : Nat}
    (h : left = 0 ∨ ¬ Passing mayPass (action attempt)) :
    Tried mayPass action attempt left { outcome := some (action attempt) } where
  numbered := rfl
  passing := fun _ hpause => nomatch hpause
  bounded := Nat.zero_le left
  outcome_eq := rfl
  settled := by
    intro hleft
    exact h.resolve_left (Nat.pos_iff_ne_zero.mp hleft)

/-- A failure that passes comes before what is tried next. -/
theorem Tried.afterPause {attempt left : Nat} {a : Attempts ε α} {reason : ε}
    (h : Tried mayPass action (attempt + 1) left a)
    (hfailed : action attempt = .error reason) (hpass : mayPass reason = true) :
    Tried mayPass action attempt (left + 1)
      (a.afterPause ⟨attempt, reason⟩) where
  numbered := by
    show attempt :: a.pauses.map (·.attempt) = _
    rw [h.numbered]
    rfl
  -- the pause in front is for a call that may pass, and the others were so
  -- before
  passing := by
    intro pause hpause
    rcases List.mem_cons.mp hpause with rfl | hpause
    · exact ⟨hfailed, hpass⟩
    · exact h.passing pause hpause
  bounded := Nat.succ_le_succ h.bounded
  outcome_eq := by
    show a.outcome = some (action (attempt + (a.pauses.length + 1)))
    rw [h.outcome_eq, Nat.add_right_comm, Nat.add_assoc]
  settled := by
    intro hleft
    show ¬ Passing mayPass (action (attempt + (a.pauses.length + 1)))
    rw [Nat.add_comm a.pauses.length, ← Nat.add_assoc]
    exact h.settled (Nat.lt_of_succ_lt_succ hleft)

/-- **ATTEMPTS**: an action is tried as long as its failures pass and calls
    are left. -/
theorem tried_tryFrom (mayPass : ε → Bool) (action : Nat → Except ε α)
    (left attempt : Nat) :
    Tried mayPass action attempt left
      (tryFrom mayPass action (left + 1) attempt) := by
  induction left generalizing attempt with
  | zero =>
      rw [tryFrom_of_settled (.inl rfl)]
      exact tried_of_settled (.inl rfl)
  | succ left ih =>
      by_cases hpassing : Passing mayPass (action attempt)
      · obtain ⟨reason, hfailed, hpass⟩ := hpassing
        rw [tryFrom_of_passing hfailed hpass]
        exact (ih (attempt + 1)).afterPause hfailed hpass
      · rw [tryFrom_of_settled (.inr hpassing)]
        exact tried_of_settled (.inr hpassing)

/-- One call comes behind the pauses. -/
theorem Tried.calls_eq {attempt left : Nat} {a : Attempts ε α}
    (h : Tried mayPass action attempt left a) :
    a.calls = a.pauses.length + 1 := by
  rw [calls, h.outcome_eq]
  rfl

/-- Each call on the way failed in passing. -/
theorem Tried.passing_of_lt {attempt left : Nat} {a : Attempts ε α}
    (h : Tried mayPass action attempt left a) {n : Nat}
    (hn : n < a.pauses.length) : Passing mayPass (action (attempt + n)) := by
  have hmem : attempt + n ∈ a.pauses.map (·.attempt) := by
    rw [h.numbered, List.mem_range'_1]
    omega
  obtain ⟨pause, hpause, hattempt⟩ := List.mem_map.mp hmem
  rw [← hattempt]
  exact ⟨pause.reason, h.passing pause hpause⟩

end Attempts

open Attempts in
/-- What a policy that allows a call comes to. -/
theorem RetryPolicy.tried_run {ε α : Type} (policy : RetryPolicy) (mayPass : ε → Bool)
    (action : Nat → Except ε α) (h : 1 ≤ policy.attempts) :
    Tried mayPass action 0 (policy.attempts - 1)
      (policy.run mayPass action) := by
  have hrun := tried_tryFrom mayPass action (policy.attempts - 1) 0
  rwa [Nat.sub_add_cancel h] at hrun

end CodeReview

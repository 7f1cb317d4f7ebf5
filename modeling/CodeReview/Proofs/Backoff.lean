import CodeReview.Proofs.ExactNumbers
import CodeReview.Proofs.Retrying
import Mathlib.Data.ENat.Lattice
import Mathlib.Data.List.Forall2

/-! # How often, and after which waits

    What trying again comes to in numbers.  The calls go on up to the first
    outcome that is settled, or to the last call that is allowed
    (`Tried.calls_eq_min`); no outcome behind them plays a part
    (`tryFrom_congr`); and a wait stands between each two calls, exactly
    twice as long as the one before it (`run_until_settled`). -/

namespace CodeReview

variable {ε α : Type}

/-- The number of calls up to the first outcome that is not a failure in
    passing; infinite if there is none. -/
noncomputable def firstSettled (mayPass : ε → Bool)
    (action : Nat → Except ε α) : ℕ∞ :=
  ⨅ (n : Nat) (_ : ¬ Passing mayPass (action n)), (n : ℕ∞) + 1

namespace Attempts

variable {mayPass : ε → Bool} {action other : Nat → Except ε α}

/-- Of the calls that are allowed, those up to the first settled outcome are
    made. -/
theorem Tried.calls_eq_min {left : Nat} {a : Attempts ε α}
    (h : Tried mayPass action 0 left a) :
    (a.calls : ℕ∞) = min ((left + 1 : Nat) : ℕ∞) (firstSettled mayPass action) := by
  rw [h.calls_eq]
  refine le_antisymm (le_min ?_ ?_) ?_
  · exact Nat.cast_le.mpr (Nat.succ_le_succ h.bounded)
  · refine le_iInf₂ fun n hsettled => ?_
    have hle : a.pauses.length ≤ n := by
      refine Nat.le_of_not_lt fun hlt => hsettled ?_
      have hpassing := h.passing_of_lt hlt
      rwa [Nat.zero_add] at hpassing
    exact_mod_cast Nat.succ_le_succ hle
  · rcases Nat.lt_or_eq_of_le h.bounded with hlt | heq
    · have hsettled := h.settled hlt
      rw [Nat.zero_add] at hsettled
      refine le_trans (min_le_right _ _) ?_
      exact_mod_cast iInf₂_le a.pauses.length hsettled
    · rw [heq]
      exact min_le_left _ _

/-- Each pause is about the failed call with its number, and there is one
    for each call but the last. -/
theorem Tried.forall₂_pauses {left : Nat} {a : Attempts ε α}
    (h : Tried mayPass action 0 left a) :
    List.Forall₂ (fun n pause => pause.attempt = n
        ∧ action n = .error pause.reason)
      (List.range (a.calls - 1)) a.pauses := by
  have hnumbers : List.range (a.calls - 1) = a.pauses.map (·.attempt) := by
    rw [h.calls_eq, h.numbered, Nat.add_sub_cancel, List.range_eq_range']
  rw [hnumbers, List.forall₂_map_left_iff, List.forall₂_same]
  exact fun pause hpause => ⟨rfl, (h.passing pause hpause).1⟩

/-- Outcomes behind the last call play no part. -/
theorem tryFrom_congr {left attempt : Nat}
    (h : ∀ n < (tryFrom mayPass action left attempt).calls,
      other (attempt + n) = action (attempt + n)) :
    tryFrom mayPass other left attempt
      = tryFrom mayPass action left attempt := by
  induction left generalizing attempt with
  | zero => rfl
  | succ left ih =>
      have hcalls := (tried_tryFrom mayPass action left attempt).calls_eq
      have hfirst : other attempt = action attempt :=
        h 0 (hcalls ▸ Nat.succ_pos _)
      by_cases hsettled : left = 0 ∨ ¬ Passing mayPass (action attempt)
      · rw [tryFrom_of_settled hsettled,
          tryFrom_of_settled (hfirst ▸ hsettled), hfirst]
      · rw [not_or, Classical.not_not] at hsettled
        obtain ⟨hleft, reason, hfailed, hpass⟩ := hsettled
        obtain ⟨left, rfl⟩ := Nat.exists_eq_succ_of_ne_zero hleft
        rw [tryFrom_of_passing hfailed hpass, calls_afterPause] at h
        -- the rest starts one call later, so its outcomes are shifted by one
        have hrest : tryFrom mayPass other (left + 1) (attempt + 1)
            = tryFrom mayPass action (left + 1) (attempt + 1) := by
          refine ih fun n hn => ?_
          have hnext := h (n + 1) (Nat.succ_lt_succ hn)
          rwa [Nat.add_comm n 1, ← Nat.add_assoc] at hnext
        rw [tryFrom_of_passing hfailed hpass,
          tryFrom_of_passing (hfirst.trans hfailed) hpass, hrest]

end Attempts

namespace RetryPolicy

open Attempts

/-- The wait after a call is the first wait times a power of two. -/
theorem denotes_delay {policy : RetryPolicy} {base : ℚ}
    (h : policy.baseDelay.Denotes base) (n : Nat) :
    (policy.delay n).Denotes (base * 2 ^ n) :=
  h.shift n

/-- **UNTIL SETTLED**: an action is called up to its first settled outcome,
    or as often as the policy allows, and never beyond; the last call gives
    the outcome.  Each call but the last is logged and waited after, once,
    for the first wait times the power of two with the number of the
    call. -/
theorem run_until_settled (policy : RetryPolicy) (mayPass : ε → Bool)
    (action : Nat → Except ε α) (name : String) (message : ε → String)
    (hallowed : 1 ≤ policy.attempts) :
    let tries := policy.run mayPass action
    (tries.calls : ℕ∞)
        = min (policy.attempts : ℕ∞) (firstSettled mayPass action)
      ∧ tries.outcome = some (action (tries.calls - 1))
      ∧ List.Forall₂ (fun n entry => ∃ reason, action n = .error reason
            ∧ entry = policy.pauseEntry name message ⟨n, reason⟩)
          (List.range (tries.calls - 1))
          (tries.pauses.map (policy.pauseEntry name message))
      ∧ List.Forall₂ (fun n wait => ∀ base, policy.baseDelay.Denotes base →
            wait.Denotes (base * 2 ^ n))
          (List.range (tries.calls - 1))
          (tries.pauses.map fun pause => policy.delay pause.attempt)
      ∧ ∀ other, (∀ n < tries.calls, other n = action n) →
          policy.run mayPass other = tries := by
  intro tries
  -- all parts but the last follow from what the loop has tried
  have htried : Tried mayPass action 0 (policy.attempts - 1) tries :=
    policy.tried_run mayPass action hallowed
  refine ⟨?_, ?_, ?_, ?_, ?_⟩
  · rw [htried.calls_eq_min, Nat.sub_add_cancel hallowed]
  · rw [htried.outcome_eq, htried.calls_eq, Nat.zero_add, Nat.add_sub_cancel]
  · rw [List.forall₂_map_right_iff]
    refine htried.forall₂_pauses.imp ?_
    rintro n ⟨attempt, reason⟩ ⟨rfl, hfailed⟩
    exact ⟨reason, hfailed, rfl⟩
  · rw [List.forall₂_map_right_iff]
    refine htried.forall₂_pauses.imp ?_
    rintro n pause ⟨rfl, _⟩ base hbase
    exact denotes_delay hbase pause.attempt
  · -- calls that are not made cannot matter
    intro other hother
    refine tryFrom_congr fun n hn => ?_
    rw [Nat.zero_add]
    exact hother n hn

/-- A task that comes up at its third call. -/
def flakyTask (n : Nat) : Except String String :=
  if n < 2 then .error "down" else .ok "up"

/-- How patiently it is tried. -/
def flakyPolicy : RetryPolicy := { attempts := 5 }

theorem run_flakyTask :
    1 ≤ flakyPolicy.attempts
      ∧ let tries := flakyPolicy.run (· == "down") flakyTask
        (tries.calls : ℕ∞)
            = min (flakyPolicy.attempts : ℕ∞)
                (firstSettled (· == "down") flakyTask)
          ∧ tries.outcome = some (flakyTask (tries.calls - 1))
          ∧ List.Forall₂ (fun n entry => ∃ reason,
                flakyTask n = .error reason
                ∧ entry = flakyPolicy.pauseEntry "task" id ⟨n, reason⟩)
              (List.range (tries.calls - 1))
              (tries.pauses.map (flakyPolicy.pauseEntry "task" id))
          ∧ List.Forall₂ (fun n wait => ∀ base,
                flakyPolicy.baseDelay.Denotes base →
                wait.Denotes (base * 2 ^ n))
              (List.range (tries.calls - 1))
              (tries.pauses.map fun pause => flakyPolicy.delay pause.attempt)
          ∧ ∀ other, (∀ n < tries.calls, other n = flakyTask n) →
              flakyPolicy.run (· == "down") other = tries :=
  ⟨by decide,
    run_until_settled flakyPolicy (· == "down") flakyTask "task" id (by decide)⟩

/-- It takes three of the five calls that are allowed. -/
example : (flakyPolicy.run (· == "down") flakyTask).calls = 3 := by decide

end RetryPolicy

end CodeReview

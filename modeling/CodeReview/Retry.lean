import CodeReview.Trace

/-! # Retries

    An action whose failure may pass is tried again, a limited number of
    times, with a wait after each failure that doubles from one to the
    next.  The action is a sequence of calls, so that what is called,
    awaited and returned is a function of what the calls come to
    (`RetryPolicy.run`); trying it makes the calls, and logs and waits
    between them (`RetryPolicy.perform`). -/

namespace CodeReview

/-- How often an action is tried, and how long the first wait is. -/
structure RetryPolicy where
  attempts : Nat := 3
  baseDelay : Floating := .ofInt 1
deriving DecidableEq, Repr

/-- A failed call that is followed by another: its number, counted from
    zero, and why it failed. -/
structure Pause (ε : Type) where
  attempt : Nat
  reason : ε
deriving DecidableEq, Repr

/-- What goes wrong with trying itself, whatever the calls come to. -/
inductive RetryFault where
  /-- The power of two for a wait is too large. -/
  | overflow
  /-- A wait has more nanoseconds than can be counted. -/
  | tooLong
  /-- A wait has no length. -/
  | undefined
  /-- A wait has a length below zero. -/
  | negative
  /-- No call is allowed, so that there is no failure to report. -/
  | noCall
deriving DecidableEq, Repr

namespace RetryFault

/-- The wording of a fault. -/
def message : RetryFault → String
  | .overflow => "int too large to convert to float"
  | .tooLong => "timestamp out of range for platform time_t"
  | .undefined => "Invalid value NaN (not a number)"
  | .negative => "sleep length must be non-negative"
  | .noCall => "exceptions must derive from BaseException"

/-- Whether a fault counts as a bad value, as those of a length do. -/
def isBadValue : RetryFault → Bool
  | .undefined => true
  | .negative => true
  | _ => false

end RetryFault

/-- The nanoseconds in some seconds, rounded to 53 bits. -/
def nanoseconds (seconds : Binary) : Binary :=
  let (num, den) := seconds.fraction
  .ofFraction seconds.negative (num * Nat.pow 10 9) den

/-- What is wrong with waiting for some seconds.  There are 2^63 nanoseconds
    at most, the largest number itself only below zero. -/
def waitFault? : Floating → Option RetryFault
  | .undefined => some .undefined
  | .infinite _ => some .tooLong
  | .finite seconds =>
      let (num, den) := (nanoseconds seconds).fraction
      let bound := den * Nat.pow 2 63
      if seconds.mantissa = 0 then none
      else if seconds.negative then
        if bound < num then some .tooLong else some .negative
      else if bound ≤ num then some .tooLong
      else none

/-- What came of trying an action: the failures on the way, and the outcome
    of the last call, if there was one. -/
structure Attempts (ε α : Type) where
  pauses : List (Pause ε) := []
  outcome : Option (Except ε α) := none

namespace Attempts

/-- The number of calls. -/
def calls {ε α : Type} (a : Attempts ε α) : Nat :=
  a.pauses.length + if a.outcome.isSome then 1 else 0

/-- The attempts after a failure. -/
def afterPause {ε α : Type} (pause : Pause ε) (a : Attempts ε α) : Attempts ε α :=
  { a with pauses := pause :: a.pauses }

/-- Tries an action from a call on, with a number of calls left. -/
def tryFrom {ε α : Type} (mayPass : ε → Bool) (action : Nat → Except ε α) :
    (left attempt : Nat) → Attempts ε α
  | 0, _ => {}
  | left + 1, attempt =>
      match action attempt with
      | .ok value => { outcome := some (.ok value) }
      | .error reason =>
          if mayPass reason && 0 < left then
            (tryFrom mayPass action left (attempt + 1)).afterPause ⟨attempt, reason⟩
          else { outcome := some (.error reason) }

@[simp] theorem calls_afterPause {ε α : Type} (pause : Pause ε) (a : Attempts ε α) :
    (a.afterPause pause).calls = a.calls + 1 := by
  rw [calls, calls, afterPause, List.length_cons, Nat.add_right_comm]

end Attempts

namespace RetryPolicy

/-- Tries an action as long as its failures may pass and calls are left. -/
def run {ε α : Type} (policy : RetryPolicy) (mayPass : ε → Bool)
    (action : Nat → Except ε α) : Attempts ε α :=
  Attempts.tryFrom mayPass action policy.attempts 0

/-- The wait after a failed call. -/
def delay (policy : RetryPolicy) (attempt : Nat) : Floating :=
  policy.baseDelay.shift attempt

/-- The log entry about a failed call of an action that is named. -/
def pauseEntry {ε : Type} (policy : RetryPolicy) (action : String)
    (message : ε → String) (pause : Pause ε) : LogEntry :=
  let wait := (policy.delay pause.attempt).toFixed 1
  { level := .warning
    text := s!"Attempt {pause.attempt + 1}/{policy.attempts} for {action} failed: "
      ++ s!"{message pause.reason}. Retrying in {wait}s..." }

/-- The number of waits before the power of two for the next one is too
    large for a floating-point number. -/
def waitLimit : Nat := 1024

/-- The wait after a failed call.  It is logged before its length turns out
    to be none. -/
def await (policy : RetryPolicy) (entry : LogEntry) (attempt : Nat) :
    ExceptT RetryFault Traced Unit := do
  if waitLimit ≤ attempt then throw .overflow
  ExceptT.lift (Traced.emit entry.level entry.text)
  match waitFault? (policy.delay attempt) with
  | some fault => throw fault
  | none => ExceptT.lift (Traced.perform (.sleep (policy.delay attempt)))

/-- Calls, logs and waits from a call on, with a number of calls left.  What
    goes wrong in between is an error of the action as well. -/
def performFrom {ε α : Type} (policy : RetryPolicy) (mayPass : ε → Bool)
    (entry : Pause ε → LogEntry) (grief : RetryFault → ε)
    (call : Nat → Traced (Except ε α)) :
    (left attempt : Nat) → ExceptT ε Traced α
  | 0, _ => throw (grief .noCall)
  | left + 1, attempt => do
      match ← ExceptT.lift (call attempt) with
      | .ok value => return value
      | .error reason =>
          if mayPass reason && 0 < left then do
            ExceptT.adapt grief (policy.await (entry ⟨attempt, reason⟩) attempt)
            performFrom policy mayPass entry grief call left (attempt + 1)
          else throw reason

/-- Tries an action, with a wait after each failure that may pass but the
    last. -/
def perform {ε α : Type} (policy : RetryPolicy) (mayPass : ε → Bool)
    (entry : Pause ε → LogEntry) (grief : RetryFault → ε)
    (call : Nat → Traced (Except ε α)) : ExceptT ε Traced α :=
  policy.performFrom mayPass entry grief call policy.attempts 0

end RetryPolicy

end CodeReview

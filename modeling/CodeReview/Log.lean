/-! # Log

    What a run tells about itself besides its result: a list of entries in
    the order of their emission. -/

namespace CodeReview

/-- How important a log entry is. -/
inductive LogLevel where
  | debug
  | info
  | warning
  | error
deriving DecidableEq, Repr

/-- The name of a level. -/
def LogLevel.name : LogLevel → String
  | .debug => "DEBUG"
  | .info => "INFO"
  | .warning => "WARNING"
  | .error => "ERROR"

/-- One message. -/
structure LogEntry where
  level : LogLevel
  text : String
deriving DecidableEq, Repr

namespace LogEntry

/-- The level and the message. -/
def render (entry : LogEntry) : String := s!"{entry.level.name} {entry.text}"

/-- Whether an entry is shown; debug messages only if asked for. -/
def isShown (verbose : Bool) (entry : LogEntry) : Bool :=
  verbose || entry.level != .debug

end LogEntry

/-- A value and the log entries on the way to it. -/
structure Logged (α : Type) where
  value : α
  log : List LogEntry := []

namespace Logged

instance : Monad Logged where
  pure a := ⟨a, []⟩
  bind x f := let y := f x.value; ⟨y.value, x.log ++ y.log⟩

/-- Emits one entry. -/
def emit (level : LogLevel) (text : String) : Logged Unit := ⟨(), [⟨level, text⟩]⟩

@[simp] theorem value_pure {α : Type} (a : α) : (pure a : Logged α).value = a := rfl

@[simp] theorem log_pure {α : Type} (a : α) : (pure a : Logged α).log = [] := rfl

@[simp] theorem value_bind {α β : Type} (x : Logged α) (f : α → Logged β) :
    (x >>= f).value = (f x.value).value := rfl

@[simp] theorem log_bind {α β : Type} (x : Logged α) (f : α → Logged β) :
    (x >>= f).log = x.log ++ (f x.value).log := rfl

instance : LawfulMonad Logged :=
  LawfulMonad.mk' Logged
    (fun x => congrArg (Logged.mk x.value) (List.append_nil x.log))
    (fun _ _ => rfl)
    (fun x f _ => congrArg (Logged.mk _)
      (List.append_assoc x.log (f x.value).log _))

/-- The values of a list of steps are the values of the steps. -/
@[simp] theorem value_mapM {α β : Type} (f : α → Logged β) (xs : List α) :
    (xs.mapM f).value = xs.map fun x => (f x).value := by
  induction xs with
  | nil => rfl
  | cons x xs ih =>
      rw [List.mapM_cons, List.map_cons, ← ih]
      rfl

/-- The entries of a list of steps are those of each step, one after the
    other. -/
@[simp] theorem log_mapM {α β : Type} (f : α → Logged β) (xs : List α) :
    (xs.mapM f).log = xs.flatMap fun x => (f x).log := by
  induction xs with
  | nil => rfl
  | cons x xs ih =>
      rw [List.mapM_cons, List.flatMap_cons, ← ih]
      exact congrArg ((f x).log ++ ·) (List.append_nil _)

end Logged

end CodeReview

import CodeReview.Floating
import CodeReview.Log

/-! # Traces

    What a run does to the outside, as data: the requests it makes, the
    waits between them, its steps on a pull request, and what it prints and
    writes, in order. -/

namespace CodeReview

/-- A request for a text. -/
structure HttpRequest where
  url : String
  headers : List (String × String)
  /-- The patience with the server, in seconds. -/
  timeout : Nat
deriving DecidableEq, Repr

/-- One thing that a run does to the outside. -/
inductive Event where
  | get (request : HttpRequest)
  | sleep (seconds : Floating)
  | connect (token : String)
  | openRepository (name : String)
  | openPull (number : Int)
  | listComments
  | editComment (id : Int) (body : String)
  | createComment (body : String)
  | print (text : String)
  | write (place : List String) (text : String)
deriving DecidableEq, Repr

/-- A value, and what was done and logged on the way to it. -/
structure Traced (α : Type) where
  value : α
  log : List LogEntry := []
  events : List Event := []

namespace Traced

instance : Monad Traced where
  pure a := ⟨a, [], []⟩
  bind x f := let y := f x.value; ⟨y.value, x.log ++ y.log, x.events ++ y.events⟩

/-- Keeps the log of a computation that does nothing to the outside. -/
def ofLogged {α : Type} (x : Logged α) : Traced α := ⟨x.value, x.log, []⟩

instance : MonadLift Logged Traced := ⟨ofLogged⟩

/-- Does one thing. -/
def perform (event : Event) : Traced Unit := ⟨(), [], [event]⟩

/-- Emits one log entry. -/
def emit (level : LogLevel) (text : String) : Traced Unit := ⟨(), [⟨level, text⟩], []⟩

@[simp] theorem value_pure {α : Type} (a : α) : (pure a : Traced α).value = a := rfl

@[simp] theorem events_pure {α : Type} (a : α) : (pure a : Traced α).events = [] := rfl

@[simp] theorem log_pure {α : Type} (a : α) : (pure a : Traced α).log = [] := rfl

@[simp] theorem value_bind {α β : Type} (x : Traced α) (f : α → Traced β) :
    (x >>= f).value = (f x.value).value := rfl

@[simp] theorem events_bind {α β : Type} (x : Traced α) (f : α → Traced β) :
    (x >>= f).events = x.events ++ (f x.value).events := rfl

@[simp] theorem log_bind {α β : Type} (x : Traced α) (f : α → Traced β) :
    (x >>= f).log = x.log ++ (f x.value).log := rfl

instance : LawfulMonad Traced :=
  LawfulMonad.mk' Traced
    (fun x => congr (congrArg (Traced.mk x.value) (List.append_nil x.log))
      (List.append_nil x.events))
    (fun _ _ => rfl)
    (fun x f _ => congr
      (congrArg (Traced.mk _) (List.append_assoc x.log (f x.value).log _))
      (List.append_assoc x.events (f x.value).events _))

end Traced

end CodeReview

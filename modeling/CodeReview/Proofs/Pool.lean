import CodeReview.Log
import Mathlib.Algebra.GroupWithZero.Nat
import Mathlib.Data.List.Perm.Subperm

/-! # Pools of workers

    Tasks that are handed to a pool wait until a worker takes them, tell
    about themselves while they run, and end with a value.  A step of a pool
    moves one task on, and a schedule says which one step after step.  A step
    changes neither what the tasks come to nor what is told in all, and it
    does one piece of the work (`Pool.Advances.preserves`), by a worker who
    does nothing else (`Pool.Staffed.advances`).  So every schedule that ends
    the tasks has the same outcome up to the order of the log
    (`Pool.outcome?_eq_some`), and every schedule can be carried on until it
    does (`Pool.exists_outcome?`). -/

namespace CodeReview

/-! ## Tasks -/

/-- A task that was handed to a pool. -/
inductive Future (α : Type) where
  /-- No worker has taken it yet. -/
  | waiting (task : Logged α)
  /-- A worker runs it, and this much is left of it. -/
  | running (worker : Nat) (rest : Logged α)
  /-- It has ended. -/
  | done (value : α)

namespace Future

variable {α : Type} {x y : Future α} {told : List LogEntry}
variable {free : Nat → Prop}

/-- The value that a task ends with. -/
def outcome : Future α → α
  | .waiting task => task.value
  | .running _ rest => rest.value
  | .done value => value

/-- What a task has yet to tell. -/
def pending : Future α → List LogEntry
  | .waiting task => task.log
  | .running _ rest => rest.log
  | .done _ => []

/-- The number of steps that a task has before it: to be taken, to tell each
    entry, and to end. -/
def work : Future α → Nat
  | .waiting task => task.log.length + 2
  | .running _ rest => rest.log.length + 1
  | .done _ => 0

/-- The worker that runs a task. -/
def worker? : Future α → Option Nat
  | .running worker _ => some worker
  | _ => none

/-- The value of a task that has ended. -/
def value? : Future α → Option α
  | .done value => some value
  | _ => none

/-- A worker takes a task that waits. -/
def taken? (worker : Nat) : Future α → Option (List LogEntry × Future α)
  | .waiting task => some ([], .running worker task)
  | _ => none

/-- A task that runs tells its next entry. -/
def told? : Future α → Option (List LogEntry × Future α)
  | .running worker ⟨value, entry :: rest⟩ =>
      some ([entry], .running worker ⟨value, rest⟩)
  | _ => none

/-- A task that has told everything ends. -/
def ended? : Future α → Option (List LogEntry × Future α)
  | .running _ ⟨value, []⟩ => some ([], .done value)
  | _ => none

/-- A task makes one step and tells something with it; it is run by the
    worker that ran it, or by one who is free. -/
structure Advances (free : Nat → Prop) (x : Future α) (told : List LogEntry)
    (y : Future α) : Prop where
  outcome_eq : y.outcome = x.outcome
  pending_eq : x.pending = told ++ y.pending
  work_eq : x.work = y.work + 1
  run_by : ∀ worker, y.worker? = some worker →
    x.worker? = some worker ∨ free worker

/-- A task that is taken tells nothing and is run by a worker who was
    free. -/
theorem advances_of_taken? {worker : Nat} (hfree : free worker)
    (h : x.taken? worker = some (told, y)) : x.Advances free told y := by
  cases x with
  | waiting task =>
      cases h
      refine ⟨rfl, rfl, rfl, ?_⟩
      intro other hother
      cases hother
      exact .inr hfree
  | running _ _ => exact nomatch h
  | done _ => exact nomatch h

/-- A task that tells an entry has that entry no longer before it. -/
theorem advances_of_told? (h : x.told? = some (told, y)) :
    x.Advances free told y := by
  cases x with
  | waiting _ => exact nomatch h
  | running worker rest =>
      obtain ⟨value, log⟩ := rest
      cases log with
      | nil => exact nomatch h
      | cons entry log =>
          cases h
          exact ⟨rfl, rfl, rfl, fun _ hworker => .inl hworker⟩
  | done _ => exact nomatch h

/-- A task that ends has told everything, and its value is the one it had
    before it. -/
theorem advances_of_ended? (h : x.ended? = some (told, y)) :
    x.Advances free told y := by
  cases x with
  | waiting _ => exact nomatch h
  | running worker rest =>
      obtain ⟨value, log⟩ := rest
      cases log with
      | nil =>
          cases h
          exact ⟨rfl, rfl, rfl, nofun⟩
      | cons entry log => exact nomatch h
  | done _ => exact nomatch h

/-- A task without steps before it has ended with its value. -/
theorem eq_done_of_work (h : x.work = 0) : x = .done x.outcome := by
  cases x with
  | waiting _ => exact absurd h (Nat.succ_ne_zero _)
  | running _ _ => exact absurd h (Nat.succ_ne_zero _)
  | done _ => rfl

/-- All values are there only if all tasks have ended. -/
theorem eq_of_mapM_value? {futures : List (Future α)} {values : List α}
    (h : futures.mapM value? = some values) : futures = values.map .done := by
  induction futures generalizing values with
  | nil =>
      cases h
      rfl
  | cons x rest ih =>
      rw [List.mapM_cons] at h
      obtain ⟨value, hvalue, h⟩ := Option.bind_eq_some_iff.mp h
      obtain ⟨others, hothers, h⟩ := Option.bind_eq_some_iff.mp h
      cases h
      cases x with
      | waiting _ => exact nomatch hvalue
      | running _ _ => exact nomatch hvalue
      | done _ =>
          cases hvalue
          rw [ih hothers, List.map_cons]

/-- Tasks that have all ended give all their values, in order. -/
theorem mapM_value?_map_done (values : List α) :
    (values.map done).mapM value? = some values := by
  induction values with
  | nil => rfl
  | cons value rest ih =>
      rw [List.map_cons, List.mapM_cons, ih]
      rfl

end Future

/-! ## Steps of a pool -/

/-- Tasks in the order in which they were handed over, and what has been told
    so far. -/
structure Pool (α : Type) where
  futures : List (Future α)
  log : List LogEntry := []

namespace Pool

variable {α : Type} {workers : Nat} {pool pool' : Pool α}

/-- The tasks at the time when they are handed over. -/
def submitted (tasks : List (Logged α)) : Pool α where
  futures := tasks.map .waiting

/-- What can happen next, and to which task. -/
inductive Move where
  | start (worker task : Nat)
  | emit (task : Nat)
  | finish (task : Nat)
deriving DecidableEq, Repr

/-- The workers that run a task. -/
def busy (pool : Pool α) : List Nat := pool.futures.filterMap Future.worker?

/-- There is such a worker, and it runs nothing. -/
def IsIdle (workers : Nat) (pool : Pool α) (worker : Nat) : Prop :=
  worker < workers ∧ worker ∉ pool.busy

instance (worker : Nat) : Decidable (IsIdle workers pool worker) :=
  inferInstanceAs (Decidable (_ ∧ _))

/-- Moves one task on. -/
def advance (pool : Pool α) (task : Nat)
    (next : Future α → Option (List LogEntry × Future α)) :
    Option (Pool α) := do
  let x ← pool.futures[task]?
  let (told, y) ← next x
  return ⟨pool.futures.set task y, pool.log ++ told⟩

/-- One step.  An idle worker may take any task that waits. -/
def step (workers : Nat) (pool : Pool α) : Move → Option (Pool α)
  | .start worker task =>
      if IsIdle workers pool worker then
        pool.advance task (Future.taken? worker)
      else none
  | .emit task => pool.advance task Future.told?
  | .finish task => pool.advance task Future.ended?

/-- Step after step; nothing if one of them is not possible. -/
def run (workers : Nat) (pool : Pool α) (schedule : List Move) :
    Option (Pool α) :=
  schedule.foldlM (step workers) pool

/-- The values of the tasks in order, once all have ended. -/
def values? (pool : Pool α) : Option (List α) := pool.futures.mapM Future.value?

/-- What comes of some tasks on a schedule that ends them. -/
def outcome? (workers : Nat) (tasks : List (Logged α))
    (schedule : List Move) : Option (Logged (List α)) := do
  let pool ← run workers (submitted tasks) schedule
  let values ← pool.values?
  return ⟨values, pool.log⟩

/-! ## What a step preserves -/

/-- One task moves on, and the others stay as they are. -/
inductive Advances (workers : Nat) : Pool α → Pool α → Prop where
  | one {before after : List (Future α)} {x y : Future α}
      {log told : List LogEntry}
      (h : x.Advances (IsIdle workers ⟨before ++ x :: after, log⟩) told y) :
      Advances workers ⟨before ++ x :: after, log⟩
        ⟨before ++ y :: after, log ++ told⟩

/-- A pool moves on as the one task that makes a step. -/
theorem advances_of_advance {task : Nat}
    {next : Future α → Option (List LogEntry × Future α)}
    (hnext : ∀ {x told y}, next x = some (told, y) →
      x.Advances (IsIdle workers pool) told y)
    (h : pool.advance task next = some pool') :
    Advances workers pool pool' := by
  obtain ⟨x, hx, h⟩ := Option.bind_eq_some_iff.mp h
  obtain ⟨⟨told, y⟩, hy, h⟩ := Option.bind_eq_some_iff.mp h
  obtain ⟨hlt, hat⟩ := List.getElem?_eq_some_iff.mp hx
  obtain ⟨before, after, hbefore, _, hset⟩ :
      ∃ before after, pool.futures = before ++ pool.futures[task] :: after
        ∧ before.length = task
        ∧ pool.futures.set task y = before ++ y :: after :=
    List.exists_of_set hlt
  obtain ⟨futures, log⟩ := pool
  cases h
  rw [hset]
  rw [hat] at hbefore
  subst hbefore
  exact .one (hnext hy)

/-- A step moves one task on. -/
theorem advances_of_step {move : Move}
    (h : step workers pool move = some pool') :
    Advances workers pool pool' := by
  cases move with
  | start worker task =>
      rw [step] at h
      split at h
      · rename_i hidle
        exact advances_of_advance (Future.advances_of_taken? hidle) h
      · exact nomatch h
  | emit task => exact advances_of_advance Future.advances_of_told? h
  | finish task => exact advances_of_advance Future.advances_of_ended? h

/-- What the tasks end with, in order. -/
def outcomes (pool : Pool α) : List α := pool.futures.map Future.outcome

/-- What has been told, and what has yet to be told. -/
def story (pool : Pool α) : List LogEntry :=
  pool.log ++ pool.futures.flatMap Future.pending

/-- The number of steps before all tasks have ended. -/
def work (pool : Pool α) : Nat := (pool.futures.map Future.work).sum

/-- A pool has no steps before it exactly if none of its tasks has. -/
theorem work_eq_zero_iff : pool.work = 0 ↔ ∀ x ∈ pool.futures, x.work = 0 := by
  rw [work, List.sum_eq_zero_iff_forall_eq_nat, List.forall_mem_map]

/-- **ONE STEP** changes neither what the tasks come to nor, up to order,
    what is told in all, and it is one piece of the work. -/
theorem Advances.preserves (h : Advances workers pool pool') :
    pool'.outcomes = pool.outcomes
      ∧ pool'.story.Perm pool.story
      ∧ pool.work = pool'.work + 1 := by
  obtain @⟨before, after, x, y, log, told, h⟩ := h
  refine ⟨?_, ?_, ?_⟩
  · simp only [outcomes, List.map_append, List.map_cons, h.outcome_eq]
  · simp only [story, List.flatMap_append, List.flatMap_cons, h.pending_eq,
      List.append_assoc]
    -- the entry is told before what the tasks in front have yet to tell
    exact .append_left log (List.perm_append_comm_assoc _ _ _)
  · simp only [work, List.map_append, List.map_cons, List.sum_append,
      List.sum_cons, h.work_eq]
    omega

/-- So does a whole run, and its length is the work it has done. -/
theorem run_preserves {schedule : List Move}
    (h : run workers pool schedule = some pool') :
    pool'.outcomes = pool.outcomes
      ∧ pool'.story.Perm pool.story
      ∧ pool.work = pool'.work + schedule.length := by
  induction schedule generalizing pool with
  | nil =>
      cases h
      exact ⟨rfl, .refl _, rfl⟩
  | cons move rest ih =>
      rw [run, List.foldlM_cons] at h
      obtain ⟨next, hstep, hrest⟩ := Option.bind_eq_some_iff.mp h
      obtain ⟨houtcomes, hstory, hwork⟩ := (advances_of_step hstep).preserves
      obtain ⟨houtcomes', hstory', hwork'⟩ := ih hrest
      refine ⟨houtcomes'.trans houtcomes, hstory'.trans hstory, ?_⟩
      rw [hwork, hwork', List.length_cons]
      omega

/-! ## No more tasks run than there are workers -/

/-- Every task that runs has a worker of its own. -/
structure Staffed (workers : Nat) (pool : Pool α) : Prop where
  nodup_busy : pool.busy.Nodup
  lt_workers : ∀ worker ∈ pool.busy, worker < workers

/-- Which workers are busy, with one task set apart. -/
theorem busy_splice (before after : List (Future α)) (x : Future α)
    (log : List LogEntry) :
    busy ⟨before ++ x :: after, log⟩
      = before.filterMap Future.worker?
        ++ (x.worker?.toList ++ after.filterMap Future.worker?) := by
  rw [busy, List.filterMap_append, List.filterMap_cons]
  cases x.worker? with
  | none => rfl
  | some _ => rfl

/-- At the start no worker runs anything. -/
theorem staffed_submitted (tasks : List (Logged α)) :
    Staffed workers (submitted tasks) := by
  have hnone : (submitted tasks).busy = [] := by
    rw [busy, submitted, List.filterMap_map]
    exact List.filterMap_eq_nil_iff.mpr fun _ _ => rfl
  exact ⟨hnone ▸ List.nodup_nil, hnone ▸ fun _ h => absurd h List.not_mem_nil⟩

/-- **STEP**: a step keeps a pool staffed, because only an idle worker takes
    a task. -/
theorem Staffed.advances (hpool : Staffed workers pool)
    (h : Advances workers pool pool') : Staffed workers pool' := by
  obtain @⟨before, after, x, y, log, told, h⟩ := h
  obtain ⟨hnodup, hlt⟩ := hpool
  -- the other tasks keep their workers
  have hothers : (before.filterMap Future.worker?
      ++ after.filterMap Future.worker?).Sublist
        (busy ⟨before ++ x :: after, log⟩) := by
    rw [busy_splice]
    exact (List.Sublist.refl _).append (List.sublist_append_right _ _)
  cases hy : y.worker? with
  | none =>
      have hbusy : (busy ⟨before ++ y :: after, log ++ told⟩).Sublist
          (busy ⟨before ++ x :: after, log⟩) := by
        rw [busy_splice before after y, hy]
        exact hothers
      exact ⟨hbusy.nodup hnodup, fun worker hw => hlt worker (hbusy.subset hw)⟩
  | some worker =>
      have hbusy : busy ⟨before ++ y :: after, log ++ told⟩
          = before.filterMap Future.worker?
            ++ worker :: after.filterMap Future.worker? := by
        rw [busy_splice, hy]
        rfl
      rcases h.run_by worker hy with hx | ⟨hworker, hfree⟩
      · -- it is run by the same worker
        have hsame : busy ⟨before ++ x :: after, log⟩
            = busy ⟨before ++ y :: after, log ++ told⟩ := by
          rw [busy_splice, hx, hbusy]
          rfl
        exact ⟨hsame ▸ hnodup, hsame ▸ hlt⟩
      · -- it was taken by a worker who ran nothing
        constructor
        · rw [hbusy, List.perm_middle.nodup_iff, List.nodup_cons]
          exact ⟨fun hmem => hfree (hothers.subset hmem), hothers.nodup hnodup⟩
        · intro other hother
          rw [hbusy, List.perm_middle.mem_iff, List.mem_cons] at hother
          rcases hother with rfl | hother
          · exact hworker
          · exact hlt other (hothers.subset hother)

/-- **RUN**: a pool stays staffed on every schedule. -/
theorem Staffed.run (hpool : Staffed workers pool) {schedule : List Move}
    (h : run workers pool schedule = some pool') : Staffed workers pool' := by
  induction schedule generalizing pool with
  | nil =>
      cases h
      exact hpool
  | cons move rest ih =>
      rw [Pool.run, List.foldlM_cons] at h
      obtain ⟨next, hstep, hrest⟩ := Option.bind_eq_some_iff.mp h
      exact ih (hpool.advances (advances_of_step hstep)) hrest

/-- So there is a worker for each of them. -/
theorem Staffed.length_busy_le (h : Staffed workers pool) :
    pool.busy.length ≤ workers := by
  have hrange : pool.busy ⊆ List.range workers := fun worker hworker =>
    List.mem_range.mpr (h.lt_workers worker hworker)
  have hle := (h.nodup_busy.subperm hrange).length_le
  rwa [List.length_range] at hle

/-! ## No run is stuck -/

/-- A pool can make a step if the task it is about can. -/
theorem isSome_advance {task : Nat} {x : Future α}
    (hx : pool.futures[task]? = some x)
    {next : Future α → Option (List LogEntry × Future α)}
    (hnext : (next x).isSome) : (pool.advance task next).isSome := by
  obtain ⟨_, hnext⟩ := Option.isSome_iff_exists.mp hnext
  rw [advance, hx]
  show ((next x).bind _).isSome
  rw [hnext]
  rfl

/-- While a task has not ended, some step is possible. -/
theorem exists_step (hworkers : 0 < workers) (hwork : pool.work ≠ 0) :
    ∃ move, (step workers pool move).isSome := by
  by_cases hbusy : ∃ x ∈ pool.futures, x.worker? ≠ none
  · -- a task that runs can go on
    obtain ⟨x, hx, hrunning⟩ := hbusy
    obtain ⟨task, htask⟩ := List.getElem?_of_mem hx
    cases x with
    | waiting _ => exact absurd rfl hrunning
    | done _ => exact absurd rfl hrunning
    | running worker rest =>
        obtain ⟨value, log⟩ := rest
        cases log with
        | nil => exact ⟨.finish task, isSome_advance htask rfl⟩
        | cons entry log => exact ⟨.emit task, isSome_advance htask rfl⟩
  · -- otherwise all workers are idle, and a task waits
    rw [not_exists] at hbusy
    have hidle : IsIdle workers pool 0 := by
      refine ⟨hworkers, ?_⟩
      intro hmem
      obtain ⟨x, hx, hworker⟩ := List.mem_filterMap.mp hmem
      exact hbusy x ⟨hx, hworker ▸ Option.some_ne_none 0⟩
    rw [ne_eq, work_eq_zero_iff, not_forall₂] at hwork
    obtain ⟨x, hx, hleft⟩ := hwork
    obtain ⟨task, htask⟩ := List.getElem?_of_mem hx
    cases x with
    | running worker rest =>
        exact absurd ⟨hx, nofun⟩ (hbusy (.running worker rest))
    | done _ => exact absurd rfl hleft
    | waiting _ =>
        refine ⟨.start 0 task, ?_⟩
        rw [step, if_pos hidle]
        exact isSome_advance htask rfl

/-- Every pool with a worker can end its tasks. -/
theorem exists_run (hworkers : 0 < workers) (pool : Pool α) :
    ∃ schedule pool', run workers pool schedule = some pool'
      ∧ pool'.work = 0 := by
  -- each step leaves less work
  induction hn : pool.work generalizing pool with
  | zero => exact ⟨[], pool, rfl, hn⟩
  | succ n ih =>
      have hleft : pool.work ≠ 0 := by
        rw [hn]
        exact Nat.succ_ne_zero n
      obtain ⟨move, hmove⟩ := exists_step hworkers hleft
      obtain ⟨next, hnext⟩ := Option.isSome_iff_exists.mp hmove
      have hwork := (advances_of_step hnext).preserves.2.2
      obtain ⟨schedule, pool', hrun, hdone⟩ := ih next (by omega)
      refine ⟨move :: schedule, pool', ?_, hdone⟩
      rw [run, List.foldlM_cons, hnext]
      exact hrun

/-! ## What comes of a schedule -/

/-- Without work left, all values are there. -/
theorem values?_of_work (h : pool.work = 0) :
    pool.values? = some pool.outcomes := by
  have hdone : pool.futures = pool.outcomes.map .done := by
    rw [outcomes, List.map_map]
    calc pool.futures = pool.futures.map id := (List.map_id _).symm
      _ = pool.futures.map (.done ∘ Future.outcome) :=
        List.map_congr_left fun x hx =>
          Future.eq_done_of_work (work_eq_zero_iff.mp h x hx)
  rw [values?, hdone, Future.mapM_value?_map_done]

/-- Values that are there are those of the tasks, and everything has been
    told. -/
theorem eq_of_values? {values : List α} (h : pool.values? = some values) :
    values = pool.outcomes ∧ pool.log = pool.story := by
  have hdone := Future.eq_of_mapM_value? h
  rw [outcomes, story, hdone]
  constructor
  · rw [List.map_map]
    exact (List.map_id values).symm
  · have hnone : (values.map Future.done).flatMap Future.pending = [] := by
      rw [List.flatMap_map]
      exact List.flatMap_eq_nil_iff.mpr fun _ _ => rfl
    rw [hnone, List.append_nil]

/-- At the start the tasks are to end with their own values. -/
theorem outcomes_submitted (tasks : List (Logged α)) :
    (submitted tasks).outcomes = tasks.map (·.value) := by
  rw [outcomes, submitted, List.map_map]
  rfl

/-- At the start everything is still to be told, task after task. -/
theorem story_submitted (tasks : List (Logged α)) :
    (submitted tasks).story = tasks.flatMap (·.log) := by
  rw [story, submitted, List.flatMap_map]
  rfl

/-- **EVERY SCHEDULE** that ends the tasks has their values in order, and
    their logs in some order. -/
theorem outcome?_eq_some {tasks : List (Logged α)} {schedule : List Move}
    {outcome : Logged (List α)}
    (h : outcome? workers tasks schedule = some outcome) :
    outcome.value = tasks.map (·.value)
      ∧ outcome.log.Perm (tasks.flatMap (·.log)) := by
  obtain ⟨pool, hrun, h⟩ := Option.bind_eq_some_iff.mp h
  obtain ⟨values, hvalues, h⟩ := Option.bind_eq_some_iff.mp h
  cases h
  obtain ⟨houtcomes, hstory, _⟩ := run_preserves hrun
  obtain ⟨rfl, hlog⟩ := eq_of_values? hvalues
  rw [← outcomes_submitted, ← story_submitted]
  refine ⟨houtcomes, ?_⟩
  show pool.log.Perm _
  rw [hlog]
  exact hstory

/-- **NO DEADLOCK**: with a worker, every schedule that is possible so far
    can be carried on until the tasks have ended. -/
theorem exists_outcome? (hworkers : 0 < workers) {tasks : List (Logged α)}
    {schedule : List Move}
    (h : run workers (submitted tasks) schedule = some pool) :
    ∃ rest, (outcome? workers tasks (schedule ++ rest)).isSome := by
  obtain ⟨rest, pool', hrest, hdone⟩ := exists_run hworkers pool
  refine ⟨rest, ?_⟩
  have hrun : run workers (submitted tasks) (schedule ++ rest)
      = some pool' := by
    rw [run, List.foldlM_append]
    show (run workers (submitted tasks) schedule).bind _ = _
    rw [h]
    exact hrest
  rw [outcome?, hrun]
  show (pool'.values?.bind _).isSome
  rw [values?_of_work hdone]
  rfl

/-- The number of steps of some tasks: each is taken, tells its entries and
    ends. -/
def steps (tasks : List (Logged α)) : Nat :=
  (tasks.map fun task => task.log.length + 2).sum

/-- **TERMINATION**: no schedule has more steps than the tasks. -/
theorem length_le_steps {tasks : List (Logged α)} {schedule : List Move}
    (h : run workers (submitted tasks) schedule = some pool) :
    schedule.length ≤ steps tasks := by
  have hwork : (submitted tasks).work = steps tasks := by
    rw [work, submitted, List.map_map]
    rfl
  rw [← hwork, (run_preserves h).2.2]
  exact Nat.le_add_left _ _

end Pool

end CodeReview

import CodeReview.Trace

/-! # Outcomes

    A traced computation that may fail has an outcome and leaves log entries
    and events behind.  All are read off its parts: the outcome of a
    sequence is the sequence of the outcomes, and its entries and events are
    those of its parts as long as they succeed. -/

namespace CodeReview

variable {ε α β : Type}

/-- What a computation yields or fails with. -/
def outcome (x : ExceptT ε Traced α) : Except ε α := x.run.value

/-- What a computation does to the outside. -/
def doings (x : ExceptT ε Traced α) : List Event := x.run.events

/-- What a computation writes into the log. -/
def entries (x : ExceptT ε Traced α) : List LogEntry := x.run.log

/-- A value is its own outcome. -/
@[simp] theorem outcome_pure (a : α) :
    outcome (pure a : ExceptT ε Traced α) = .ok a := rfl

/-- Two computations come to what the second makes of the outcome of the
    first. -/
@[simp] theorem outcome_bind (x : ExceptT ε Traced α)
    (f : α → ExceptT ε Traced β) :
    outcome (x >>= f) = outcome x >>= fun a => outcome (f a) := by
  show (ExceptT.bindCont f x.run.value).value = _
  rw [outcome]
  cases x.run.value with
  | ok a => rfl
  | error e => rfl

/-- A computation that goes on does what both parts do, the second only if
    the first succeeds. -/
theorem doings_bind (x : ExceptT ε Traced α) (f : α → ExceptT ε Traced β) :
    doings (x >>= f) = doings x ++ match outcome x with
      | .ok a => doings (f a)
      | .error _ => [] := by
  show x.run.events ++ (ExceptT.bindCont f x.run.value).events = _
  rw [outcome]
  cases x.run.value with
  | ok a => rfl
  | error e => rfl

/-- Behind a computation that succeeds, the second does its own. -/
theorem doings_bind_of_ok {x : ExceptT ε Traced α} {a : α}
    (h : outcome x = .ok a) (f : α → ExceptT ε Traced β) :
    doings (x >>= f) = doings x ++ doings (f a) := by
  rw [doings_bind, h]

/-- Where the second part does nothing, all is done by the first. -/
theorem doings_bind_of_silent {x : ExceptT ε Traced α}
    {f : α → ExceptT ε Traced β} (h : ∀ a, doings (f a) = []) :
    doings (x >>= f) = doings x := by
  rw [doings_bind]
  cases outcome x with
  | ok a => simp only [h a, List.append_nil]
  | error e => exact List.append_nil _

/-- Behind a computation that succeeds, the second tells its own. -/
theorem entries_bind_of_ok {x : ExceptT ε Traced α} {a : α}
    (h : outcome x = .ok a) (f : α → ExceptT ε Traced β) :
    entries (x >>= f) = entries x ++ entries (f a) := by
  have hvalue : x.run.value = .ok a := h
  show x.run.log ++ (ExceptT.bindCont f x.run.value).log = _
  rw [hvalue]
  rfl

/-- Nothing is done behind a failure. -/
theorem bind_of_error {x : ExceptT ε Traced α} {e : ε}
    (h : outcome x = .error e) (f : α → ExceptT ε Traced β) :
    outcome (x >>= f) = .error e ∧ entries (x >>= f) = entries x
      ∧ doings (x >>= f) = doings x := by
  have hvalue : x.run.value = .error e := h
  refine ⟨by rw [outcome_bind, h]; rfl, ?_, ?_⟩
  · show x.run.log ++ (ExceptT.bindCont f x.run.value).log = _
    rw [hvalue]
    exact List.append_nil _
  · show x.run.events ++ (ExceptT.bindCont f x.run.value).events = _
    rw [hvalue]
    exact List.append_nil _

/-- What cannot fail comes to its value. -/
@[simp] theorem outcome_lift (x : Traced α) :
    outcome (ExceptT.lift x : ExceptT ε Traced α) = .ok x.value := rfl

/-- What cannot fail tells what it logs. -/
theorem entries_lift (x : Traced α) :
    entries (ExceptT.lift x : ExceptT ε Traced α) = x.log :=
  List.append_nil _

/-- What cannot fail does what it does. -/
@[simp] theorem doings_lift (x : Traced α) :
    doings (ExceptT.lift x : ExceptT ε Traced α) = x.events :=
  List.append_nil _

/-- What follows a computation that cannot fail goes on from its value. -/
theorem lift_bind_eq (x : Traced α) (f : α → ExceptT ε Traced β) :
    outcome (ExceptT.lift x >>= f) = outcome (f x.value)
      ∧ entries (ExceptT.lift x >>= f) = x.log ++ entries (f x.value)
      ∧ doings (ExceptT.lift x >>= f) = x.events ++ doings (f x.value) := by
  have hx : outcome (ExceptT.lift x : ExceptT ε Traced α) = .ok x.value :=
    outcome_lift x
  refine ⟨by rw [outcome_bind, hx]; rfl, ?_, ?_⟩
  · rw [entries_bind_of_ok hx, entries_lift]
  · rw [doings_bind_of_ok hx, doings_lift]

/-- What follows a computation that cannot fail matters only for its
    value. -/
theorem lift_bind_congr {x : Traced α} {f g : α → ExceptT ε Traced β}
    (h : f x.value = g x.value) :
    ExceptT.lift x >>= f = ExceptT.lift x >>= g := by
  have hrun (k : α → ExceptT ε Traced β) : (ExceptT.lift x >>= k).run
      = ⟨(k x.value).run.value, x.log ++ (k x.value).run.log,
          x.events ++ (k x.value).run.events⟩ := ExceptT.run_bind_lift x k
  refine ExceptT.ext ?_
  rw [hrun, hrun, h]

/-- What only succeeds or fails is its own outcome. -/
@[simp] theorem outcome_ofExcept (x : Except ε α) :
    outcome (MonadExcept.ofExcept x : ExceptT ε Traced α) = x := by
  cases x <;> rfl

/-- What only succeeds or fails tells nothing. -/
theorem entries_ofExcept (x : Except ε α) :
    entries (MonadExcept.ofExcept x : ExceptT ε Traced α) = [] := by
  cases x <;> rfl

/-- What only succeeds or fails does nothing. -/
@[simp] theorem doings_ofExcept (x : Except ε α) :
    doings (MonadExcept.ofExcept x : ExceptT ε Traced α) = [] := by
  cases x <;> rfl

/-- A note in the log behind a computation changes neither what it yields nor
    what it does to the outside. -/
theorem bind_note (x : ExceptT ε Traced α) {note : α → Traced PUnit}
    (hnote : ∀ a, (note a).events = []) :
    let noted := x >>= fun a => ExceptT.lift (note a) >>= fun _ => pure a
    outcome noted = outcome x ∧ doings noted = doings x := by
  cases hx : outcome x with
  | error e =>
      obtain ⟨houtcome, -, hdoings⟩ := bind_of_error hx
        fun a => ExceptT.lift (note a) >>= fun _ => pure a
      exact ⟨houtcome, hdoings⟩
  | ok a =>
      refine ⟨?_, ?_⟩
      · rw [outcome_bind, hx]
        rfl
      · rw [doings_bind_of_ok hx, doings_bind_of_ok (outcome_lift (note a)),
          doings_lift, hnote]
        exact List.append_nil _

/-- Another name for its failure changes nothing of what a computation
    does. -/
theorem adapt_eq {ε' : Type} (f : ε → ε') (x : ExceptT ε Traced α) :
    outcome (ExceptT.adapt f x) = (outcome x).mapError f
      ∧ entries (ExceptT.adapt f x) = entries x
      ∧ doings (ExceptT.adapt f x) = doings x :=
  ⟨rfl, List.append_nil _, List.append_nil _⟩

/-- Steps that all succeed leave behind what each of them does. -/
theorem forM_of_ok {xs : List α} {f : α → ExceptT ε Traced PUnit}
    (h : ∀ x ∈ xs, outcome (f x) = .ok ⟨⟩) :
    outcome (xs.forM f) = .ok ⟨⟩
      ∧ entries (xs.forM f) = xs.flatMap (fun x => entries (f x))
      ∧ doings (xs.forM f) = xs.flatMap (fun x => doings (f x)) := by
  induction xs with
  | nil => exact ⟨rfl, rfl, rfl⟩
  | cons x xs ih =>
      have hx : outcome (f x) = .ok ⟨⟩ := h x List.mem_cons_self
      obtain ⟨houtcome, hentries, hdoings⟩ :=
        ih fun y hy => h y (List.mem_cons_of_mem x hy)
      refine ⟨?_, ?_, ?_⟩
      · show outcome (f x >>= fun _ => xs.forM f) = _
        rw [outcome_bind, hx]
        exact houtcome
      · show entries (f x >>= fun _ => xs.forM f) = _
        rw [entries_bind_of_ok hx, hentries, List.flatMap_cons]
      · show doings (f x >>= fun _ => xs.forM f) = _
        rw [doings_bind_of_ok hx, hdoings, List.flatMap_cons]

/-- The first step that fails is the last one. -/
theorem forM_of_error {before : List α} {x : α} (after : List α) {e : ε}
    {f : α → ExceptT ε Traced PUnit}
    (hbefore : outcome (before.forM f) = .ok ⟨⟩)
    (hx : outcome (f x) = .error e) :
    let steps := (before ++ x :: after).forM f
    outcome steps = .error e
      ∧ entries steps = entries (before.forM f) ++ entries (f x)
      ∧ doings steps = doings (before.forM f) ++ doings (f x) := by
  obtain ⟨houtcome, hentries, hdoings⟩ :=
    bind_of_error hx fun _ => after.forM f
  have hsplit : (before ++ x :: after).forM f
      = before.forM f >>= fun _ => f x >>= fun _ => after.forM f :=
    List.forM_append
  refine ⟨?_, ?_, ?_⟩
  · rw [hsplit, outcome_bind, hbefore]
    exact houtcome
  · rw [hsplit, entries_bind_of_ok hbefore, hentries]
  · rw [hsplit, doings_bind_of_ok hbefore, hdoings]

end CodeReview

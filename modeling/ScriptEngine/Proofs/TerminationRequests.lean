import ScriptEngine.Proofs.Rescheduling
import ScriptEngine.Proofs.SlotOperations

namespace ScriptEngine

namespace Isolate

open ScriptEngine.Action

def keepingGuard : Evolution Isolate where
  rel i i' := i'.guard = i.guard
  refl _ := rfl
  trans h h' := h'.trans h

theorem inert_keepingGuard : Hosted.Inert keepingGuard := fun _ _ hg _ => hg

variable {t : ThreadId} {α : Type}

theorem onTop_keepsGuard (f : ThreadState → α × ThreadState) : Evolves keepingGuard (onTop t f) :=
  evolves_top.bind fun _ => Evolves.bind (evolves_modify fun _ => rfl) fun _ => evolves_pure _

theorem putTop_keepsGuard (top : ThreadState) : Evolves keepingGuard (putTop t top) :=
  evolves_modify fun _ => rfl

theorem ofExcept_evolves {E : Evolution Isolate} (r : Except IsolateError α) :
    Evolves E (ofExcept r) := by
  cases r with
  | ok a => exact evolves_pure a
  | error e => exact evolves_refuse e

theorem tryOnTop_keepsGuard (f : ThreadState → Except IsolateError ThreadState) :
    Evolves keepingGuard (tryOnTop t f) :=
  evolves_top.bind fun _ => (ofExcept_evolves _).bind fun _ => putTop_keepsGuard _

/-- Raising changes threads, the heap and the events, if anything. -/
theorem raise_leaves (t : ThreadId) (exception : Value) (location : Option Location) (i : Isolate) :
    ∃ threads heap events,
      ((raise t exception location).outcome i).2 = { i with threads, heap, events } := by
  cases hd : i.thread? t with
  | none =>
    rw [raise_unattached exception location hd]
    exact ⟨_, _, _, rfl⟩
  | some data =>
    cases hs : data.top.scheduled with
    | some scheduled =>
      rw [raise_refused exception location hd (by rw [hs]; rfl)]
      exact ⟨_, _, _, rfl⟩
    | none =>
      rcases raise_outcome exception location hd hs with
        ⟨e, hr⟩ | ⟨result, message, heap, events, hr, -, -⟩
      · rw [hr]
        exact ⟨_, _, _, rfl⟩
      · rw [hr]
        exact ⟨_, heap, events, rfl⟩

theorem raise_keepsGuard (exception : Value) (location : Option Location) :
    Evolves keepingGuard (raise t exception location) := by
  intro i
  obtain ⟨threads, heap, events, hr⟩ := raise_leaves t exception location i
  rw [hr]
  rfl

theorem rethrow_keepsGuard (exception : Value) : Evolves keepingGuard (rethrow t exception) :=
  (tryOnTop_keepsGuard _).bind fun _ => evolves_pure _

theorem promote_keepsGuard : Evolves keepingGuard (promote t) := by
  refine evolves_top.bind fun top => ?_
  split
  · exact evolves_refuse _
  · exact (putTop_keepsGuard _).bind fun _ => rethrow_keepsGuard _

theorem reschedule_keepsGuard (clear : Bool) : Evolves keepingGuard (reschedule t clear) := by
  intro i
  rcases reschedule_state t clear i with hsame | ⟨data, exception, -, -, hset | ⟨cleared, hset⟩⟩
  · exact congrArg guard hsame
  · exact (congrArg guard hset).trans rfl
  · exact (congrArg guard hset).trans rfl

theorem propagate_keepsGuard : Evolves keepingGuard (propagate t) :=
  evolves_top.bind fun _ => (ofExcept_evolves _).bind fun _ =>
    Evolves.bind (putTop_keepsGuard _) fun _ => evolves_pure _

theorem report_keepsGuard (report : Bool) : Evolves keepingGuard (Isolate.report t report) := by
  refine (onTop_keepsGuard _).bind fun due => evolves_get_bind fun i => ?_
  split
  · exact keepingGuard.refl i
  · rename_i m _
    obtain ⟨listeners, events, hm⟩ := notifyAll_eq m i
    change keepingGuard.rel i (notifyAll m i)
    rw [hm]
    rfl

theorem unwind_keepsGuard : Evolves keepingGuard (unwind t) := by
  refine (requireBuiltins_evolves .unwind).bind fun builtins => evolves_top.bind fun top => ?_
  refine evolves_get_bind fun i => ?_
  dsimp only
  refine Evolves.bind_at (by rfl) fun _ => ?_
  split
  · exact evolves_pure _
  · exact evolves_throw _

end Isolate

namespace SlotOperation

open ScriptEngine.Action Hosted Isolate

/-- Operations that may touch the guard. -/
def touchesGuard : SlotOperation → Bool
  | handleInterrupts | cancelTermination | elsewhere _ _ => true
  | _ => false

theorem step_guard {op : SlotOperation} (hop : op.touchesGuard = false) (t : ThreadId)
    (h : Hosted) : (op.step t h).isolate.guard = h.isolate.guard := by
  have honTop : ∀ {α : Type} (f : ThreadState → α × ThreadState),
      ((onIsolate (Isolate.onTop t f)).outcome h).2.isolate.guard = h.isolate.guard :=
    fun f => onTop_keepsGuard f h.isolate
  have htry : ∀ f : ThreadState → Except IsolateError ThreadState,
      ((onIsolate (Isolate.tryOnTop t f)).outcome h).2.isolate.guard = h.isolate.guard :=
    fun f => tryOnTop_keepsGuard f h.isolate
  cases op with
  | setPending v => exact htry _
  | clearPending => exact honTop _
  | setScheduled v => exact htry _
  | clearScheduled => exact honTop _
  | schedulePending => exact htry _
  | raise v location => exact raise_keepsGuard v location h.isolate
  | rethrow v => exact rethrow_keepsGuard v h.isolate
  | rethrowWithMessage v m =>
    exact Evolves.bind (tryOnTop_keepsGuard _) (fun _ => evolves_pure _) h.isolate
  | scheduleThrow v =>
    exact Evolves.bind (raise_keepsGuard v none) (fun _ => tryOnTop_keepsGuard _) h.isolate
  | promote => exact promote_keepsGuard h.isolate
  | cancelScheduled id => exact htry _
  | reschedule clear => exact reschedule_keepsGuard clear h.isolate
  | propagate => exact propagate_keepsGuard h.isolate
  | report r => exact report_keepsGuard r h.isolate
  | unwind => exact unwind_keepsGuard h.isolate
  | terminate => exact raise_keepsGuard .termination none h.isolate
  | handleInterrupts => cases hop
  | cancelTermination => cases hop
  | registerTryCatch s => exact honTop _
  | unregisterTryCatch id => exact htry _
  | pushFrame spec => exact honTop _
  | popFrame => exact honTop _
  | reset => exact honTop _
  | elsewhere f leaves => cases hop

end SlotOperation

namespace Hosted

open ScriptEngine.Action

variable {t : ThreadId} {h h' : Hosted}

/-- Somebody asked for the end of the execution, and no check has found the request yet. -/
def IsRequested (h : Hosted) : Prop := h.isolate.guard.check .terminate = true

theorem IsRequested.of_guard (hr : IsRequested h) (hg : h'.isolate.guard = h.isolate.guard) :
    IsRequested h' := by
  rw [IsRequested, hg]
  exact hr

/-- How a request for termination ends. -/
inductive Settles (t : ThreadId) (h h' : Hosted) : Prop
  /-- A check made the termination pending. -/
  | served {data data' : ThreadData} (attached : h.isolate.thread? t = some data)
      (free : data.top.scheduled = none)
      (check : (handleInterrupts t).outcome h = (.ok .raised, h'))
      (after : h'.isolate.thread? t = some data') (pending : data'.top.pending = some .termination)
  /-- A check took the request, and was refused. -/
  | lost {e : IsolateError}
      (refuses : ∀ data, h.isolate.thread? t = some data → data.top.scheduled.isSome)
      (check : (handleInterrupts t).outcome h = (.error (.refused e), h'))
      (after : h' = h.withoutFlag .terminate)
  | takenBack (cancel : (onIsolate (Isolate.cancelTermination t)).outcome h = (.ok (), h'))

theorem handleInterrupts_requested (hr : IsRequested h) :
    (handleInterrupts t).outcome h = (serveTermination t).outcome h := by
  unfold handleInterrupts interruptBound
  rw [outcome_get_bind]
  exact serveFor_requested hr

/-- A check that finds a request ends it, for better or worse. -/
theorem serveTermination_settles (hr : IsRequested h) :
    Settles t h ((serveTermination t).outcome h).2 := by
  have hserve : (serveTermination t).outcome h =
      (onIsolate (Isolate.raise t .termination none)).outcome (h.withoutFlag .terminate) :=
    outcome_bind_ok (takeFlag_outcome .terminate)
  have hcheck := (handleInterrupts_requested (t := t) hr).trans hserve
  rw [hserve]
  rw [outcome_onIsolate] at hcheck ⊢
  cases hd : h.isolate.thread? t with
  | none =>
    rw [Isolate.raise_unattached .termination none (by exact hd)] at hcheck ⊢
    refine .lost ?_ hcheck rfl
    intro data hdata
    rw [hd] at hdata
    cases hdata
  | some data =>
    cases hs : data.top.scheduled with
    | some scheduled =>
      have hscheduled : data.top.scheduled.isSome := by
        rw [hs]
        rfl
      rw [Isolate.raise_refused .termination none (by exact hd) hscheduled] at hcheck ⊢
      refine .lost ?_ hcheck rfl
      intro data' hd'
      cases hd.symm.trans hd'
      exact hscheduled
    | none =>
      rw [Isolate.raise_uncatchable .termination none rfl (by exact hd) hs] at hcheck ⊢
      exact .served hd hs hcheck (Isolate.thread?_setTop _ (by exact hd)) rfl

/-- Taking a request back succeeds, or changes nothing. -/
theorem cancelTermination_settles (t : ThreadId) (h : Hosted) :
    let cancelled := (onIsolate (Isolate.cancelTermination t)).outcome h
    cancelled.2 = h ∨ Settles t h cancelled.2 := by
  intro cancelled
  cases hd : h.isolate.thread? t with
  | none =>
    have hrefused : cancelled = (.error (.refused .threadNotAttached), h) := by
      change (onIsolate (Isolate.cancelTermination t)).outcome h = _
      rw [outcome_onIsolate]
      unfold Isolate.cancelTermination Isolate.tryOnTop
      rw [outcome_bind, outcome_bind, Isolate.outcome_top, hd]
    exact .inl (congrArg Prod.snd hrefused)
  | some data =>
    have htop := Isolate.outcome_tryOnTop (f := fun top => .ok top.cancelTermination) hd rfl
    have hok : cancelled.1 = .ok () := by
      change ((Isolate.cancelTermination t).outcome h.isolate).1 = _
      rw [Isolate.cancelTermination, outcome_bind_ok htop]
      rfl
    exact .inr (.takenBack (Prod.ext hok rfl))

theorem takeCallback_keepsGuard : Evolves (evolving Isolate.keepingGuard) takeCallback := by
  refine evolves_get.bind fun h => ?_
  split
  · exact evolves_pure _
  · exact (evolves_modifyIsolate fun _ => by rfl).bind fun _ => evolves_pure _

namespace InterruptStep

/-- A request stays through every step that does not end it. -/
theorem step_requested (hr : IsRequested h) (s : InterruptStep) :
    IsRequested (s.step t h) ∨ Settles t h (s.step t h) := by
  cases s with
  | takeCalls => exact .inl hr
  | takeCallback => exact .inl (hr.of_guard (takeCallback_keepsGuard h))
  | note event => exact .inl hr
  | raise v => exact .inl (hr.of_guard (Isolate.raise_keepsGuard v none h.isolate))
  | request callback => exact .inl hr
  | requestTermination => exact .inl rfl
  | serveTermination => exact .inr (serveTermination_settles hr)
  | cancelTermination =>
    rcases cancelTermination_settles t h with hsame | hend
    · exact .inl (hr.of_guard (congrArg (·.isolate.guard) hsame))
    · exact .inr hend
  | tearDown => exact .inl (hr.of_guard (Isolate.inert_keepingGuard.tearingDown h))

/-- The request ends at one of the steps of a service, if it does. -/
def SettlesWithin (t : ThreadId) (h h' : Hosted) : Prop :=
  ∃ inner s outer, h' = run t h (inner ++ s :: outer) ∧ IsRequested (run t h inner) ∧
    Settles t (run t h inner) (s.step t (run t h inner))

theorem run_settles (hr : IsRequested h) (steps : List InterruptStep) :
    IsRequested (run t h steps) ∨ SettlesWithin t h (run t h steps) := by
  induction steps generalizing h with
  | nil => exact .inl hr
  | cons s steps ih =>
    rcases step_requested hr s with hstep | hend
    · rcases ih hstep with hrun | ⟨inner, s', outer, hrun, hinner, hend⟩
      · exact .inl hrun
      · exact .inr ⟨s :: inner, s', outer, hrun, hinner, hend⟩
    · exact .inr ⟨[], s, steps, rfl, hr, hend⟩

/-- Steps of one thread, one after the other. -/
def runs (t : ThreadId) : Evolution Hosted where
  rel h h' := ∃ steps, h' = run t h steps
  refl h := ⟨[], rfl⟩
  trans := by
    rintro a b c ⟨steps, rfl⟩ ⟨steps', rfl⟩
    exact ⟨steps ++ steps', (List.foldl_append).symm⟩

theorem evolves_runs {α : Type} {act : Action Hosted α} (hact : Evolves (runs t) act)
    (hr : IsRequested h) :
    IsRequested (act.outcome h).2 ∨ SettlesWithin t h (act.outcome h).2 := by
  obtain ⟨steps, hsteps⟩ := hact h
  rw [hsteps]
  exact run_settles hr steps

end InterruptStep

/-- Every service is a run of its steps. -/
theorem interrupts_run (fuel : Nat) :
    Evolves (InterruptStep.runs t) (invokeFor t fuel) ∧
      Evolves (InterruptStep.runs t) (serveFor t fuel) := by
  have hall := interrupts_evolve_of (t := t) (E := InterruptStep.runs t)
    (fun h s => ⟨[s], rfl⟩) fuel
  exact ⟨hall.1, hall.2.1⟩

end Hosted

/-- What threads do to an isolate, as far as it matters for a request for termination. -/
inductive InterruptOperation
  | requestTermination
  | requestInterrupt (callback : InterruptCallback)
  | handleInterrupts
  | invokeCallbacks
  | cancelTermination
  | tearDown
  | onSlots (op : SlotOperation) (other : op.touchesGuard = false)
  /-- Anything that leaves the guard alone. -/
  | elsewhere (f : Hosted → Hosted) (leaves : ∀ h, (f h).isolate.guard = h.isolate.guard)

namespace InterruptOperation

open ScriptEngine.Action Hosted

/-- The state after the operation, whatever it came to. -/
def step (t : ThreadId) (h : Hosted) : InterruptOperation → Hosted
  | requestTermination => InterruptStep.requestTermination.step t h
  | requestInterrupt callback => (InterruptStep.request callback).step t h
  | handleInterrupts => ((Hosted.handleInterrupts t).outcome h).2
  | invokeCallbacks => ((Hosted.invokeCallbacks t).outcome h).2
  | cancelTermination => InterruptStep.cancelTermination.step t h
  | tearDown => InterruptStep.tearDown.step t h
  | onSlots op _ => op.step t h
  | elsewhere f _ => f h

def run (h : Hosted) (ops : List (ThreadId × InterruptOperation)) : Hosted :=
  ops.foldl (fun h p => p.2.step p.1 h) h

variable {h : Hosted}

theorem step_requested (hr : IsRequested h) (t : ThreadId) (op : InterruptOperation) :
    IsRequested (op.step t h) ∨ InterruptStep.SettlesWithin t h (op.step t h) := by
  have hstep : ∀ s : InterruptStep,
      IsRequested (s.step t h) ∨ InterruptStep.SettlesWithin t h (s.step t h) := fun s =>
    InterruptStep.run_settles hr [s]
  cases op with
  | requestTermination => exact hstep .requestTermination
  | requestInterrupt callback => exact hstep (.request callback)
  | handleInterrupts =>
    exact InterruptStep.evolves_runs (evolves_get_bind fun h => (interrupts_run _).2 h) hr
  | invokeCallbacks =>
    exact InterruptStep.evolves_runs (evolves_get_bind fun h => (interrupts_run _).1 h) hr
  | cancelTermination => exact hstep .cancelTermination
  | tearDown => exact hstep .tearDown
  | onSlots op other => exact .inl (hr.of_guard (op.step_guard other t h))
  | elsewhere f leaves => exact .inl (hr.of_guard (leaves h))

/-- A request for termination stays until an operation takes it back or checks for interrupts.
The check makes the termination pending, unless its thread is not attached or has an exception
scheduled: then the request is gone. -/
theorem run_requested (hr : IsRequested h) (ops : List (ThreadId × InterruptOperation)) :
    IsRequested (run h ops) ∨
    ∃ before t op after, ops = before ++ (t, op) :: after ∧ IsRequested (run h before) ∧
      InterruptStep.SettlesWithin t (run h before) (run h (before ++ [(t, op)])) := by
  induction ops generalizing h with
  | nil => exact .inl hr
  | cons p ops ih =>
    obtain ⟨t, op⟩ := p
    rcases step_requested hr t op with hstep | hend
    · rcases ih hstep with hrun | ⟨before, t', op', after, rfl, hbefore, hend⟩
      · exact .inl hrun
      · exact .inr ⟨(t, op) :: before, t', op', after, rfl, hbefore, hend⟩
    · exact .inr ⟨[], t, op, ops, rfl, hr, hend⟩

def requested : Hosted := run SlotOperation.withNewThread [("main", .requestTermination)]

theorem isRequested_requested : IsRequested requested := rfl

/-- The next check of the thread serves the request. -/
theorem run_requested_served : ∃ before t op after,
    [("main", handleInterrupts)] = before ++ (t, op) :: after ∧
    IsRequested (run requested before) ∧
    InterruptStep.SettlesWithin t (run requested before) (run requested (before ++ [(t, op)])) :=
  (run_requested isRequested_requested _).resolve_left Bool.false_ne_true

/-- A request that comes while an exception is scheduled: the check is refused, and the next one,
with nothing scheduled any more, finds nothing to do. -/
theorem request_lost_while_scheduled :
    let waiting := run SlotOperation.withNewThread
      [("main", .onSlots (.scheduleThrow (.smi 1)) rfl), ("main", .requestTermination)]
    let cleared := run waiting
      [("main", .handleInterrupts), ("main", .onSlots .clearScheduled rfl)]
    IsRequested waiting ∧
    ((Hosted.handleInterrupts "main").outcome waiting).1 =
      .error (.refused (.exceptionConflict .throwWhileScheduled)) ∧
    ¬IsRequested cleared ∧
    ((Hosted.handleInterrupts "main").outcome cleared).1 = .ok .undefined :=
  ⟨rfl, rfl, Bool.false_ne_true, rfl⟩

end InterruptOperation

end ScriptEngine

import ScriptEngine.Proofs.ExceptionSlots
import ScriptEngine.Proofs.InterruptSteps

namespace ScriptEngine

namespace Isolate

open ScriptEngine.Action ThreadState

section Threadwise

variable {E : ThreadId → Evolution ThreadState} {t : ThreadId}

theorem evolves_rethrowWithMessage {exception message : Value}
    (sets : ∀ top top', top.setPending exception = .ok top' →
      (E t).rel top { top' with message := some message }) :
    Evolves (threadwise E) (rethrowWithMessage t exception message) := by
  refine (evolves_tryOnTop fun top top' h => ?_).bind fun _ => evolves_pure _
  cases hp : top.setPending exception with
  | error e =>
    rw [hp] at h
    cases h
  | ok pending =>
    rw [hp] at h
    cases h
    exact sets top pending hp

theorem evolves_promote (clears : ∀ top, (E t).rel top top.clearScheduled)
    (sets : ∀ exception top top', top.setPending exception = .ok top' → (E t).rel top top') :
    Evolves (threadwise E) (promote t) := by
  refine evolves_top_bind fun i data hd => ?_
  split
  · exact (threadwise E).refl i
  · exact Evolves.bind_at (threadwise_setTop_of hd (clears data.top)) fun _ =>
      evolves_rethrow (sets _)

theorem evolves_propagate (hands : ∀ top handler, (E t).rel top (top.propagate handler).2) :
    Evolves (threadwise E) (propagate t) := by
  refine evolves_top_bind fun i data hd => ?_
  rw [outcome_bind]
  cases hp : data.top.propagatePending with
  | error e => exact (threadwise E).refl i
  | ok result =>
    obtain ⟨handler, rfl⟩ := propagatePending_ok hp
    exact threadwise_setTop_of hd (hands data.top handler)

/-- Listeners only add events and listeners. -/
theorem notifyAll_eq (m : Message) (i : Isolate) : ∃ listeners events,
    notifyAll m i = { i with listeners := listeners, events := events } := by
  have hnotify : ∀ (i : Isolate) (l : Listener), ∃ listeners events,
      notify m i l = { i with listeners := listeners, events := events } := by
    intro i l
    unfold notify
    split <;> exact ⟨_, _, rfl⟩
  unfold notifyAll
  generalize i.listeners = told
  induction told generalizing i with
  | nil => exact ⟨i.listeners, i.events, rfl⟩
  | cons l rest ih =>
    obtain ⟨listeners, events, hl⟩ := hnotify i l
    rw [List.foldl_cons, hl]
    exact ih _

theorem evolves_report {report : Bool}
    (takes : ∀ top, (E t).rel top (takeDueMessage top report).2) :
    Evolves (threadwise E) (Isolate.report t report) := by
  refine (evolves_onTop takes).bind fun due => ?_
  refine evolves_get_bind fun i => ?_
  split
  · exact (threadwise E).refl i
  · rename_i m _
    obtain ⟨listeners, events, hm⟩ := notifyAll_eq m i
    change (threadwise E).rel i (notifyAll m i)
    rw [hm]
    exact threadwise_of_threads rfl

theorem evolves_cancelTermination (cancels : ∀ top, (E t).rel top top.cancelTermination) :
    Evolves (threadwise E) (Isolate.cancelTermination t) := by
  refine (evolves_tryOnTop fun top top' h => ?_).bind fun _ =>
    evolves_modify_of_threads fun _ => rfl
  cases h
  exact cancels top

theorem requireBuiltins_evolves {E : Evolution Isolate} (operation : GuardedOperation) :
    Evolves E (requireBuiltins operation) := by
  refine evolves_get_bind fun i => ?_
  split
  · exact E.refl i
  · exact E.refl i

theorem evolves_unwind (unwinds : ∀ top top', Unwinds top top' → (E t).rel top top') :
    Evolves (threadwise E) (unwind t) := by
  refine (requireBuiltins_evolves .unwind).bind fun builtins => ?_
  refine evolves_top_bind fun i data hd => ?_
  rw [outcome_get_bind]
  dsimp only
  refine Evolves.bind_at ?_ fun _ => ?_
  · refine (threadwise E).trans (threadwise_setTop_of hd ?_) (threadwise_of_threads rfl)
    exact unwinds _ _ (Dispatch.unwinds_run i.codes builtins i.terminationRequested
      { thread := data.top, materialized := i.materialized, lazyThrow := i.lazyThrow
        restart := i.restart })
  · split
    · exact evolves_pure _
    · exact evolves_throw _

end Threadwise

/-- No thread gets a scheduled exception. -/
def schedulingNothing : Evolution Isolate := threadwise fun _ => keepingSlots

/-- One thread at most gets a scheduled exception. -/
def schedulingOn (t : ThreadId) : Evolution Isolate :=
  threadwise fun t' => if t' = t then exclusively else keepingSlots

theorem evolves_schedulingOn {α : Type} {act : Action Isolate α}
    (h : Evolves schedulingNothing act) (t : ThreadId) : Evolves (schedulingOn t) act := by
  refine threadwise_mono (fun t' a b hab => ?_) h
  split
  · exact hab.exclusive
  · exact hab

variable {t : ThreadId}

theorem evolves_schedulingOn_tryOnTop {f : ThreadState → Except IsolateError ThreadState}
    (h : ∀ s s', f s = .ok s' → s.Exclusive → s'.Exclusive) :
    Evolves (schedulingOn t) (tryOnTop t f) := by
  refine evolves_tryOnTop fun s s' hs => ?_
  rw [if_pos rfl]
  exact h s s' hs

theorem raise_evolves (exception : Value) (location : Option Location) :
    Evolves schedulingNothing (raise t exception location) :=
  evolves_raise (fun _ => .of_slots (.inl rfl) (.inl rfl))
    (fun _ _ => .of_slots (.inl rfl) (.inl rfl)) fun _ _ => keepsSlots_setPending

/-- A throw is refused while an exception is scheduled. -/
theorem raise_refused (exception : Value) (location : Option Location) {i : Isolate}
    {data : ThreadData} (hd : i.thread? t = some data) (hs : data.top.scheduled.isSome) :
    (raise t exception location).outcome i =
      (.error (.refused (.exceptionConflict .throwWhileScheduled)), i) := by
  unfold raise
  rw [outcome_bind, outcome_top, hd]
  dsimp only
  rw [if_pos hs]
  rfl

theorem scheduleThrow_refused (exception : Value) {i : Isolate} {data : ThreadData}
    (hd : i.thread? t = some data) (hs : data.top.scheduled.isSome) :
    ∃ e, (scheduleThrow t exception).outcome i = (.error e, i) := by
  refine ⟨.refused (.exceptionConflict .throwWhileScheduled), ?_⟩
  unfold scheduleThrow
  rw [outcome_bind, raise_refused exception none hd hs]

theorem rethrow_evolves (exception : Value) :
    Evolves schedulingNothing (rethrow t exception) :=
  evolves_rethrow fun _ _ => keepsSlots_setPending

theorem rethrowWithMessage_evolves (exception message : Value) :
    Evolves schedulingNothing (rethrowWithMessage t exception message) :=
  evolves_rethrowWithMessage fun _ _ hp =>
    keepingSlots.trans (keepsSlots_setPending hp) (.of_slots (.inl rfl) (.inl rfl))

theorem scheduleThrow_evolves (exception : Value) :
    Evolves (schedulingOn t) (scheduleThrow t exception) := by
  refine (evolves_schedulingOn (raise_evolves exception none) t).bind fun _ => ?_
  refine evolves_schedulingOn_tryOnTop fun top top' h hexclusive => ?_
  dsimp only at h
  split at h
  · exact exclusive_schedulePending h
  · cases h
    exact (keepsSlots_propagate _).exclusive hexclusive

theorem promote_evolves : Evolves schedulingNothing (promote t) :=
  evolves_promote (fun _ => .of_free rfl) fun _ _ _ => keepsSlots_setPending

theorem reschedule_evolves (clear : Bool) : Evolves (schedulingOn t) (reschedule t clear) := by
  refine evolves_top_bind fun i data hd => ?_
  split
  · exact (schedulingOn t).refl i
  · rename_i exception _
    dsimp only
    -- All branches end in one of two ways, and some of them clear whatever was asked for.
    have hfinish : ∀ (top : ThreadState) (clear : Bool), Evolves (schedulingOn t) (
        if clear = true then do
          putTop t { top with externalCaught := false, pending := none }
          return false
        else do
          tryOnTop t (·.schedulePending)
          return true) := by
      intro top clear
      cases clear with
      | true =>
        refine (evolves_putTop fun s => ?_).bind fun _ => evolves_pure _
        rw [if_pos rfl]
        exact fun _ => .inl rfl
      | false =>
        refine (evolves_schedulingOn_tryOnTop fun s s' h _ => ?_).bind fun _ => evolves_pure _
        exact exclusive_schedulePending h
    refine Evolves.bind_at ?_ fun _ => ?_
    · refine threadwise_setTop_of hd ?_
      rw [if_pos rfl]
      exact (keepsSlots_propagate _).exclusive
    · split
      · split
        · exact hfinish _ clear
        · refine evolves_get.bind fun i => (evolves_ofWalk _).bind fun sp => ?_
          split
          · exact hfinish _ true
          · exact hfinish _ clear
      · exact hfinish _ clear

/-- Rescheduling is refused while an exception is scheduled: none is pending then. -/
theorem reschedule_refused (clear : Bool) {i : Isolate} {data : ThreadData}
    (hd : i.thread? t = some data) (he : data.top.Exclusive) (hs : data.top.scheduled.isSome) :
    ∃ e, (reschedule t clear).outcome i = (.error e, i) := by
  refine ⟨.refused .noPendingException, ?_⟩
  unfold reschedule
  rw [outcome_bind, outcome_top, hd]
  dsimp only
  rw [he.pending_eq_none hs]
  rfl

theorem propagate_evolves : Evolves schedulingNothing (propagate t) :=
  evolves_propagate fun _ => keepsSlots_propagate

theorem report_evolves (report : Bool) : Evolves schedulingNothing (Isolate.report t report) :=
  evolves_report fun _ => keepsSlots_takeDueMessage report

theorem cancelTermination_evolves : Evolves schedulingNothing (Isolate.cancelTermination t) :=
  evolves_cancelTermination fun _ => keepsSlots_cancelTermination

theorem unwind_evolves : Evolves schedulingNothing (unwind t) :=
  evolves_unwind fun _ _ => Unwinds.keepsSlots

end Isolate

namespace Hosted

open ScriptEngine.Action Isolate

section Interrupts

variable {E : ThreadId → Evolution ThreadState} {t : ThreadId}

theorem evolves_requestInterrupt (callback : InterruptCallback) :
    Evolves (evolving (threadwise E)) (requestInterrupt callback) :=
  evolves_modifyIsolate_of_threads fun _ => rfl

theorem evolves_takeFlag (flag : InterruptFlag) :
    Evolves (evolving (threadwise E)) (takeFlag flag) := by
  refine evolves_get.bind fun h => ?_
  exact (evolves_modifyIsolate_of_threads fun _ => by rfl).bind fun _ => evolves_pure _

theorem evolves_takeCallback : Evolves (evolving (threadwise E)) takeCallback := by
  refine evolves_get.bind fun h => ?_
  split
  · exact evolves_pure _
  · exact (evolves_modifyIsolate_of_threads fun _ => by rfl).bind fun _ => evolves_pure _

/-- Of the steps of a service only throws and the end of a termination change threads. -/
theorem evolves_interruptStep
    (raises : ∀ exception, Evolves (threadwise E) (Isolate.raise t exception none))
    (cancels : Evolves (threadwise E) (Isolate.cancelTermination t)) (h : Hosted)
    (s : InterruptStep) : (evolving (threadwise E)).rel h (s.step t h) := by
  cases s with
  | takeCalls => exact evolves_takeFlag .api h
  | takeCallback => exact evolves_takeCallback h
  | note event => exact evolves_modifyIsolate_of_threads (fun _ => rfl) h
  | raise v => exact evolves_onIsolate (raises v) h
  | request callback => exact evolves_requestInterrupt callback h
  | requestTermination => exact evolves_modifyIsolate_of_threads (fun _ => rfl) h
  | serveTermination =>
    have hserve : Evolves (evolving (threadwise E)) (serveTermination t) :=
      (evolves_takeFlag .terminate).bind fun _ => evolves_onIsolate (raises _)
    exact hserve h
  | cancelTermination => exact evolves_onIsolate cancels h
  | tearDown => exact (inert_threadwise _).tearingDown h

theorem evolves_handleInterrupts
    (raises : ∀ exception, Evolves (threadwise E) (Isolate.raise t exception none))
    (cancels : Evolves (threadwise E) (Isolate.cancelTermination t)) :
    Evolves (evolving (threadwise E)) (handleInterrupts t) := by
  refine evolves_get.bind fun h => ?_
  exact (interrupts_evolve_of (evolves_interruptStep raises cancels) _).2.1

end Interrupts

def schedulingNothing : Evolution Hosted := evolving Isolate.schedulingNothing

variable {t : ThreadId}

theorem handleInterrupts_evolves : Evolves schedulingNothing (handleInterrupts t) :=
  evolves_handleInterrupts (fun exception => raise_evolves exception none) cancelTermination_evolves

end Hosted

/-- What is done to the state of one thread, or elsewhere. -/
inductive SlotOperation
  | setPending (exception : Value)
  | clearPending
  | setScheduled (exception : Value)
  | clearScheduled
  | schedulePending
  | raise (exception : Value) (location : Option Location)
  | rethrow (exception : Value)
  | rethrowWithMessage (exception message : Value)
  | scheduleThrow (exception : Value)
  | promote
  | cancelScheduled (id : TryCatchId)
  | reschedule (clear : Bool)
  | propagate
  | report (report : Bool)
  | unwind
  | terminate
  | handleInterrupts
  | cancelTermination
  | registerTryCatch (scope : TryCatch)
  | unregisterTryCatch (id : TryCatchId)
  | pushFrame (spec : FrameSpec)
  | popFrame
  /-- A state as of a new thread. -/
  | reset
  /-- Anything that leaves the slots of attached threads alone. Threads may be attached anew. -/
  | elsewhere (f : Hosted → Hosted)
    (leaves : ∀ h t data', (f h).isolate.thread? t = some data' → data'.top = {} ∨
      ∃ data, h.isolate.thread? t = some data ∧ data'.top.pending = data.top.pending ∧
        data'.top.scheduled = data.top.scheduled)

namespace SlotOperation

open ScriptEngine.Action Hosted

/-- Operations that may put another exception in the place of a scheduled one. -/
def overwrites : SlotOperation → Bool
  | setScheduled _ | reset => true
  | _ => false

/-- The state after the operation, whatever it came to. -/
def step (t : ThreadId) (h : Hosted) : SlotOperation → Hosted
  | setPending v => ((onIsolate (Isolate.tryOnTop t (·.setPending v))).outcome h).2
  | clearPending => ((onIsolate (Isolate.onTop t fun s => ((), s.clearPending))).outcome h).2
  | setScheduled v => ((onIsolate (Isolate.tryOnTop t (·.setScheduled v))).outcome h).2
  | clearScheduled => ((onIsolate (Isolate.onTop t fun s => ((), s.clearScheduled))).outcome h).2
  | schedulePending => ((onIsolate (Isolate.tryOnTop t (·.schedulePending))).outcome h).2
  | raise v location => ((onIsolate (Isolate.raise t v location)).outcome h).2
  | rethrow v => ((onIsolate (Isolate.rethrow t v)).outcome h).2
  | rethrowWithMessage v m => ((onIsolate (Isolate.rethrowWithMessage t v m)).outcome h).2
  | scheduleThrow v => ((onIsolate (Isolate.scheduleThrow t v)).outcome h).2
  | promote => ((onIsolate (Isolate.promote t)).outcome h).2
  | cancelScheduled id => ((onIsolate (Isolate.tryOnTop t (·.cancelScheduled id))).outcome h).2
  | reschedule clear => ((onIsolate (Isolate.reschedule t clear)).outcome h).2
  | propagate => ((onIsolate (Isolate.propagate t)).outcome h).2
  | report r => ((onIsolate (Isolate.report t r)).outcome h).2
  | unwind => ((onIsolate (Isolate.unwind t)).outcome h).2
  | terminate => ((onIsolate (Isolate.terminate t)).outcome h).2
  | handleInterrupts => ((Hosted.handleInterrupts t).outcome h).2
  | cancelTermination => ((onIsolate (Isolate.cancelTermination t)).outcome h).2
  | registerTryCatch s => ((onIsolate (Isolate.onTop t (·.registerTryCatch s))).outcome h).2
  | unregisterTryCatch id => ((onIsolate (Isolate.tryOnTop t fun s =>
      (s.unregisterTryCatch id).map (·.2))).outcome h).2
  | pushFrame spec => ((onIsolate (Isolate.onTop t (·.pushFrame spec))).outcome h).2
  | popFrame => ((onIsolate (Isolate.onTop t (·.popFrame))).outcome h).2
  | reset => ((onIsolate (Isolate.onTop t fun _ => ((), {}))).outcome h).2
  | elsewhere f _ => f h

/-- No state of an attached thread has both slots filled. -/
def ExclusiveSlots (h : Hosted) : Prop :=
  ∀ t data, h.isolate.thread? t = some data → data.top.Exclusive

/-- What an operation can do to the slots: it schedules nothing; or it may schedule an exception
of one thread, and then it is one that overwrites, or does nothing while one is scheduled; or it
leaves the slots alone. -/
theorem step_cases (t : ThreadId) (h : Hosted) (op : SlotOperation) :
    (schedulingNothing.rel h (op.step t h)) ∨
    ((evolving (Isolate.schedulingOn t)).rel h (op.step t h) ∧
      (op.overwrites = false → ∀ data, h.isolate.thread? t = some data → data.top.Exclusive →
        data.top.scheduled.isSome → (op.step t h).isolate = h.isolate)) ∨
    ∀ t' data', (op.step t h).isolate.thread? t' = some data' → data'.top = {} ∨
      ∃ data, h.isolate.thread? t' = some data ∧ data'.top.pending = data.top.pending ∧
        data'.top.scheduled = data.top.scheduled := by
  have honTop : ∀ {α : Type} (f : ThreadState → α × ThreadState),
      (∀ s, ThreadState.KeepsSlots s (f s).2) →
      schedulingNothing.rel h ((onIsolate (Isolate.onTop t f)).outcome h).2 := fun f hf =>
    evolves_onIsolate (Isolate.evolves_onTop hf) h
  have htry : ∀ f : ThreadState → Except IsolateError ThreadState,
      (∀ s s', f s = .ok s' → ThreadState.KeepsSlots s s') →
      schedulingNothing.rel h ((onIsolate (Isolate.tryOnTop t f)).outcome h).2 := fun f hf =>
    evolves_onIsolate (Isolate.evolves_tryOnTop hf) h
  have hschedule : ∀ f : ThreadState → Except IsolateError ThreadState,
      (∀ s s', f s = .ok s' → s.Exclusive → s'.Exclusive) →
      (evolving (Isolate.schedulingOn t)).rel h
        ((onIsolate (Isolate.tryOnTop t f)).outcome h).2 := fun f hf =>
    evolves_onIsolate (Isolate.evolves_schedulingOn_tryOnTop hf) h
  cases op with
  | setPending v => exact .inl (htry _ fun _ _ => ThreadState.keepsSlots_setPending)
  | clearPending => exact .inl (honTop _ fun _ => .of_slots (.inr rfl) (.inl rfl))
  | setScheduled v =>
    exact .inr (.inl ⟨hschedule _ fun _ _ hs _ => ThreadState.exclusive_setScheduled hs, nofun⟩)
  | clearScheduled => exact .inl (honTop _ fun _ => .of_free rfl)
  | schedulePending =>
    refine .inr (.inl ⟨hschedule _ fun _ _ hs _ => ThreadState.exclusive_schedulePending hs, ?_⟩)
    intro _ data hd he hs
    have hf : data.top.schedulePending = .error .noPendingException := by
      rw [ThreadState.schedulePending, he.pending_eq_none hs]
    exact congrArg Prod.snd (Isolate.tryOnTop_refused hd hf)
  | raise v location => exact .inl (evolves_onIsolate (Isolate.raise_evolves v location) h)
  | rethrow v => exact .inl (evolves_onIsolate (Isolate.rethrow_evolves v) h)
  | rethrowWithMessage v m =>
    exact .inl (evolves_onIsolate (Isolate.rethrowWithMessage_evolves v m) h)
  | scheduleThrow v =>
    refine .inr (.inl ⟨evolves_onIsolate (Isolate.scheduleThrow_evolves v) h, ?_⟩)
    intro _ data hd _ hs
    obtain ⟨e, hr⟩ := Isolate.scheduleThrow_refused v hd hs
    exact congrArg Prod.snd hr
  | promote => exact .inl (evolves_onIsolate Isolate.promote_evolves h)
  | cancelScheduled id => exact .inl (htry _ fun _ _ => ThreadState.keepsSlots_cancelScheduled)
  | reschedule clear =>
    refine .inr (.inl ⟨evolves_onIsolate (Isolate.reschedule_evolves clear) h, ?_⟩)
    intro _ data hd he hs
    obtain ⟨e, hr⟩ := Isolate.reschedule_refused clear hd he hs
    exact congrArg Prod.snd hr
  | propagate => exact .inl (evolves_onIsolate Isolate.propagate_evolves h)
  | report r => exact .inl (evolves_onIsolate (Isolate.report_evolves r) h)
  | unwind => exact .inl (evolves_onIsolate Isolate.unwind_evolves h)
  | terminate => exact .inl (evolves_onIsolate (Isolate.raise_evolves _ _) h)
  | handleInterrupts => exact .inl (handleInterrupts_evolves h)
  | cancelTermination => exact .inl (evolves_onIsolate Isolate.cancelTermination_evolves h)
  | registerTryCatch s => exact .inl (honTop _ fun _ => ThreadState.keepsSlots_registerTryCatch s)
  | unregisterTryCatch id =>
    refine .inl (htry _ fun s s' hs => ?_)
    cases hu : s.unregisterTryCatch id with
    | error e =>
      rw [hu] at hs
      cases hs
    | ok result =>
      rw [hu] at hs
      cases hs
      exact ThreadState.keepsSlots_unregisterTryCatch hu
  | pushFrame spec => exact .inl (honTop _ fun _ => ThreadState.keepsSlots_pushFrame spec)
  | popFrame => exact .inl (honTop _ fun _ => ThreadState.keepsSlots_popFrame)
  | reset =>
    have hreset : Evolves (Isolate.schedulingOn t) (Isolate.onTop t fun _ => ((), {})) := by
      refine Isolate.evolves_onTop fun s => ?_
      rw [if_pos rfl]
      exact fun _ => .inl rfl
    exact .inr (.inl ⟨evolves_onIsolate hreset h, nofun⟩)
  | elsewhere f leaves => exact .inr (.inr (leaves h))

theorem ExclusiveSlots.step {h : Hosted} (he : ExclusiveSlots h) (t : ThreadId)
    (op : SlotOperation) : ExclusiveSlots (op.step t h) := by
  intro t' data' hd'
  rcases step_cases t h op with hkeep | ⟨hon, _⟩ | helse
  · obtain ⟨data, hd, hrel⟩ := hkeep t' data' hd'
    exact hrel.exclusive (he t' data hd)
  · obtain ⟨data, hd, hrel⟩ := hon t' data' hd'
    dsimp only at hrel
    split at hrel
    · exact hrel (he t' data hd)
    · exact hrel.exclusive (he t' data hd)
  · rcases helse t' data' hd' with hnew | ⟨data, hd, hp, hs⟩
    · rw [hnew]
      exact .inl rfl
    · rcases he t' data hd with h | h
      · exact .inl (hp.trans h)
      · exact .inr (hs.trans h)

/-- An operation that does not overwrite leaves a scheduled exception, or takes it out. -/
theorem scheduled_step {h : Hosted} (he : ExclusiveSlots h) {t t' : ThreadId} {op : SlotOperation}
    (hop : op.overwrites = false) {data data' : ThreadData} {v : Value}
    (hd : h.isolate.thread? t' = some data) (hs : data.top.scheduled = some v)
    (hd' : (op.step t h).isolate.thread? t' = some data') :
    data'.top.scheduled = some v ∨ data'.top.scheduled = none := by
  rcases step_cases t h op with hkeep | ⟨hon, hsame⟩ | helse
  · obtain ⟨data₀, hd₀, hrel⟩ := hkeep t' data' hd'
    cases hd.symm.trans hd₀
    rw [← hs]
    exact hrel.scheduled
  · by_cases ht : t' = t
    · subst ht
      -- The thread already has a scheduled exception, so the operation was refused.
      rw [hsame hop data hd (he t' data hd) (by rw [hs]; rfl)] at hd'
      cases hd.symm.trans hd'
      exact .inl hs
    · obtain ⟨data₀, hd₀, hrel⟩ := hon t' data' hd'
      cases hd.symm.trans hd₀
      dsimp only at hrel
      rw [if_neg ht] at hrel
      rw [← hs]
      exact hrel.scheduled
  · rcases helse t' data' hd' with hnew | ⟨data₀, hd₀, -, hs₀⟩
    · rw [hnew]
      exact .inr rfl
    · cases hd.symm.trans hd₀
      exact .inl (hs₀.trans hs)

/-- The state after some operations of some threads, one after the other. -/
def run (h : Hosted) (ops : List (ThreadId × SlotOperation)) : Hosted :=
  ops.foldl (fun h p => p.2.step p.1 h) h

theorem ExclusiveSlots.run {h : Hosted} (he : ExclusiveSlots h)
    (ops : List (ThreadId × SlotOperation)) : ExclusiveSlots (run h ops) := by
  induction ops generalizing h with
  | nil => exact he
  | cons p ops ih => exact ih (he.step p.1 p.2)

/-- From new threads on no sequence of operations fills both slots of a thread. None but those
that overwrite puts an exception in the place of a scheduled one. -/
theorem run_exclusive (h : Hosted)
    (hnew : ∀ t data, h.isolate.thread? t = some data → data.top = {})
    (ops : List (ThreadId × SlotOperation)) :
    (∀ t data, (run h ops).isolate.thread? t = some data →
      ¬(data.top.pending.isSome ∧ data.top.scheduled.isSome)) ∧
    ∀ t op, op.overwrites = false → ∀ t' data data' v,
      (run h ops).isolate.thread? t' = some data → data.top.scheduled = some v →
      (run h (ops ++ [(t, op)])).isolate.thread? t' = some data' →
      data'.top.scheduled = some v ∨ data'.top.scheduled = none := by
  have he : ExclusiveSlots (run h ops) := by
    refine ExclusiveSlots.run (fun t data hd => ?_) ops
    rw [hnew t data hd]
    exact .inl rfl
  refine ⟨?_, ?_⟩
  · rintro t data hd ⟨hp, hs⟩
    rw [(he t data hd).pending_eq_none hs] at hp
    cases hp
  · intro t op hop t' data data' v hd hs hd'
    rw [run, List.foldl_append] at hd'
    exact scheduled_step he hop hd hs hd'

/-- An isolate with one thread attached to it. -/
def withNewThread : Hosted where
  isolate := {
    id := 1
    options := {}
    region := none
    blob := none
    threads := [("main", { stackSize := 0 })] }
  platform := .create 0 {}

theorem new_withNewThread (t : ThreadId) (data : ThreadData)
    (hd : withNewThread.isolate.thread? t = some data) : data.top = {} := by
  simp only [Isolate.thread?, withNewThread, List.lookup_cons] at hd
  split at hd
  · cases hd
    rfl
  · cases hd

/-- While an exception is scheduled another throw is refused. -/
theorem run_exclusive_scheduled :
    ∃ data, (run withNewThread [("main", .scheduleThrow (.smi 1))]).isolate.thread? "main" =
        some data ∧
      data.top.scheduled = some (.smi 1) ∧
      ∀ data', (run withNewThread ([("main", .scheduleThrow (.smi 1))] ++
          [("main", .scheduleThrow (.smi 2))])).isolate.thread? "main" = some data' →
        data'.top.scheduled = some (.smi 1) ∨ data'.top.scheduled = none := by
  refine ⟨_, rfl, rfl, ?_⟩
  intro data' hd'
  obtain ⟨-, hkept⟩ := run_exclusive withNewThread new_withNewThread _
  exact hkept "main" _ rfl "main" _ data' _ rfl rfl hd'

end SlotOperation

end ScriptEngine

import ScriptEngine.Proofs.Contracts
import ScriptEngine.Proofs.InstalledHandlers
import ScriptEngine.Proofs.TerminationRequests

namespace ScriptEngine

namespace Action

variable {σ α β : Type} {E : Evolution σ} {act : Action σ α} {f : α → Action σ β}

/-- A refusal changes the state in this way at most. -/
def Spares (E : Evolution σ) (act : Action σ α) : Prop :=
  ∀ s e s', act.outcome s = (.error (.refused e), s') → E.rel s s'

/-- The action succeeds, or a fatal error breaks it off. -/
def NeverRefuses (act : Action σ α) : Prop := ∀ s e s', act.outcome s ≠ (.error (.refused e), s')

theorem neverRefuses_pure (a : α) : NeverRefuses (pure a : Action σ α) := fun _ _ _ => nofun

theorem NeverRefuses.bind (h : NeverRefuses act) (hf : ∀ a, NeverRefuses (f a)) :
    NeverRefuses (act >>= f) := by
  intro s e s' ho
  rw [outcome_bind] at ho
  cases hact : act.outcome s with
  | mk result s₁ =>
    rw [hact] at ho
    cases result with
    | ok a => exact hf a s₁ e s' ho
    | error _ =>
      cases ho
      exact h s e _ hact

theorem Evolves.spares (h : Evolves E act) : Spares E act := by
  intro s e s' ho
  have hs := h s
  rwa [ho] at hs

/-- First steps that change nothing of note. -/
theorem Evolves.bind_spares (h : Evolves E act) (hf : ∀ a, Spares E (f a)) :
    Spares E (act >>= f) := by
  intro s e s' ho
  have hs := h s
  rw [outcome_bind] at ho
  cases hact : act.outcome s with
  | mk result s₁ =>
    rw [hact] at ho hs
    cases result with
    | ok a => exact E.trans hs (hf a s₁ e s' ho)
    | error _ =>
      obtain rfl := congrArg Prod.snd ho
      exact hs

/-- After the check nothing is refused. -/
theorem Spares.bind (h : Spares E act) (hf : ∀ a, NeverRefuses (f a)) : Spares E (act >>= f) := by
  intro s e s' ho
  rw [outcome_bind] at ho
  cases hact : act.outcome s with
  | mk result s₁ =>
    rw [hact] at ho
    cases result with
    | ok a => exact absurd ho (hf a s₁ e s')
    | error _ =>
      cases ho
      exact h s e _ hact

end Action

namespace Isolate

open ScriptEngine.Action

/-- All that is kept for each thread stays as it is. -/
def keepingThreads : Evolution Isolate where
  rel i i' := ∀ t, i'.thread? t = i.thread? t
  refl _ _ := rfl
  trans h h' t := (h' t).trans (h t)

variable {t : ThreadId} {α : Type}

theorem setTop_keepsThreads {i : Isolate} {data : ThreadData} (hd : i.thread? t = some data) :
    keepingThreads.rel i (i.setTop t data.top) := by
  intro t'
  by_cases ht : t' = t
  · rw [ht, thread?_setTop _ hd, hd]
  · exact thread?_setTop_ne _ ht

/-- What follows a look at a thread need only be refused where that thread is attached. -/
theorem spares_top_bind {f : ThreadState → Action Isolate α}
    (h : ∀ i data e i', i.thread? t = some data →
      (f data.top).outcome i = (.error (.refused e), i') → keepingThreads.rel i i') :
    Spares keepingThreads (top t >>= f) := by
  intro i e i' ho
  rw [outcome_bind, outcome_top] at ho
  cases hd : i.thread? t with
  | none =>
    rw [hd] at ho
    cases ho
    exact keepingThreads.refl i
  | some data =>
    rw [hd] at ho
    exact h i data e i' hd ho

theorem spares_tryOnTop (f : ThreadState → Except IsolateError ThreadState) :
    Spares keepingThreads (tryOnTop t f) := by
  refine evolves_top.bind_spares fun top => ?_
  cases hf : f top with
  | error e => exact (evolves_refuse e).spares
  | ok top' => exact fun _ _ _ => nofun

theorem raise_spares (exception : Value) (location : Option Location) :
    Spares keepingThreads (raise t exception location) := by
  intro i e i' ho
  cases hd : i.thread? t with
  | none =>
    cases (raise_unattached exception location hd).symm.trans ho
    exact keepingThreads.refl i
  | some data =>
    cases hs : data.top.scheduled with
    | some _ =>
      cases (raise_refused exception location hd (by rw [hs]; rfl)).symm.trans ho
      exact keepingThreads.refl i
    | none =>
      rcases raise_outcome exception location hd hs with
        ⟨_, hr⟩ | ⟨_, _, _, _, hr, rfl | ⟨_, rfl⟩, -⟩ <;> cases hr.symm.trans ho

theorem rethrow_spares (exception : Value) : Spares keepingThreads (rethrow t exception) :=
  (spares_tryOnTop _).bind fun _ => neverRefuses_pure _

theorem rethrowWithMessage_spares (exception message : Value) :
    Spares keepingThreads (rethrowWithMessage t exception message) :=
  (spares_tryOnTop _).bind fun _ => neverRefuses_pure _

/-- Once the exception is pending, it can be scheduled. -/
theorem scheduleThrow_spares (exception : Value) :
    Spares keepingThreads (scheduleThrow t exception) := by
  intro i e i' ho
  cases hraise : (raise t exception none).outcome i with
  | mk result raised =>
    cases result with
    | error failure =>
      unfold scheduleThrow at ho
      cases (outcome_bind_error hraise).symm.trans ho
      exact raise_spares exception none i e _ hraise
    | ok v =>
      cases hd : i.thread? t with
      | none => cases (raise_unattached exception none hd).symm.trans hraise
      | some data =>
        cases hs : data.top.scheduled with
        | some _ =>
          cases (raise_refused exception none hd (by rw [hs]; rfl)).symm.trans hraise
        | none =>
          rcases raise_outcome exception none hd hs with
            ⟨_, hr⟩ | ⟨_, message, heap, events, hr, rfl | ⟨_, rfl⟩, -⟩
          · cases hr.symm.trans hraise
          · have hattached : ({ i.setTop t (data.top.withRaised message exception) with
                heap := heap, events := events } : Isolate).thread? t =
                some { data with top := data.top.withRaised message exception } :=
              thread?_setTop _ hd
            cases (scheduleThrow_outcome hr hattached rfl).symm.trans ho
          · cases hr.symm.trans hraise

theorem promote_spares : Spares keepingThreads (promote t) := by
  refine spares_top_bind fun i data e i' hd ho => ?_
  cases hs : data.top.scheduled with
  | none =>
    rw [hs] at ho
    cases ho
    exact keepingThreads.refl i
  | some exception =>
    have hpromote := promote_outcome hd hs
    unfold promote at hpromote
    rw [outcome_bind_ok (outcome_top_of hd)] at hpromote
    cases hpromote.symm.trans ho

/-- The exception stays pending while it is handed on, so that it can be scheduled then. -/
theorem reschedule_spares (clear : Bool) : Spares keepingThreads (reschedule t clear) := by
  refine spares_top_bind fun i data e i' hd ho => ?_
  cases hp : data.top.pending with
  | none =>
    rw [hp] at ho
    cases ho
    exact keepingThreads.refl i
  | some exception =>
    have hreschedule := reschedule_eq clear hd hp
    unfold reschedule at hreschedule
    rw [outcome_bind_ok (outcome_top_of hd)] at hreschedule
    rw [hreschedule] at ho
    rcases decideReschedule_cases (i := i.setTop t _) (t := t)
      (data.top.propagate (data.top.handlerType exception)).2 exception clear with
      ⟨_, hbroken⟩ | ⟨cleared, hend⟩
    · cases hbroken.symm.trans ho
    · rw [finishReschedule_outcome cleared hd ((ThreadState.propagate_slots _).1.trans hp)] at hend
      cases hend.symm.trans ho

theorem propagate_spares : Spares keepingThreads (propagate t) := by
  refine evolves_top.bind_spares fun top => ?_
  cases top.propagatePending with
  | error e => exact (evolves_refuse e).spares
  | ok _ => exact fun _ _ _ => nofun

theorem cancelTermination_spares : Spares keepingThreads (cancelTermination t) :=
  (spares_tryOnTop _).bind fun _ _ _ _ => nofun

/-- Dispatch is refused for want of an exception, before it looks at a frame. -/
theorem unwind_spares : Spares keepingThreads (unwind t) := by
  intro i e i' ho
  by_cases hunready : i.builtins = none ∨ i.thread? t = none
  · obtain ⟨e', hout⟩ := unwind_unready hunready
    cases hout.symm.trans ho
    exact keepingThreads.refl i
  · rw [not_or] at hunready
    obtain ⟨builtins, hb⟩ := Option.ne_none_iff_exists'.mp hunready.1
    obtain ⟨data, hd⟩ := Option.ne_none_iff_exists'.mp hunready.2
    rw [outcome_unwind hb hd] at ho
    cases hp : data.top.pending with
    | none =>
      rw [run_nothing hp] at ho
      cases ho
      exact setTop_keepsThreads hd
    | some v =>
      rw [Dispatch.run_pending (d := i.dispatch data.top) hp] at ho
      have hresult := congrArg Prod.fst ho
      dsimp only at hresult
      split at hresult <;> cases hresult

theorem newError_keepsThreads (name message : String) :
    Evolves keepingThreads (newError t name message) := by
  refine evolves_get.bind fun i => Evolves.bind ?_ fun stack => evolves_modifyGet fun _ _ => rfl
  exact evolves_top.bind fun top => evolves_get.bind fun i => evolves_ofWalk _

theorem stackOverflow_spares : Spares keepingThreads (stackOverflow t) :=
  (newError_keepsThreads _ _).bind_spares fun _ => raise_spares _ _

theorem illegalOperation_spares : Spares keepingThreads (illegalOperation t) :=
  Evolves.bind_spares (evolves_modifyGet fun _ _ => rfl) fun _ => raise_spares _ _

end Isolate

open ScriptEngine.Action

/-- A call of a thread that raises, moves or takes back exceptions, or ends a scope for them. -/
inductive ExceptionCall
  | raise (exception : Value) (location : Option Location)
  | rethrow (exception : Value)
  | rethrowWithMessage (exception message : Value)
  | scheduleThrow (exception : Value)
  | terminate
  | stackOverflow
  | illegalOperation
  | setPending (exception : Value)
  | setScheduled (exception : Value)
  | promote
  | cancelScheduled (id : TryCatchId)
  | reschedule (clear : Bool)
  | propagate
  | unregisterTryCatch (id : TryCatchId)
  | unwind
  | handleInterrupts
  | cancelTermination

namespace Hosted

variable {E : Evolution Isolate} {t : ThreadId} {α : Type}

theorem spares_onIsolate {act : Action Isolate α} (h : Spares E act) :
    Spares (evolving E) (onIsolate act) := by
  intro s e s' ho
  rw [outcome_onIsolate] at ho
  obtain ⟨hresult, rfl⟩ := Prod.mk.inj ho
  exact h s.isolate e _ (Prod.ext hresult rfl)

/-- To a callback a refusal is a result. -/
theorem neverRefuses_resultOf {act : Action Hosted α} (result : α → ActionResult) :
    NeverRefuses (resultOf act result) := by
  intro s e s' ho
  unfold resultOf at ho
  rw [outcome_bind, outcome_attempt] at ho
  split at ho
  next r _ hattempt =>
    cases hattempt
    rcases hact : act.outcome s with ⟨(e' | e') | a, s₁⟩ <;> rw [hact] at ho <;> cases ho
  next hattempt => cases hattempt

theorem neverRefuses_takeCallback : NeverRefuses takeCallback := by
  intro h e h' ho
  unfold takeCallback at ho
  rw [outcome_get_bind] at ho
  split at ho <;> cases ho

theorem neverRefuses_modifyIsolate (f : Isolate → Isolate) : NeverRefuses (modifyIsolate f) := by
  intro h e h' ho
  cases ho

theorem neverRefuses_takeFlag (flag : InterruptFlag) : NeverRefuses (takeFlag flag) := by
  intro h e h' ho
  cases ho

theorem neverRefuses_requestInterrupt (callback : InterruptCallback) :
    NeverRefuses (requestInterrupt callback) := by
  intro h e h' ho
  cases ho

/-- Callbacks end, or a fatal error ends them. -/
theorem neverRefuses_callbacks (t : ThreadId) (fuel : Nat) : NeverRefuses (invokeFor t fuel) ∧
    (∀ actions, NeverRefuses (runFor t fuel actions)) ∧
    ∀ action, NeverRefuses (performFor t fuel action) := by
  induction fuel with
  | zero =>
    refine ⟨?_, fun actions => ?_, fun action => ?_⟩
    · rw [invokeFor]
      exact neverRefuses_pure _
    · rw [runFor]
      exact neverRefuses_pure _
    · rw [performFor]
      exact neverRefuses_pure _
  | succ fuel ih =>
    obtain ⟨hinvoke, hrun, hperform⟩ := ih
    refine ⟨?_, fun actions => ?_, fun action => ?_⟩
    · rw [invokeFor]
      refine neverRefuses_takeCallback.bind fun callback => ?_
      cases callback with
      | none => exact neverRefuses_pure _
      | some callback =>
        exact (hrun callback).bind fun _ => hinvoke.bind fun _ => neverRefuses_pure _
    · cases actions with
      | nil =>
        rw [runFor]
        exact neverRefuses_pure _
      | cons action rest =>
        rw [runFor]
        exact (hperform action).bind fun _ =>
          (neverRefuses_modifyIsolate _).bind fun _ => hrun rest
    · cases action <;> rw [performFor]
      case note => exact neverRefuses_pure _
      case request =>
        exact (neverRefuses_requestInterrupt _).bind fun _ => neverRefuses_pure _
      case requestTermination =>
        exact (neverRefuses_modifyIsolate _).bind fun _ => neverRefuses_pure _
      case invokeCallbacks => exact hinvoke.bind fun _ => neverRefuses_pure _
      all_goals exact neverRefuses_resultOf _

/-- A check for interrupts is refused a termination that it found, or nothing. -/
theorem handleInterrupts_spares :
    Spares (evolving Isolate.keepingThreads) (handleInterrupts t) := by
  intro h e h' ho
  cases hr : h.isolate.guard.check .terminate with
  | true =>
    rw [handleInterrupts_requested hr] at ho
    have hserve : Spares (evolving Isolate.keepingThreads) (serveTermination t) :=
      Evolves.bind_spares (fun _ _ => rfl) fun _ => spares_onIsolate (Isolate.raise_spares _ _)
    exact hserve h e h' ho
  | false =>
    unfold handleInterrupts interruptBound at ho
    rw [outcome_get_bind, serveFor_unrequested hr] at ho
    have hserve : ∀ fuel, NeverRefuses (do
        if ← takeFlag .api then
          let _ ← invokeFor t fuel
        return .undefined : Action Hosted Value) := by
      intro fuel
      refine (neverRefuses_takeFlag .api).bind fun calls => ?_
      cases calls with
      | true => exact (neverRefuses_callbacks t fuel).1.bind fun _ => neverRefuses_pure _
      | false => exact neverRefuses_pure _
    exact absurd ho (hserve _ h e h')

end Hosted

namespace ExceptionCall

open Hosted

/-- The call by a thread; its result is not looked at. -/
def perform (t : ThreadId) : ExceptionCall → Action Hosted Unit
  | raise v location => do let _ ← onIsolate (Isolate.raise t v location)
  | rethrow v => do let _ ← onIsolate (Isolate.rethrow t v)
  | rethrowWithMessage v m => do let _ ← onIsolate (Isolate.rethrowWithMessage t v m)
  | scheduleThrow v => onIsolate (Isolate.scheduleThrow t v)
  | terminate => do let _ ← onIsolate (Isolate.terminate t)
  | stackOverflow => do let _ ← onIsolate (Isolate.stackOverflow t)
  | illegalOperation => do let _ ← onIsolate (Isolate.illegalOperation t)
  | setPending v => onIsolate (Isolate.tryOnTop t (·.setPending v))
  | setScheduled v => onIsolate (Isolate.tryOnTop t (·.setScheduled v))
  | promote => do let _ ← onIsolate (Isolate.promote t)
  | cancelScheduled id => onIsolate (Isolate.tryOnTop t (·.cancelScheduled id))
  | reschedule clear => do let _ ← onIsolate (Isolate.reschedule t clear)
  | propagate => do let _ ← onIsolate (Isolate.propagate t)
  | unregisterTryCatch id =>
    onIsolate (Isolate.tryOnTop t fun s => (s.unregisterTryCatch id).map (·.2))
  | unwind => do let _ ← onIsolate (Isolate.unwind t)
  | handleInterrupts => do let _ ← Hosted.handleInterrupts t
  | cancelTermination => onIsolate (Isolate.cancelTermination t)

theorem perform_spares (t : ThreadId) (call : ExceptionCall) :
    Spares (evolving Isolate.keepingThreads) (call.perform t) := by
  have hignore : ∀ {α : Type} {act : Action Isolate α}, Spares Isolate.keepingThreads act →
      Spares (evolving Isolate.keepingThreads) (do let _ ← onIsolate act) := fun h =>
    (spares_onIsolate h).bind fun _ => neverRefuses_pure _
  cases call with
  | raise v location => exact hignore (Isolate.raise_spares v location)
  | rethrow v => exact hignore (Isolate.rethrow_spares v)
  | rethrowWithMessage v m => exact hignore (Isolate.rethrowWithMessage_spares v m)
  | scheduleThrow v => exact spares_onIsolate (Isolate.scheduleThrow_spares v)
  | terminate => exact hignore (Isolate.raise_spares _ _)
  | stackOverflow => exact hignore Isolate.stackOverflow_spares
  | illegalOperation => exact hignore Isolate.illegalOperation_spares
  | setPending v => exact spares_onIsolate (Isolate.spares_tryOnTop _)
  | setScheduled v => exact spares_onIsolate (Isolate.spares_tryOnTop _)
  | promote => exact hignore Isolate.promote_spares
  | cancelScheduled id => exact spares_onIsolate (Isolate.spares_tryOnTop _)
  | reschedule clear => exact hignore (Isolate.reschedule_spares clear)
  | propagate => exact hignore Isolate.propagate_spares
  | unregisterTryCatch id => exact spares_onIsolate (Isolate.spares_tryOnTop _)
  | unwind => exact hignore Isolate.unwind_spares
  | handleInterrupts => exact handleInterrupts_spares.bind fun _ => neverRefuses_pure _
  | cancelTermination => exact spares_onIsolate Isolate.cancelTermination_spares

/-- A call that is refused leaves every thread as it was: slots, flags, handlers, scopes, stacks
and all else. -/
theorem refused_changes_nothing (call : ExceptionCall) {t : ThreadId} {h h' : Hosted}
    {e : IsolateError} (hr : (call.perform t).outcome h = (.error (.refused e), h')) :
    ∀ t', h'.isolate.thread? t' = h.isolate.thread? t' :=
  call.perform_spares t h e h' hr

/-- A thread with an exception scheduled, whose next throw is marked as a rethrow. -/
def rethrowing : Hosted :=
  ((onIsolate (Isolate.onTop "main" fun s => ((), { s with rethrowing := true }))).outcome
    (SlotOperation.run SlotOperation.withNewThread [("main", .scheduleThrow (.smi 1))])).2

/-- A throw that is refused does not use up the mark. -/
theorem refused_changes_nothing_rethrowing : ∃ e h' data,
    ((raise (.smi 2) none).perform "main").outcome rethrowing = (.error (.refused e), h') ∧
    h'.isolate.thread? "main" = some data ∧ data.top.rethrowing ∧
    data.top.scheduled = some (.smi 1) ∧ data.top.message.isSome := by
  obtain ⟨data, hd⟩ : ∃ data, rethrowing.isolate.thread? "main" = some data := ⟨_, rfl⟩
  obtain ⟨e, h', hr⟩ : ∃ e h', ((raise (.smi 2) none).perform "main").outcome rethrowing =
    (.error (.refused e), h') := ⟨.exceptionConflict .throwWhileScheduled, rethrowing, rfl⟩
  refine ⟨e, h', data, hr, (refused_changes_nothing (raise (.smi 2) none) hr "main").trans hd, ?_⟩
  cases hd
  exact ⟨rfl, rfl, rfl⟩

end ExceptionCall

end ScriptEngine

import ScriptEngine.Proofs.Evolution

namespace ScriptEngine.Hosted

open ScriptEngine.Action

/-- The end of a service that finds a request for termination. -/
def serveTermination (t : ThreadId) : Action Hosted Value := do
  let _ ← takeFlag .terminate
  onIsolate (Isolate.terminate t)

/-- One step of a thread that serves its interrupts. -/
inductive InterruptStep
  | takeCalls
  | takeCallback
  | note (event : Event)
  | raise (exception : Value)
  | request (callback : InterruptCallback)
  | requestTermination
  | serveTermination
  | cancelTermination
  | tearDown

namespace InterruptStep

/-- The state after a step, whatever it came to. -/
def step (t : ThreadId) (h : Hosted) : InterruptStep → Hosted
  | takeCalls => ((takeFlag .api).outcome h).2
  | takeCallback => (Hosted.takeCallback.outcome h).2
  | note event => ((modifyIsolate (·.emit event)).outcome h).2
  | raise v => ((onIsolate (Isolate.raise t v none)).outcome h).2
  | request callback => ((requestInterrupt callback).outcome h).2
  | requestTermination => ((modifyIsolate (·.requestTermination)).outcome h).2
  | serveTermination => ((Hosted.serveTermination t).outcome h).2
  | cancelTermination => ((onIsolate (Isolate.cancelTermination t)).outcome h).2
  | tearDown => (Hosted.tearDown.outcome h).2

def run (t : ThreadId) (h : Hosted) (steps : List InterruptStep) : Hosted := steps.foldl (step t) h

end InterruptStep

variable {t : ThreadId} {h : Hosted} {fuel : Nat}

/-- The state with a flag of the guard cleared. -/
def withoutFlag (h : Hosted) (flag : InterruptFlag) : Hosted :=
  { h with isolate := { h.isolate with guard := h.isolate.guard.clear flag } }

theorem takeFlag_outcome (flag : InterruptFlag) : (takeFlag flag).outcome h =
    (.ok (h.isolate.guard.check flag), h.withoutFlag flag) := rfl

theorem withoutFlag_of_clear {flag : InterruptFlag} (hc : h.isolate.guard.check flag = false) :
    h.withoutFlag flag = h := by
  have hguard : h.isolate.guard.clear flag = h.isolate.guard := by
    cases flag with
    | terminate =>
      change { h.isolate.guard with terminate := false } = h.isolate.guard
      rw [← show h.isolate.guard.terminate = false from hc]
    | api =>
      change { h.isolate.guard with api := false } = h.isolate.guard
      rw [← show h.isolate.guard.api = false from hc]
  rw [withoutFlag, hguard]

/-- A service that finds a request for termination does nothing else. -/
theorem serveFor_requested (hr : h.isolate.guard.check .terminate = true) :
    (serveFor t (fuel + 1)).outcome h = (serveTermination t).outcome h := by
  rw [serveFor, serveTermination, outcome_bind_ok (takeFlag_outcome .terminate),
    outcome_bind_ok (takeFlag_outcome .terminate), hr]
  rfl

theorem serveFor_unrequested (hr : h.isolate.guard.check .terminate = false) :
    (serveFor t (fuel + 1)).outcome h = (do
      if ← takeFlag .api then
        let _ ← invokeFor t fuel
      return .undefined : Action Hosted Value).outcome h := by
  rw [serveFor, outcome_bind_ok (takeFlag_outcome .terminate), withoutFlag_of_clear hr, hr]
  rfl

theorem resultOf_evolves {α : Type} {E : Evolution Hosted} {act : Action Hosted α}
    (h : Evolves E act) (result : α → ActionResult) : Evolves E (resultOf act result) := by
  refine h.attempt.bind fun r => ?_
  split
  · exact evolves_pure _
  · exact evolves_pure _
  · exact evolves_die _

theorem outcome_onIsolate {α : Type} (act : Action Isolate α) : (onIsolate act).outcome h =
    ((act.outcome h.isolate).1, { h with isolate := (act.outcome h.isolate).2 }) := rfl

theorem evolves_readTop {E : Evolution Hosted} : Evolves E (onIsolate (Isolate.top t)) := by
  intro h
  rw [outcome_onIsolate, Isolate.outcome_top]
  cases h.isolate.thread? t <;> exact E.refl h

section Services

variable {E : Evolution Hosted} (hstep : ∀ h s, E.rel h (InterruptStep.step t h s))
include hstep

theorem serveFor_evolves (hinvoke : Evolves E (invokeFor t fuel)) :
    Evolves E (serveFor t (fuel + 1)) := by
  intro h
  cases hr : h.isolate.guard.check .terminate with
  | true =>
    rw [serveFor_requested hr]
    exact hstep h .serveTermination
  | false =>
    rw [serveFor_unrequested hr]
    refine Evolves.bind (fun h => hstep h .takeCalls) (fun calls => ?_) h
    split
    · exact hinvoke.bind fun _ => evolves_pure _
    · exact evolves_pure _

theorem performFor_evolves (hinvoke : Evolves E (invokeFor t fuel))
    (hserve : Evolves E (serveFor t fuel)) (action : InterruptAction) :
    Evolves E (performFor t (fuel + 1) action) := by
  cases action <;> rw [performFor]
  case note => exact evolves_pure _
  case throwValue v => exact resultOf_evolves (fun h => hstep h (.raise v)) _
  case request actions =>
    exact Evolves.bind (fun h => hstep h (.request actions)) fun _ => evolves_pure _
  case requestTermination =>
    exact Evolves.bind (fun h => hstep h .requestTermination) fun _ => evolves_pure _
  case handleInterrupts => exact resultOf_evolves hserve _
  case invokeCallbacks => exact hinvoke.bind fun _ => evolves_pure _
  case readPending => exact resultOf_evolves evolves_readTop _
  case cancelTermination => exact resultOf_evolves (fun h => hstep h .cancelTermination) _
  case tearDown => exact resultOf_evolves (fun h => hstep h .tearDown) _

/-- The functions that serve interrupts call one another, with less fuel each time. They change
the state in a way in which every step changes it. -/
theorem interrupts_evolve_of (fuel : Nat) :
    Evolves E (invokeFor t fuel) ∧ Evolves E (serveFor t fuel) ∧
    (∀ actions, Evolves E (runFor t fuel actions)) ∧
    ∀ action, Evolves E (performFor t fuel action) := by
  induction fuel with
  | zero =>
    refine ⟨?_, ?_, fun actions => ?_, fun action => ?_⟩
    · rw [invokeFor]
      exact evolves_pure _
    · rw [serveFor]
      exact evolves_pure _
    · rw [runFor]
      exact evolves_pure _
    · rw [performFor]
      exact evolves_pure _
  | succ fuel ih =>
    obtain ⟨hinvoke, hserve, hrun, hperform⟩ := ih
    refine ⟨?_, serveFor_evolves hstep hinvoke, fun actions => ?_,
      performFor_evolves hstep hinvoke hserve⟩
    · rw [invokeFor]
      refine Evolves.bind (fun h => hstep h .takeCallback) fun callback => ?_
      split
      · exact evolves_pure _
      · exact (hrun _).bind fun _ => hinvoke.bind fun _ => evolves_pure _
    · cases actions with
      | nil =>
        rw [runFor]
        exact evolves_pure _
      | cons action rest =>
        rw [runFor]
        refine (hperform action).bind fun result => ?_
        exact Evolves.bind (fun h => hstep h (.note (.action result))) fun _ => hrun rest

end Services

end ScriptEngine.Hosted

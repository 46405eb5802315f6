import Mathlib.Logic.Relation
import ScriptEngine.Proofs.Contracts
import ScriptEngine.Proofs.TerminationRequests

namespace ScriptEngine

open ScriptEngine.Action

/-- Failures that end the process. -/
def Failure.IsFatal (e : Failure) : Prop := ∃ e', e = .fatal e'

/-- Actions that neither serve interrupts nor ask for any callback. -/
def InterruptAction.isPlain : InterruptAction → Bool
  | .note _ | .throwValue _ | .requestTermination | .readPending | .cancelTermination => true
  | _ => false

mutual

/-- The isolate is not torn down by the action, nor by the callbacks that it requests. -/
def InterruptAction.spares : InterruptAction → Bool
  | .request actions => InterruptAction.allSpare actions
  | .tearDown => false
  | _ => true

def InterruptAction.allSpare : List InterruptAction → Bool
  | [] => true
  | a :: rest => a.spares && InterruptAction.allSpare rest

end

@[simp] theorem InterruptAction.totalWeight_append (l l' : List InterruptAction) :
    totalWeight (l ++ l') = totalWeight l + totalWeight l' := by
  induction l with
  | nil => simp [totalWeight]
  | cons a rest ih =>
    simp only [List.cons_append, totalWeight, ih]
    omega

theorem InterruptAction.weight_pos (a : InterruptAction) : 0 < a.weight := by
  cases a with
  | request actions =>
    rw [weight]
    omega
  | _ => exact Nat.zero_lt_one

/-- What a thread that serves interrupts has still to do. -/
inductive InterruptCall
  /-- A check that has not begun. -/
  | check
  /-- A check that found no request for termination, and looks for callbacks next. -/
  | calls
  /-- A check that has taken a request for termination. -/
  | terminate
  /-- Runs callbacks until none is waiting. -/
  | drain
  /-- The rest of a callback. -/
  | actions (rest : List InterruptAction)
  /-- Sets the flag for a callback that it has queued. -/
  | ask
  /-- Notes what an action came to. -/
  | report

/-- Callbacks may rest on the call: it runs them, or asks for somebody who does. -/
def InterruptCall.attends : InterruptCall → Bool
  | .calls | .drain | .ask => true
  | _ => false

def InterruptCall.spares : InterruptCall → Bool
  | .actions rest => InterruptAction.allSpare rest
  | _ => true

/-- An isolate whose thread serves interrupts, with a record of the callbacks. -/
structure InterruptService where
  host : Hosted
  /-- Innermost first. -/
  calls : List InterruptCall := []
  /-- Callbacks whose threads have queued them, and have not yet set the flag. -/
  owed : Nat := 0
  /-- In the order in which they were queued. -/
  requested : List InterruptCallback := []
  /-- In the order in which they were begun. -/
  ran : List InterruptCallback := []

namespace Hosted

variable (h : Hosted)

def withQueue (interrupts : List InterruptCallback) : Hosted :=
  { h with isolate := { h.isolate with interrupts := interrupts } }

/-- A callback waits; the flag is not set for it yet. -/
def queued (c : InterruptCallback) : Hosted := h.withQueue (h.isolate.interrupts ++ [c])

def withFlag (flag : InterruptFlag) : Hosted :=
  { h with isolate := { h.isolate with guard := h.isolate.guard.request flag } }

@[simp, grind =] theorem interrupts_withQueue (interrupts : List InterruptCallback) :
    (h.withQueue interrupts).isolate.interrupts = interrupts := rfl

@[simp, grind =] theorem guard_withQueue (interrupts : List InterruptCallback) :
    (h.withQueue interrupts).isolate.guard = h.isolate.guard := rfl

@[simp, grind =] theorem interrupts_queued (c : InterruptCallback) :
    (h.queued c).isolate.interrupts = h.isolate.interrupts ++ [c] := rfl

@[simp, grind =] theorem guard_queued (c : InterruptCallback) :
    (h.queued c).isolate.guard = h.isolate.guard := rfl

@[simp, grind =] theorem interrupts_withFlag (flag : InterruptFlag) :
    (h.withFlag flag).isolate.interrupts = h.isolate.interrupts := rfl

@[simp, grind =] theorem check_withFlag (flag : InterruptFlag) :
    (h.withFlag flag).isolate.guard.check flag = true := by cases flag <;> rfl

@[simp, grind =] theorem interrupts_withoutFlag (flag : InterruptFlag) :
    (h.withoutFlag flag).isolate.interrupts = h.isolate.interrupts := rfl

theorem requestInterrupt_outcome (c : InterruptCallback) :
    (requestInterrupt c).outcome h = (.ok (), (h.queued c).withFlag .api) := rfl

/-- Callbacks, and the flag that tells of them, stay as they are. -/
def keepingCallbacks : Evolution Hosted where
  rel h h' := h'.isolate.interrupts = h.isolate.interrupts ∧
    h'.isolate.guard.check .api = h.isolate.guard.check .api
  refl _ := ⟨rfl, rfl⟩
  trans h h' := ⟨h'.1.trans h.1, h'.2.trans h.2⟩

end Hosted

/-- From one state, an action that evolves comes to a later state. -/
theorem Action.Evolves.meets {σ α : Type} {E : Evolution σ} {act : Action σ α} {s : σ}
    (h : Evolves E act) : Meets (· = s) act (fun _ => E.rel s) fun _ => E.rel s := by
  refine meets_at ?_
  have hrel := h s
  cases ho : act.outcome s with
  | mk result s' =>
    rw [ho] at hrel
    cases result <;> exact hrel

namespace Hosted

variable {t : ThreadId}

theorem raise_keepsCallbacks (exception : Value) :
    Evolves keepingCallbacks (onIsolate (Isolate.raise t exception none)) := by
  intro h
  obtain ⟨threads, heap, events, hr⟩ := Isolate.raise_leaves t exception none h.isolate
  rw [outcome_onIsolate, hr]
  exact ⟨rfl, rfl⟩

theorem cancelTermination_keepsCallbacks :
    Evolves keepingCallbacks (onIsolate (Isolate.cancelTermination t)) := by
  intro h
  rw [outcome_onIsolate]
  unfold Isolate.cancelTermination Isolate.tryOnTop
  rw [outcome_bind, outcome_bind, Isolate.outcome_top]
  cases h.isolate.thread? t <;> exact ⟨rfl, rfl⟩

/-- What a callback tries fails only where that is fatal. -/
theorem meets_resultOf {α : Type} {act : Action Hosted α} {result : α → ActionResult}
    {P : Hosted → Prop} {Q : ActionResult → Hosted → Prop}
    (h : Meets P act (fun a => Q (result a)) fun e s => ∀ e', e = .refused e' → Q (.refused e') s) :
    Meets P (resultOf act result) Q fun e _ => e.IsFatal := by
  intro s hs
  unfold resultOf
  rw [outcome_bind, outcome_attempt]
  cases ho : act.outcome s with
  | mk r s' =>
    obtain (e | e) | a := r
    · exact h.error hs ho e rfl
    · exact ⟨e, rfl⟩
    · exact h.ok hs ho

theorem performFor_plain {a : InterruptAction} (plain : a.isPlain) (fuel : Nat) :
    performFor t (fuel + 1) a = performFor t 1 a := by
  cases a with
  | request => cases plain
  | handleInterrupts => cases plain
  | invokeCallbacks => cases plain
  | tearDown => cases plain
  | _ => rw [performFor, performFor]

/-- Plain actions leave callbacks alone, and come to something unless they are fatal. -/
theorem meets_plain {a : InterruptAction} (plain : a.isPlain) (h : Hosted) :
    Meets (· = h) (performFor t 1 a) (fun _ h' => keepingCallbacks.rel h h')
      fun e _ => e.IsFatal := by
  have htried : ∀ {α : Type} {act : Action Hosted α} (result : α → ActionResult),
      Evolves keepingCallbacks act → Meets (· = h) (resultOf act result)
        (fun _ h' => keepingCallbacks.rel h h') fun e _ => e.IsFatal := fun result hact =>
    meets_resultOf (hact.meets.weaken (fun _ h => h) (fun _ _ h => h) fun _ _ h _ _ => h)
  cases a with
  | request => cases plain
  | handleInterrupts => cases plain
  | invokeCallbacks => cases plain
  | tearDown => cases plain
  | note data =>
    rw [performFor]
    exact meets_at (keepingCallbacks.refl h)
  | throwValue v =>
    rw [performFor]
    exact htried _ (raise_keepsCallbacks v)
  | requestTermination =>
    rw [performFor]
    exact meets_at ⟨rfl, rfl⟩
  | readPending =>
    rw [performFor]
    exact htried _ evolves_readTop
  | cancelTermination =>
    rw [performFor]
    exact htried _ cancelTermination_keepsCallbacks

/-- A termination is raised or refused; nobody is asked whether to go on. -/
theorem terminate_result {h h' : Hosted} {result : Except Failure Value}
    (outcome : (onIsolate (Isolate.terminate t)).outcome h = (result, h')) :
    result = .ok .raised ∨ ∃ e, result = .error (.refused e) := by
  rw [outcome_onIsolate, Isolate.terminate] at outcome
  cases hd : h.isolate.thread? t with
  | none =>
    rw [Isolate.raise_unattached .termination none hd] at outcome
    cases outcome
    exact .inr ⟨_, rfl⟩
  | some data =>
    cases hs : data.top.scheduled with
    | some scheduled =>
      rw [Isolate.raise_refused .termination none hd (by rw [hs]; rfl)] at outcome
      cases outcome
      exact .inr ⟨_, rfl⟩
    | none =>
      rw [Isolate.raise_uncatchable .termination none rfl hd hs] at outcome
      cases outcome
      exact .inl rfl

theorem terminate_keepsCallbacks {h h' : Hosted} {result : Except Failure Value}
    (outcome : (onIsolate (Isolate.terminate t)).outcome h = (result, h')) :
    keepingCallbacks.rel h h' := by
  have hleaves := raise_keepsCallbacks (t := t) .termination h
  rw [← Isolate.terminate, outcome] at hleaves
  exact hleaves

end Hosted

namespace InterruptService

open Hosted

variable {t : ThreadId} {s s' : InterruptService}

def queue (s : InterruptService) : List InterruptCallback := s.host.isolate.interrupts

/-- The flag tells of callbacks. -/
def isAsked (s : InterruptService) : Bool := s.host.isolate.guard.check .api

/-- What the thread of the isolate does next. -/
inductive Advances (t : ThreadId) : InterruptService → InterruptService → Prop
  | divert {h calls owed requested ran} (found : IsRequested h) :
      Advances t ⟨h, .check :: calls, owed, requested, ran⟩
        ⟨h.withoutFlag .terminate, .terminate :: calls, owed, requested, ran⟩
  | terminate {h calls owed requested ran result h'}
      (outcome : (onIsolate (Isolate.terminate t)).outcome h = (result, h')) :
      Advances t ⟨h, .terminate :: calls, owed, requested, ran⟩ ⟨h', calls, owed, requested, ran⟩
  | pass {h calls owed requested ran} (clear : ¬IsRequested h) :
      Advances t ⟨h, .check :: calls, owed, requested, ran⟩
        ⟨h, .calls :: calls, owed, requested, ran⟩
  | find {h calls owed requested ran} (found : h.isolate.guard.check .api) :
      Advances t ⟨h, .calls :: calls, owed, requested, ran⟩
        ⟨h.withoutFlag .api, .drain :: calls, owed, requested, ran⟩
  | miss {h calls owed requested ran} (clear : ¬h.isolate.guard.check .api) :
      Advances t ⟨h, .calls :: calls, owed, requested, ran⟩ ⟨h, calls, owed, requested, ran⟩
  | take {h calls owed requested ran c rest} (waiting : h.isolate.interrupts = c :: rest) :
      Advances t ⟨h, .drain :: calls, owed, requested, ran⟩
        ⟨h.withQueue rest, .actions c :: .drain :: calls, owed, requested, ran ++ [c]⟩
  | drained {h calls owed requested ran} (empty : h.isolate.interrupts = []) :
      Advances t ⟨h, .drain :: calls, owed, requested, ran⟩ ⟨h, calls, owed, requested, ran⟩
  | finish {h calls owed requested ran} :
      Advances t ⟨h, .actions [] :: calls, owed, requested, ran⟩ ⟨h, calls, owed, requested, ran⟩
  | perform {h calls owed requested ran a rest result h'} (plain : a.isPlain)
      (outcome : (performFor t 1 a).outcome h = (.ok result, h')) :
      Advances t ⟨h, .actions (a :: rest) :: calls, owed, requested, ran⟩
        ⟨h', .report :: .actions rest :: calls, owed, requested, ran⟩
  | request {h calls owed requested ran c rest} :
      Advances t ⟨h, .actions (.request c :: rest) :: calls, owed, requested, ran⟩
        ⟨h.queued c, .ask :: .report :: .actions rest :: calls, owed, requested ++ [c], ran⟩
  | handle {h calls owed requested ran rest} :
      Advances t ⟨h, .actions (.handleInterrupts :: rest) :: calls, owed, requested, ran⟩
        ⟨h, .check :: .report :: .actions rest :: calls, owed, requested, ran⟩
  | invoke {h calls owed requested ran rest} :
      Advances t ⟨h, .actions (.invokeCallbacks :: rest) :: calls, owed, requested, ran⟩
        ⟨h, .drain :: .report :: .actions rest :: calls, owed, requested, ran⟩
  | ask {h calls owed requested ran} :
      Advances t ⟨h, .ask :: calls, owed, requested, ran⟩
        ⟨h.withFlag .api, calls, owed, requested, ran⟩
  | report {h calls owed requested ran} (result : ActionResult) :
      Advances t ⟨h, .report :: calls, owed, requested, ran⟩
        ⟨{ h with isolate := h.isolate.emit (.action result) }, calls, owed, requested, ran⟩

/-- A step of the isolate's thread or of another one. -/
inductive Step (t : ThreadId) : InterruptService → InterruptService → Prop
  | handle {h owed requested ran} :
      Step t ⟨h, [], owed, requested, ran⟩ ⟨h, [.check], owed, requested, ran⟩
  | invoke {h owed requested ran} :
      Step t ⟨h, [], owed, requested, ran⟩ ⟨h, [.drain], owed, requested, ran⟩
  | own {s s' : InterruptService} (advances : Advances t s s') : Step t s s'
  /-- Another thread queues a callback. -/
  | queue {h calls owed requested ran} (c : InterruptCallback)
      (spares : InterruptAction.allSpare c) :
      Step t ⟨h, calls, owed, requested, ran⟩
        ⟨h.queued c, calls, owed + 1, requested ++ [c], ran⟩
  /-- It sets the flag. -/
  | ask {h calls owed requested ran} :
      Step t ⟨h, calls, owed + 1, requested, ran⟩
        ⟨h.withFlag .api, calls, owed, requested, ran⟩
  /-- A request for termination, and whatever else leaves the callbacks alone. -/
  | elsewhere {h h' calls owed requested ran} (leaves : keepingCallbacks.rel h h') :
      Step t ⟨h, calls, owed, requested, ran⟩ ⟨h', calls, owed, requested, ran⟩

abbrev Run (t : ThreadId) : InterruptService → InterruptService → Prop :=
  Relation.ReflTransGen (Step t)

end InterruptService

end ScriptEngine

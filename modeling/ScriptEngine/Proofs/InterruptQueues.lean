import ScriptEngine.Proofs.InterruptRuns

namespace ScriptEngine

open ScriptEngine.Action ScriptEngine.Hosted

namespace InterruptService

variable {t : ThreadId} {h h' h'' : Hosted} {fuel : Nat}

/-- From the calls `before` the thread gets to the calls `after`, whatever is to be done then. -/
def Leads (t : ThreadId) (before after : List InterruptCall) (h h' : Hosted) : Prop :=
  ∀ calls owed requested ran, ∃ requested' ran',
    Relation.TransGen (Advances t) ⟨h, before ++ calls, owed, requested, ran⟩
      ⟨h', after ++ calls, owed, requested', ran'⟩

theorem effort_lt_of_transGen {s s' : InterruptService}
    (run : Relation.TransGen (Advances t) s s') : s'.effort < s.effort := by
  induction run with
  | single step => exact step.effort_lt
  | tail _ step ih => exact Nat.lt_trans step.effort_lt ih

theorem spared_of_transGen {s s' : InterruptService} (run : Relation.TransGen (Advances t) s s')
    (hs : s.Spared) : s'.Spared := by
  induction run with
  | single step => exact step.spared hs
  | tail _ step ih => exact step.spared ih

/-- Nothing that waits tears the isolate down. -/
def QueueSpared (h : Hosted) : Prop := ∀ c ∈ h.isolate.interrupts, InterruptAction.allSpare c

namespace Leads

variable {before middle after : List InterruptCall}

theorem single (advances : ∀ calls owed requested ran, ∃ requested' ran',
    Advances t ⟨h, before ++ calls, owed, requested, ran⟩
      ⟨h', after ++ calls, owed, requested', ran'⟩) : Leads t before after h h' := by
  intro calls owed requested ran
  obtain ⟨requested', ran', hstep⟩ := advances calls owed requested ran
  exact ⟨requested', ran', .single hstep⟩

theorem trans (hl : Leads t before middle h h') (hl' : Leads t middle after h' h'') :
    Leads t before after h h'' := by
  intro calls owed requested ran
  obtain ⟨requested', ran', hrun⟩ := hl calls owed requested ran
  obtain ⟨requested'', ran'', hrun'⟩ := hl' calls owed requested' ran'
  exact ⟨requested'', ran'', hrun.trans hrun'⟩

/-- What is to be done afterwards does not matter. -/
theorem frame (hl : Leads t before after h h') (calls : List InterruptCall) :
    Leads t (before ++ calls) (after ++ calls) h h' := by
  intro others owed requested ran
  rw [List.append_assoc, List.append_assoc]
  exact hl (calls ++ others) owed requested ran

/-- It takes effort to get anywhere. -/
theorem effort_lt (hl : Leads t before after h h') :
    h'.queueEffort + InterruptCall.totalEffort after <
      h.queueEffort + InterruptCall.totalEffort before := by
  obtain ⟨requested, ran, hrun⟩ := hl [] 0 [] []
  rw [List.append_nil, List.append_nil] at hrun
  exact effort_lt_of_transGen hrun

theorem spared (hl : Leads t before after h h') (hq : QueueSpared h)
    (hbefore : ∀ call ∈ before, call.spares) : QueueSpared h' := by
  obtain ⟨requested, ran, hrun⟩ := hl [] 0 [] []
  rw [List.append_nil, List.append_nil] at hrun
  exact (spared_of_transGen hrun ⟨hq, hbefore⟩).1

end Leads

/-- With fuel for the effort, the functions that serve interrupts do what the thread has to do. -/
structure Corresponds (t : ThreadId) (fuel : Nat) : Prop where
  invoke : ∀ h, QueueSpared h → h.queueEffort + InterruptCall.drain.effort ≤ fuel →
    Meets (· = h) (invokeFor t fuel)
      (fun _ h' => Leads t [.drain] [] h h' ∧ h'.isolate.interrupts = []) fun e _ => e.IsFatal
  serve : ∀ h, QueueSpared h → h.queueEffort + InterruptCall.check.effort ≤ fuel →
    Meets (· = h) (serveFor t fuel) (fun _ h' => Leads t [.check] [] h h')
      fun e h' => e.IsFatal ∨ Leads t [.check] [] h h'
  run : ∀ h rest, QueueSpared h → InterruptAction.allSpare rest →
    h.queueEffort + (InterruptCall.actions rest).effort ≤ fuel →
    Meets (· = h) (runFor t fuel rest) (fun _ h' => Leads t [.actions rest] [] h h')
      fun e _ => e.IsFatal
  perform : ∀ h a, QueueSpared h → a.spares → h.queueEffort + 6 * a.weight ≤ fuel →
    Meets (· = h) (performFor t fuel a)
      (fun _ h' => ∀ rest, Leads t [.actions (a :: rest)] [.report, .actions rest] h h')
      fun e _ => e.IsFatal

namespace Corresponds

variable (ih : Corresponds t fuel)
include ih

theorem invoke_succ (hq : QueueSpared h)
    (hfuel : h.queueEffort + InterruptCall.drain.effort ≤ fuel + 1) :
    Meets (· = h) (invokeFor t (fuel + 1))
      (fun _ h' => Leads t [.drain] [] h h' ∧ h'.isolate.interrupts = []) fun e _ => e.IsFatal := by
  rw [invokeFor]
  cases hwaiting : h.isolate.interrupts with
  | nil =>
    have ho : takeCallback.outcome h = (.ok none, h) := by
      rw [takeCallback, outcome_get_bind, hwaiting]
      rfl
    refine meets_bind_ok ho (meets_at ?_)
    exact ⟨.single fun _ _ _ _ => ⟨_, _, .drained hwaiting⟩, hwaiting⟩
  | cons c rest =>
    have ho : takeCallback.outcome h = (.ok (some c), h.withQueue rest) := by
      rw [takeCallback, outcome_get_bind, hwaiting]
      rfl
    refine meets_bind_ok ho ?_
    dsimp only
    have htake : Leads t [.drain] [.actions c, .drain] h (h.withQueue rest) :=
      .single fun _ _ _ _ => ⟨_, _, .take hwaiting⟩
    have hspared : InterruptAction.allSpare c ∧ QueueSpared (h.withQueue rest) := by
      unfold QueueSpared at hq
      rw [hwaiting] at hq
      exact List.forall_mem_cons.mp hq
    have heffort := htake.effort_lt
    simp only [InterruptCall.totalEffort] at heffort
    refine (ih.run _ c hspared.2 hspared.1 (by omega)).bind fun _ => ?_
    refine meets_of_forall fun h' hrun => ?_
    have heffort' := hrun.effort_lt
    simp only [InterruptCall.totalEffort] at heffort'
    have hspared' := hrun.spared hspared.2 (by simpa [InterruptCall.spares] using hspared.1)
    refine (ih.invoke h' hspared' (by omega)).bind fun n => meets_pure fun h'' hdrained => ?_
    exact ⟨(htake.trans (hrun.frame [.drain])).trans hdrained.1, hdrained.2⟩

theorem run_succ (rest : List InterruptAction) (hq : QueueSpared h)
    (hspared : InterruptAction.allSpare rest)
    (hfuel : h.queueEffort + (InterruptCall.actions rest).effort ≤ fuel + 1) :
    Meets (· = h) (runFor t (fuel + 1) rest) (fun _ h' => Leads t [.actions rest] [] h h')
      fun e _ => e.IsFatal := by
  cases rest with
  | nil =>
    rw [runFor]
    exact meets_at (.single fun _ _ _ _ => ⟨_, _, .finish⟩)
  | cons a rest =>
    rw [runFor]
    simp only [InterruptAction.allSpare, Bool.and_eq_true] at hspared
    simp only [InterruptCall.effort, InterruptAction.totalWeight] at hfuel
    refine (ih.perform h a hq hspared.1 (by omega)).bind fun result => ?_
    refine meets_of_forall fun h' hperform => ?_
    let noted : Hosted := { h' with isolate := h'.isolate.emit (.action result) }
    have hnote : (modifyIsolate (·.emit (.action result))).outcome h' = (.ok (), noted) := rfl
    refine meets_bind_ok hnote ?_
    have hreport : Leads t [.report] [] h' noted :=
      .single fun _ _ _ _ => ⟨_, _, .report result⟩
    have hnoted := (hperform rest).trans (hreport.frame [.actions rest])
    have heffort := hnoted.effort_lt
    simp only [InterruptCall.totalEffort, InterruptCall.effort, InterruptAction.totalWeight,
      List.nil_append] at heffort
    have hspared' := hnoted.spared hq
      (by simp [InterruptCall.spares, InterruptAction.allSpare, hspared])
    refine (ih.run noted rest hspared' hspared.2 ?_).weaken (fun _ h => h) (fun _ h'' hrun => ?_)
      fun _ _ h => h
    · simp only [InterruptCall.effort]
      omega
    · exact hnoted.trans hrun

theorem perform_succ (a : InterruptAction) (hq : QueueSpared h) (hspared : a.spares)
    (hfuel : h.queueEffort + 6 * a.weight ≤ fuel + 1) :
    Meets (· = h) (performFor t (fuel + 1) a)
      (fun _ h' => ∀ rest, Leads t [.actions (a :: rest)] [.report, .actions rest] h h')
      fun e _ => e.IsFatal := by
  cases hplain : a.isPlain with
  | true =>
    rw [performFor_plain hplain]
    refine meets_at ?_
    cases ho : (performFor t 1 a).outcome h with
    | mk result h' =>
      cases result with
      | ok result => exact fun rest => .single fun _ _ _ _ => ⟨_, _, .perform hplain ho⟩
      | error e => exact (meets_plain hplain h).error rfl ho
  | false =>
    have hweight := a.weight_pos
    cases a with
    | tearDown => cases hspared
    | request c =>
      rw [performFor]
      refine meets_bind_ok (h.requestInterrupt_outcome c) (meets_at fun rest => ?_)
      have hqueue : Leads t [.actions (.request c :: rest)] [.ask, .report, .actions rest] h
          (h.queued c) := .single fun _ _ _ _ => ⟨_, _, .request⟩
      have hask : Leads t [.ask] [] (h.queued c) ((h.queued c).withFlag .api) :=
        .single fun _ _ _ _ => ⟨_, _, .ask⟩
      exact hqueue.trans (hask.frame [.report, .actions rest])
    | handleInterrupts =>
      have hcheck : ∀ rest, Leads t [.actions (.handleInterrupts :: rest)]
          [.check, .report, .actions rest] h h :=
        fun rest => .single fun _ _ _ _ => ⟨_, _, .handle⟩
      rw [performFor]
      refine meets_resultOf ((ih.serve h hq ?_).weaken (fun _ h => h) (fun _ h' hserve rest => ?_)
        fun e h' hserve e' he rest => ?_)
      · simp only [InterruptCall.effort]
        omega
      · exact (hcheck rest).trans (hserve.frame [.report, .actions rest])
      · subst he
        rcases hserve with ⟨_, hfatal⟩ | hserve
        · cases hfatal
        · exact (hcheck rest).trans (hserve.frame [.report, .actions rest])
    | invokeCallbacks =>
      have hdrain : ∀ rest, Leads t [.actions (.invokeCallbacks :: rest)]
          [.drain, .report, .actions rest] h h :=
        fun rest => .single fun _ _ _ _ => ⟨_, _, .invoke⟩
      rw [performFor]
      refine (ih.invoke h hq ?_).bind fun n => meets_pure fun h' hinvoke rest => ?_
      · simp only [InterruptCall.effort]
        omega
      · exact (hdrain rest).trans (hinvoke.1.frame [.report, .actions rest])
    | _ => cases hplain

end Corresponds

/-- A check that finds no request for termination runs all callbacks, if the flag tells of any. -/
theorem meets_serveFor_unrequested (hr : ¬IsRequested h)
    (hinvoke : Meets (· = h.withoutFlag .api) (invokeFor t fuel)
      (fun _ h' => Leads t [.drain] [] (h.withoutFlag .api) h' ∧ h'.isolate.interrupts = [])
      fun e _ => e.IsFatal) :
    Meets (· = h) (serveFor t (fuel + 1))
      (fun v h' => v = .undefined ∧ Leads t [.check] [] h h' ∧
        (h.isolate.guard.check .api ∨ h.isolate.interrupts = [] → h'.isolate.interrupts = []))
      fun e _ => e.IsFatal := by
  have hpass : Leads t [.check] [.calls] h h := .single fun _ _ _ _ => ⟨_, _, .pass hr⟩
  refine meets_at ?_
  rw [serveFor_unrequested (by simpa [IsRequested] using hr),
    outcome_bind_ok (takeFlag_outcome .api)]
  cases hf : h.isolate.guard.check .api with
  | true =>
    have hfind : Leads t [.calls] [.drain] h (h.withoutFlag .api) :=
      .single fun _ _ _ _ => ⟨_, _, .find hf⟩
    refine (hinvoke.bind fun n => meets_pure fun h' hdrained => ?_) _ rfl
    exact ⟨rfl, (hpass.trans hfind).trans hdrained.1, fun _ => hdrained.2⟩
  | false =>
    have hmiss : Leads t [.calls] [] h h := .single fun _ _ _ _ => ⟨_, _, .miss (by simp [hf])⟩
    rw [withoutFlag_of_clear hf]
    refine ⟨rfl, hpass.trans hmiss, fun hempty => ?_⟩
    simpa using hempty

/-- A check that finds a request for termination is diverted, and leaves callbacks alone. -/
theorem serveTermination_diverts (hr : IsRequested h) {result : Except Failure Value}
    (ho : (serveTermination t).outcome h = (result, h')) (calls : List InterruptCall) (owed : Nat)
    (requested ran : List InterruptCallback) :
    Relation.TransGen (Advances t) ⟨h, .check :: calls, owed, requested, ran⟩
      ⟨h', calls, owed, requested, ran⟩ := by
  rw [serveTermination, outcome_bind_ok (takeFlag_outcome .terminate)] at ho
  exact (Relation.TransGen.single (.divert hr)).tail (.terminate ho)

theorem Corresponds.serve_succ (ih : Corresponds t fuel) (hq : QueueSpared h)
    (hfuel : h.queueEffort + InterruptCall.check.effort ≤ fuel + 1) :
    Meets (· = h) (serveFor t (fuel + 1)) (fun _ h' => Leads t [.check] [] h h')
      fun e h' => e.IsFatal ∨ Leads t [.check] [] h h' := by
  by_cases hr : IsRequested h
  · refine meets_at ?_
    rw [serveFor_requested hr]
    cases ho : (serveTermination t).outcome h with
    | mk result h' =>
      have hleads : Leads t [.check] [] h h' := fun calls owed requested ran =>
        ⟨requested, ran, serveTermination_diverts hr ho calls owed requested ran⟩
      cases result with
      | ok v => exact hleads
      | error e => exact .inr hleads
  · have heffort := queueEffort_eq (interrupts_withoutFlag h .api)
    simp only [InterruptCall.effort] at hfuel
    have hinvoke := ih.invoke (h.withoutFlag .api) hq (by simp only [InterruptCall.effort]; omega)
    exact (meets_serveFor_unrequested hr hinvoke).weaken (fun _ h => h) (fun _ _ h => h.2.1)
      fun _ _ h => .inl h

theorem corresponds (t : ThreadId) (fuel : Nat) : Corresponds t fuel := by
  induction fuel with
  | zero =>
    refine ⟨fun h _ hfuel => ?_, fun h _ hfuel => ?_, fun h rest _ _ hfuel => ?_,
      fun h a _ _ hfuel => ?_⟩
    · simp [InterruptCall.effort] at hfuel
    · simp [InterruptCall.effort] at hfuel
    · simp [InterruptCall.effort] at hfuel
    · have hweight := a.weight_pos
      omega
  | succ fuel ih =>
    exact ⟨fun h => ih.invoke_succ, fun h => ih.serve_succ, fun h rest => ih.run_succ rest,
      fun h a => ih.perform_succ a⟩

/-- The fuel of an operation is enough. -/
theorem effort_le_interruptBound (h : Hosted) :
    h.queueEffort + InterruptCall.check.effort ≤ interruptBound h.isolate.interrupts := by
  unfold queueEffort interruptBound
  simp only [InterruptCall.effort]
  omega

theorem meets_handleInterrupts (hq : QueueSpared h) (hr : ¬IsRequested h) :
    Meets (· = h) (handleInterrupts t)
      (fun v h' => v = .undefined ∧ Leads t [.check] [] h h' ∧
        (h.isolate.guard.check .api ∨ h.isolate.interrupts = [] → h'.isolate.interrupts = []))
      fun e _ => e.IsFatal := by
  have hbound := effort_le_interruptBound h
  have heffort := queueEffort_eq (interrupts_withoutFlag h .api)
  refine meets_get_bind_at ?_
  unfold interruptBound at hbound ⊢
  refine meets_serveFor_unrequested hr ((corresponds t _).invoke (h.withoutFlag .api) hq ?_)
  simp only [InterruptCall.effort] at hbound ⊢
  omega

theorem meets_invokeCallbacks (hq : QueueSpared h) :
    Meets (· = h) (invokeCallbacks t)
      (fun _ h' => Leads t [.drain] [] h h' ∧ h'.isolate.interrupts = []) fun e _ => e.IsFatal := by
  have hbound := effort_le_interruptBound h
  refine meets_get_bind_at ((corresponds t _).invoke h hq ?_)
  simp only [InterruptCall.effort] at hbound ⊢
  omega

variable {s : InterruptService}

/-- An operation of the isolate's thread begins with a call. -/
theorem run_of_begins {s' : InterruptService} {call : InterruptCall}
    (begins : Step t s { s with calls := [call] })
    (own : Relation.TransGen (Advances t) { s with calls := [call] } s') : Run t s s' :=
  Relation.ReflTransGen.head begins
    (Relation.ReflTransGen.mono (fun _ _ => Step.own) _ _ own.to_reflTransGen)

theorem begins_check (idle : s.calls = []) : Step t s { s with calls := [.check] } := by
  obtain ⟨host, calls, owed, requested, ran⟩ := s
  cases idle
  exact .handle

theorem begins_drain (idle : s.calls = []) : Step t s { s with calls := [.drain] } := by
  obtain ⟨host, calls, owed, requested, ran⟩ := s
  cases idle
  exact .invoke

/-- All callbacks have been run: those that waited, and those that were requested meanwhile. -/
def RanAll (t : ThreadId) (s : InterruptService) (h' : Hosted) : Prop :=
  ∃ requested, s.requested <+: requested ∧ h'.isolate.interrupts = [] ∧
    Run t s ⟨h', [], s.owed, requested, requested⟩

theorem ranAll_of_leads {call : InterruptCall} (ho : s.Ordered)
    (begins : Step t s { s with calls := [call] }) (hl : Leads t [call] [] s.host h')
    (empty : h'.isolate.interrupts = []) : s.RanAll t h' := by
  obtain ⟨requested, ran, hown⟩ := hl [] s.owed s.requested s.ran
  have hrun : Run t s ⟨h', [], s.owed, requested, ran⟩ := run_of_begins begins hown
  have hran : ran = requested := (hrun.ordered ho).ran_of_empty empty
  exact ⟨requested, hrun.requested, empty, hran ▸ hrun⟩

theorem requestInterrupt_run {c : InterruptCallback} (spares : InterruptAction.allSpare c) :
    Run t s { s with
      host := ((requestInterrupt c).outcome s.host).2
      requested := s.requested ++ [c] } :=
  (Relation.ReflTransGen.single (.queue c spares)).tail .ask

theorem requestTermination_run :
    Run t s { s with host := ((modifyIsolate (·.requestTermination)).outcome s.host).2 } :=
  .single (.elsewhere ⟨rfl, rfl⟩)

/-- A check that is diverted leaves the callbacks and their flag as they were. -/
theorem handleInterrupts_diverted (hr : IsRequested s.host) {result : Except Failure Value}
    (ho : (handleInterrupts t).outcome s.host = (result, h')) :
    h'.isolate.interrupts = s.queue ∧ h'.isolate.guard.check .api = s.isAsked ∧
      (result = .ok .raised ∨ ∃ e, result = .error (.refused e)) := by
  rw [handleInterrupts_requested hr, serveTermination,
    outcome_bind_ok (takeFlag_outcome .terminate)] at ho
  have hleaves : keepingCallbacks.rel (s.host.withoutFlag .terminate) h' :=
    terminate_keepsCallbacks ho
  exact ⟨hleaves.1, hleaves.2, terminate_result ho⟩

theorem handleInterrupts_diverted_run (idle : s.calls = []) (hr : IsRequested s.host)
    {result : Except Failure Value} (ho : (handleInterrupts t).outcome s.host = (result, h')) :
    Run t s { s with host := h', calls := [] } := by
  rw [handleInterrupts_requested hr] at ho
  exact run_of_begins (begins_check idle)
    (serveTermination_diverts hr ho [] s.owed s.requested s.ran)

theorem handleInterrupts_runs_all (ho : s.Ordered) (hs : s.Spared) (idle : s.calls = [])
    (asked : s.queue ≠ [] → s.isAsked) (hr : ¬IsRequested s.host) {result : Except Failure Value}
    (outcome : (handleInterrupts t).outcome s.host = (result, h')) :
    (∃ e, result = .error (.fatal e)) ∨ result = .ok .undefined ∧ s.RanAll t h' := by
  have hmeets := meets_handleInterrupts (t := t) hs.1 hr
  cases result with
  | error e =>
    obtain ⟨e, rfl⟩ := hmeets.error rfl outcome
    exact .inl ⟨e, rfl⟩
  | ok v =>
    obtain ⟨rfl, hleads, hempty⟩ := hmeets.ok rfl outcome
    have hdone : h'.isolate.interrupts = [] := by
      refine hempty ?_
      by_cases hq : s.queue = []
      · exact .inr hq
      · exact .inl (asked hq)
    exact .inr ⟨rfl, ranAll_of_leads ho (begins_check idle) hleads hdone⟩

theorem invokeCallbacks_runs_all (ho : s.Ordered) (hs : s.Spared) (idle : s.calls = [])
    {result : Except Failure Nat} (outcome : (invokeCallbacks t).outcome s.host = (result, h')) :
    (∃ e, result = .error (.fatal e)) ∨ (∃ n, result = .ok n) ∧ s.RanAll t h' := by
  have hmeets := meets_invokeCallbacks (t := t) hs.1
  cases result with
  | error e =>
    obtain ⟨e, rfl⟩ := hmeets.error rfl outcome
    exact .inl ⟨e, rfl⟩
  | ok n =>
    obtain ⟨hleads, hempty⟩ := hmeets.ok rfl outcome
    exact .inr ⟨⟨n, rfl⟩, ranAll_of_leads ho (begins_drain idle) hleads hempty⟩

/-- What can be relied on whatever the threads have done, in whatever order their steps came. -/
structure Reliable (t : ThreadId) (s : InterruptService) : Prop where
  /-- The callbacks that were begun and then those that wait are the ones that were requested: each
  one runs at most once, and they run in the order in which they were queued. -/
  in_order : s.ran ++ s.queue = s.requested
  /-- A thread that serves interrupts gets on, unless what comes next is fatal. -/
  goes_on : s.calls ≠ [] → (∃ s', Advances t s s') ∨ s.Dies t
  nearer : ∀ s', Advances t s s' → s'.effort < s.effort
  /-- Whoever runs callbacks comes back when all that were requested by then have been run. -/
  drained : ∀ s', .drain ∈ s.calls → Run t s s' → s'.calls = [] → s.requested <+: s'.ran
  /-- A check that is diverted leaves the callbacks and their flag alone, at each of its steps. -/
  diverts : ∀ s', Advances t s s' →
    s.calls.head? = some .check ∨ s.calls.head? = some .terminate →
    s'.queue = s.queue ∧ s'.isAsked = s.isAsked
  /-- Undisturbed, it comes back at once with the termination raised or refused. -/
  diverted : ∀ result h', IsRequested s.host →
    (handleInterrupts t).outcome s.host = (result, h') →
    h'.isolate.interrupts = s.queue ∧ h'.isolate.guard.check .api = s.isAsked ∧
      (result = .ok .raised ∨ ∃ e, result = .error (.refused e))
  /-- Between operations, callbacks wait only if the flag tells of them. -/
  asked : s.calls = [] → s.owed = 0 → s.queue ≠ [] → s.isAsked
  /-- A check that goes past the request for termination runs all of them. -/
  served : s.calls = [] → s.owed = 0 → ∀ s' s'', Run t s s' → s'.calls = [.calls] →
    Run t s' s'' → s''.calls = [] → s.requested <+: s''.ran
  /-- Undisturbed, it comes back with all callbacks run. -/
  handles : s.calls = [] → s.owed = 0 → ∀ result h', ¬IsRequested s.host →
    (handleInterrupts t).outcome s.host = (result, h') →
    (∃ e, result = .error (.fatal e)) ∨ result = .ok .undefined ∧ s.RanAll t h'
  invokes : s.calls = [] → ∀ result h', (invokeCallbacks t).outcome s.host = (result, h') →
    (∃ e, result = .error (.fatal e)) ∨ (∃ n, result = .ok n) ∧ s.RanAll t h'
  /-- The other operations lead to states of which the same holds. -/
  diverted_run : s.calls = [] → ∀ result h', IsRequested s.host →
    (handleInterrupts t).outcome s.host = (result, h') → Run t s { s with host := h', calls := [] }
  request_run : ∀ c, InterruptAction.allSpare c →
    Run t s { s with
      host := ((requestInterrupt c).outcome s.host).2
      requested := s.requested ++ [c] }
  termination_run :
    Run t s { s with host := ((modifyIsolate (·.requestTermination)).outcome s.host).2 }

/-- Interrupt callbacks run once and in order, and none is forgotten. -/
theorem callbacks_once_in_order (fresh : h.isolate.interrupts = [])
    (run : Run t { host := h } s) : s.Reliable t := by
  have hordered : s.Ordered := run.ordered fresh
  have hawake : s.Awake := run.awake fun hwaiting => absurd fresh hwaiting
  have hspared : s.Spared := run.spared ⟨by simp [queue, fresh], List.forall_mem_nil _⟩
  have hasked : s.calls = [] → s.owed = 0 → s.queue ≠ [] → s.isAsked := by
    intro idle settled hwaiting
    have hflag := hawake hwaiting
    simpa [idle, settled] using hflag
  exact
    { in_order := hordered
      goes_on := hspared.goes_on
      nearer := fun s' => Advances.effort_lt
      drained := fun s' drain rest idle => rest.drained hordered drain idle
      diverts := fun s' => Advances.diverts
      diverted := fun result h' hr ho => handleInterrupts_diverted hr ho
      asked := hasked
      served := fun idle settled s' s'' run' check rest idle' =>
        run'.served hordered hawake idle settled check rest idle'
      handles := fun idle settled result h' hr ho =>
        handleInterrupts_runs_all hordered hspared idle (hasked idle settled) hr ho
      invokes := fun idle result h' ho => invokeCallbacks_runs_all hordered hspared idle ho
      diverted_run := fun idle result h' hr ho => handleInterrupts_diverted_run idle hr ho
      request_run := fun c => requestInterrupt_run
      termination_run := requestTermination_run }

/-- A callback that requests another one and the end of the execution, and checks for both. -/
def nestedRequest : InterruptCallback :=
  [.request [.note (.int 3)], .requestTermination, .handleInterrupts]

/-- Two threads have queued callbacks before either of them has set the flag. -/
def twoRequests : InterruptService where
  host := (((SlotOperation.withNewThread.queued nestedRequest).queued
    [.note (.int 2)]).withFlag .api).withFlag .api
  requested := [nestedRequest, [.note (.int 2)]]

/-- The check within the first callback is diverted, and the check outside runs the rest. -/
theorem callbacks_once_in_order_nested : ∃ h' requested,
    (handleInterrupts "main").outcome twoRequests.host = (.ok .undefined, h') ∧
    twoRequests.requested <+: requested ∧ h'.isolate.interrupts = [] ∧
    Run "main" { host := SlotOperation.withNewThread } ⟨h', [], 0, requested, requested⟩ := by
  have hrun : Run "main" { host := SlotOperation.withNewThread } twoRequests := by
    have hqueued : Run "main" { host := SlotOperation.withNewThread }
        ⟨(SlotOperation.withNewThread.queued nestedRequest).queued [.note (.int 2)], [], 2,
          twoRequests.requested, []⟩ :=
      (Relation.ReflTransGen.single (.queue nestedRequest rfl)).tail (.queue [.note (.int 2)] rfl)
    exact (hqueued.tail .ask).tail .ask
  have hreliable := callbacks_once_in_order rfl hrun
  have hreturns : ((handleInterrupts "main").outcome twoRequests.host).1 = .ok .undefined := rfl
  have hclear : ¬IsRequested twoRequests.host := Bool.false_ne_true
  rcases hreliable.handles rfl rfl _ ((handleInterrupts "main").outcome twoRequests.host).2 hclear
    (Prod.ext hreturns rfl) with ⟨e, hfatal⟩ | ⟨-, hall⟩
  · cases hfatal
  · obtain ⟨requested, hprefix, hempty, hrest⟩ := hall
    exact ⟨_, requested, Prod.ext hreturns rfl, hprefix, hempty, hrun.trans hrest⟩

end InterruptService

end ScriptEngine

import ScriptEngine.Proofs.RecordedMessages

namespace ScriptEngine

/-- What a listener tells of a message. -/
def Listener.heard (m : Message) : Listener → Event
  | .full tag _ => .message tag m
  | .brief tag => .briefMessage tag m

namespace ThreadState

variable {s s' : ThreadState} {e v : Value} {r : Bool}

/-- Who gets the exception first lets listeners hear of it. -/
def LetsHear (s : ThreadState) (e : Value) : Prop :=
  s.handlerType e = .none ∨
    s.handlerType e = .external ∧ ∃ scope, s.topTryCatch = some scope ∧ scope.isVerbose = true

/-- A message that listeners are to hear of. -/
def IsDue (heap : Heap) (s : ThreadState) (m : Message) : Prop :=
  ∃ e v, s.pending = some e ∧ e.isCatchable = true ∧ s.message = some v ∧
    heap.message? v = some m ∧ s.LetsHear e

/-- No managed handler keeps the message of a pending exception for later. -/
def IsTakenBy (r : Bool) (s : ThreadState) : Prop :=
  r = true ∧ ∃ e, s.pending = some e ∧ s.handlerType e ≠ .managed

theorem LetsHear.ne_managed (h : s.LetsHear e) : s.handlerType e ≠ .managed := by
  rcases h with h | ⟨h, -⟩
  · simp [h]
  · simp [h]

theorem IsDue.isTaken {heap : Heap} {m : Message} (h : s.IsDue heap m) : s.IsTakenBy true := by
  obtain ⟨e, v, hp, -, -, -, hears⟩ := h
  exact ⟨rfl, e, hp, hears.ne_managed⟩

theorem propagate_done (hp : s.pending = some e) (handler : HandlerType) :
    (s.propagate handler).1 = (handler != .managed) := by
  unfold propagate
  rw [hp]
  cases handler with
  | managed => rfl
  | none => rfl
  | external =>
    dsimp only
    split <;> rfl

/-- Scopes keep what they want when they get an exception. -/
theorem propagate_isVerbose (hp : s.pending = some e) (handler : HandlerType) :
    (s.propagate handler).2.topTryCatch.any (·.isVerbose) =
      s.topTryCatch.any (·.isVerbose) := by
  by_cases hh : handler = .external
  · subst hh
    cases hc : e.isCatchable with
    | true =>
      rw [propagate_external hp hc, modifyTop_topTryCatch, Option.any_map]
      rfl
    | false =>
      rw [propagate_uncatchable hp hc, modifyTop_topTryCatch, Option.any_map]
      rfl
  · rw [propagate_elsewhere hp hh]
    rfl

theorem letsHear_iff : s.LetsHear e ↔ s.handlerType e ≠ .managed ∧
    (s.handlerType e != .external || s.topTryCatch.any (·.isVerbose)) = true := by
  unfold LetsHear
  cases s.handlerType e with
  | managed => simp
  | none => simp
  | external => simp [Option.any_eq_true]

open Isolate (takeDueMessage)

theorem takeDueMessage_of_taken (h : s.IsTakenBy r) : (takeDueMessage s r).2.message = none := by
  obtain ⟨rfl, e, hp, hh⟩ := h
  simp [takeDueMessage, hp, propagate_done hp, hh]

theorem takeDueMessage_of_not_taken (h : ¬s.IsTakenBy r) :
    takeDueMessage s r = (none, (takeDueMessage s r).2) ∧
      (takeDueMessage s r).2.message = s.message := by
  cases hp : s.pending with
  | none => simp [takeDueMessage, hp]
  | some e =>
    have hkept : ((s.propagate (s.handlerType e)).1 && r) = false := by
      rw [propagate_done hp, Bool.and_eq_false_iff]
      by_cases hr : r = true
      · have hh : s.handlerType e = .managed :=
          Decidable.byContradiction fun hh => h ⟨hr, e, hp, hh⟩
        exact .inl (by simp [hh])
      · exact .inr (by simpa using hr)
    simp only [takeDueMessage, hp, hkept, Bool.false_eq_true, if_false, true_and]
    exact Isolate.propagate_message _

/-- A managed handler that keeps the message keeps it from the next report too. -/
theorem not_isTaken_again (h : ¬s.IsTakenBy r) : ¬(takeDueMessage s r).2.IsTakenBy r := by
  rintro ⟨rfl, e, hp', hh'⟩
  cases hp : s.pending with
  | none => simp [takeDueMessage, hp] at hp'
  | some e' =>
    have hh : s.handlerType e' = .managed :=
      Decidable.byContradiction fun hh => h ⟨rfl, e', hp, hh⟩
    have hsame : (takeDueMessage s true).2 = { s with externalCaught := false } := by
      have hhanded : (s.propagate .managed).2 = { s with externalCaught := false } :=
        propagate_elsewhere hp (by decide)
      simp [takeDueMessage, hp, hh, propagate_done hp, hhanded]
    rw [hsame] at hp' hh'
    cases hp.symm.trans hp'
    exact hh' hh

theorem takeDueMessage_eq_some : (takeDueMessage s r).1 = some v ↔
    r = true ∧ ∃ e, s.pending = some e ∧ e.isCatchable = true ∧ s.message = some v ∧
      s.LetsHear e := by
  constructor
  · intro h
    obtain ⟨e, hp, hc, hm⟩ := Isolate.takeDueMessage_due h
    have htaken : s.IsTakenBy r := by
      apply Classical.byContradiction
      intro hn
      rw [(takeDueMessage_of_not_taken hn).1] at h
      cases h
    obtain ⟨rfl, e', hp', hh⟩ := htaken
    cases hp.symm.trans hp'
    refine ⟨rfl, e, hp, hc, hm, letsHear_iff.2 ⟨hh, ?_⟩⟩
    apply Decidable.byContradiction
    intro hdue
    simp [takeDueMessage, hp, propagate_done hp, hh, hc, propagate_isVerbose hp, hdue] at h
  · rintro ⟨rfl, e, hp, hc, hm, hears⟩
    obtain ⟨hh, hdue⟩ := letsHear_iff.1 hears
    simp [takeDueMessage, hp, propagate_done hp, hh, hc, propagate_isVerbose hp, hdue,
      Isolate.propagate_message, hm]

theorem takeDueMessage_pending : (takeDueMessage s r).2.pending = s.pending := by
  unfold takeDueMessage
  split
  · rfl
  · dsimp only
    split
    · exact (propagate_slots _).1
    · exact (propagate_slots _).1

end ThreadState

namespace Isolate

open ScriptEngine.Action ThreadState

variable {i i' : Isolate} {t : ThreadId} {data : ThreadData} {r : Bool}

/-- No message is pending on the thread, if it is attached. -/
def Unset (t : ThreadId) (i : Isolate) : Prop :=
  ∀ data, i.thread? t = some data → data.top.message = none

/-- Every listener hears of the message once, in the order in which they were added. Listeners
that others add meanwhile do not. -/
theorem notifyAll_events (m : Message) (i : Isolate) :
    (notifyAll m i).events = i.events ++ i.listeners.map (·.heard m) := by
  have hnotify : ∀ (i : Isolate) (l : Listener),
      (notify m i l).events = i.events ++ [l.heard m] := by
    intro i l
    unfold notify
    split <;> rfl
  unfold notifyAll
  generalize i.listeners = listeners
  induction listeners generalizing i with
  | nil => simp
  | cons l listeners ih =>
    rw [List.foldl_cons, ih, hnotify, List.map_cons, List.append_assoc, List.singleton_append]

/-- What a report does: listeners hear of a message that is due and of nothing else, and the
message is taken by all but managed handlers. -/
structure Reported (t : ThreadId) (r : Bool) (i : Isolate) (data : ThreadData) (i' : Isolate) :
    Prop where
  delivers {m : Message} (hr : r = true) (due : data.top.IsDue i.heap m) :
    i'.events = i.events ++ i.listeners.map (·.heard m)
  quiet (h : r = true → ∀ m, ¬data.top.IsDue i.heap m) :
    i'.events = i.events ∧ i'.listeners = i.listeners
  thread : ∃ top, i'.thread? t = some { data with top := top } ∧
    top.pending = data.top.pending ∧
    (data.top.IsTakenBy r → top.message = none) ∧
    (¬data.top.IsTakenBy r → top.message = data.top.message)

theorem thread?_report (hd : i.thread? t = some data) :
    ((Isolate.report t r).outcome i).2.thread? t =
      some { data with top := (takeDueMessage data.top r).2 } := by
  have hthread := thread?_setTop (takeDueMessage data.top r).2 hd
  rw [report_outcome r hd]
  cases (takeDueMessage data.top r).1.bind i.heap.message? with
  | none => exact hthread
  | some m =>
    obtain ⟨listeners, events, hm⟩ := notifyAll_eq m (i.setTop t (takeDueMessage data.top r).2)
    dsimp only
    rw [hm]
    exact hthread

theorem report_reported (hd : i.thread? t = some data) :
    ∃ i', (Isolate.report t r).outcome i = (.ok (), i') ∧ Reported t r i data i' := by
  have hthread := thread?_report (r := r) hd
  rw [report_outcome r hd] at hthread
  refine ⟨_, report_outcome r hd, ?_⟩
  have hdue : ∀ m, (takeDueMessage data.top r).1.bind i.heap.message? = some m ↔
      r = true ∧ data.top.IsDue i.heap m := by
    intro m
    rw [Option.bind_eq_some_iff]
    constructor
    · rintro ⟨v, hv, hm⟩
      obtain ⟨hr, e, hp, hc, hmessage, hears⟩ := takeDueMessage_eq_some.1 hv
      exact ⟨hr, e, v, hp, hc, hmessage, hm, hears⟩
    · rintro ⟨hr, e, v, hp, hc, hmessage, hm, hears⟩
      exact ⟨v, takeDueMessage_eq_some.2 ⟨hr, e, hp, hc, hmessage, hears⟩, hm⟩
  constructor
  · intro m hr due
    rw [(hdue m).2 ⟨hr, due⟩]
    exact notifyAll_events m _
  · intro hquiet
    have hnone : (takeDueMessage data.top r).1.bind i.heap.message? = none := by
      apply Option.eq_none_iff_forall_ne_some.2
      intro m hm
      obtain ⟨hr, due⟩ := (hdue m).1 hm
      exact hquiet hr m due
    rw [hnone]
    exact ⟨rfl, rfl⟩
  · exact ⟨(takeDueMessage data.top r).2, hthread, takeDueMessage_pending, takeDueMessage_of_taken,
      fun h => (takeDueMessage_of_not_taken h).2⟩

/-- Without a message there is nothing to deliver. -/
theorem report_unset (hu : Unset t i) : ((Isolate.report t r).outcome i).2.events = i.events := by
  cases hd : i.thread? t with
  | none =>
    unfold Isolate.report onTop
    rw [outcome_bind, outcome_bind, outcome_top, hd]
  | some data =>
    obtain ⟨i', ho, reported⟩ := report_reported (r := r) hd
    rw [ho]
    refine (reported.quiet ?_).1
    rintro - m ⟨e, v, -, -, hmessage, -⟩
    rw [hu data hd] at hmessage
    cases hmessage

/-- Right behind a report the slot is empty, or the same handler keeps it. -/
theorem report_again (hd : i.thread? t = some data)
    (ho : (Isolate.report t r).outcome i = (.ok (), i')) :
    ((Isolate.report t r).outcome i').2.events = i'.events := by
  have hd' : i'.thread? t = some { data with top := (takeDueMessage data.top r).2 } := by
    rw [← thread?_report hd, ho]
  by_cases htaken : data.top.IsTakenBy r
  · apply report_unset
    intro data' hfound
    cases hd'.symm.trans hfound
    exact takeDueMessage_of_taken htaken
  · obtain ⟨i'', ho', reported⟩ := report_reported (r := r) hd'
    rw [ho']
    refine (reported.quiet ?_).1
    rintro rfl m due
    exact not_isTaken_again htaken due.isTaken

end Isolate

namespace ThreadState

variable {s s' : ThreadState} {e : Value} {r : Bool}

open Isolate (takeDueMessage)

/-- The message stays, or is dropped. -/
def SetsNoMessage (s s' : ThreadState) : Prop := s'.message = s.message ∨ s'.message = none

theorem setsNoMessage_setPending (h : s.setPending e = .ok s') : SetsNoMessage s s' := by
  unfold setPending at h
  split at h
  · cases h
  · cases h
    exact .inl rfl

theorem setsNoMessage_setScheduled (h : s.setScheduled e = .ok s') : SetsNoMessage s s' := by
  unfold setScheduled at h
  split at h
  · cases h
  · cases h
    exact .inl rfl

theorem setsNoMessage_schedulePending (h : s.schedulePending = .ok s') : SetsNoMessage s s' := by
  unfold schedulePending at h
  split at h
  · cases h
  · cases h
    exact .inl rfl

theorem setsNoMessage_cancelScheduled {id : TryCatchId} (h : s.cancelScheduled id = .ok s') :
    SetsNoMessage s s' := by
  have hdropped : ∀ (c : Prop) [Decidable c] (top : ThreadState), top.message = s.message →
      SetsNoMessage s (if c then { top with message := none } else top) := by
    intro c _ top htop
    split
    · exact .inr rfl
    · exact .inl htop
  unfold cancelScheduled at h
  split at h
  · cases h
  · cases h
    apply hdropped
    split
    · rfl
    · split <;> rfl
    · split <;> rfl

theorem setsNoMessage_cancelTermination : SetsNoMessage s s.cancelTermination := by
  left
  unfold cancelTermination
  dsimp only
  split
  · split
    · exact modifyTop_message _
    · exact modifyTop_message _
  · split
    · exact modifyTop_message _
    · exact modifyTop_message _

theorem setsNoMessage_unregisterTryCatch {id : TryCatchId}
    (h : (s.unregisterTryCatch id).map (·.2) = .ok s') : SetsNoMessage s s' := by
  unfold unregisterTryCatch at h
  split at h
  · cases h
  · split at h
    · cases h
      exact .inl rfl
    · split at h <;> cases h

theorem setsNoMessage_pushFrame (spec : FrameSpec) : SetsNoMessage s (s.pushFrame spec).2 := by
  unfold pushFrame
  dsimp only
  split
  · exact .inl rfl
  · exact .inl rfl

theorem setsNoMessage_popFrame : SetsNoMessage s s.popFrame.2 := by
  unfold popFrame
  split
  · exact .inl rfl
  · exact .inl rfl

theorem setsNoMessage_takeDueMessage : SetsNoMessage s (takeDueMessage s r).2 := by
  by_cases h : s.IsTakenBy r
  · exact .inr (takeDueMessage_of_taken h)
  · exact .inl (takeDueMessage_of_not_taken h).2

end ThreadState

namespace Isolate

open ScriptEngine.Action ThreadState

variable {i : Isolate} {s t : ThreadId} {data : ThreadData} {r : Bool} {α : Type}

/-- A thread without a message gets none. -/
def sparing (t : ThreadId) : Evolution Isolate :=
  threadwise fun t' => {
    rel := fun s s' => t' = t → s.message = none → s'.message = none
    refl := fun _ _ h => h
    trans := fun h h' ht hs => h' ht (h ht hs) }

theorem Unset.of_sparing {i' : Isolate} (hu : Unset t i) (h : (sparing t).rel i i') :
    Unset t i' := by
  intro data' hd'
  obtain ⟨data, hd, hrel⟩ := h t data' hd'
  exact hrel rfl (hu data hd)

/-- Whatever is done to other threads. -/
theorem sparing_other {top top' : ThreadState} (ht : s ≠ t) :
    s = t → top.message = none → top'.message = none :=
  fun h => absurd h ht

theorem SetsNoMessage.spares {top top' : ThreadState} (h : SetsNoMessage top top') :
    s = t → top.message = none → top'.message = none := by
  intro _ hnone
  rcases h with h | h
  · exact h.trans hnone
  · exact h

theorem sparing_onTop {f : ThreadState → α × ThreadState}
    (h : ∀ top, SetsNoMessage top (f top).2) : Evolves (sparing t) (onTop s f) :=
  evolves_onTop fun top => SetsNoMessage.spares (h top)

theorem sparing_tryOnTop {f : ThreadState → Except IsolateError ThreadState}
    (h : ∀ top top', f top = .ok top' → SetsNoMessage top top') :
    Evolves (sparing t) (tryOnTop s f) :=
  evolves_tryOnTop fun top top' htop => SetsNoMessage.spares (h top top' htop)

theorem sparing_raise_other (exception : Value) (location : Option Location) (ht : s ≠ t) :
    Evolves (sparing t) (raise s exception location) :=
  evolves_raise (fun _ => sparing_other ht) (fun _ _ => sparing_other ht)
    fun _ _ _ => sparing_other ht

/-- A termination comes without a message. -/
theorem sparing_terminate : Evolves (sparing t) (terminate s) := by
  intro i
  unfold terminate
  cases hd : i.thread? s with
  | none =>
    rw [raise_unattached _ none hd]
    exact (sparing t).refl i
  | some data =>
    cases hs : data.top.scheduled with
    | some scheduled =>
      rw [raise_refused _ none hd (by rw [hs]; rfl)]
      exact (sparing t).refl i
    | none =>
      rw [raise_uncatchable _ none rfl hd hs]
      exact threadwise_setTop_of hd (SetsNoMessage.spares (.inl rfl))

theorem sparing_reschedule (clear : Bool) : Evolves (sparing t) (reschedule s clear) := by
  intro i
  rcases reschedule_state s clear i with hsame | ⟨data, exception, hd, -, hset⟩
  · rw [hsame]
    exact (sparing t).refl i
  have hhanded : (data.top.propagate (data.top.handlerType exception)).2.message =
      data.top.message := propagate_message _
  rcases hset with hset | ⟨cleared, hset⟩
  · rw [hset]
    exact threadwise_setTop_of hd (SetsNoMessage.spares (.inl hhanded))
  · rw [hset]
    apply threadwise_setTop_of hd
    cases cleared with
    | true => exact SetsNoMessage.spares (.inl hhanded)
    | false => exact SetsNoMessage.spares (.inl hhanded)

theorem sparing_cancelTermination : Evolves (sparing t) (Isolate.cancelTermination s) :=
  evolves_cancelTermination fun _ => SetsNoMessage.spares setsNoMessage_cancelTermination

end Isolate

namespace SlotOperation

open ScriptEngine.Action Hosted Isolate ThreadState

variable {h : Hosted} {s t : ThreadId} {op : SlotOperation} {i : Isolate} {data : ThreadData}

/-- Done on the thread `s`, the operation sets no message of the thread `t`. Throws do that, and
callbacks may throw. -/
def Spares (t s : ThreadId) : SlotOperation → Prop
  | raise _ _ | rethrowWithMessage _ _ | scheduleThrow _ | handleInterrupts => s ≠ t
  | elsewhere f _ => ∀ h, Unset t h.isolate → Unset t (f h).isolate
  | _ => True

theorem unset_step (hu : Unset t h.isolate) (hop : op.Spares t s) :
    Unset t (op.step s h).isolate := by
  have hisolate : ∀ {α : Type} {act : Action Isolate α}, Evolves (sparing t) act →
      Unset t ((onIsolate act).outcome h).2.isolate :=
    fun hact => hu.of_sparing (evolves_onIsolate hact h)
  cases op with
  | setPending v => exact hisolate (sparing_tryOnTop fun _ _ => setsNoMessage_setPending)
  | clearPending => exact hisolate (sparing_onTop fun _ => .inl rfl)
  | setScheduled v => exact hisolate (sparing_tryOnTop fun _ _ => setsNoMessage_setScheduled)
  | clearScheduled => exact hisolate (sparing_onTop fun _ => .inl rfl)
  | schedulePending => exact hisolate (sparing_tryOnTop fun _ _ => setsNoMessage_schedulePending)
  | raise v location => exact hisolate (sparing_raise_other v location hop)
  | rethrow v =>
    exact hisolate (evolves_rethrow fun _ _ htop =>
      SetsNoMessage.spares (setsNoMessage_setPending htop))
  | rethrowWithMessage v m =>
    exact hisolate (evolves_rethrowWithMessage fun _ _ _ => sparing_other hop)
  | scheduleThrow v =>
    exact hisolate ((sparing_raise_other v none hop).bind fun _ =>
      evolves_tryOnTop fun _ _ _ => sparing_other hop)
  | promote =>
    exact hisolate (evolves_promote (fun _ => SetsNoMessage.spares (.inl rfl))
      fun _ _ _ htop => SetsNoMessage.spares (setsNoMessage_setPending htop))
  | cancelScheduled id =>
    exact hisolate (sparing_tryOnTop fun _ _ => setsNoMessage_cancelScheduled)
  | reschedule clear => exact hisolate (sparing_reschedule clear)
  | propagate =>
    exact hisolate (evolves_propagate fun _ handler =>
      SetsNoMessage.spares (.inl (propagate_message handler)))
  | report r =>
    exact hisolate (evolves_report fun _ => SetsNoMessage.spares setsNoMessage_takeDueMessage)
  | unwind =>
    exact hisolate (evolves_unwind fun _ _ hrun => SetsNoMessage.spares (.inl hrun.message))
  | terminate => exact hisolate sparing_terminate
  | handleInterrupts =>
    exact hu.of_sparing (evolves_handleInterrupts (fun v => sparing_raise_other v none hop)
      sparing_cancelTermination h)
  | cancelTermination => exact hisolate sparing_cancelTermination
  | registerTryCatch scope => exact hisolate (sparing_onTop fun _ => .inl rfl)
  | unregisterTryCatch id =>
    exact hisolate (sparing_tryOnTop fun _ _ => setsNoMessage_unregisterTryCatch)
  | pushFrame spec => exact hisolate (sparing_onTop fun _ => setsNoMessage_pushFrame spec)
  | popFrame => exact hisolate (sparing_onTop fun _ => setsNoMessage_popFrame)
  | reset => exact hisolate (sparing_onTop fun _ => .inr rfl)
  | elsewhere f _ => exact hop h hu

theorem unset_run (hu : Unset t h.isolate) {ops : List (ThreadId × SlotOperation)}
    (hops : ∀ p ∈ ops, p.2.Spares t p.1) : Unset t (run h ops).isolate := by
  induction ops generalizing h with
  | nil => exact hu
  | cons p ops ih =>
    rw [List.forall_mem_cons] at hops
    exact ih (unset_step hu hops.1) hops.2

/-- A message is delivered once, and only when it is due. Once the slot is empty, no report
delivers anything before another message is set; and one that comes right behind another delivers
nothing in any case. -/
theorem report_at_most_once (hd : i.thread? t = some data) (r : Bool) :
    ∃ i', (Isolate.report t r).outcome i = (.ok (), i') ∧ Reported t r i data i' ∧
      (Unset t i' → ∀ platform ops r', (∀ p ∈ ops, p.2.Spares t p.1) →
        ((Isolate.report t r').outcome (run ⟨i', platform⟩ ops).isolate).2.events =
          (run ⟨i', platform⟩ ops).isolate.events) ∧
      ((Isolate.report t r).outcome i').2.events = i'.events := by
  obtain ⟨i', ho, reported⟩ := report_reported (r := r) hd
  refine ⟨i', ho, reported, ?_, report_again hd ho⟩
  intro hu platform ops r' hops
  exact report_unset (unset_run (h := ⟨i', platform⟩) hu hops)

/-- A thread with a listener. -/
def heardThread : Hosted :=
  { withNewThread with
    isolate := { withNewThread.isolate with listeners := [.full .null none] } }

/-- The thread after a throw, below so many frames with a handler. -/
def thrown (frames : Nat) : Hosted :=
  run heardThread
    (List.replicate frames ("main", .pushFrame ⟨{ marker := .entry, pc := 0, slots := 6 }, false⟩)
      ++ [("main", .raise (.smi 1) none)])

/-- The listener hears of a throw that nobody catches, and hears of it once. -/
theorem report_at_most_once_thrown : ∃ data i',
    (thrown 0).isolate.thread? "main" = some data ∧
    (Isolate.report "main" true).outcome (thrown 0).isolate = (.ok (), i') ∧ told i' = [.smi 1] ∧
    ((Isolate.report "main" true).outcome i').2.events = i'.events := by
  obtain ⟨data, hd⟩ : ∃ data, (thrown 0).isolate.thread? "main" = some data := ⟨_, rfl⟩
  obtain ⟨i', ho, -, -, hagain⟩ := report_at_most_once hd true
  refine ⟨data, i', hd, ho, ?_, hagain⟩
  have htold : told ((Isolate.report "main" true).outcome (thrown 0).isolate).2 = [.smi 1] := by
    decide +kernel
  rw [ho] at htold
  exact htold

/-- A message that a managed handler kept is delivered once its frame is gone. -/
theorem message_kept_by_managed_handler :
    ¬∀ (h : Hosted) (t : ThreadId) (data : ThreadData), h.isolate.thread? t = some data →
      let i := (run h [(t, .report true), (t, .popFrame)]).isolate
      ((Isolate.report t true).outcome i).2.events = i.events := by
  intro hall
  have hquiet := hall (thrown 1) "main" _ rfl
  dsimp only at hquiet
  have hbefore :
      told (run (thrown 1) [("main", .report true), ("main", .popFrame)]).isolate = [] := by
    decide +kernel
  have hafter : told ((Isolate.report "main" true).outcome
      (run (thrown 1) [("main", .report true), ("main", .popFrame)]).isolate).2 = [.smi 1] := by
    decide +kernel
  rw [told, hquiet] at hafter
  rw [told, hafter] at hbefore
  cases hbefore

end SlotOperation

end ScriptEngine

import ScriptEngine.Proofs.Rescheduling

namespace ScriptEngine

namespace Heap

variable {h h' : Heap} {m : Message}

/-- The message, if there is one, is about the exception, if that can be caught. -/
def Describes (h : Heap) (message exception : Option Value) : Prop :=
  ∀ v e, message = some v → exception = some e → e.isCatchable →
    ∃ m, h.message? v = some m ∧ m.exception = e

/-- The messages of one heap are in the other one. -/
def KeepsMessages (h h' : Heap) : Prop := ∀ v m, h.message? v = some m → h'.message? v = some m

theorem Describes.mono {message exception : Option Value} (hd : h.Describes message exception)
    (hk : h.KeepsMessages h') : h'.Describes message exception := by
  intro v e hv he hc
  obtain ⟨m, hm, hme⟩ := hd v e hv he hc
  exact ⟨m, hk v m hm, hme⟩

theorem describes_of_none {exception : Option Value} : h.Describes none exception := by
  intro v e hv
  cases hv

theorem message?_eq_some {v : Value} : h.message? v = some m ↔
    ∃ id, v = .object id ∧ h.objects[id.toNat]? = some (.message m) := by
  unfold message? object?
  cases v with
  | object id =>
    simp only [Value.objectId?, Option.bind_some, Value.object.injEq, exists_eq_left']
    cases h.objects[id.toNat]? with
    | none => simp
    | some o => cases o <;> simp
  | _ => simp [Value.objectId?]

theorem keepsMessages_allocate (o : HeapObject) : h.KeepsMessages (h.allocate o).2 := by
  intro v m hm
  obtain ⟨id, rfl, hget⟩ := message?_eq_some.mp hm
  refine message?_eq_some.mpr ⟨id, rfl, ?_⟩
  obtain ⟨hlt, -⟩ := Array.getElem?_eq_some_iff.mp hget
  rw [allocate, Array.getElem?_push_lt hlt, ← hget, Array.getElem?_eq_getElem hlt]

/-- A new message is found by its number as long as the numbers last. -/
theorem message?_allocate (m : Message) (hs : h.size < UInt32.size) :
    (h.allocate (.message m)).2.message? (h.allocate (.message m)).1 = some m := by
  refine message?_eq_some.mpr ⟨_, rfl, ?_⟩
  have hid : (UInt32.ofNat h.size).toNat = h.objects.size :=
    (UInt32.toNat_ofNat').trans (Nat.mod_eq_of_lt hs)
  rw [hid, allocate, Array.getElem?_push_size]

end Heap

namespace ThreadState

variable {heap heap' : Heap} {t t' : ThreadState} {exception : Value}

/-- Each message of the thread is about the exception that it stands beside. -/
structure Described (heap : Heap) (t : ThreadState) : Prop where
  pending : heap.Describes t.message t.pending
  scheduled : heap.Describes t.message t.scheduled
  scopes : ∀ s ∈ t.tryCatches, heap.Describes s.message s.exception

theorem described_new : Described heap {} where
  pending := Heap.describes_of_none
  scheduled := Heap.describes_of_none
  scopes _ hs := absurd hs List.not_mem_nil

theorem Described.mono (h : t.Described heap) (hk : heap.KeepsMessages heap') :
    t.Described heap' :=
  ⟨h.pending.mono hk, h.scheduled.mono hk, fun s hs => (h.scopes s hs).mono hk⟩

/-- Exceptions may change between the slots, and everything may be dropped. -/
theorem Described.of_slots (h : t.Described heap)
    (hm : t'.message = t.message ∨ t'.message = none)
    (hp : t'.pending = t.pending ∨ t'.pending = t.scheduled ∨ t'.pending = none)
    (hs : t'.scheduled = t.scheduled ∨ t'.scheduled = t.pending ∨ t'.scheduled = none)
    (hc : ∀ s ∈ t'.tryCatches, s ∈ t.tryCatches) : t'.Described heap := by
  have hslot : ∀ slot : Option Value, slot = t.pending ∨ slot = t.scheduled ∨ slot = none →
      heap.Describes t'.message slot := by
    intro slot hslot
    rcases hm with hm | hm
    · rw [hm]
      rcases hslot with rfl | rfl | rfl
      · exact h.pending
      · exact h.scheduled
      · intro v e _ he
        cases he
    · rw [hm]
      exact Heap.describes_of_none
  refine ⟨hslot _ hp, hslot _ ?_, fun s hmem => h.scopes s (hc s hmem)⟩
  rcases hs with hs | hs | hs
  · exact .inr (.inl hs)
  · exact .inl hs
  · exact .inr (.inr hs)

/-- A raise of the exception makes no message, and leaves the one that is pending. -/
def RaisesOver (t : ThreadState) (exception : Value) : Prop :=
  exception.isCatchable ∧ t.makesMessage exception = false ∧ t.message.isSome

/-- The innermost scope of the embedder gets the exception without a message, and keeps the one
that it has. -/
def HandsOver (t : ThreadState) (exception : Value) : Prop :=
  exception.isCatchable ∧ t.handlerType exception = .external ∧ t.message = none ∧
    ∃ scope, t.topTryCatch = some scope ∧ scope.message.isSome

theorem mem_modifyTop {f : TryCatch → TryCatch} {s : TryCatch}
    (hs : s ∈ (t.modifyTop f).tryCatches) :
    s ∈ t.tryCatches ∨ ∃ scope, t.topTryCatch = some scope ∧ s = f scope := by
  unfold modifyTop at hs
  split at hs
  · exact .inl hs
  · rename_i scope htop
    rcases List.mem_append.mp hs with hmem | hmem
    · exact .inl (List.dropLast_subset _ hmem)
    · exact .inr ⟨scope, htop, List.mem_singleton.mp hmem⟩

theorem modifyTop_message (f : TryCatch → TryCatch) : (t.modifyTop f).message = t.message := by
  unfold modifyTop
  split <;> rfl

/-- A scope that changes has to be described after the change. -/
theorem Described.modifyTop (h : t.Described heap) {f : TryCatch → TryCatch}
    (hf : ∀ scope, t.topTryCatch = some scope →
      heap.Describes (f scope).message (f scope).exception) :
    (t.modifyTop f).Described heap := by
  obtain ⟨hp, hs⟩ := modifyTop_slots (s := t) f
  refine ⟨?_, ?_, fun s hmem => ?_⟩
  · rw [modifyTop_message, hp]
    exact h.pending
  · rw [modifyTop_message, hs]
    exact h.scheduled
  · rcases mem_modifyTop hmem with hold | ⟨scope, hscope, rfl⟩
    · exact h.scopes s hold
    · exact hf scope hscope

theorem Described.propagate (h : t.Described heap) (hp : t.pending = some exception)
    (hn : ¬t.HandsOver exception) :
    (t.propagate (t.handlerType exception)).2.Described heap := by
  have hcaught : ∀ b, { t with externalCaught := b }.Described heap := fun b =>
    h.of_slots (.inl rfl) (.inl rfl) (.inl rfl) fun _ hs => hs
  by_cases htype : t.handlerType exception = .external
  · rw [htype]
    cases hc : exception.isCatchable with
    | true =>
      rw [propagate_external hp hc]
      refine (hcaught true).modifyTop fun scope hscope => ?_
      cases hm : t.message with
      | some v =>
        have hpending := h.pending
        rw [hm, hp] at hpending
        exact hpending
      | none =>
        -- The scope keeps its own message, so it must not have one.
        cases hown : scope.message with
        | some v => exact absurd ⟨hc, htype, hm, scope, hscope, by rw [hown]; rfl⟩ hn
        | none =>
          change heap.Describes scope.message (some exception)
          rw [hown]
          exact Heap.describes_of_none
    | false =>
      rw [propagate_uncatchable hp hc]
      refine (hcaught true).modifyTop fun scope _ => ?_
      rintro v e - he hcatchable
      cases he
      cases hcatchable
  · rw [propagate_elsewhere hp htype]
    exact hcaught false

end ThreadState

namespace Isolate

open ScriptEngine.Action

/-- Each message that a thread keeps is about the exception that it stands beside. -/
def Described (i : Isolate) : Prop := ∀ t data, i.thread? t = some data → data.top.Described i.heap

variable {i i' : Isolate} {t : ThreadId} {data : ThreadData} {exception : Value}

theorem Described.setTop (h : Described i) {top : ThreadState}
    (htop : top.Described i.heap) : Described (i.setTop t top) := by
  intro t' data' hd'
  by_cases ht : t' = t
  · subst ht
    rw [Isolate.setTop, thread?_modifyThread, if_pos rfl] at hd'
    obtain ⟨data, -, rfl⟩ := Option.map_eq_some_iff.mp hd'
    exact htop
  · rw [thread?_setTop_ne top ht] at hd'
    exact h t' data' hd'

/-- With the threads as they are, the heap may grow and the rest may change. -/
theorem Described.of_heap (h : Described i) (hk : i.heap.KeepsMessages i'.heap)
    (ht : i'.threads = i.threads) : Described i' := by
  intro t data hd
  rw [thread?, ht] at hd
  exact (h t data hd).mono hk

theorem described_of_same (h : Described i) (hh : i'.heap = i.heap)
    (ht : i'.threads = i.threads) : Described i' := by
  refine h.of_heap ?_ ht
  rw [hh]
  exact fun _ _ hm => hm

/-- After a raise the pending message is about the exception, unless it was left from before. -/
theorem Describes.withRaised {top : ThreadState} {message : Option Value} {heap : Heap}
    (hm : Describes i top exception message heap) (h : top.Described i.heap)
    (hs : top.scheduled = none) (hover : ¬top.RaisesOver exception)
    (hsize : i.heap.size < UInt32.size) :
    i.heap.KeepsMessages heap ∧ (top.withRaised message exception).Described heap := by
  have hscheduled : ∀ heap : Heap, heap.Describes message top.scheduled := by
    intro heap v e _ he
    rw [hs] at he
    cases he
  unfold Describes at hm
  split at hm
  · obtain ⟨m, hme, rfl, rfl⟩ := hm
    have hkeeps := Heap.keepsMessages_allocate (h := i.heap) (.message m)
    refine ⟨hkeeps, ?_, hscheduled _, fun s hmem => (h.scopes s hmem).mono hkeeps⟩
    rintro v e hv he -
    cases hv
    cases he
    exact ⟨m, Heap.message?_allocate m hsize, hme⟩
  · rename_i hsilent
    obtain ⟨rfl, rfl⟩ := hm
    refine ⟨fun _ _ hfound => hfound, ?_, hscheduled _, h.scopes⟩
    -- No message is pending, or the exception is one that nobody catches.
    intro v e hv he hc
    cases he
    have hmessage : top.message = some v := hv
    exact absurd ⟨hc, Bool.not_eq_true _ ▸ hsilent, by rw [hmessage]; rfl⟩ hover

theorem raise_describes {location : Option Location} (h : Described i)
    (hover : ∀ data, i.thread? t = some data →
      ¬(data.top.RaisesOver exception ∨ UInt32.size ≤ i.heap.size)) :
    Described ((raise t exception location).outcome i).2 := by
  cases hd : i.thread? t with
  | none =>
    rw [raise_unattached exception location hd]
    exact h
  | some data =>
    cases hs : data.top.scheduled with
    | some scheduled =>
      rw [raise_refused exception location hd (by rw [hs]; rfl)]
      exact h
    | none =>
      have htop := h t data hd
      rcases raise_outcome exception location hd hs with
        ⟨e, hr⟩ | ⟨result, message, heap, events, hr, -, hm⟩
      · rw [hr]
        exact h.setTop (htop.of_slots (.inl rfl) (.inl rfl) (.inl rfl) fun _ hs => hs)
      · rw [hr]
        obtain ⟨hnot, hsize⟩ := not_or.mp (hover data hd)
        obtain ⟨hkeeps, hraised⟩ := hm.withRaised htop hs hnot (Nat.lt_of_not_le hsize)
        have hgrown : Described { i with heap := heap, events := events } := h.of_heap hkeeps rfl
        exact hgrown.setTop hraised

theorem scheduleThrow_describes (h : Described i)
    (hover : ∀ data, i.thread? t = some data →
      ¬(data.top.RaisesOver exception ∨ UInt32.size ≤ i.heap.size))
    (hhands : ∀ data, i.thread? t = some data →
      ¬(data.top.makesMessage exception = false ∧ data.top.HandsOver exception)) :
    Described ((scheduleThrow t exception).outcome i).2 := by
  have hraised : Described ((raise t exception none).outcome i).2 := raise_describes h hover
  -- Without the exception pending there is nothing to hand over.
  have hfailed : ∀ e i', (raise t exception none).outcome i = (.error e, i') →
      Described ((scheduleThrow t exception).outcome i).2 := by
    intro e i' hr
    unfold scheduleThrow
    rw [outcome_bind_error hr]
    rw [hr] at hraised
    exact hraised
  cases hd : i.thread? t with
  | none => exact hfailed _ _ (raise_unattached exception none hd)
  | some data =>
    cases hs : data.top.scheduled with
    | some scheduled => exact hfailed _ _ (raise_refused exception none hd (by rw [hs]; rfl))
    | none =>
      rcases raise_outcome exception none hd hs with
        ⟨e, hr⟩ | ⟨result, message, heap, events, hr, hresult, hm⟩
      · exact hfailed _ _ hr
      rcases hresult with rfl | ⟨e, rfl⟩
      · have hattached := thread?_setTop (data.top.withRaised message exception) hd
        rw [scheduleThrow_outcome hr hattached rfl]
        rw [hr] at hraised
        have hn : ¬(data.top.withRaised message exception).HandsOver exception := by
          rintro ⟨hc, htype, hnone, hscope⟩
          obtain rfl : message = none := hnone
          unfold Describes at hm
          split at hm
          · obtain ⟨m, -, hsome, -⟩ := hm
            cases hsome
          · rename_i hsilent
            exact hhands data hd ⟨Bool.not_eq_true _ ▸ hsilent, hc, htype, hm.1.symm, hscope⟩
        have htop : (data.top.withRaised message exception).Described heap := hraised t _ hattached
        have hpending := (ThreadState.propagate_slots (s := data.top.withRaised message exception)
          ((data.top.withRaised message exception).handlerType exception)).1
        exact hraised.setTop ((htop.propagate rfl hn).of_slots (.inl rfl) (.inr (.inr rfl))
          (.inr (.inl hpending.symm)) fun _ hs => hs)
      · exact hfailed _ _ hr

theorem reschedule_describes (h : Described i) (clear : Bool)
    (hhands : ∀ data exception, i.thread? t = some data → data.top.pending = some exception →
      ¬data.top.HandsOver exception) :
    Described ((reschedule t clear).outcome i).2 := by
  rcases reschedule_state t clear i with hsame | ⟨data, exception, hd, hp, hset⟩
  · rw [hsame]
    exact h
  have hhanded := (h t data hd).propagate hp (hhands data exception hd hp)
  have hpending := (ThreadState.propagate_slots (s := data.top) (data.top.handlerType exception)).1
  rcases hset with hset | ⟨cleared, hset⟩
  · rw [hset]
    exact h.setTop hhanded
  · rw [hset]
    refine h.setTop ?_
    cases cleared with
    | true => exact hhanded.of_slots (.inl rfl) (.inr (.inr rfl)) (.inl rfl) fun _ hs => hs
    | false =>
      exact hhanded.of_slots (.inl rfl) (.inr (.inr rfl))
        (.inr (.inl (hp.symm.trans hpending.symm))) fun _ hs => hs

theorem propagate_describes (h : Described i)
    (hhands : ∀ data exception, i.thread? t = some data → data.top.pending = some exception →
      ¬data.top.HandsOver exception) :
    Described ((propagate t).outcome i).2 := by
  cases hd : i.thread? t with
  | none =>
    unfold propagate
    rw [outcome_bind, outcome_top, hd]
    exact h
  | some data =>
    cases hp : data.top.pending with
    | none =>
      have hrefused : data.top.propagatePending = .error .noPendingException := by
        rw [ThreadState.propagatePending, hp]
      unfold propagate
      rw [outcome_bind_ok (outcome_top_of hd), hrefused]
      exact h
    | some exception =>
      rw [propagate_outcome hd hp]
      exact h.setTop ((h t data hd).propagate hp (hhands data exception hd hp))

theorem propagate_message {top : ThreadState} (handler : HandlerType) :
    (top.propagate handler).2.message = top.message := by
  unfold ThreadState.propagate
  split
  · rfl
  · rfl
  · rfl
  · dsimp only
    split <;> exact ThreadState.modifyTop_message _

/-- Only the pending message is due, and only with a catchable exception. -/
theorem takeDueMessage_due {top : ThreadState} {report : Bool} {v : Value}
    (h : (takeDueMessage top report).1 = some v) :
    ∃ e, top.pending = some e ∧ e.isCatchable ∧ top.message = some v := by
  cases hp : top.pending with
  | none => simp [takeDueMessage, hp] at h
  | some e =>
    simp only [takeDueMessage, hp] at h
    split at h
    · dsimp only at h
      split at h
      · rename_i hdue
        rw [propagate_message] at h
        exact ⟨e, rfl, (Bool.and_eq_true _ _ ▸ hdue).1, h⟩
      · cases h
    · cases h

theorem takeDueMessage_described {top : ThreadState} {heap : Heap} (report : Bool)
    (h : top.Described heap)
    (hhands : ∀ exception, top.pending = some exception → ¬top.HandsOver exception) :
    (takeDueMessage top report).2.Described heap := by
  cases hp : top.pending with
  | none =>
    simp only [takeDueMessage, hp]
    exact h
  | some e =>
    have hhanded := h.propagate hp (hhands e hp)
    simp only [takeDueMessage, hp]
    split
    · exact hhanded.of_slots (.inr rfl) (.inl rfl) (.inl rfl) fun _ hs => hs
    · exact hhanded

theorem report_outcome (report : Bool) (hd : i.thread? t = some data) :
    let told := i.setTop t (takeDueMessage data.top report).2
    (Isolate.report t report).outcome i =
      (.ok (), match (takeDueMessage data.top report).1.bind i.heap.message? with
        | none => told
        | some m => told.notifyAll m) := by
  intro told
  unfold Isolate.report
  rw [outcome_bind_ok (outcome_onTop hd), outcome_get_bind]
  change (match (takeDueMessage data.top report).1.bind i.heap.message? with
    | none => pure ()
    | some m => set (told.notifyAll m) : Action Isolate Unit).outcome told = _
  cases (takeDueMessage data.top report).1.bind i.heap.message? <;> rfl

/-- What a report tells the listeners is about the exception that was pending. -/
theorem report_delivers (h : Described i) (report : Bool) (hd : i.thread? t = some data) :
    ∃ top, (Isolate.report t report).outcome i = (.ok (), i.setTop t top) ∨
      ∃ e m, data.top.pending = some e ∧ m.exception = e ∧
        (Isolate.report t report).outcome i = (.ok (), (i.setTop t top).notifyAll m) := by
  refine ⟨(takeDueMessage data.top report).2, ?_⟩
  rw [report_outcome report hd]
  cases hdue : (takeDueMessage data.top report).1.bind i.heap.message? with
  | none => exact .inl rfl
  | some m =>
    obtain ⟨v, hv, hm⟩ := Option.bind_eq_some_iff.mp hdue
    obtain ⟨e, hp, hc, hmessage⟩ := takeDueMessage_due hv
    obtain ⟨m', hm', hme⟩ := (h t data hd).pending v e hmessage hp hc
    cases hm.symm.trans hm'
    exact .inr ⟨e, m, hp, hme, rfl⟩

theorem report_describes (h : Described i) (report : Bool)
    (hhands : ∀ data exception, i.thread? t = some data → data.top.pending = some exception →
      ¬data.top.HandsOver exception) :
    Described ((Isolate.report t report).outcome i).2 := by
  cases hd : i.thread? t with
  | none =>
    unfold Isolate.report onTop
    rw [outcome_bind, outcome_bind, outcome_top, hd]
    exact h
  | some data =>
    have htold : Described (i.setTop t (takeDueMessage data.top report).2) :=
      h.setTop (takeDueMessage_described report (h t data hd) fun e => hhands data e hd)
    rw [report_outcome report hd]
    cases (takeDueMessage data.top report).1.bind i.heap.message? with
    | none => exact htold
    | some m =>
      obtain ⟨listeners, events, hnotify⟩ :=
        notifyAll_eq m (i.setTop t (takeDueMessage data.top report).2)
      dsimp only
      rw [hnotify]
      exact described_of_same htold rfl rfl

/-- Changes after which each message is still about its exception. -/
def describing : Evolution Isolate where
  rel i i' := Described i → Described i'
  refl _ h := h
  trans h h' := h' ∘ h

variable {α : Type}

theorem onTop_describes {f : ThreadState → α × ThreadState}
    (hf : ∀ heap top, top.Described heap → (f top).2.Described heap) :
    Evolves describing (onTop t f) := by
  refine evolves_top_bind fun i data hd => ?_
  exact Evolves.bind_at (fun h => h.setTop (hf i.heap data.top (h t data hd)))
    fun _ => evolves_pure _

theorem tryOnTop_describes {f : ThreadState → Except IsolateError ThreadState}
    (hf : ∀ heap top top', f top = .ok top' → top.Described heap → top'.Described heap) :
    Evolves describing (tryOnTop t f) := by
  refine evolves_top_bind fun i data hd => ?_
  rw [outcome_bind]
  cases htop : f data.top with
  | error e => exact describing.refl i
  | ok top => exact fun h => h.setTop (hf i.heap data.top top htop (h t data hd))

theorem promote_describes : Evolves describing (promote t) := by
  intro i h
  cases hd : i.thread? t with
  | none =>
    unfold promote
    rw [outcome_bind, outcome_top, hd]
    exact h
  | some data =>
    cases hs : data.top.scheduled with
    | none =>
      unfold promote
      rw [outcome_bind_ok (outcome_top_of hd), hs]
      exact h
    | some exception =>
      rw [promote_outcome hd hs]
      exact h.setTop ((h t data hd).of_slots (.inl rfl) (.inr (.inl hs.symm)) (.inr (.inr rfl))
        fun _ hs => hs)

theorem unwind_describes : Evolves describing (unwind t) := by
  refine (requireBuiltins_evolves .unwind).bind fun builtins => ?_
  refine evolves_top_bind fun i data hd => ?_
  rw [outcome_get_bind]
  dsimp only
  refine Evolves.bind_at (fun h => ?_) fun _ => ?_
  · have hrun := Dispatch.unwinds_run i.codes builtins i.terminationRequested
      { thread := data.top, materialized := i.materialized, lazyThrow := i.lazyThrow
        restart := i.restart }
    refine described_of_same (h.setTop ((h t data hd).of_slots (.inl hrun.message)
      (hrun.pending.imp_right .inr) (.inl hrun.scheduled) ?_)) rfl rfl
    intro s hs
    rw [← hrun.tryCatches]
    exact hs
  · split
    · exact evolves_pure _
    · exact evolves_throw _

end Isolate

namespace SlotOperation

open ScriptEngine.Action Isolate

/-- Exceptions come from throws alone, and scopes are registered without a message. -/
def ThrowsOnly : SlotOperation → Prop
  | raise _ _ | scheduleThrow _ | clearPending | promote | reschedule _ | propagate | report _
  | unwind | unregisterTryCatch _ | pushFrame _ | popFrame => True
  | registerTryCatch scope => scope.message = none
  | _ => False

/-- The operation leaves a message in place that is not about the exception: a throw leaves the
pending one, or a scope keeps its own. It is as bad if the heap has run out of numbers. -/
def LeavesMessage (t : ThreadId) (h : Hosted) (op : SlotOperation) : Prop :=
  ∃ data, h.isolate.thread? t = some data ∧ match op with
    | raise e _ => data.top.RaisesOver e ∨ UInt32.size ≤ h.isolate.heap.size
    | scheduleThrow e => (data.top.RaisesOver e ∨ UInt32.size ≤ h.isolate.heap.size) ∨
        data.top.makesMessage e = false ∧ data.top.HandsOver e
    | propagate | report _ | reschedule _ =>
      ∃ e, data.top.pending = some e ∧ data.top.HandsOver e
    | _ => False

theorem describes_clearPending {heap : Heap} {top : ThreadState} (h : top.Described heap) :
    top.clearPending.Described heap :=
  h.of_slots (.inl rfl) (.inr (.inr rfl)) (.inl rfl) fun _ hs => hs

theorem describes_pushFrame {heap : Heap} {top : ThreadState} (spec : FrameSpec)
    (h : top.Described heap) : (top.pushFrame spec).2.Described heap := by
  unfold ThreadState.pushFrame
  dsimp only
  split <;> exact h.of_slots (.inl rfl) (.inl rfl) (.inl rfl) fun _ hs => hs

theorem describes_popFrame {heap : Heap} {top : ThreadState} (h : top.Described heap) :
    top.popFrame.2.Described heap := by
  unfold ThreadState.popFrame
  split <;> exact h.of_slots (.inl rfl) (.inl rfl) (.inl rfl) fun _ hs => hs

theorem describes_unregister {heap : Heap} {top top' : ThreadState} {id : TryCatchId}
    (hu : (top.unregisterTryCatch id).map (·.2) = .ok top') (h : top.Described heap) :
    top'.Described heap := by
  unfold ThreadState.unregisterTryCatch at hu
  split at hu
  · cases hu
  · split at hu
    · cases hu
      exact h.of_slots (.inl rfl) (.inl rfl) (.inl rfl) fun s hs => List.dropLast_subset _ hs
    · split at hu <;> cases hu

theorem describes_register {heap : Heap} {top : ThreadState} {scope : TryCatch}
    (hm : scope.message = none) (h : top.Described heap) :
    (top.registerTryCatch scope).2.Described heap := by
  refine ⟨h.pending, h.scheduled, fun s hs => ?_⟩
  rcases List.mem_append.mp hs with hold | hnew
  · exact h.scopes s hold
  · obtain rfl := List.mem_singleton.mp hnew
    change heap.Describes scope.message _
    rw [hm]
    exact Heap.describes_of_none

theorem step_described {h : Hosted} (hi : Described h.isolate) {t : ThreadId} {op : SlotOperation}
    (hop : op.ThrowsOnly) (hleaves : ¬op.LeavesMessage t h) :
    Described (op.step t h).isolate := by
  cases op with
  | raise e location => exact raise_describes hi fun data hd hn => hleaves ⟨data, hd, hn⟩
  | scheduleThrow e =>
    exact scheduleThrow_describes hi (fun data hd hn => hleaves ⟨data, hd, .inl hn⟩)
      fun data hd hn => hleaves ⟨data, hd, .inr hn⟩
  | clearPending =>
    exact onTop_describes (f := fun s => ((), s.clearPending))
      (fun _ _ htop => describes_clearPending htop) h.isolate hi
  | promote => exact promote_describes h.isolate hi
  | reschedule clear =>
    exact reschedule_describes hi clear fun data e hd hp hn => hleaves ⟨data, hd, e, hp, hn⟩
  | propagate =>
    exact propagate_describes hi fun data e hd hp hn => hleaves ⟨data, hd, e, hp, hn⟩
  | report r => exact report_describes hi r fun data e hd hp hn => hleaves ⟨data, hd, e, hp, hn⟩
  | unwind => exact unwind_describes h.isolate hi
  | registerTryCatch scope =>
    exact onTop_describes (fun _ _ htop => describes_register hop htop) h.isolate hi
  | unregisterTryCatch id =>
    exact tryOnTop_describes (fun _ _ _ hu htop => describes_unregister hu htop) h.isolate hi
  | pushFrame spec =>
    exact onTop_describes (fun _ _ htop => describes_pushFrame spec htop) h.isolate hi
  | popFrame => exact onTop_describes (fun _ _ htop => describes_popFrame htop) h.isolate hi
  | _ => exact hop.elim

/-- Messages stay with their exceptions up to the first operation that leaves an older one. -/
theorem run_leaves {h : Hosted} (hi : Described h.isolate) {ops : List (ThreadId × SlotOperation)}
    (hops : ∀ p ∈ ops, p.2.ThrowsOnly) :
    Described (run h ops).isolate ∨
    ∃ before t op after, ops = before ++ (t, op) :: after ∧ Described (run h before).isolate ∧
      op.LeavesMessage t (run h before) := by
  induction ops generalizing h with
  | nil => exact .inl hi
  | cons p ops ih =>
    obtain ⟨t, op⟩ := p
    by_cases hleaves : op.LeavesMessage t h
    · exact .inr ⟨[], t, op, ops, rfl, hi, hleaves⟩
    · have hstep := step_described hi (hops _ List.mem_cons_self) hleaves
      rcases ih hstep (fun q hq => hops q (List.mem_cons_of_mem _ hq)) with
        hend | ⟨before, t', op', after, rfl, hbefore, hbad⟩
      · exact .inl hend
      · exact .inr ⟨(t, op) :: before, t', op', after, rfl, hbefore, hbad⟩

/-- From new threads on each message is about the exception that it stands beside, and a report
delivers none but that of the pending exception, unless some operation left a message in place that
is about an older one. -/
theorem run_described (h : Hosted)
    (hnew : ∀ t data, h.isolate.thread? t = some data → data.top = {})
    (ops : List (ThreadId × SlotOperation)) (hops : ∀ p ∈ ops, p.2.ThrowsOnly) :
    (Described (run h ops).isolate ∧
      ∀ t data r, (run h ops).isolate.thread? t = some data →
        ∃ top, (Isolate.report t r).outcome (run h ops).isolate =
            (.ok (), (run h ops).isolate.setTop t top) ∨
          ∃ e m, data.top.pending = some e ∧ m.exception = e ∧
            (Isolate.report t r).outcome (run h ops).isolate =
              (.ok (), ((run h ops).isolate.setTop t top).notifyAll m)) ∨
    ∃ before t op after, ops = before ++ (t, op) :: after ∧ Described (run h before).isolate ∧
      op.LeavesMessage t (run h before) := by
  have hstart : Described h.isolate := by
    intro t data hd
    rw [hnew t data hd]
    exact ThreadState.described_new
  rcases run_leaves hstart hops with hend | hbad
  · exact .inl ⟨hend, fun t data r hd => report_delivers hend r hd⟩
  · exact .inr hbad

/-- A scope of the embedder gets an exception with its message. -/
def caughtThrow : List (ThreadId × SlotOperation) :=
  [("main", .registerTryCatch { id := 1 }), ("main", .raise (.smi 1) none), ("main", .propagate)]

theorem not_leavesMessage_caughtThrow : ¬∃ before t op after,
    caughtThrow = before ++ (t, op) :: after ∧ Described (run withNewThread before).isolate ∧
      op.LeavesMessage t (run withNewThread before) := by
  rintro ⟨before, t, op, after, hops, -, data, hd, hleaves⟩
  rcases before with _ | ⟨_, _ | ⟨_, _ | ⟨_, before⟩⟩⟩
  · cases hops
    exact hleaves
  · cases hops
    cases hd
    rcases hleaves with ⟨-, -, hmessage⟩ | hfull
    · cases hmessage
    · exact absurd hfull (by decide)
  · cases hops
    cases hd
    obtain ⟨e, -, -, -, hmessage, -⟩ := hleaves
    cases hmessage
  · simp [caughtThrow] at hops

theorem run_described_caughtThrow : Described (run withNewThread caughtThrow).isolate := by
  have hops : ∀ p ∈ caughtThrow, p.2.ThrowsOnly := by
    intro p hp
    simp only [caughtThrow, List.mem_cons, List.not_mem_nil, or_false] at hp
    rcases hp with rfl | rfl | rfl
    · rfl
    · trivial
    · trivial
  exact ((run_described withNewThread new_withNewThread caughtThrow hops).resolve_right
    not_leavesMessage_caughtThrow).1

/-- The exception of the innermost scope, and the one that the scope's message is about. -/
def recorded (h : Hosted) (t : ThreadId) : Option (Option Value × Option Value) := do
  let data ← h.isolate.thread? t
  let scope ← data.top.topTryCatch
  return (scope.exception, (scope.message.bind h.isolate.heap.message?).map (·.exception))

/-- The exceptions of the messages that listeners were told about. -/
def told (i : Isolate) : List Value :=
  i.events.filterMap fun
    | .message _ m => some m.exception
    | _ => none

/-- A thread with a listener, and a scope that wants no message and gets one all the same. -/
def silentThrow : Hosted :=
  run { withNewThread with
      isolate := { withNewThread.isolate with listeners := [.full .null none] } }
    [("main", .raise (.smi 1) none), ("main", .clearPending),
      ("main", .registerTryCatch { id := 1, capturesMessage := false }),
      ("main", .raise (.smi 2) none), ("main", .propagate)]

/-- The scope gets the message of the throw before, and once the scope is gone the listeners are
told about that throw while the later one is pending. -/
theorem message_left_by_silent_throw :
    recorded silentThrow "main" = some (some (.smi 2), some (.smi 1)) ∧
    ((run silentThrow [("main", .unregisterTryCatch 1)]).isolate.thread? "main").map
      (·.top.pending) = some (some (.smi 2)) ∧
    told (run silentThrow [("main", .unregisterTryCatch 1), ("main", .report true)]).isolate =
      [.smi 1] := by
  decide +kernel

-- A scope keeps the message that it has when a later exception comes without one.
example : recorded (run withNewThread
    [("main", .registerTryCatch { id := 1 }), ("main", .raise (.smi 1) none), ("main", .propagate),
      ("main", .report true), ("main", .clearPending),
      ("main", .registerTryCatch { id := 2, capturesMessage := false }),
      ("main", .raise (.smi 2) none), ("main", .unregisterTryCatch 2), ("main", .propagate)])
    "main" = some (some (.smi 2), some (.smi 1)) := by
  decide +kernel

end SlotOperation

end ScriptEngine

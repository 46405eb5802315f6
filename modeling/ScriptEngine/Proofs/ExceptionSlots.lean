import ScriptEngine.Proofs.Evolution

namespace ScriptEngine

namespace ThreadState

/-- At most one slot is filled. -/
def Exclusive (t : ThreadState) : Prop := t.pending = none ∨ t.scheduled = none

theorem Exclusive.pending_eq_none {t : ThreadState} (h : t.Exclusive)
    (hs : t.scheduled.isSome) : t.pending = none := by
  rcases h with hp | hn
  · exact hp
  · rw [hn] at hs
    cases hs

/-- Changes that leave one slot free if it was, and schedule nothing. -/
structure KeepsSlots (s s' : ThreadState) : Prop where
  exclusive : s.Exclusive → s'.Exclusive
  scheduled : s'.scheduled = s.scheduled ∨ s'.scheduled = none

theorem KeepsSlots.of_slots {s s' : ThreadState} (hp : s'.pending = s.pending ∨ s'.pending = none)
    (hs : s'.scheduled = s.scheduled ∨ s'.scheduled = none) : KeepsSlots s s' := by
  refine ⟨?_, hs⟩
  rintro (h | h)
  · exact .inl (hp.elim (·.trans h) id)
  · exact .inr (hs.elim (·.trans h) id)

theorem KeepsSlots.of_free {s s' : ThreadState} (h : s'.scheduled = none) : KeepsSlots s s' :=
  ⟨fun _ => .inr h, .inr h⟩

/-- Changes that leave one slot free if it was. -/
def exclusively : Evolution ThreadState where
  rel s s' := s.Exclusive → s'.Exclusive
  refl _ := id
  trans h h' := h' ∘ h

def keepingSlots : Evolution ThreadState where
  rel := KeepsSlots
  refl _ := ⟨id, .inl rfl⟩
  trans h h' := by
    refine ⟨h'.exclusive ∘ h.exclusive, ?_⟩
    rcases h'.scheduled with hs | hs
    · rw [hs]
      exact h.scheduled
    · exact .inr hs

variable {s s' : ThreadState} {v : Value}

theorem keepsSlots_setPending (h : s.setPending v = .ok s') : KeepsSlots s s' := by
  unfold setPending at h
  split at h
  · cases h
  · rename_i hn
    cases h
    exact .of_free (Option.not_isSome_iff_eq_none.mp hn)

theorem exclusive_setScheduled (h : s.setScheduled v = .ok s') : s'.Exclusive := by
  unfold setScheduled at h
  split at h
  · cases h
  · rename_i hn
    cases h
    exact .inl (Option.not_isSome_iff_eq_none.mp hn)

theorem exclusive_schedulePending (h : s.schedulePending = .ok s') : s'.Exclusive := by
  unfold schedulePending at h
  split at h
  · cases h
  · cases h
    exact .inl rfl

theorem modifyTop_slots (f : TryCatch → TryCatch) :
    (s.modifyTop f).pending = s.pending ∧ (s.modifyTop f).scheduled = s.scheduled := by
  unfold modifyTop
  split <;> exact ⟨rfl, rfl⟩

theorem propagate_slots (handler : HandlerType) :
    (s.propagate handler).2.pending = s.pending ∧
      (s.propagate handler).2.scheduled = s.scheduled := by
  unfold propagate
  split
  · exact ⟨rfl, rfl⟩
  · exact ⟨rfl, rfl⟩
  · exact ⟨rfl, rfl⟩
  · dsimp only
    split
    · exact modifyTop_slots _
    · exact modifyTop_slots _

theorem keepsSlots_propagate (handler : HandlerType) : KeepsSlots s (s.propagate handler).2 :=
  .of_slots (.inl (propagate_slots handler).1) (.inl (propagate_slots handler).2)

theorem propagatePending_ok {result : Bool × ThreadState} (h : s.propagatePending = .ok result) :
    ∃ handler, result = s.propagate handler := by
  unfold propagatePending at h
  split at h
  · cases h
  · cases h
    exact ⟨_, rfl⟩

theorem keepsSlots_cancelScheduled {id : TryCatchId} (h : s.cancelScheduled id = .ok s') :
    KeepsSlots s s' := by
  unfold cancelScheduled at h
  split at h
  · cases h
  · rename_i scope _
    cases h
    have hmessage : ∀ t : ThreadState, KeepsSlots s t → KeepsSlots s
        (if scope.message.isSome && t.message = scope.message then { t with message := none }
          else t) := by
      intro t ht
      split
      · exact keepingSlots.trans ht (.of_slots (.inl rfl) (.inl rfl))
      · exact ht
    refine hmessage _ ?_
    split
    · exact keepingSlots.refl s
    · split
      · exact .of_free rfl
      · exact keepingSlots.refl s
    · split
      · exact .of_free rfl
      · exact keepingSlots.refl s

theorem keepsSlots_cancelTermination : KeepsSlots s s.cancelTermination := by
  have hpending : ∀ t : ThreadState, KeepsSlots t
      (if t.pending = some .termination then { t with externalCaught := false, pending := none }
        else t) := by
    intro t
    split
    · exact .of_slots (.inr rfl) (.inl rfl)
    · exact keepingSlots.refl t
  have hscheduled : ∀ t : ThreadState, KeepsSlots t
      (if t.scheduled = some .termination then { t with externalCaught := false, scheduled := none }
        else t) := by
    intro t
    split
    · exact .of_free rfl
    · exact keepingSlots.refl t
  have htop : KeepsSlots s (s.modifyTop (·.cancelTermination)) :=
    .of_slots (.inl (modifyTop_slots _).1) (.inl (modifyTop_slots _).2)
  exact keepingSlots.trans (keepingSlots.trans htop (hpending _)) (hscheduled _)

theorem keepsSlots_registerTryCatch (scope : TryCatch) :
    KeepsSlots s (s.registerTryCatch scope).2 :=
  .of_slots (.inl rfl) (.inl rfl)

theorem keepsSlots_unregisterTryCatch {id : TryCatchId} {scope : TryCatch}
    (h : s.unregisterTryCatch id = .ok (scope, s')) : KeepsSlots s s' := by
  unfold unregisterTryCatch at h
  split at h
  · cases h
  · split at h
    · cases h
      exact .of_slots (.inl rfl) (.inl rfl)
    · split at h <;> cases h

theorem keepsSlots_pushFrame (spec : FrameSpec) : KeepsSlots s (s.pushFrame spec).2 := by
  unfold pushFrame
  dsimp only
  split <;> exact .of_slots (.inl rfl) (.inl rfl)

theorem keepsSlots_popFrame : KeepsSlots s s.popFrame.2 := by
  unfold popFrame
  split <;> exact .of_slots (.inl rfl) (.inl rfl)

theorem keepsSlots_takeDueMessage (report : Bool) :
    KeepsSlots s (Isolate.takeDueMessage s report).2 := by
  unfold Isolate.takeDueMessage
  split
  · exact keepingSlots.refl s
  · dsimp only
    split
    · exact keepingSlots.trans (keepsSlots_propagate _) (.of_slots (.inl rfl) (.inl rfl))
    · exact keepsSlots_propagate _

end ThreadState

namespace ThreadState

/-- What dispatch leaves of a thread: it takes the pending exception at most. -/
structure Unwinds (s s' : ThreadState) : Prop where
  pending : s'.pending = s.pending ∨ s'.pending = none
  scheduled : s'.scheduled = s.scheduled
  message : s'.message = s.message
  tryCatches : s'.tryCatches = s.tryCatches

def unwinding : Evolution ThreadState where
  rel := Unwinds
  refl _ := ⟨.inl rfl, rfl, rfl, rfl⟩
  trans h h' := by
    refine ⟨?_, h'.scheduled.trans h.scheduled, h'.message.trans h.message,
      h'.tryCatches.trans h.tryCatches⟩
    rcases h'.pending with hp | hp
    · rw [hp]
      exact h.pending
    · exact .inr hp

theorem Unwinds.keepsSlots {s s' : ThreadState} (h : Unwinds s s') : KeepsSlots s s' :=
  .of_slots h.pending (.inl h.scheduled)

end ThreadState

namespace Dispatch

open ThreadState

theorem unwinds_applyPatch (t : ThreadState) (patch : FramePatch) :
    Unwinds t (applyPatch t patch) := by
  cases patch <;> exact ⟨.inl rfl, rfl, rfl, rfl⟩

theorem unwinds_apply (d : Dispatch) (m : HandlerMatch) : Unwinds d.thread (d.apply m).thread :=
  unwinding.trans (unwinds_applyPatch d.thread m.patch) ⟨.inr rfl, rfl, rfl, rfl⟩

theorem unwinds_searchFor (c : DispatchContext) (segments visited : Nat) (d : Dispatch) :
    Unwinds d.thread (searchFor c segments visited d).2.thread := by
  induction segments generalizing visited d with
  | zero =>
    unfold searchFor
    dsimp only
    split
    · exact unwinding.refl d.thread
    · exact unwinds_apply _ _
    · exact unwinding.refl d.thread
  | succ segments ih =>
    unfold searchFor
    dsimp only
    split
    · exact unwinding.refl d.thread
    · exact unwinds_apply _ _
    · cases hs : d.thread.stack.switchToParent with
      | none => exact unwinding.refl d.thread
      | some parent =>
        have hstack : Unwinds d.thread { d.thread with stack := parent.2 } :=
          ⟨.inl rfl, rfl, rfl, rfl⟩
        rename_i visited materialized _
        exact unwinding.trans hstack (ih visited { d with
          thread := { d.thread with stack := parent.2 }, materialized := materialized })

/-- Dispatch takes the exception out of its slot, or leaves the slots alone. -/
theorem unwinds_run (codes : CodeRegistry) (builtins : Builtins) (termination : Bool)
    (d : Dispatch) : Unwinds d.thread (run codes builtins termination d).2.thread := by
  unfold run
  split
  · exact unwinding.refl d.thread
  · rename_i exception _
    cases exception.isCatchable && !termination with
    | true =>
      have hsearch := unwinds_searchFor { codes, builtins, exception, catchable := true }
        d.thread.stack.segments.length 0 d
      dsimp only
      split <;> exact hsearch
    | false =>
      have hjoins : Unwinds d.thread { d.thread with joins := [] } := ⟨.inl rfl, rfl, rfl, rfl⟩
      have hsearch := unwinds_searchFor { codes, builtins, exception, catchable := false }
        d.thread.stack.segments.length 0 { d with thread := { d.thread with joins := [] } }
      dsimp only
      split <;> exact unwinding.trans hjoins hsearch

end Dispatch

end ScriptEngine

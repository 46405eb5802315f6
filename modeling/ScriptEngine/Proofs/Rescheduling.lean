import ScriptEngine.Proofs.FirstHandler
import ScriptEngine.Proofs.Raising
import ScriptEngine.Proofs.SlotOperations

namespace ScriptEngine

namespace ThreadState

variable {t : ThreadState} {exception : Value}

/-- The frame of the innermost managed code in the active segment. -/
def managedFrame? (t : ThreadState) (codes : CodeRegistry) : Option Frame :=
  (t.stack.activeSegment.innermostFirst.map (.of codes t.stack.activeSegment.id)).find?
    (·.isManaged)

theorem firstAnswer_find {codes : CodeRegistry} {segment : Nat} {α : Type} (p : Frame → Bool)
    (f : Frame → α) {frames : List RawFrame} (hk : ∀ r ∈ frames, r.IsKnown codes) :
    Frame.firstAnswer codes segment (fun g => if p g then some (f g) else none) frames =
      .ok (((frames.map (.of codes segment)).find? p).map f) := by
  induction frames with
  | nil => rfl
  | cons r frames ih =>
    rw [Frame.firstAnswer, Frame.view_eq_of (hk r List.mem_cons_self)]
    have hrest := ih fun q hq => hk q (List.mem_cons_of_mem _ hq)
    cases hp : p (.of codes segment r) with
    | true => simp [hp, bind, Except.bind, pure, Except.pure]
    | false => simp [hp, bind, Except.bind, hrest]

theorem managedSp_eq {env : Surroundings}
    (hk : ∀ r ∈ t.stack.activeSegment.frames, r.IsKnown env.codes) :
    t.managedSp env = .ok ((t.managedFrame? env.codes).map (·.sp)) :=
  firstAnswer_find _ _ fun r hr => hk r (List.mem_reverse.mp hr)

/-- The embedder's innermost scope has the exception, and no managed code runs before the scope. -/
def leavesTo (t : ThreadState) (exception : Value) (sp : Option Address) : Bool :=
  exception.isCatchable && t.externalCaught &&
    t.topTryCatch.any fun scope => sp.all (scope.address < ·)

theorem modifyTop_topTryCatch (f : TryCatch → TryCatch) :
    (t.modifyTop f).topTryCatch = t.topTryCatch.map f := by
  unfold modifyTop topTryCatch
  cases h : t.tryCatches.getLast? with
  | none => simp [h]
  | some top => simp

theorem modifyTop_stack (f : TryCatch → TryCatch) : (t.modifyTop f).stack = t.stack := by
  unfold modifyTop
  split <;> rfl

theorem propagate_stack (handler : HandlerType) : (t.propagate handler).2.stack = t.stack := by
  unfold propagate
  split
  · rfl
  · rfl
  · rfl
  · dsimp only
    split <;> exact modifyTop_stack _

theorem propagate_elsewhere (hp : t.pending = some exception) {handler : HandlerType}
    (hh : handler ≠ .external) : (t.propagate handler).2 = { t with externalCaught := false } := by
  cases handler with
  | managed => simp [propagate, hp]
  | none => simp [propagate, hp]
  | external => exact absurd rfl hh

theorem propagate_uncatchable (hp : t.pending = some exception)
    (hc : exception.isCatchable = false) :
    (t.propagate .external).2 = { t with externalCaught := true }.modifyTop (·.terminate) := by
  simp [propagate, hp, hc]

theorem propagate_external (hp : t.pending = some exception) (hc : exception.isCatchable) :
    (t.propagate .external).2 =
      { t with externalCaught := true }.modifyTop (·.catchException exception t.message) := by
  simp [propagate, hp, hc]

/-- A scope that gets a catchable exception has it then, and may go on. -/
theorem propagate_leaves (hp : t.pending = some exception) (handler : HandlerType)
    (sp : Option Address) (h : (t.propagate handler).2.leavesTo exception sp) :
    exception.isCatchable ∧ ∃ scope, (t.propagate handler).2.topTryCatch = some scope ∧
      scope.exception = some exception ∧ scope.canContinue ∧ scope.hasTerminated = false ∧
      ∀ address, sp = some address → scope.address < address := by
  simp only [leavesTo, Bool.and_eq_true, Option.any_eq_true] at h
  obtain ⟨⟨hc, hcaught⟩, scope, hscope, habove⟩ := h
  refine ⟨hc, scope, hscope, ?_⟩
  by_cases hh : handler = .external
  · subst hh
    rw [propagate_external hp hc, modifyTop_topTryCatch] at hscope
    obtain ⟨before, -, rfl⟩ := Option.map_eq_some_iff.mp hscope
    refine ⟨rfl, rfl, rfl, ?_⟩
    rintro address rfl
    simpa using habove
  · rw [propagate_elsewhere hp hh] at hcaught
    cases hcaught

end ThreadState

namespace Isolate

open ScriptEngine.Action

variable {i : Isolate} {t : ThreadId} {data : ThreadData} {exception : Value}

/-- The thread after its exception left managed code, and whether the exception is scheduled. -/
def rescheduled (top : ThreadState) (exception : Value) (clear : Bool) : Bool × ThreadState :=
  if clear then (false, { top with externalCaught := false, pending := none })
  else (true, { top with pending := none, scheduled := some exception })

/-- The end of a rescheduling, once it is known whether the exception is cleared. -/
def finishReschedule (t : ThreadId) (top : ThreadState) (clear : Bool) : Action Isolate Bool :=
  if clear then do
    putTop t { top with externalCaught := false, pending := none }
    return false
  else do
    tryOnTop t (·.schedulePending)
    return true

theorem finishReschedule_outcome {top : ThreadState} (clear : Bool) (hd : i.thread? t = some data)
    (hp : top.pending = some exception) : (finishReschedule t top clear).outcome (i.setTop t top) =
      (.ok (rescheduled top exception clear).1,
        i.setTop t (rescheduled top exception clear).2) := by
  cases clear with
  | true =>
    have hput := setTop_setTop (i := i) (t := t) top
      { top with externalCaught := false, pending := none }
    exact congrArg (Prod.mk _) hput
  | false =>
    have hmove : top.schedulePending =
        .ok { top with pending := none, scheduled := some exception } := by
      rw [ThreadState.schedulePending, hp]
    have htry := outcome_tryOnTop (thread?_setTop top hd) hmove
    rw [setTop_setTop] at htry
    exact outcome_bind_ok htry

/-- The scope that has the exception gets control next if no managed frame is before it. -/
def decideReschedule (t : ThreadId) (top : ThreadState) (exception : Value) (clear : Bool) :
    Action Isolate Bool :=
  if exception.isCatchable && top.externalCaught then
    match top.topTryCatch with
    | none => finishReschedule t top clear
    | some scope => do
      let sp ← ofWalk (top.managedSp (← get).surroundings)
      if sp.all (scope.address < ·) then finishReschedule t top true
      else finishReschedule t top clear
  else finishReschedule t top clear

theorem reschedule_eq (clear : Bool) (hd : i.thread? t = some data)
    (hp : data.top.pending = some exception) :
    let top := (data.top.propagate (data.top.handlerType exception)).2
    (reschedule t clear).outcome i =
      (decideReschedule t top exception clear).outcome (i.setTop t top) := by
  unfold reschedule
  rw [outcome_bind_ok (outcome_top_of hd), hp]
  rfl

theorem decideReschedule_cases (top : ThreadState) (exception : Value) (clear : Bool) :
    (∃ e, (decideReschedule t top exception clear).outcome i = (.error (.fatal e), i)) ∨
    ∃ cleared, (decideReschedule t top exception clear).outcome i =
      (finishReschedule t top cleared).outcome i := by
  unfold decideReschedule
  split
  · split
    · exact .inr ⟨clear, rfl⟩
    · rename_i scope _
      rw [outcome_get_bind]
      cases top.managedSp i.surroundings with
      | error e => exact .inl ⟨e, rfl⟩
      | ok sp =>
        refine .inr ⟨sp.all (scope.address < ·) || clear, ?_⟩
        change (if sp.all (scope.address < ·) = true then finishReschedule t top true
          else finishReschedule t top clear).outcome i = _
        cases sp.all (scope.address < ·) <;> rfl
  · exact .inr ⟨clear, rfl⟩

/-- A rescheduling is refused, breaks off with the walk over the frames, or ends with the exception
scheduled or cleared. -/
theorem reschedule_state (t : ThreadId) (clear : Bool) (i : Isolate) :
    ((reschedule t clear).outcome i).2 = i ∨
    ∃ data exception, i.thread? t = some data ∧ data.top.pending = some exception ∧
      let top := (data.top.propagate (data.top.handlerType exception)).2
      (((reschedule t clear).outcome i).2 = i.setTop t top ∨
        ∃ cleared, ((reschedule t clear).outcome i).2 =
          i.setTop t (rescheduled top exception cleared).2) := by
  cases hd : i.thread? t with
  | none =>
    refine .inl ?_
    unfold reschedule
    rw [outcome_bind, outcome_top, hd]
  | some data =>
    cases hp : data.top.pending with
    | none =>
      refine .inl ?_
      unfold reschedule
      rw [outcome_bind_ok (outcome_top_of hd), hp]
      rfl
    | some exception =>
      refine .inr ⟨data, exception, rfl, hp, ?_⟩
      rw [reschedule_eq clear hd hp]
      rcases decideReschedule_cases (i := i.setTop t _) (t := t)
        (data.top.propagate (data.top.handlerType exception)).2 exception clear with
        ⟨e, hbroken⟩ | ⟨cleared, hend⟩
      · rw [hbroken]
        exact .inl rfl
      · rw [hend, finishReschedule_outcome cleared hd ((ThreadState.propagate_slots _).1.trans hp)]
        exact .inr ⟨cleared, rfl⟩

theorem reschedule_outcome (clear : Bool) (hd : i.thread? t = some data)
    (hp : data.top.pending = some exception)
    (hk : ∀ r ∈ data.top.stack.activeSegment.frames, r.IsKnown i.codes) :
    let top := (data.top.propagate (data.top.handlerType exception)).2
    let leaves := top.leavesTo exception ((data.top.managedFrame? i.codes).map (·.sp))
    (reschedule t clear).outcome i =
      (.ok (rescheduled top exception (clear || leaves)).1,
        i.setTop t (rescheduled top exception (clear || leaves)).2) := by
  intro top leaves
  have hstack : top.stack = data.top.stack := ThreadState.propagate_stack _
  have hsp : top.managedSp i.surroundings = .ok ((data.top.managedFrame? i.codes).map (·.sp)) := by
    rw [ThreadState.managedSp_eq (by rw [hstack]; exact hk), ThreadState.managedFrame?, hstack]
    rfl
  refine (reschedule_eq clear hd hp).trans (Eq.trans ?_ (finishReschedule_outcome (clear || leaves)
    hd ((ThreadState.propagate_slots _).1.trans hp)))
  change (decideReschedule t top exception clear).outcome (i.setTop t top) = _
  unfold decideReschedule
  by_cases hcaught : (exception.isCatchable && top.externalCaught) = true
  · rw [if_pos hcaught]
    cases hscope : top.topTryCatch with
    | none =>
      have hleaves : leaves = false := by simp [leaves, ThreadState.leavesTo, hscope]
      rw [hleaves, Bool.or_false]
    | some scope =>
      have hleaves : leaves =
          ((data.top.managedFrame? i.codes).map (·.sp)).all (scope.address < ·) := by
        simp [leaves, ThreadState.leavesTo, hscope, hcaught]
      change (ofWalk (top.managedSp i.surroundings) >>= _).outcome _ = _
      rw [hsp]
      change (if ((data.top.managedFrame? i.codes).map (·.sp)).all (scope.address < ·) = true
        then finishReschedule t top true else finishReschedule t top clear).outcome _ = _
      rw [← hleaves]
      cases leaves <;> simp
  · have hleaves : leaves = false := by
      rw [Bool.not_eq_true] at hcaught
      simp [leaves, ThreadState.leavesTo, hcaught]
    rw [if_neg hcaught, hleaves, Bool.or_false]

/-- What control that left managed code with an exception pending makes of it. -/
structure LeftManagedCode (codes : CodeRegistry) (exception : Value) (clear : Bool)
    (before : ThreadState) (moved : Bool) (after : ThreadState) : Prop where
  free : after.pending = none
  moved_iff : moved = true ↔ after.scheduled = some exception
  /-- Without a request to clear it, an exception is dropped for a scope that has it. -/
  caught : moved = false → clear = false → exception.isCatchable ∧
    ∃ scope, after.topTryCatch = some scope ∧ scope.exception = some exception ∧
      scope.canContinue ∧ scope.hasTerminated = false ∧
      ∀ f, before.managedFrame? codes = some f → scope.address < f.sp
  termination : exception = .termination → clear = false → moved = true

theorem reschedule_leaves (clear : Bool) (hd : i.thread? t = some data)
    (he : data.top.Exclusive) (hp : data.top.pending = some exception)
    (hk : ∀ r ∈ data.top.stack.activeSegment.frames, r.IsKnown i.codes) :
    ∃ moved after, (reschedule t clear).outcome i = (.ok moved, i.setTop t after) ∧
      LeftManagedCode i.codes exception clear data.top moved after := by
  have hs : data.top.scheduled = none := by
    rcases he with h | h
    · rw [hp] at h
      cases h
    · exact h
  refine ⟨_, _, reschedule_outcome clear hd hp hk, ?_⟩
  have hfree : (data.top.propagate (data.top.handlerType exception)).2.scheduled = none :=
    (ThreadState.propagate_slots _).2.trans hs
  have hleaves := ThreadState.propagate_leaves hp (data.top.handlerType exception)
    ((data.top.managedFrame? i.codes).map (·.sp))
  generalize (data.top.propagate (data.top.handlerType exception)).2 = top at hfree hleaves ⊢
  by_cases hclear : (clear ||
      top.leavesTo exception ((data.top.managedFrame? i.codes).map (·.sp))) = true
  · rw [hclear]
    refine ⟨rfl, by simp [rescheduled, hfree], ?_, ?_⟩
    · rintro - rfl
      obtain ⟨hc, scope, hscope, hexception, hcontinue, hterminated, habove⟩ :=
        hleaves (by simpa using hclear)
      refine ⟨hc, scope, hscope, hexception, hcontinue, hterminated, ?_⟩
      intro f hf
      exact habove f.sp (by rw [hf, Option.map_some])
    · rintro rfl rfl
      simp [ThreadState.leavesTo, Value.isCatchable] at hclear
  · rw [Bool.not_eq_true] at hclear
    rw [hclear]
    exact ⟨rfl, by simp [rescheduled], nofun, fun _ _ => rfl⟩

theorem propagate_outcome (hd : i.thread? t = some data)
    (hp : data.top.pending = some exception) : (propagate t).outcome i =
      (.ok (data.top.propagate (data.top.handlerType exception)).1,
        i.setTop t (data.top.propagate (data.top.handlerType exception)).2) := by
  have hpropagate : data.top.propagatePending =
      .ok (data.top.propagate (data.top.handlerType exception)) := by
    rw [ThreadState.propagatePending, hp]
  unfold propagate
  rw [outcome_bind_ok (outcome_top_of hd), hpropagate]
  rfl

theorem promote_outcome (hd : i.thread? t = some data)
    (hs : data.top.scheduled = some exception) : (promote t).outcome i =
      (.ok .raised, i.setTop t { data.top with scheduled := none, pending := some exception }) := by
  have hcleared := thread?_setTop data.top.clearScheduled hd
  have hpending := outcome_setPending exception hcleared rfl
  rw [setTop_setTop] at hpending
  unfold promote
  rw [outcome_bind_ok (outcome_top_of hd), hs]
  exact outcome_bind_ok hpending

/-- A throw that only a callback of the embedder sees ends with the exception scheduled. -/
theorem scheduleThrow_outcome {i' : Isolate} {data' : ThreadData}
    (hr : (raise t exception none).outcome i = (.ok .raised, i'))
    (hd : i'.thread? t = some data') (hp : data'.top.pending = some exception) :
    (scheduleThrow t exception).outcome i = (.ok (), i'.setTop t
      { (data'.top.propagate (data'.top.handlerType exception)).2 with
        externalCaught := false, pending := none, scheduled := some exception }) := by
  have hpending : (data'.top.propagate (data'.top.handlerType exception)).2.pending =
      some exception := (ThreadState.propagate_slots _).1.trans hp
  unfold scheduleThrow
  rw [outcome_bind_ok hr]
  refine outcome_tryOnTop hd ?_
  dsimp only
  rw [if_pos (by rw [hpending]; rfl), ThreadState.schedulePending]
  dsimp only
  rw [hpending]

/-- An exception that the embedder schedules and promotes ends up as a raised one that was handed
on, but the scope that got it does not count as having caught it. -/
theorem scheduleThrow_promote (hd : i.thread? t = some data) (hs : data.top.scheduled = none)
    (hraise : ∀ e i', (raise t exception none).outcome i ≠ (.error (.fatal e), i')) :
    ∃ done i' data',
      (raise t exception none >>= fun _ => propagate t).outcome i = (.ok done, i') ∧
      i'.thread? t = some data' ∧
      (scheduleThrow t exception >>= fun _ => promote t).outcome i =
        (.ok .raised, i'.setTop t { data'.top with externalCaught := false }) := by
  rcases raise_outcome exception none hd hs with ⟨e, hfatal⟩ |
    ⟨result, message, heap, events, hraised, hresult, -⟩
  · exact absurd hfatal (hraise e _)
  rcases hresult with rfl | ⟨e, rfl⟩
  · generalize hi : ({ i.setTop t (data.top.withRaised message exception) with
      heap := heap, events := events } : Isolate) = raised at hraised
    have hattached : raised.thread? t =
        some { data with top := data.top.withRaised message exception } := by
      rw [← hi]
      exact thread?_setTop _ hd
    let top := data.top.withRaised message exception
    let handed := (top.propagate (top.handlerType exception)).2
    have hpending : handed.pending = some exception := (ThreadState.propagate_slots _).1
    have hfree : handed.scheduled = none := (ThreadState.propagate_slots _).2.trans hs
    refine ⟨_, _, _, (outcome_bind_ok hraised).trans (propagate_outcome hattached rfl),
      thread?_setTop handed hattached, ?_⟩
    have hscheduled := thread?_setTop { handed with
      externalCaught := false, pending := none, scheduled := some exception } hattached
    rw [outcome_bind_ok (scheduleThrow_outcome hraised hattached rfl),
      promote_outcome hscheduled rfl, setTop_setTop, setTop_setTop]
    congr 2
    change { handed with externalCaught := false, pending := some exception, scheduled := none } =
      { handed with externalCaught := false }
    rw [← hpending, ← hfree]
  · exact absurd hraised (hraise e _)

end Isolate

namespace SlotOperation

open ScriptEngine.Action

/-- States that some operations come to from new threads. -/
def Reachable (h : Hosted) : Prop :=
  ∃ start ops, (∀ t data, start.isolate.thread? t = some data → data.top = {}) ∧ h = run start ops

theorem Reachable.exclusive {h : Hosted} (hr : Reachable h) : ExclusiveSlots h := by
  obtain ⟨start, ops, hnew, rfl⟩ := hr
  refine ExclusiveSlots.run (fun t data hd => ?_) ops
  rw [hnew t data hd]
  exact .inl rfl

/-- An exception that moves between the slots of a thread is not lost. A rescheduled one is
scheduled then, or cleared on request, or the innermost scope of the embedder has it. A scheduled
and promoted one is pending as if it had been raised and handed on. -/
theorem Reachable.exception_kept {h : Hosted} (hr : Reachable h) {t : ThreadId} {data : ThreadData}
    (hd : h.isolate.thread? t = some data) (exception : Value) :
    (∀ clear, data.top.pending = some exception →
      (∀ r ∈ data.top.stack.activeSegment.frames, r.IsKnown h.isolate.codes) →
      ∃ moved after,
        (Isolate.reschedule t clear).outcome h.isolate = (.ok moved, h.isolate.setTop t after) ∧
        Isolate.LeftManagedCode h.isolate.codes exception clear data.top moved after) ∧
    (data.top.scheduled = none →
      (∀ e i', (Isolate.raise t exception none).outcome h.isolate ≠ (.error (.fatal e), i')) →
      ∃ done i' data',
        (Isolate.raise t exception none >>= fun _ => Isolate.propagate t).outcome h.isolate =
          (.ok done, i') ∧
        i'.thread? t = some data' ∧
        (Isolate.scheduleThrow t exception >>= fun _ => Isolate.promote t).outcome h.isolate =
          (.ok .raised, i'.setTop t { data'.top with externalCaught := false })) := by
  refine ⟨fun clear hp hk => ?_, fun hs hraise => ?_⟩
  · exact Isolate.reschedule_leaves clear hd (hr.exclusive t data hd) hp hk
  · exact Isolate.scheduleThrow_promote hd hs hraise

/-- A thread in an interpreted frame, with an exception and a scope of the embedder to catch it. -/
def throwing : Hosted :=
  run { withNewThread with
      isolate := { withNewThread.isolate with codes := Dispatch.Example.codes } }
    [("main", .pushFrame { frame := Dispatch.Example.guarded }),
      ("main", .registerTryCatch { id := 1 }),
      ("main", .raise (.smi 7) none)]

theorem reachable_throwing : Reachable throwing := by
  refine ⟨_, _, ?_, rfl⟩
  exact fun t data hd => new_withNewThread t data hd

/-- The scope has the exception; a throw by the embedder is pending once it is promoted. -/
theorem exception_kept_by_scope : ∃ data after,
    throwing.isolate.thread? "main" = some data ∧ data.top.pending = some (.smi 7) ∧
    (Isolate.reschedule "main" false).outcome throwing.isolate =
      (.ok false, throwing.isolate.setTop "main" after) ∧
    Isolate.LeftManagedCode throwing.isolate.codes (.smi 7) false data.top false after ∧
    ∃ done i' data',
      (Isolate.raise "main" (.smi 7) none >>= fun _ => Isolate.propagate "main").outcome
        throwing.isolate = (.ok done, i') ∧
      i'.thread? "main" = some data' ∧
      (Isolate.scheduleThrow "main" (.smi 7) >>= fun _ => Isolate.promote "main").outcome
        throwing.isolate =
          (.ok .raised, i'.setTop "main" { data'.top with externalCaught := false }) := by
  obtain ⟨data, hd⟩ : ∃ data, throwing.isolate.thread? "main" = some data := ⟨_, rfl⟩
  obtain ⟨hreschedule, hpromote⟩ := reachable_throwing.exception_kept hd (.smi 7)
  have hp : data.top.pending = some (.smi 7) := by
    cases hd
    rfl
  have hknown : ∀ r ∈ data.top.stack.activeSegment.frames, r.IsKnown throwing.isolate.codes := by
    cases hd
    intro r hr _
    obtain rfl : r = _ := List.mem_singleton.mp hr
    exact ⟨_, rfl⟩
  obtain ⟨moved, after, hrun, hleft⟩ := hreschedule false hp hknown
  obtain rfl : false = moved := Except.ok.inj (congrArg Prod.fst hrun)
  refine ⟨data, after, hd, hp, hrun, hleft, hpromote ?_ ?_⟩
  · cases hd
    rfl
  · intro e i' hfatal
    cases congrArg Prod.fst hfatal

end SlotOperation

end ScriptEngine

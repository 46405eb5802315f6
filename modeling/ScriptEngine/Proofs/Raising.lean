import ScriptEngine.Proofs.Evolution

namespace ScriptEngine

namespace ThreadState

/-- A raise of the exception makes a message. -/
def makesMessage (t : ThreadState) (exception : Value) : Bool :=
  t.wantsMessage && !t.rethrowing && exception.isCatchable

/-- The thread once the exception is pending, with the message that is pending then. -/
def withRaised (t : ThreadState) (message : Option Value) (exception : Value) : ThreadState :=
  { t with rethrowing := false, message := message, pending := some exception }

end ThreadState

namespace Isolate

open ScriptEngine.Action

variable {i : Isolate} {t : ThreadId} {data : ThreadData} {α : Type}

theorem setTop_setTop (inner outer : ThreadState) :
    (i.setTop t inner).setTop t outer = i.setTop t outer := by
  simp only [setTop, modifyThread, List.map_map]
  congr 1
  refine List.map_congr_left fun entry _ => ?_
  obtain ⟨name, data⟩ := entry
  by_cases hn : name = t <;> simp [hn]

theorem thread?_setTop (top : ThreadState) (hd : i.thread? t = some data) :
    (i.setTop t top).thread? t = some { data with top := top } := by
  rw [setTop, thread?_modifyThread, if_pos rfl, hd, Option.map_some]

theorem thread?_setTop_ne {t' : ThreadId} (top : ThreadState) (ht : t' ≠ t) :
    (i.setTop t top).thread? t' = i.thread? t' := by
  rw [setTop, thread?_modifyThread, if_neg ht]

theorem outcome_top_of (hd : i.thread? t = some data) : (top t).outcome i = (.ok data.top, i) := by
  rw [outcome_top, hd]

theorem outcome_tryOnTop {f : ThreadState → Except IsolateError ThreadState} {top : ThreadState}
    (hd : i.thread? t = some data) (hf : f data.top = .ok top) :
    (tryOnTop t f).outcome i = (.ok (), i.setTop t top) := by
  unfold tryOnTop
  rw [outcome_bind, outcome_top_of hd]
  dsimp only
  rw [outcome_bind, hf]
  rfl

theorem outcome_onTop {f : ThreadState → α × ThreadState} (hd : i.thread? t = some data) :
    (onTop t f).outcome i = (.ok (f data.top).1, i.setTop t (f data.top).2) := by
  unfold onTop
  rw [outcome_bind, outcome_top_of hd]
  rfl

theorem outcome_setPending (exception : Value) (hd : i.thread? t = some data)
    (hs : data.top.scheduled = none) : (tryOnTop t (·.setPending exception)).outcome i =
      (.ok (), i.setTop t { data.top with pending := some exception }) := by
  refine outcome_tryOnTop hd ?_
  simp [ThreadState.setPending, hs]

/-- The message of a throw is about what is thrown. -/
theorem describeThrow_exception {top : ThreadState} {exception : Value}
    {location : Option Location} {m : Message} {uncaught : Bool}
    (h : i.describeThrow top exception location = .ok (m, uncaught)) : m.exception = exception := by
  simp only [describeThrow, bind, Except.bind, pure, Except.pure] at h
  grind [Heap.messageFor]

/-- Over an uncaught exception the process ends, or the embedder was asked. -/
theorem abortUncaught_outcome (exception : Value) : ∃ result events,
    (abortUncaught t exception).outcome i = (result, { i with events := events }) ∧
    (result = .ok () ∨ ∃ e, result = .error (.fatal e)) := by
  unfold abortUncaught
  rw [outcome_get_bind]
  cases i.options.abortAnswer with
  | none => exact ⟨_, i.events, rfl, .inr ⟨_, rfl⟩⟩
  | some answer =>
    cases answer with
    | true => exact ⟨_, _, rfl, .inr ⟨_, rfl⟩⟩
    | false => exact ⟨_, _, rfl, .inl rfl⟩

/-- The end of a raise, whether or not it made a message. -/
def finishRaise (t : ThreadId) (exception : Value) (isUncaught : Bool) : Action Isolate Value := do
  tryOnTop t (·.setPending exception)
  if isUncaught then abortUncaught t exception
  return .raised

theorem finishRaise_outcome (exception : Value) (isUncaught : Bool) (hd : i.thread? t = some data)
    (hs : data.top.scheduled = none) : ∃ result events,
      (finishRaise t exception isUncaught).outcome i =
        (result, { i.setTop t { data.top with pending := some exception } with events := events }) ∧
      (result = .ok .raised ∨ ∃ e, result = .error (.fatal e)) := by
  unfold finishRaise
  rw [outcome_bind_ok (outcome_setPending exception hd hs)]
  cases isUncaught with
  | false => exact ⟨_, _, rfl, .inl rfl⟩
  | true =>
    obtain ⟨result, events, habort, hresult⟩ := abortUncaught_outcome
      (i := i.setTop t { data.top with pending := some exception }) (t := t) exception
    simp only [if_true]
    rw [outcome_bind, habort]
    rcases hresult with rfl | ⟨e, rfl⟩
    · exact ⟨_, events, rfl, .inl rfl⟩
    · exact ⟨_, events, rfl, .inr ⟨e, rfl⟩⟩

section Raise

variable {exception : Value} {location : Option Location}

theorem raise_silent (hd : i.thread? t = some data) (hs : data.top.scheduled = none)
    (hm : data.top.makesMessage exception = false) :
    (raise t exception location).outcome i =
      (finishRaise t exception false).outcome
        (i.setTop t { data.top with rethrowing := false }) := by
  unfold raise
  rw [outcome_bind, outcome_top_of hd]
  dsimp only
  rw [if_neg (by simp [hs])]
  change (if data.top.makesMessage exception = true then _ else _ : Action Isolate Value).outcome
    _ = _
  rw [hm]
  rfl

theorem raise_described (hd : i.thread? t = some data) (hs : data.top.scheduled = none)
    (hm : data.top.makesMessage exception = true) :
    (raise t exception location).outcome i =
      match i.describeThrow data.top exception location with
      | .error e => (.error (.fatal e), i.setTop t { data.top with rethrowing := false })
      | .ok (m, uncaught) =>
        (finishRaise t exception uncaught).outcome
          ({ i with heap := (i.heap.allocate (.message m)).2 }.setTop t { data.top with
            rethrowing := false, message := some (i.heap.allocate (.message m)).1 }) := by
  unfold raise
  rw [outcome_bind, outcome_top_of hd]
  dsimp only
  rw [if_neg (by simp [hs])]
  change (if data.top.makesMessage exception = true then _ else _ : Action Isolate Value).outcome
    _ = _
  rw [if_pos hm]
  cases hw : i.describeThrow data.top exception location with
  | error e =>
    rw [outcome_get_bind]
    change (ofWalk (i.describeThrow data.top exception location) >>= _).outcome _ = _
    rw [hw]
    rfl
  | ok described =>
    rw [outcome_get_bind]
    change (ofWalk (i.describeThrow data.top exception location) >>= _).outcome _ = _
    rw [hw]
    obtain ⟨m, uncaught⟩ := described
    let described : Isolate := { i with heap := (i.heap.allocate (.message m)).2 }
    have hquiet : (described.setTop t { data.top with rethrowing := false }).thread? t = some
        { data with top := { data.top with rethrowing := false } } :=
      thread?_setTop { data.top with rethrowing := false } hd
    let message := some (i.heap.allocate (.message m)).1
    have hmessage : (tryOnTop t fun top => .ok { top with message := message }).outcome
        (described.setTop t { data.top with rethrowing := false }) =
        (.ok (), described.setTop t { data.top with rethrowing := false, message := message }) := by
      have h := outcome_tryOnTop (f := fun top => .ok { top with message := message }) hquiet rfl
      rw [setTop_setTop] at h
      exact h
    change (tryOnTop t (fun top => .ok { top with message := message }) >>= fun _ =>
      finishRaise t exception uncaught).outcome _ = _
    exact outcome_bind_ok hmessage

end Raise

theorem raise_unattached (exception : Value) (location : Option Location)
    (hd : i.thread? t = none) : (raise t exception location).outcome i =
      (.error (.refused .threadNotAttached), i) := by
  unfold raise
  rw [outcome_bind, outcome_top, hd]

/-- Raising what no managed code can catch makes no message, and asks nobody. -/
theorem raise_uncatchable (exception : Value) (location : Option Location)
    (hu : exception.isCatchable = false) (hd : i.thread? t = some data)
    (hs : data.top.scheduled = none) : (raise t exception location).outcome i =
      (.ok .raised, i.setTop t (data.top.withRaised data.top.message exception)) := by
  have hm : data.top.makesMessage exception = false := by simp [ThreadState.makesMessage, hu]
  have hquiet := thread?_setTop { data.top with rethrowing := false } hd
  have hpending := outcome_setPending exception hquiet hs
  rw [raise_silent hd hs hm, finishRaise, outcome_bind_ok hpending, setTop_setTop]
  rfl

/-- The message that is pending after a raise, and the heap then. A new message is about the
exception; without one the old message stays pending. -/
def Describes (i : Isolate) (top : ThreadState) (exception : Value) (message : Option Value)
    (heap : Heap) : Prop :=
  if top.makesMessage exception then ∃ m : Message, m.exception = exception ∧
    message = some (i.heap.allocate (.message m)).1 ∧ heap = (i.heap.allocate (.message m)).2
  else message = top.message ∧ heap = i.heap

/-- A raise fails before the exception is pending when the walk over the frames breaks off. -/
theorem raise_outcome (exception : Value) (location : Option Location)
    (hd : i.thread? t = some data) (hs : data.top.scheduled = none) :
    (∃ e, (raise t exception location).outcome i =
      (.error (.fatal e), i.setTop t { data.top with rethrowing := false })) ∨
    ∃ result message heap events, (raise t exception location).outcome i =
      (result, { i.setTop t (data.top.withRaised message exception) with
        heap := heap, events := events }) ∧
      (result = .ok .raised ∨ ∃ e, result = .error (.fatal e)) ∧
      Describes i data.top exception message heap := by
  unfold Describes
  cases hm : data.top.makesMessage exception with
  | false =>
    have hquiet := thread?_setTop { data.top with rethrowing := false } hd
    obtain ⟨result, events, hfinish, hresult⟩ :=
      finishRaise_outcome exception false hquiet (by exact hs)
    rw [setTop_setTop] at hfinish
    refine .inr ⟨result, data.top.message, i.heap, events, ?_, hresult, by simp⟩
    rw [raise_silent hd hs hm, hfinish]
    rfl
  | true =>
    rw [raise_described hd hs hm]
    cases hw : i.describeThrow data.top exception location with
    | error e => exact .inl ⟨e, rfl⟩
    | ok described =>
      obtain ⟨m, uncaught⟩ := described
      let holding : Isolate := { i with heap := (i.heap.allocate (.message m)).2 }
      have hquiet : (holding.setTop t _).thread? t = some _ := thread?_setTop
        { data.top with rethrowing := false, message := some (i.heap.allocate (.message m)).1 } hd
      obtain ⟨result, events, hfinish, hresult⟩ :=
        finishRaise_outcome exception uncaught hquiet (by exact hs)
      rw [setTop_setTop] at hfinish
      refine .inr ⟨result, _, holding.heap, events, hfinish, hresult, ?_⟩
      exact ⟨m, describeThrow_exception hw, rfl, rfl⟩

end Isolate

end ScriptEngine

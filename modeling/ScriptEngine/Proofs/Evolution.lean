import ScriptEngine.Exception.Unwind
import ScriptEngine.Isolate.Interrupt

namespace ScriptEngine

/-- A way in which a state may change: staying as it is, and changing twice, are changes too. -/
structure Evolution (σ : Type) where
  rel : σ → σ → Prop
  refl (s : σ) : rel s s
  trans {a b c : σ} (h : rel a b) (h' : rel b c) : rel a c

namespace Action

variable {σ α β : Type} {E : Evolution σ}

theorem outcome_bind (act : Action σ α) (f : α → Action σ β) (s : σ) :
    (act >>= f).outcome s =
      match act.outcome s with
      | (.ok a, s') => (f a).outcome s'
      | (.error e, s') => (.error e, s') := by
  show (ExceptT.bindCont f (act.run.run s).1).run (act.run.run s).2 = _
  unfold outcome
  cases act.run.run s with
  | mk result s' => cases result <;> rfl

theorem outcome_bind_ok {act : Action σ α} {f : α → Action σ β} {s s' : σ} {a : α}
    (h : act.outcome s = (.ok a, s')) : (act >>= f).outcome s = (f a).outcome s' := by
  rw [outcome_bind, h]

theorem outcome_bind_error {act : Action σ α} {f : α → Action σ β} {s s' : σ} {e : Failure}
    (h : act.outcome s = (.error e, s')) : (act >>= f).outcome s = (.error e, s') := by
  rw [outcome_bind, h]

theorem outcome_ignore (act : Action σ α) (s : σ) :
    (ignore act).outcome s = ((act.outcome s).1.map fun _ => (), (act.outcome s).2) := by
  unfold ignore
  rw [outcome_bind]
  cases act.outcome s with
  | mk result s' => cases result <;> rfl

/-- Successes and failures alike change the state in this way. -/
def Evolves (E : Evolution σ) (act : Action σ α) : Prop := ∀ s, E.rel s (act.outcome s).2

theorem evolves_pure (a : α) : Evolves E (pure a) := E.refl

theorem evolves_refuse (e : IsolateError) : Evolves E (refuse e : Action σ α) := E.refl

theorem evolves_die (e : FatalError) : Evolves E (die e : Action σ α) := E.refl

theorem evolves_ofWalk (w : Walk α) : Evolves E (ofWalk w : Action σ α) := by
  cases w with
  | ok a => exact evolves_pure a
  | error e => exact evolves_die e

theorem evolves_throw (e : Failure) : Evolves E (throw e : Action σ α) := E.refl

theorem evolves_get : Evolves E (get : Action σ σ) := E.refl

theorem evolves_modify {f : σ → σ} (h : ∀ s, E.rel s (f s)) :
    Evolves E (modify f : Action σ PUnit) := h

theorem evolves_modifyGet {f : σ → α × σ} (h : ∀ s, E.rel s (f s).2) :
    Evolves E (modifyGet f : Action σ α) := h

/-- From one state, an action and then another that always evolves. -/
theorem Evolves.bind_at {act : Action σ α} {f : α → Action σ β} {s : σ}
    (h : E.rel s (act.outcome s).2) (hf : ∀ a, Evolves E (f a)) :
    E.rel s ((act >>= f).outcome s).2 := by
  rw [outcome_bind]
  cases hact : act.outcome s with
  | mk result s' =>
    rw [hact] at h
    cases result with
    | ok a => exact E.trans h (hf a s')
    | error e => exact h

theorem Evolves.bind {act : Action σ α} {f : α → Action σ β} (h : Evolves E act)
    (hf : ∀ a, Evolves E (f a)) : Evolves E (act >>= f) := fun s => bind_at (h s) hf

theorem outcome_get_bind (f : σ → Action σ β) (s : σ) :
    (get >>= f).outcome s = (f s).outcome s := rfl

/-- What follows a look at the state need only evolve that state. -/
theorem evolves_get_bind {f : σ → Action σ β} (h : ∀ s, E.rel s ((f s).outcome s).2) :
    Evolves E (get >>= f) := h

/-- An action that may be left out. -/
theorem evolves_when {c : Prop} [Decidable c] {first : Action σ Unit} {rest : Action σ α}
    (h : Evolves E first) (hrest : Evolves E rest) :
    Evolves E (if c then first >>= fun _ => rest else rest) := by
  split
  · exact h.bind fun _ => hrest
  · exact hrest

theorem Evolves.ignore {act : Action σ α} (h : Evolves E act) : Evolves E (ignore act) :=
  h.bind fun _ => evolves_pure ()

theorem Evolves.attempt {act : Action σ α} (h : Evolves E act) : Evolves E (attempt act) := h

end Action

namespace Isolate

open ScriptEngine.Action

/-- No thread is attached anew, and the state of each one changes in a way of its own. -/
def threadwise (E : ThreadId → Evolution ThreadState) : Evolution Isolate where
  rel i i' := ∀ t data', i'.thread? t = some data' →
    ∃ data, i.thread? t = some data ∧ (E t).rel data.top data'.top
  refl i t data h := ⟨data, h, (E t).refl data.top⟩
  trans h h' t data'' hc := by
    obtain ⟨data', hb, hbc⟩ := h' t data'' hc
    obtain ⟨data, ha, hab⟩ := h t data' hb
    exact ⟨data, ha, (E t).trans hab hbc⟩

variable {E : ThreadId → Evolution ThreadState} {i i' : Isolate} {t : ThreadId} {α β : Type}

theorem thread?_modifyThread (f : ThreadData → ThreadData) (t' : ThreadId) :
    (i.modifyThread t f).thread? t' = if t' = t then (i.thread? t').map f else i.thread? t' := by
  unfold thread? modifyThread
  dsimp only
  induction i.threads with
  | nil => simp
  | cons entry rest ih =>
    obtain ⟨name, data⟩ := entry
    rw [List.map_cons]
    by_cases hn : t' = name
    · subst hn
      by_cases ht : t' = t <;> simp [ht]
    · have hne : (t' == name) = false := by simpa using hn
      by_cases ht : name = t <;> simp only [ht, if_true, if_false, List.lookup_cons] at hne ih ⊢
      · simp only [hne, ih]
      · simp only [hne, ih]

theorem threadwise_of_threads (h : i'.threads = i.threads) : (threadwise E).rel i i' := by
  intro t data hd
  rw [thread?, h] at hd
  exact ⟨data, hd, (E t).refl data.top⟩

theorem threadwise_setTop {top : ThreadState}
    (h : ∀ data, i.thread? t = some data → (E t).rel data.top top) :
    (threadwise E).rel i (i.setTop t top) := by
  intro t' data' hd
  rw [setTop, thread?_modifyThread] at hd
  by_cases ht : t' = t
  · subst ht
    rw [if_pos rfl] at hd
    obtain ⟨data, hdata, rfl⟩ := Option.map_eq_some_iff.mp hd
    exact ⟨data, hdata, h data hdata⟩
  · rw [if_neg ht] at hd
    exact ⟨data', hd, (E t').refl data'.top⟩

/-- Of a thread that is attached, only its own state has to change in its way. -/
theorem threadwise_setTop_of {top : ThreadState} {data : ThreadData}
    (hd : i.thread? t = some data) (h : (E t).rel data.top top) :
    (threadwise E).rel i (i.setTop t top) := by
  refine threadwise_setTop fun data' hd' => ?_
  cases hd.symm.trans hd'
  exact h

theorem threadwise_mono {E' : ThreadId → Evolution ThreadState}
    (h : ∀ t a b, (E t).rel a b → (E' t).rel a b) {act : Action Isolate α}
    (ha : Evolves (threadwise E) act) : Evolves (threadwise E') act := by
  intro i t data' hd
  obtain ⟨data, hdata, hrel⟩ := ha i t data' hd
  exact ⟨data, hdata, h t _ _ hrel⟩

theorem outcome_top (t : ThreadId) (i : Isolate) : (top t).outcome i =
    match i.thread? t with
    | none => (.error (.refused .threadNotAttached), i)
    | some data => (.ok data.top, i) := by
  show (match i.thread? t with
    | none => Action.refuse .threadNotAttached
    | some d => pure d.top : Action Isolate ThreadState).outcome i = _
  cases i.thread? t <;> rfl

theorem evolves_top {E : Evolution Isolate} : Evolves E (top t) := by
  intro i
  rw [outcome_top]
  cases i.thread? t <;> exact E.refl i

/-- What follows a look at a thread need only evolve an isolate with that thread in that state. -/
theorem evolves_top_bind {E : Evolution Isolate} {f : ThreadState → Action Isolate β}
    (h : ∀ i data, i.thread? t = some data → E.rel i ((f data.top).outcome i).2) :
    Evolves E (top t >>= f) := by
  intro i
  rw [outcome_bind, outcome_top]
  cases hd : i.thread? t with
  | none => exact E.refl i
  | some data => exact h i data hd

theorem evolves_onTop {f : ThreadState → α × ThreadState} (h : ∀ top, (E t).rel top (f top).2) :
    Evolves (threadwise E) (onTop t f) := by
  refine evolves_top_bind fun i data hd => ?_
  exact Evolves.bind_at (threadwise_setTop_of hd (h data.top)) fun _ => evolves_pure _

theorem evolves_tryOnTop {f : ThreadState → Except IsolateError ThreadState}
    (h : ∀ top top', f top = .ok top' → (E t).rel top top') :
    Evolves (threadwise E) (tryOnTop t f) := by
  refine evolves_top_bind fun i data hd => ?_
  rw [outcome_bind]
  cases hf : f data.top with
  | error e => exact (threadwise E).refl i
  | ok top => exact threadwise_setTop_of hd (h data.top top hf)

theorem tryOnTop_refused {f : ThreadState → Except IsolateError ThreadState} {data : ThreadData}
    {e : IsolateError} (hd : i.thread? t = some data) (hf : f data.top = .error e) :
    (tryOnTop t f).outcome i = (.error (.refused e), i) := by
  unfold tryOnTop
  rw [outcome_bind, outcome_top, hd]
  dsimp only
  rw [outcome_bind, hf]
  rfl

theorem evolves_putTop {top : ThreadState} (h : ∀ s, (E t).rel s top) :
    Evolves (threadwise E) (putTop t top) :=
  fun _ => threadwise_setTop fun data _ => h data.top

theorem evolves_modify_of_threads {f : Isolate → Isolate}
    (h : ∀ i, (f i).threads = i.threads) : Evolves (threadwise E) (modify f) :=
  evolves_modify fun i => threadwise_of_threads (h i)

theorem evolves_allocate (o : HeapObject) : Evolves (threadwise E) (allocate o) :=
  evolves_modifyGet fun _ => threadwise_of_threads rfl

theorem evolves_abortUncaught (exception : Value) :
    Evolves (threadwise E) (abortUncaught t exception) := by
  refine evolves_get_bind fun i => ?_
  split
  · exact (threadwise E).refl i
  · refine Evolves.bind_at (threadwise_of_threads rfl) fun _ => ?_
    split
    · exact evolves_die _
    · exact evolves_pure _

/-- A raise changes a thread up to three times: it forgets about rethrowing, sets a message, and
sets the exception. -/
theorem evolves_raise {exception : Value} {location : Option Location}
    (forgets : ∀ top, (E t).rel top { top with rethrowing := false })
    (describes : ∀ top message, (E t).rel top { top with message := some message })
    (sets : ∀ top top', top.setPending exception = .ok top' → (E t).rel top top') :
    Evolves (threadwise E) (raise t exception location) := by
  have hfinish : ∀ isUncaught : Bool, Evolves (threadwise E) (do
      tryOnTop t (·.setPending exception)
      if isUncaught then abortUncaught t exception
      return Value.raised) := by
    intro isUncaught
    refine (evolves_tryOnTop sets).bind fun _ => ?_
    cases isUncaught with
    | true => exact (evolves_abortUncaught exception).bind fun _ => evolves_pure _
    | false => exact evolves_pure _
  refine evolves_top_bind fun i data hd => ?_
  dsimp only
  split
  · exact (threadwise E).refl i
  · refine Evolves.bind_at ?_ fun _ => ?_
    · exact threadwise_setTop_of hd (forgets data.top)
    · split
      · refine evolves_get.bind fun i => (evolves_ofWalk _).bind fun (m, uncaught) => ?_
        refine (evolves_allocate _).bind fun message => ?_
        refine (evolves_tryOnTop fun top top' h => ?_).bind fun _ => hfinish uncaught
        cases h
        exact describes top message
      · exact hfinish false

theorem evolves_rethrow {exception : Value}
    (sets : ∀ top top', top.setPending exception = .ok top' → (E t).rel top top') :
    Evolves (threadwise E) (rethrow t exception) :=
  (evolves_tryOnTop sets).bind fun _ => evolves_pure _

end Isolate

namespace Hosted

open ScriptEngine.Action

/-- The isolate changes in some way, and its platform in any way. -/
def evolving (E : Evolution Isolate) : Evolution Hosted where
  rel h h' := E.rel h.isolate h'.isolate
  refl h := E.refl h.isolate
  trans h h' := E.trans h h'

variable {E : Evolution Isolate} {α : Type}

theorem evolves_onIsolate {act : Action Isolate α} (h : Evolves E act) :
    Evolves (evolving E) (onIsolate act) := fun s => h s.isolate

theorem evolves_modifyIsolate {f : Isolate → Isolate} (h : ∀ i, E.rel i (f i)) :
    Evolves (evolving E) (modifyIsolate f) := fun s => h s.isolate

theorem evolves_onBlobs (act : Action BlobRegistry α) : Evolves (evolving E) (onBlobs act) :=
  fun s => E.refl s.isolate

theorem evolves_modifyPlatform (f : Platform → Platform) :
    Evolves (evolving E) (modifyPlatform f) := fun s => E.refl s.isolate

/-- Whatever leaves the guard and each attached thread as it is, is a change of this kind. -/
def Inert (E : Evolution Isolate) : Prop :=
  ∀ i i' : Isolate, i'.guard = i.guard → (i'.threads = i.threads ∨ i'.threads = []) → E.rel i i'

/-- Whatever also leaves the callbacks that wait, is a change of this kind. -/
def Dormant (E : Evolution Isolate) : Prop :=
  ∀ i i' : Isolate, i'.guard = i.guard → i'.interrupts = i.interrupts →
    (i'.threads = i.threads ∨ i'.threads = []) → E.rel i i'

theorem Inert.dormant (hE : Inert E) : Dormant E := fun i i' hg _ => hE i i' hg

theorem inert_threadwise (E : ThreadId → Evolution ThreadState) : Inert (Isolate.threadwise E) := by
  rintro i i' - (hsame | hnone)
  · exact Isolate.threadwise_of_threads hsame
  · intro t data hd
    rw [Isolate.thread?, hnone] at hd
    cases hd

/-- The callbacks that wait stay. -/
def keepingInterrupts : Evolution Isolate where
  rel i i' := i'.interrupts = i.interrupts
  refl _ := rfl
  trans h h' := h'.trans h

theorem dormant_keepingInterrupts : Dormant keepingInterrupts := fun _ _ _ hi _ => hi

theorem evolves_modifyIsolate_of_threads {E : ThreadId → Evolution ThreadState}
    {f : Isolate → Isolate} (h : ∀ i, (f i).threads = i.threads) :
    Evolves (evolving (Isolate.threadwise E)) (modifyIsolate f) :=
  evolves_modifyIsolate fun i => Isolate.threadwise_of_threads (h i)

section Releasing

theorem Dormant.modifying (hE : Dormant E) {f : Isolate → Isolate}
    (hg : ∀ i, (f i).guard = i.guard) (hi : ∀ i, (f i).interrupts = i.interrupts)
    (ht : ∀ i, (f i).threads = i.threads) : Evolves (evolving E) (modifyIsolate f) :=
  evolves_modifyIsolate fun i => hE i (f i) (hg i) (hi i) (.inl (ht i))

theorem Dormant.detaching (hE : Dormant E) : Evolves (evolving E) detachSharedSpace := by
  refine evolves_get.bind fun h => ?_
  refine (hE.modifying (fun _ => by rfl) (fun _ => by rfl) fun _ => by rfl).bind fun _ => ?_
  split
  · exact evolves_pure _
  · exact evolves_modifyPlatform _
  · refine (evolves_modifyPlatform _).bind fun _ => ?_
    split
    · exact evolves_pure _
    · exact (evolves_ofWalk _).bind fun _ => evolves_modifyPlatform _

theorem Dormant.releasingCode (hE : Dormant E) : Evolves (evolving E) releaseCode := by
  refine (hE.modifying (fun _ => by rfl) (fun _ => by rfl) fun _ => by rfl).bind fun _ => ?_
  refine evolves_get.bind fun h => ?_
  dsimp only
  refine (hE.modifying (fun _ => by rfl) (fun _ => by rfl) fun _ => by rfl).bind fun _ => ?_
  split
  · exact evolves_pure _
  · exact evolves_modifyPlatform _

theorem Dormant.releasingBlob (hE : Dormant E) : Evolves (evolving E) releaseBlob := by
  refine evolves_get.bind fun h => ?_
  dsimp only
  refine (hE.modifying (fun _ => by rfl) (fun _ => by rfl) fun _ => by rfl).bind fun _ => ?_
  split
  · exact evolves_pure _
  · exact evolves_onBlobs _

/-- Taking an isolate apart detaches threads, and changes none that stays attached. -/
theorem Dormant.releasingAll (hE : Dormant E) : Evolves (evolving E) releaseAll := by
  refine (hE.modifying (fun _ => by rfl) (fun _ => by rfl) fun _ => by rfl).bind fun _ => ?_
  refine hE.detaching.bind fun _ => ?_
  refine (evolves_modifyIsolate fun i => ?_).bind fun _ => ?_
  · exact hE i _ rfl rfl (.inr rfl)
  refine hE.releasingCode.bind fun _ => ?_
  refine (hE.modifying (fun _ => by rfl) (fun _ => by rfl) fun _ => by rfl).bind fun _ => ?_
  refine hE.releasingBlob.bind fun _ => ?_
  exact hE.modifying (fun _ => rfl) (fun _ => rfl) fun _ => rfl

theorem Inert.modifying (hE : Inert E) {f : Isolate → Isolate}
    (hg : ∀ i, (f i).guard = i.guard) (ht : ∀ i, (f i).threads = i.threads) :
    Evolves (evolving E) (modifyIsolate f) :=
  evolves_modifyIsolate fun i => hE i (f i) (hg i) (.inl (ht i))

theorem Inert.droppingCallbacks {α : Type} (hE : Inert E)
    {onDrop : InterruptCallback → Action Hosted α}
    (hdrop : ∀ c, Evolves (evolving E) (onDrop c)) (callbacks : List InterruptCallback) :
    Evolves (evolving E) (dropCallbacks onDrop callbacks) := by
  induction callbacks with
  | nil => exact evolves_pure _
  | cons callback rest ih =>
    refine (hE.modifying (fun _ => by rfl) fun _ => by rfl).bind fun _ => ?_
    exact (hdrop callback).bind fun _ => ih.bind fun _ => evolves_pure _

theorem Inert.tearingDownWith {α : Type} (hE : Inert E)
    {onDrop : InterruptCallback → Action Hosted α} (hdrop : ∀ c, Evolves (evolving E) (onDrop c)) :
    Evolves (evolving E) (tearDownWith onDrop) := by
  have hall : Evolves (evolving E) (do
      setState .deinitializing
      releaseAll
      let dropped ← dropCallbacks onDrop (← get).isolate.interrupts
      modifyIsolate fun i => { i with listeners := [] }
      setState .deinitialized
      return dropped) := by
    refine (hE.modifying (fun _ => by rfl) fun _ => by rfl).bind fun _ => ?_
    refine hE.dormant.releasingAll.bind fun _ => ?_
    refine evolves_get.bind fun h => ?_
    refine (hE.droppingCallbacks hdrop _).bind fun _ => ?_
    refine (hE.modifying (fun _ => by rfl) fun _ => by rfl).bind fun _ => ?_
    exact (hE.modifying (fun _ => by rfl) fun _ => by rfl).bind fun _ => evolves_pure _
  refine evolves_get.bind fun h => ?_
  split
  · exact evolves_pure _
  · exact evolves_refuse _
  · exact evolves_refuse _
  · exact hall
  · exact hall
  · exact hall

theorem Inert.tearingDown (hE : Inert E) : Evolves (evolving E) tearDown :=
  (hE.tearingDownWith fun _ => evolves_pure ()).ignore

end Releasing

end Hosted

end ScriptEngine

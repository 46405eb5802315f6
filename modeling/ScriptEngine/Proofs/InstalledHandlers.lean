import ScriptEngine.Exception.Unwind
import ScriptEngine.Proofs.GuardedStacks
import ScriptEngine.Proofs.Raising

namespace ScriptEngine

namespace ThreadState

variable {t t' : ThreadState}

/-- The stack and the handlers stay as they are. -/
def keepingStack : Evolution ThreadState where
  rel t t' := t'.stack = t.stack ∧ t'.handlers = t.handlers
  refl _ := ⟨rfl, rfl⟩
  trans h h' := ⟨h'.1.trans h.1, h'.2.trans h.2⟩

theorem keepsStack_setPending {exception : Value} (h : t.setPending exception = .ok t') :
    keepingStack.rel t t' := by
  unfold setPending at h
  split at h <;> cases h
  exact ⟨rfl, rfl⟩

theorem keepsStack_schedulePending (h : t.schedulePending = .ok t') : keepingStack.rel t t' := by
  unfold schedulePending at h
  split at h <;> cases h
  exact ⟨rfl, rfl⟩

theorem keepsStack_modifyTop (f : TryCatch → TryCatch) : keepingStack.rel t (t.modifyTop f) := by
  unfold modifyTop
  split <;> exact ⟨rfl, rfl⟩

theorem keepsStack_propagate (handler : HandlerType) :
    keepingStack.rel t (t.propagate handler).2 := by
  unfold propagate
  split
  · exact ⟨rfl, rfl⟩
  · exact ⟨rfl, rfl⟩
  · exact ⟨rfl, rfl⟩
  · dsimp only
    split <;> exact keepingStack.trans ⟨rfl, rfl⟩ (keepsStack_modifyTop _)

end ThreadState

/-- The ways to raise an exception. -/
inductive Throw
  | raise (exception : Value) (location : Option Location)
  | rethrow (exception : Value)
  | rethrowWithMessage (exception message : Value)
  | schedule (exception : Value)
  | promote
  | terminate

namespace Throw

open ScriptEngine.Action Isolate ThreadState

variable {t : ThreadId}

def act (t : ThreadId) : Throw → Action Isolate Unit
  | raise v l => do let _ ← Isolate.raise t v l
  | rethrow v => do let _ ← Isolate.rethrow t v
  | rethrowWithMessage v m => do let _ ← Isolate.rethrowWithMessage t v m
  | schedule v => Isolate.scheduleThrow t v
  | promote => do let _ ← Isolate.promote t
  | terminate => do let _ ← Isolate.terminate t

theorem raise_keepsStack (exception : Value) (location : Option Location) :
    Evolves (threadwise fun _ => keepingStack) (Isolate.raise t exception location) :=
  evolves_raise (fun _ => ⟨rfl, rfl⟩) (fun _ _ => ⟨rfl, rfl⟩) fun _ _ => keepsStack_setPending

theorem rethrow_keepsStack (exception : Value) :
    Evolves (threadwise fun _ => keepingStack) (Isolate.rethrow t exception) :=
  evolves_rethrow fun _ _ => keepsStack_setPending

theorem scheduleThrow_keepsStack (exception : Value) :
    Evolves (threadwise fun _ => keepingStack) (Isolate.scheduleThrow t exception) := by
  refine (raise_keepsStack exception none).bind fun _ => evolves_tryOnTop fun top top' h => ?_
  have hpropagate := keepsStack_propagate (t := top) (top.handlerType exception)
  dsimp only at h
  split at h
  · obtain ⟨hstack, hhandlers⟩ := keepsStack_schedulePending h
    exact ⟨hstack.trans hpropagate.1, hhandlers.trans hpropagate.2⟩
  · cases h
    exact hpropagate

theorem promote_keepsStack : Evolves (threadwise fun _ => keepingStack) (Isolate.promote t) := by
  refine evolves_top_bind fun i data hd => ?_
  split
  · exact (threadwise _).refl i
  · exact Evolves.bind_at (threadwise_setTop_of hd ⟨rfl, rfl⟩) fun _ => rethrow_keepsStack _

theorem keepsStack (throw : Throw) : Evolves (threadwise fun _ => keepingStack) (throw.act t) := by
  cases throw with
  | raise exception location =>
    exact (raise_keepsStack exception location).bind fun _ => evolves_pure _
  | rethrow exception => exact (rethrow_keepsStack exception).bind fun _ => evolves_pure _
  | rethrowWithMessage exception message =>
    refine Evolves.bind (.bind (evolves_tryOnTop fun top top' h => ?_) fun _ => evolves_pure _)
      fun _ => evolves_pure _
    cases hp : top.setPending exception with
    | error e =>
      rw [hp] at h
      cases h
    | ok pending =>
      rw [hp] at h
      cases h
      obtain ⟨hstack, hhandlers⟩ := keepsStack_setPending hp
      exact ⟨hstack, hhandlers⟩
  | schedule exception => exact scheduleThrow_keepsStack exception
  | promote => exact promote_keepsStack.bind fun _ => evolves_pure _
  | terminate => exact (raise_keepsStack .termination none).bind fun _ => evolves_pure _

end Throw

namespace Isolate

/-- What dispatch of an exception on a thread starts from. -/
def dispatch (i : Isolate) (top : ThreadState) : Dispatch where
  thread := top
  materialized := i.materialized
  lazyThrow := i.lazyThrow
  restart := i.restart

def dispatchContext (i : Isolate) (builtins : Builtins) (exception : Value) : DispatchContext where
  codes := i.codes
  builtins := builtins
  exception := exception
  catchable := exception.isCatchable && !i.terminationRequested

/-- Dispatch of the exception that is pending on a thread lands there. -/
def Lands (t : ThreadId) (i : Isolate) (landing : Landing) : Prop :=
  ∃ builtins data exception, i.builtins = some builtins ∧ i.thread? t = some data ∧
    data.top.pending = some exception ∧
    Dispatch.Lands (i.dispatchContext builtins exception) (i.dispatch data.top) landing

variable {t : ThreadId} {i i' : Isolate} {data : ThreadData} {builtins : Builtins}

theorem outcome_unwind (hb : i.builtins = some builtins) (hd : i.thread? t = some data) :
    (unwind t).outcome i =
      let ended := Dispatch.run i.codes builtins i.terminationRequested (i.dispatch data.top)
      (ended.1, { i.setTop t ended.2.thread with
        materialized := ended.2.materialized
        lazyThrow := ended.2.lazyThrow
        restart := ended.2.restart }) := by
  have hrequire : (requireBuiltins .unwind).outcome i = (.ok builtins, i) := by
    unfold requireBuiltins
    rw [Action.outcome_get_bind, hb]
    rfl
  unfold unwind
  rw [Action.outcome_bind_ok hrequire, Action.outcome_bind_ok (outcome_top_of hd),
    Action.outcome_get_bind]
  dsimp only [dispatch]
  generalize Dispatch.run _ _ _ _ = ended
  obtain ⟨result | result, after⟩ := ended <;> rfl

/-- Without builtins, or without the thread, unwinding does not begin. -/
theorem unwind_unready (h : i.builtins = none ∨ i.thread? t = none) :
    ∃ e, (unwind t).outcome i = (.error (.refused e), i) := by
  unfold unwind
  cases hb : i.builtins with
  | none =>
    have hrequire : (requireBuiltins .unwind).outcome i =
        (.error (.refused (.invalidState .unwind i.state)), i) := by
      unfold requireBuiltins
      rw [Action.outcome_get_bind, hb]
      rfl
    exact ⟨_, Action.outcome_bind_error hrequire⟩
  | some builtins =>
    have hd : i.thread? t = none := h.resolve_left (by simp [hb])
    have hrequire : (requireBuiltins .unwind).outcome i = (.ok builtins, i) := by
      unfold requireBuiltins
      rw [Action.outcome_get_bind, hb]
      rfl
    rw [Action.outcome_bind_ok hrequire]
    exact ⟨_, Action.outcome_bind_error (by rw [outcome_top, hd])⟩

/-- Without an exception there is nothing to dispatch. -/
theorem run_nothing (hp : data.top.pending = none) :
    Dispatch.run i.codes builtins i.terminationRequested (i.dispatch data.top) =
      (.error (.refused .noPendingException), i.dispatch data.top) := by
  unfold Dispatch.run
  rw [show (i.dispatch data.top).thread.pending = none from hp]

/-- Unwinding is refused and changes no stack, or it is a search for the pending exception. -/
theorem unwind_cases (t : ThreadId) (i : Isolate) :
    ((∃ e, ((unwind t).outcome i).1 = .error (.refused e)) ∧
      ∀ data', ((unwind t).outcome i).2.thread? t = some data' →
        ∃ data, i.thread? t = some data ∧ data'.top = data.top) ∨
    ∃ builtins data v d, i.builtins = some builtins ∧ i.thread? t = some data ∧
      data.top.pending = some v ∧
      d = (i.dispatch data.top).consulted (i.dispatchContext builtins v).catchable ∧
      let ended := Dispatch.searchFor (i.dispatchContext builtins v)
        d.thread.stack.segments.length 0 d
      ((unwind t).outcome i).1 = (match ended.1 with
        | .ok () => .ok v
        | .error e => .error (.fatal e)) ∧
      ((unwind t).outcome i).2.thread? t = some { data with top := ended.2.thread } := by
  have hunready : i.builtins = none ∨ i.thread? t = none →
      (∃ e, ((unwind t).outcome i).1 = .error (.refused e)) ∧
        ∀ data', ((unwind t).outcome i).2.thread? t = some data' →
          ∃ data, i.thread? t = some data ∧ data'.top = data.top := by
    intro h
    obtain ⟨e, hout⟩ := unwind_unready h
    exact ⟨⟨e, congrArg Prod.fst hout⟩, fun data' hd => ⟨data', by rwa [hout] at hd, rfl⟩⟩
  cases hb : i.builtins with
  | none => exact .inl (hunready (.inl hb))
  | some builtins =>
    cases hd : i.thread? t with
    | none =>
      rw [← hd]
      exact .inl (hunready (.inr hd))
    | some data =>
      rw [outcome_unwind hb hd]
      cases hp : data.top.pending with
      | none =>
        rw [run_nothing hp]
        refine .inl ⟨⟨_, rfl⟩, fun data' hd' => ⟨data, rfl, ?_⟩⟩
        cases (thread?_setTop data.top hd).symm.trans hd'
        rfl
      | some v =>
        rw [Dispatch.run_pending (d := i.dispatch data.top) hp]
        exact .inr ⟨builtins, data, v, _, rfl, rfl, hp, rfl, rfl, thread?_setTop _ hd⟩

end Isolate

namespace Dispatch

variable {c : DispatchContext} {d : Dispatch} {landing : Landing} {owed : Option Landing}
  {catchable : Bool}

theorem lands_consulted : Lands c (d.consulted catchable) landing ↔ Lands c d landing := by
  constructor <;>
  · rintro ⟨place, known, passed, handles⟩
    cases catchable <;> exact .at place known passed handles

theorem guarded_consulted (h : d.thread.Guarded owed) :
    (d.consulted catchable).thread.Guarded owed := by
  obtain ⟨joins, hjoins⟩ := consulted_thread (d := d) catchable
  rw [hjoins]
  exact h.of_same rfl rfl id

theorem searchFor_found_lands (h : d.thread.Guarded none)
    (hfound : (searchFor c d.thread.stack.segments.length 0 d).1 = .ok ()) :
    ∃ landing, Lands c d landing := by
  obtain ⟨piles, hpiles, -⟩ := h.piled
  exact exists_lands hpiles rfl hfound

/-- Dispatch misses no handler while all of them are installed. -/
theorem searchFor_guarded {e : FatalError} (h : d.thread.Guarded none)
    (hfailed : (searchFor c d.thread.stack.segments.length 0 d).1 = .error e) :
    ¬e.MissesHandler := by
  obtain ⟨piles, hpiles, hranked, hinstalled⟩ := h.piled
  refine searchFor_missing hpiles (fun x hx hentry => ?_) hfailed
  have hmarked := hranked.marked x hx
  rw [hentry, Option.isSome_iff_exists] at hmarked
  obtain ⟨i, hi⟩ := hmarked
  exact ⟨i, x.sp, hi, hinstalled x hx i hi⟩

/-- Dispatch that fails leaves all handlers installed. -/
theorem guarded_searchFor_failed {n visited : Nat} {e : FatalError} (h : d.thread.Guarded none)
    (hfailed : (searchFor c n visited d).1 = .error e) :
    (searchFor c n visited d).2.thread.Guarded none := by
  obtain ⟨piles, hpiles, hranked, hinstalled⟩ := h.piled
  obtain ⟨left, rest, stack, rfl, hrest, hthread⟩ := searchFor_failed hfailed hpiles
  rw [hthread]
  rw [List.flatMap_append] at hranked
  refine ⟨⟨rest, hrest, hranked.append_right, fun x hx => hinstalled x ?_⟩, nofun, nofun⟩
  rw [staying_none, List.flatMap_append]
  exact List.mem_append_right _ hx

/-- Dispatch that lands leaves the handlers of the frames that stay. -/
theorem guarded_searchFor_landed (h : d.thread.Guarded none) (hlands : Lands c d landing) :
    (searchFor c d.thread.stack.segments.length 0 d).1 = .ok () ∧
      (searchFor c d.thread.stack.segments.length 0 d).2.thread.Guarded (some landing) := by
  obtain ⟨piles, hpiles, hranked, hinstalled⟩ := h.piled
  obtain ⟨left, posts, rest, d', rfl, hsearch, hstack, hpending, hhandlers⟩ :=
    hlands.searchFor_eq hpiles
  rw [hsearch]
  rw [List.flatMap_append, List.flatMap_cons] at hranked
  have houter : Ranked (posts ++ rest.flatMap (·.posts)) := hranked.append_right
  have hall : ∀ x ∈ posts ++ rest.flatMap (·.posts), x.IsInstalled d.thread.handlers := by
    intro x hx
    apply hinstalled
    rw [staying_none, List.flatMap_append, List.flatMap_cons]
    exact List.mem_append_right _ hx
  refine ⟨rfl, ⟨_, hstack, houter, ?_⟩, fun _ _ => hpending, ?_⟩
  · intro x hx
    rw [staying, Landing.staying, if_pos rfl] at hx
    dsimp only at hx
    rcases hhandlers with ⟨hsame, -⟩ | ⟨inner, y, outer, i, rfl, hlength, hy, htake⟩
    · rw [hsame]
      exact hall x (List.mem_append.mpr ((List.mem_append.mp hx).imp_left List.mem_of_mem_drop))
    · -- The frames that stay lie outside of the entry frame, so their handlers are earlier ones.
      have hdrop : (inner ++ y :: outer).drop ((inner ++ y :: outer).length - landing.depth) =
          outer := by
        rw [List.append_cons, List.length_append, hlength, Nat.add_sub_cancel,
          List.drop_left]
      rw [hdrop] at hx
      rw [List.append_assoc, List.cons_append] at houter hall
      rw [htake]
      refine (hall x (List.mem_append_right _ (List.mem_cons_of_mem _ hx))).take fun j hj => ?_
      exact houter.append_right.lt hy hx hj
  · rintro _ ⟨⟩
    obtain ⟨g, found⟩ := hstack.chain.found
    have hknown := hstack.numbered _ g found
    rwa [hstack.active_eq] at hknown

end Dispatch

namespace Isolate

/-- The frames that have to be popped yet for a landing, if there are any. -/
def owing (landing : Option Landing) (top : ThreadState) : Option Landing :=
  landing.filter fun l => !l.isReached top

/-- The thread, if it is attached still, has its stack and its handlers, and no new exception. -/
def LeavesThread (t : ThreadId) (i i' : Isolate) : Prop :=
  ∀ data', i'.thread? t = some data' → ∃ data, i.thread? t = some data ∧
    data'.top.stack = data.top.stack ∧ data'.top.handlers = data.top.handlers ∧
    (data.top.pending = none → data'.top.pending = none)

/-- What a thread can do that pops the frames above a handler frame, and an entry frame that handles
itself, before it pushes or throws anything. With the state goes the landing that is not reached
yet. -/
inductive Disciplined (t : ThreadId) : Isolate → Option Landing → Prop
  | attached {i : Isolate} {data : ThreadData} (found : i.thread? t = some data)
      (new : data.top = {}) : Disciplined t i none
  | move {i : Isolate} {owed : Option Landing} {data : ThreadData} (run : Disciplined t i owed)
      (found : i.thread? t = some data) (move : StackMove)
      (allowed : move.isPush = true → owed = none) :
      Disciplined t (i.setTop t (move.on data.top)) (owing owed (move.on data.top))
  | throw {i : Isolate} (run : Disciplined t i none) (throw : Throw) :
      Disciplined t ((throw.act t).outcome i).2 none
  | unwindFails {i i' : Isolate} {owed : Option Landing} {e : Failure}
      (run : Disciplined t i owed) (failed : (unwind t).outcome i = (.error e, i')) :
      Disciplined t i' owed
  | unwinds {i i' : Isolate} {owed : Option Landing} {v : Value} {landing : Landing}
      {data : ThreadData} (run : Disciplined t i owed) (lands : i.Lands t landing)
      (handled : (unwind t).outcome i = (.ok v, i')) (found : i'.thread? t = some data) :
      Disciplined t i' (owing (some landing) data.top)
  | elsewhere {i i' : Isolate} {owed : Option Landing} (run : Disciplined t i owed)
      (leaves : LeavesThread t i i') : Disciplined t i' owed

variable {t : ThreadId} {i i' : Isolate} {owed : Option Landing} {data : ThreadData}

/-- An exception is pending only when no frames have to be popped. -/
theorem owed_eq_none (h : data.top.Guarded owed) {v : Value} (hp : data.top.pending = some v) :
    owed = none := by
  cases owed with
  | none => rfl
  | some l => exact absurd (hp.symm.trans (h.quiet l rfl)) nofun

/-- Unwinding that fails keeps the handlers, and misses none. -/
theorem guarded_unwind_failed {e : Failure}
    (h : ∀ data, i.thread? t = some data → data.top.Guarded owed)
    (failed : (unwind t).outcome i = (.error e, i')) :
    (∀ data, i'.thread? t = some data → data.top.Guarded owed) ∧
      ∀ v, e = .fatal v → ¬v.MissesHandler := by
  rcases unwind_cases t i with ⟨⟨e', he⟩, hsame⟩ |
    ⟨builtins, data, v, d, hb, hd, hp, hstart, hresult, hthread⟩
  · rw [failed] at he hsame
    cases he
    refine ⟨fun data' hd' => ?_, nofun⟩
    obtain ⟨data, hd, htop⟩ := hsame data' hd'
    exact htop ▸ h data hd
  · obtain rfl := owed_eq_none (h data hd) hp
    have hguarded : d.thread.Guarded none := hstart ▸ Dispatch.guarded_consulted (h data hd)
    rw [failed] at hresult hthread
    split at hresult
    · cases hresult
    · rename_i e' hsearch
      cases hresult
      refine ⟨fun data' hd' => ?_, ?_⟩
      · cases hthread.symm.trans hd'
        exact Dispatch.guarded_searchFor_failed hguarded hsearch
      · rintro _ ⟨⟩
        exact Dispatch.searchFor_guarded hguarded hsearch

/-- Unwinding that succeeds lands somewhere, and leaves the handlers of the frames that stay. -/
theorem guarded_unwind_landed {v : Value}
    (h : ∀ data, i.thread? t = some data → data.top.Guarded owed)
    (handled : (unwind t).outcome i = (.ok v, i')) :
    (∃ landing data, i.Lands t landing ∧ i'.thread? t = some data) ∧
      ∀ landing, i.Lands t landing →
        ∀ data, i'.thread? t = some data → data.top.Guarded (some landing) := by
  rcases unwind_cases t i with ⟨⟨e', he⟩, -⟩ |
    ⟨builtins, data, w, d, hb, hd, hp, hstart, hresult, hthread⟩
  · rw [handled] at he
    cases he
  · obtain rfl := owed_eq_none (h data hd) hp
    have hguarded : d.thread.Guarded none := hstart ▸ Dispatch.guarded_consulted (h data hd)
    rw [handled] at hresult hthread
    split at hresult
    · rename_i hsearch
      refine ⟨?_, ?_⟩
      · obtain ⟨landing, hlands⟩ := Dispatch.searchFor_found_lands hguarded hsearch
        rw [hstart, Dispatch.lands_consulted] at hlands
        exact ⟨landing, _, ⟨builtins, data, w, hb, hd, hp, hlands⟩, hthread⟩
      · rintro landing ⟨builtins', data', w', hb', hd', hp', hlands⟩ after hafter
        cases hb.symm.trans hb'
        cases hd.symm.trans hd'
        cases hp.symm.trans hp'
        cases hthread.symm.trans hafter
        rw [← Dispatch.lands_consulted, ← hstart] at hlands
        exact (Dispatch.guarded_searchFor_landed hguarded hlands).2
    · cases hresult

theorem Disciplined.guarded (h : Disciplined t i owed) :
    ∀ data, i.thread? t = some data → data.top.Guarded owed := by
  induction h with
  | attached found new =>
    intro data hd
    cases found.symm.trans hd
    rw [new]
    exact ThreadState.guarded_new
  | move _ found move allowed ih =>
    intro data hd
    cases (thread?_setTop _ found).symm.trans hd
    exact ((ih _ found).move move allowed).reached
  | throw _ throw ih =>
    intro data hd
    obtain ⟨before, hbefore, hstack, hhandlers⟩ := throw.keepsStack _ t data hd
    exact ⟨by rw [hstack, hhandlers]; exact (ih before hbefore).piled, nofun, nofun⟩
  | unwindFails _ failed ih => exact (guarded_unwind_failed ih failed).1
  | unwinds _ lands handled found ih =>
    intro data hd
    cases found.symm.trans hd
    exact ((guarded_unwind_landed ih handled).2 _ lands _ found).reached
  | elsewhere _ leaves ih =>
    intro data hd
    obtain ⟨before, hbefore, hstack, hhandlers, hpending⟩ := leaves data hd
    exact (ih before hbefore).of_same hstack hhandlers hpending

/-- Before each throw, every entry frame of the active segment and of those that it returns to has
its own handler installed, inner frames have later handlers than outer ones, and unwinding misses
none. A run goes on after each successful unwinding, which lands somewhere. -/
theorem Disciplined.handlers_installed (h : Disciplined t i owed) :
    (owed = none → ∀ data, i.thread? t = some data →
      ∃ frames, data.top.stack.Holds frames ∧
        (∀ r ∈ frames, r.marker.isEntry →
          ∃ k, r.handler = some k ∧ data.top.handlers[k]? = some r.sp) ∧
        (frames.filterMap (·.handler)).Pairwise (· > ·)) ∧
    (∀ e i', (unwind t).outcome i = (.error (.fatal e), i') → ¬e.MissesHandler) ∧
    (∀ v i', (unwind t).outcome i = (.ok v, i') →
      ∃ landing data, i.Lands t landing ∧ i'.thread? t = some data ∧
        Disciplined t i' (owing (some landing) data.top)) := by
  refine ⟨?_, fun e i' failed => ?_, fun v i' handled => ?_⟩
  · rintro rfl data hd
    obtain ⟨piles, hpiles, hranked, hinstalled⟩ := (h.guarded data hd).piled
    obtain ⟨frames, hframes, hposts⟩ := hpiles.holds
    rw [staying_none, ← hposts] at hinstalled
    rw [← hposts] at hranked
    refine ⟨frames, hframes, fun r hr hentry => ?_, ?_⟩
    · have hpost : r.post ∈ frames.map (·.post) := List.mem_map.mpr ⟨r, hr, rfl⟩
      have hmarked := hranked.marked r.post hpost
      rw [show r.post.isEntry = true from hentry, Option.isSome_iff_exists] at hmarked
      obtain ⟨k, hk⟩ := hmarked
      exact ⟨k, hk, hinstalled r.post hpost k hk⟩
    · have hdescending := hranked.descending
      rwa [List.filterMap_map] at hdescending
  · exact (guarded_unwind_failed h.guarded failed).2 e rfl
  · obtain ⟨landing, data, hlands, found⟩ := (guarded_unwind_landed h.guarded handled).1
    exact ⟨landing, data, hlands, found, h.unwinds hlands handled found⟩

namespace Example

/-- The code of entry frames, with a place to go on when a call ends in an exception. -/
def code : Code where
  number := 0
  start := 4096
  description := { kind := .builtin, size := 128, handlers := { returns := [⟨0, 64⟩] } }

/-- The isolate with a thread in a state. -/
def running (top : ThreadState) : Isolate where
  id := 1
  options := {}
  region := none
  blob := none
  codes := { codes := [code] }
  builtins := some ⟨⟨[], []⟩, 0, 0⟩
  threads := [("main", { top, stackSize := 0 })]

def moves : List StackMove := [.push (.entry code) (.entry code), .startSegment,
  .push (.constructEntry code) (.constructEntry code)]

def entered : ThreadState := moves.foldl StackMove.on {}

def thrown : ThreadState := { entered with pending := some (.smi 7) }

theorem disciplined_moves (moves : List StackMove) {top : ThreadState}
    (h : (running top).Disciplined "main" none) :
    (running (moves.foldl StackMove.on top)).Disciplined "main" none := by
  induction moves generalizing top with
  | nil => exact h
  | cons move moves ih => exact ih (h.move rfl move fun _ => rfl)

theorem disciplined_thrown : (running thrown).Disciplined "main" none :=
  (disciplined_moves moves (.attached rfl rfl)).throw (.rethrow (.smi 7))

theorem handled_thrown : ∃ v i', (unwind "main").outcome (running thrown) = (.ok v, i') := by
  have hok : ((unwind "main").outcome (running thrown)).1.toBool = true := by decide +kernel
  generalize (unwind "main").outcome (running thrown) = ended at hok
  obtain ⟨e | v, i'⟩ := ended
  · cases hok
  · exact ⟨v, i', rfl⟩

/-- Both entry frames have their handlers, and the exception lands at one of them. -/
theorem handlers_installed_across_segments :
    (∃ frames, thrown.stack.Holds frames ∧
      (∀ r ∈ frames, r.marker.isEntry →
        ∃ k, r.handler = some k ∧ thrown.handlers[k]? = some r.sp) ∧
      (frames.filterMap (·.handler)).Pairwise (· > ·)) ∧
    ∃ landing, (running thrown).Lands "main" landing := by
  obtain ⟨hinstalled, -, hlands⟩ := disciplined_thrown.handlers_installed
  obtain ⟨v, i', hhandled⟩ := handled_thrown
  obtain ⟨landing, -, hlanding, -⟩ := hlands v i' hhandled
  exact ⟨hinstalled rfl _ rfl, landing, hlanding⟩

end Example

end Isolate

end ScriptEngine

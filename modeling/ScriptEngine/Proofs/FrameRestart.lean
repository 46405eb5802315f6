import ScriptEngine.Proofs.CodeLookup
import ScriptEngine.Proofs.Uncatchable

namespace ScriptEngine

/-- An address in code is told by its offset, where offsets are wide enough. -/
theorem Code.start_add_pcOffset {code : Code} {pc : Address} (h : code.contains pc)
    (hsize : code.size ≤ 4294967296) : code.start + code.pcOffset pc = pc := by
  obtain ⟨hstart, hstop⟩ := Code.contains_iff.1 h
  have hoffset : pc - code.start < 4294967296 := by
    unfold Code.stop at hstop
    lia
  rw [Code.pcOffset, Nat.mod_eq_of_lt hoffset]
  exact Nat.add_sub_cancel' hstart

theorem CodeRegistry.contains_of_lookup {codes : CodeRegistry} {pc : Address} {code : Code}
    (h : codes.lookup pc = some code) : code.contains pc :=
  (Option.filter_eq_some_iff.1 h).2

theorem CodeRegistry.mem_of_lookup {codes : CodeRegistry} {pc : Address} {code : Code}
    (h : codes.lookup pc = some code) : code ∈ codes.codes := by
  have hlast := (Option.filter_eq_some_iff.1 h).1
  exact List.takeWhile_subset _ (List.mem_of_getLast? hlast)

/-- The innermost of the entry frames among some frames. -/
theorem Frame.exists_innermost_entry {frames : List Frame} (h : ∃ g ∈ frames, g.IsEntry) :
    ∃ inner g outer, frames = inner ++ g :: outer ∧ g.IsEntry ∧ ∀ x ∈ inner, ¬x.IsEntry := by
  induction frames with
  | nil => simp at h
  | cons first frames ih =>
    by_cases hfirst : first.IsEntry
    · exact ⟨[], first, frames, rfl, hfirst, by simp⟩
    · obtain ⟨g, hg, hentry⟩ := h
      have hmem : g ∈ frames := by
        rcases List.mem_cons.1 hg with rfl | hg
        · exact absurd hentry hfirst
        · exact hg
      obtain ⟨inner, g, outer, rfl, hentry, hinner⟩ := ih ⟨g, hmem, hentry⟩
      refine ⟨first :: inner, g, outer, rfl, hentry, ?_⟩
      exact List.forall_mem_cons.2 ⟨hfirst, hinner⟩

namespace Dispatch

variable {codes : CodeRegistry} {builtins : Builtins} {d : Dispatch} {ids : List Nat} {e : Value}
  {termination : Bool} {before after : List Frame} {f : Frame}

/-- The frames of a chain have code where they need it, entry frames what they need to be returned
to, and all of them frame pointers of their own. Offsets reach through all code. -/
structure IsSettled (codes : CodeRegistry) (d : Dispatch) (ids : List Nat) : Prop where
  chain : d.thread.stack.Chain d.thread.stack.active ids
  known : ∀ f ∈ d.thread.stack.frames codes ids, f.raw.IsKnown codes
  entries : ∀ f ∈ d.thread.stack.frames codes ids, f.IsEntry → f.IsSound d.thread.handlers 0
  distinct : ((d.thread.stack.frames codes ids).map (·.fp)).Nodup
  sizes : ∀ code ∈ codes.codes, code.size ≤ 4294967296

/-- Dispatch that went on in the frame `f`, behind the frames `before`. Handlers and frames are
what they were. -/
structure RestartedAt (d : Dispatch) (ids : List Nat) (before : List Frame) (f : Frame)
    (handler : PendingHandler) (d' : Dispatch) : Prop where
  thread : d'.thread = { d.thread with
    pending := none, pendingHandler := some handler, joins := [], stack := d'.thread.stack }
  stack : ∃ left outer, ids = left ++ f.segment :: outer ∧
    d'.thread.stack = d.thread.stack.returnedTo left f.segment
  frames : ∀ id, d'.thread.stack.framesOf id = d.thread.stack.framesOf id
  materialized : d'.materialized = forgetAll d.materialized before

theorem restartedAt_apply {left outer : List Nat} {handler : PendingHandler} {again met : Bool}
    (hids : ids = left ++ f.segment :: outer) :
    d.RestartedAt ids before f handler ((d.stoppedAt left before f).apply
      { handler, lazyThrow := again, clearsRestart := met }) where
  thread := rfl
  stack := ⟨left, outer, hids, rfl⟩
  frames id := SegmentedStack.framesOf_returnedTo left f.segment id
  materialized := rfl

/-- No frame inside of it has its frame pointer. -/
theorem IsSettled.restart_ne (h : d.IsSettled codes ids)
    (split : d.thread.stack.frames codes ids = before ++ f :: after)
    (hr : d.restart = some f.fp) : ∀ g ∈ before, d.restart ≠ some g.fp := by
  intro g hg hrestart
  have hdistinct := h.distinct
  rw [split, List.map_append, List.map_cons] at hdistinct
  have hdisjoint := (List.nodup_append.1 hdistinct).2.2
  apply hdisjoint g.fp (List.mem_map_of_mem hg) f.fp List.mem_cons_self
  exact Option.some.inj (hrestart.symm.trans hr)

theorem matchFrame_restart {c : DispatchContext} {handlers : List Address} {visited : Nat}
    {restart : Option Address} (hr : restart = some f.fp) :
    c.matchFrame restart handlers visited f = some <$> c.restartFrame visited f := by
  rw [DispatchContext.matchFrame, if_pos hr]

/-- Managed frames that run no optimized code go on through the builtin. -/
theorem restartFrame_through_builtin {c : DispatchContext} {visited : Nat}
    (hc : c.catchable = false) (hm : f.isManaged = true) (hk : f.kind ≠ .optimized) :
    c.restartFrame visited f = .ok
      { handler := DispatchContext.resumeIn (c.builtins.code .restartFrame) 0 f.fp 0 visited
        clearsRestart := true } := by
  simp only [DispatchContext.restartFrame, hc, hm, hk, Bool.not_true, Bool.false_eq_true, if_false]

theorem restartFrame_optimized {c : DispatchContext} {visited : Nat} {code : Code}
    (hc : c.catchable = false) (hk : f.kind = .optimized) (hcode : f.code = some code)
    (hmarked : c.codes.isMarked code = true) :
    c.restartFrame visited f = .ok
      { handler := DispatchContext.resumeIn code f.pcOffset f.fp f.slotsSp visited
        lazyThrow := true } := by
  have hm : f.isManaged = true := by
    rw [Frame.isManaged, hk]
    rfl
  simp only [DispatchContext.restartFrame, hc, hm, hk, hcode, hmarked, Bool.not_true,
    Bool.false_eq_true, if_false, if_true]

theorem hasCode_of_mem (hf : f ∈ d.thread.stack.frames codes ids) : f.HasCode := by
  obtain ⟨id, -, hmem⟩ := List.mem_flatMap.1 hf
  obtain ⟨raw, -, rfl⟩ := List.mem_map.1 hmem
  exact Frame.hasCode_of codes id raw

/-- The pc of a frame is told by its code and the offset there. -/
theorem IsSettled.start_add_pcOffset (h : d.IsSettled codes ids)
    (hf : f ∈ d.thread.stack.frames codes ids) {code : Code} (hcode : f.code = some code) :
    code.start + f.pcOffset = f.pc := by
  obtain ⟨id, -, hmem⟩ := List.mem_flatMap.1 hf
  obtain ⟨raw, -, rfl⟩ := List.mem_map.1 hmem
  have hlookup : codes.lookup raw.pc = some code := hcode
  have hoffset : (Frame.of codes id raw).pcOffset = code.pcOffset raw.pc := by
    rw [Frame.pcOffset, hcode]
    rfl
  rw [hoffset]
  exact Code.start_add_pcOffset (CodeRegistry.contains_of_lookup hlookup)
    (h.sizes code (CodeRegistry.mem_of_lookup hlookup))

theorem run_restart_optimized (hp : d.thread.pending = some e)
    (hu : e = .termination ∨ termination = true) (h : d.IsSettled codes ids)
    (hr : d.restart = some f.fp)
    (split : d.thread.stack.frames codes ids = before ++ f :: after)
    (hbefore : ∀ g ∈ before, ¬g.IsEntry) (hk : f.kind = .optimized) {code : Code}
    (hcode : f.code = some code) (hmarked : codes.isMarked code = true) :
    ∃ d', run codes builtins termination d = (.ok e, d') ∧
      d.RestartedAt ids before f
        ⟨.undefined, f.pc, code.constantPool, f.fp, f.slotsSp, before.length⟩ d' ∧
      d'.lazyThrow = true ∧ d'.restart = some f.fp := by
  obtain ⟨left, outer, hids, hrun⟩ :=
    run_found_behind builtins hp hu h.chain h.known split
      (fun g hg => ⟨hbefore g hg, h.restart_ne split hr g hg⟩)
      ((matchFrame_restart hr).trans
        (congrArg (some <$> ·) (restartFrame_optimized rfl hk hcode hmarked)))
  refine ⟨_, hrun, ?_, Bool.or_true _, hr⟩
  have hentry := h.start_add_pcOffset (f := f) (by simp [split]) hcode
  rw [DispatchContext.resumeIn, hentry]
  exact restartedAt_apply hids

theorem run_restart_through_builtin (hp : d.thread.pending = some e)
    (hu : e = .termination ∨ termination = true) (h : d.IsSettled codes ids)
    (hr : d.restart = some f.fp)
    (split : d.thread.stack.frames codes ids = before ++ f :: after)
    (hbefore : ∀ g ∈ before, ¬g.IsEntry) (hmanaged : f.isManaged = true)
    (hk : f.kind ≠ .optimized) :
    ∃ d', run codes builtins termination d = (.ok e, d') ∧
      d.RestartedAt ids before f
        ⟨.undefined, (builtins.code .restartFrame).start,
          (builtins.code .restartFrame).constantPool, f.fp, 0, before.length⟩ d' ∧
      d'.lazyThrow = d.lazyThrow ∧ d'.restart = none := by
  obtain ⟨left, outer, hids, hrun⟩ :=
    run_found_behind builtins hp hu h.chain h.known split
      (fun g hg => ⟨hbefore g hg, h.restart_ne split hr g hg⟩)
      ((matchFrame_restart hr).trans
        (congrArg (some <$> ·) (restartFrame_through_builtin rfl hmanaged hk)))
  exact ⟨_, hrun, restartedAt_apply hids, Bool.or_false _, rfl⟩

theorem innermostEntry_of_sound {inner outer : List Frame} {g : Frame}
    (split : d.thread.stack.frames codes ids = inner ++ g :: outer)
    (hinner : ∀ x ∈ inner, ¬x.IsEntry) (hg : g.IsEntry)
    (hs : g.IsSound d.thread.handlers 0) :
    ∃ i address code offset, d.InnermostEntry codes ids inner g outer i address code offset := by
  have hs' : (∃ i, g.raw.handler = some i ∧ i < d.thread.handlers.length) ∧
      ∃ code, g.code = some code ∧ ∃ e ∈ code.handlers.returns, e.offset = 0 := by
    rcases hg with hk | hk
    · simpa only [Frame.IsSound, hk] using hs
    · simpa only [Frame.IsSound, hk] using hs
  obtain ⟨⟨i, hi, hlt⟩, code, hcode, hreturn⟩ := hs'
  obtain ⟨offset, hoffset⟩ :=
    Option.isSome_iff_exists.1 (HandlerTable.lookupReturn_isSome.2 hreturn)
  exact ⟨i, d.thread.handlers[i], code, offset,
    ⟨split, hinner, hg, hi, List.getElem?_eq_getElem hlt, hcode, hoffset⟩⟩

/-- The request waits while dispatch goes on in an entry frame. -/
theorem run_entry_inside (hp : d.thread.pending = some e)
    (hu : e = .termination ∨ termination = true) (h : d.IsSettled codes ids)
    (hr : d.restart = some f.fp)
    (split : d.thread.stack.frames codes ids = before ++ f :: after)
    (hentry : ∃ g ∈ before, g.IsEntry) :
    ∃ inner g outer i address code offset left,
      before = inner ++ g :: outer ∧
      d.InnermostEntry codes ids inner g (outer ++ f :: after) i address code offset ∧
      run codes builtins termination d =
        (.ok e, d.enteredAt left inner g i address code offset) ∧
      (d.enteredAt left inner g i address code offset).restart = some f.fp := by
  have hne := h.restart_ne split hr
  obtain ⟨inner, g, outer, rfl, hg, hinner⟩ := Frame.exists_innermost_entry hentry
  have split' : d.thread.stack.frames codes ids = inner ++ g :: (outer ++ f :: after) := by
    rw [split]
    simp
  have hmem : g ∈ d.thread.stack.frames codes ids := by simp [split']
  obtain ⟨i, address, code, offset, hf⟩ :=
    innermostEntry_of_sound split' hinner hg (h.entries g hmem hg)
  obtain ⟨left, -, -, hrun⟩ := hf.run_eq_of builtins hp hu h.chain h.known (by
    intro x hx
    apply hne x
    rcases List.mem_append.1 hx with hx | hx
    · exact List.mem_append_left _ hx
    · rw [List.mem_singleton.1 hx]
      simp)
  exact ⟨inner, g, outer, i, address, code, offset, left, rfl, hf, hrun, hr⟩

/-- A frame is restarted where no entry frame is further in: an optimized one is entered again at
its return address, to be rebuilt, all others through the builtin. An entry frame that is further
in is returned to, and the request waits. -/
theorem run_restart (hp : d.thread.pending = some e) (hu : e = .termination ∨ termination = true)
    (h : d.IsSettled codes ids) (hr : d.restart = some f.fp)
    (split : d.thread.stack.frames codes ids = before ++ f :: after) :
    ((∀ g ∈ before, ¬g.IsEntry) → f.isManaged = true →
      (f.kind = .optimized → ∃ code, f.code = some code ∧ (codes.isMarked code = true →
        ∃ d', run codes builtins termination d = (.ok e, d') ∧
          d.RestartedAt ids before f
            ⟨.undefined, f.pc, code.constantPool, f.fp, f.slotsSp, before.length⟩ d' ∧
          d'.lazyThrow = true ∧ d'.restart = some f.fp)) ∧
      (f.kind ≠ .optimized →
        ∃ d', run codes builtins termination d = (.ok e, d') ∧
          d.RestartedAt ids before f
            ⟨.undefined, (builtins.code .restartFrame).start,
              (builtins.code .restartFrame).constantPool, f.fp, 0, before.length⟩ d' ∧
          d'.lazyThrow = d.lazyThrow ∧ d'.restart = none)) ∧
    ((∃ g ∈ before, g.IsEntry) →
      ∃ inner g outer i address code offset left,
        before = inner ++ g :: outer ∧
        d.InnermostEntry codes ids inner g (outer ++ f :: after) i address code offset ∧
        run codes builtins termination d =
          (.ok e, d.enteredAt left inner g i address code offset) ∧
        (d.enteredAt left inner g i address code offset).restart = some f.fp) := by
  constructor
  · intro hbefore hmanaged
    constructor
    · intro hk
      have hmem : f ∈ d.thread.stack.frames codes ids := by simp [split]
      obtain ⟨code, hcode, -⟩ := hasCode_of_mem hmem hmanaged
      refine ⟨code, hcode, ?_⟩
      exact run_restart_optimized hp hu h hr split hbefore hk hcode
    · exact run_restart_through_builtin hp hu h hr split hbefore hmanaged
  · exact run_entry_inside hp hu h hr split

end Dispatch

namespace Dispatch.RestartExample

open EntryExample

def native : RawFrame := { marker := .native, fp := 500, pc := 0, slots := 4 }

def dispatch (inner : RawFrame) : Dispatch where
  thread := {
    pending := some .termination
    handlers := [700]
    stack := {
      segments := [
        { id := 0, base := 1000, cursor := 0, frames := [guarded []], state := .inactive },
        { id := 1, base := 700, cursor := 0, frames := [inner], parent := some 0 }]
      active := 1 } }
  materialized := []
  lazyThrow := false
  restart := some 600

theorem frames_dispatch (inner : RawFrame) :
    (dispatch inner).thread.stack.frames codes [1, 0] =
      [.of codes 1 inner] ++ .of codes 0 (guarded []) :: [] := rfl

theorem isSettled_dispatch {inner : RawFrame} (hknown : inner.IsKnown codes)
    (hsound : (Frame.of codes 1 inner).IsEntry → (Frame.of codes 1 inner).IsSound [700] 0)
    (hfp : inner.fp ≠ 600) : (dispatch inner).IsSettled codes [1, 0] where
  chain := .child rfl rfl (.root rfl rfl)
  known := by
    rw [frames_dispatch, List.singleton_append, List.forall_mem_cons, List.forall_mem_singleton]
    exact ⟨hknown, isKnown_guarded []⟩
  entries := by
    rw [frames_dispatch, List.singleton_append, List.forall_mem_cons, List.forall_mem_singleton]
    refine ⟨hsound, ?_⟩
    rintro (h | h) <;> cases h
  distinct := by
    rw [frames_dispatch]
    exact List.nodup_cons.2 ⟨fun h => hfp (List.mem_singleton.1 h), List.pairwise_singleton _ _⟩
  sizes := by decide

/-- The interpreted frame is restarted if the frame further in is of the embedder, and waits for
it if it is an entry frame. -/
theorem run_restart_across_segments :
    (∃ d', run codes builtins false (dispatch native) = (.ok .termination, d') ∧
      (dispatch native).RestartedAt [1, 0] [.of codes 1 native] (.of codes 0 (guarded []))
        ⟨.undefined, (builtins.code .restartFrame).start,
          (builtins.code .restartFrame).constantPool, 600, 0, 1⟩ d' ∧
      d'.lazyThrow = false ∧ d'.restart = none) ∧
    ∃ d', run codes builtins false (dispatch (entry 500 0)) = (.ok .termination, d') ∧
      d'.thread.pendingHandler = some ⟨.undefined, 4096 + 96, 4096 + 128, 0, 716, 0⟩ ∧
      d'.restart = some 600 := by
  constructor
  · have hsettled : (dispatch native).IsSettled codes [1, 0] := by
      refine isSettled_dispatch ?_ ?_ (by decide)
      · intro h
        cases h
      · rintro (h | h) <;> cases h
    have hmain := @run_restart codes builtins (dispatch native) _ _ false _ _ _
      rfl (.inl rfl) hsettled rfl (frames_dispatch native)
    refine (hmain.1 ?_ rfl).2 nofun
    rw [List.forall_mem_singleton]
    rintro (h | h) <;> cases h
  · have hsettled : (dispatch (entry 500 0)).IsSettled codes [1, 0] := by
      refine isSettled_dispatch (isKnown_entry 500 0) ?_ (by decide)
      intro _
      exact ⟨⟨0, rfl, Nat.one_pos⟩, entryCode, rfl, _, List.mem_singleton_self _, rfl⟩
    have hmain := @run_restart codes builtins (dispatch (entry 500 0)) _ _ false _ _ _
      rfl (.inl rfl) hsettled rfl (frames_dispatch (entry 500 0))
    obtain ⟨inner, g, outer, i, address, code, offset, left, hbefore, hentry, hrun, hrestart⟩ :=
      hmain.2 ⟨_, List.mem_singleton_self _, .inl rfl⟩
    refine ⟨_, hrun, ?_, hrestart⟩
    -- One frame is further in, so it is the entry frame, and its handler and code are at hand.
    obtain ⟨rfl, rfl⟩ : inner = [] ∧ g = .of codes 1 (entry 500 0) := by
      cases inner with
      | nil => exact ⟨rfl, (List.cons.inj hbefore).1.symm⟩
      | cons x inner => simp at hbefore
    cases hentry.own
    cases hentry.installed
    cases hentry.known
    cases hentry.return0
    rfl

end Dispatch.RestartExample

end ScriptEngine

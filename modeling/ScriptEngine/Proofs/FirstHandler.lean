import ScriptEngine.Proofs.Catching

namespace ScriptEngine

namespace StackSegment

variable {fp : Address} {edit : RawFrame → RawFrame} {raw : RawFrame}

theorem modifyFirst_split {outer inner : List RawFrame} (h : raw.fp ∉ outer.map (·.fp)) :
    modifyFirst raw.fp edit (outer ++ raw :: inner) = outer ++ edit raw :: inner := by
  induction outer with
  | nil => simp [modifyFirst]
  | cons r outer ih =>
    rw [List.map_cons, List.mem_cons, not_or] at h
    rw [List.cons_append, modifyFirst, if_neg (Ne.symm h.1), ih h.2]
    rfl

theorem modifyFirst_self (frames : List RawFrame) :
    modifyFirst fp (fun r => r) frames = frames := by
  induction frames with
  | nil => rfl
  | cons r frames ih =>
    rw [modifyFirst, ih]
    split <;> rfl

/-- Frames are found from the outermost one on, so the frame pointers have to tell them apart. -/
theorem innermostFirst_modifyFrame {g : StackSegment} {inner rest : List RawFrame}
    (hg : g.innermostFirst = inner ++ raw :: rest) (hd : (g.innermostFirst.map (·.fp)).Nodup) :
    (g.modifyFrame raw.fp edit).innermostFirst = inner ++ edit raw :: rest := by
  have hframes : g.frames = rest.reverse ++ raw :: inner.reverse := by
    rw [List.reverse_eq_iff.mp hg]
    simp
  rw [hg, List.map_append, List.map_cons] at hd
  have hout : raw.fp ∉ rest.reverse.map (·.fp) := by
    rw [List.map_reverse, List.mem_reverse]
    exact (List.nodup_cons.mp (List.nodup_append.mp hd).2.1).1
  rw [innermostFirst, modifyFrame, hframes, modifyFirst_split hout]
  simp

end StackSegment

namespace SegmentedStack

variable {s : SegmentedStack} {id : Nat} {fp : Address} {edit : RawFrame → RawFrame}

/-- Changes the frame of a segment that has the frame pointer. -/
def modifyFrame (s : SegmentedStack) (id : Nat) (fp : Address) (edit : RawFrame → RawFrame) :
    SegmentedStack :=
  s.modifySegment id (·.modifyFrame fp edit)

theorem modifyFrame_self : s.modifyFrame id fp (fun r => r) = s := by
  have hm : ∀ g : StackSegment,
      (if g.id = id then g.modifyFrame fp fun r => r else g) = g := by
    intro g
    rw [StackSegment.modifyFrame, StackSegment.modifyFirst_self, ite_self]
  simp only [modifyFrame, modifySegment, hm, List.map_id']

theorem segment?_modifyFrame (j : Nat) : (s.modifyFrame id fp edit).segment? j =
    if j = id then (s.segment? j).map (·.modifyFrame fp edit) else s.segment? j :=
  segment?_modifySegment (f := (·.modifyFrame fp edit)) (fun _ h => h) j

theorem framesOf_modifyFrame_of_ne {j : Nat} (hj : j ≠ id) :
    (s.modifyFrame id fp edit).framesOf j = s.framesOf j := by
  rw [framesOf, framesOf, segment?_modifyFrame, if_neg hj]

theorem framesOf_modifyFrame {raw : RawFrame} {inner rest : List RawFrame}
    (hf : s.framesOf id = inner ++ raw :: rest) (hd : s.FpsDistinct id) :
    (s.modifyFrame id raw.fp edit).framesOf id = inner ++ edit raw :: rest := by
  unfold FpsDistinct at hd
  rw [framesOf] at hf hd ⊢
  rw [segment?_modifyFrame, if_pos rfl]
  cases hg : s.segment? id with
  | none => simp [hg] at hf
  | some g =>
    rw [hg] at hf hd
    exact StackSegment.innermostFirst_modifyFrame hf hd

/-- Of the frames of some segments, the one that is changed alone is another one then. -/
theorem frames_modifyFrame {codes : CodeRegistry} {left outer : List Nat} {raw : RawFrame}
    {inner rest : List RawFrame} (hids : (left ++ id :: outer).Nodup)
    (hf : s.framesOf id = inner ++ raw :: rest) (hd : s.FpsDistinct id) :
    (s.modifyFrame id raw.fp edit).frames codes (left ++ id :: outer) =
      (s.frames codes left ++ inner.map (.of codes id)) ++
        .of codes id (edit raw) :: (rest.map (.of codes id) ++ s.frames codes outer) := by
  have hsame : ∀ js : List Nat, id ∉ js →
      (s.modifyFrame id raw.fp edit).frames codes js = s.frames codes js := by
    intro js hjs
    unfold frames
    rw [List.flatMap_def, List.flatMap_def]
    congr 1
    apply List.map_congr_left
    intro j hj
    have hne : j ≠ id := fun he => hjs (he ▸ hj)
    rw [framesOf_modifyFrame_of_ne hne]
  obtain ⟨-, hcons, hdisjoint⟩ := List.nodup_append.mp hids
  have hleft : id ∉ left := fun hm => hdisjoint id hm id List.mem_cons_self rfl
  rw [frames_append, frames_cons, hsame left hleft, hsame outer (List.nodup_cons.mp hcons).1,
    framesOf_modifyFrame hf hd]
  simp

end SegmentedStack

namespace Dispatch

variable {codes : CodeRegistry} {builtins : Builtins} {d : Dispatch} {ids : List Nat} {e : Value}

/-- A patch changes handlers and the frame that it is for. -/
theorem applyPatch_eq {t : ThreadState} {patch : FramePatch} {fp : Address} (h : patch.IsFor fp) :
    applyPatch t patch = { t with
      handlers := patch.onHandlers t.handlers
      stack := t.stack.modifyFrame t.stack.active fp patch.onFrame } := by
  cases patch with
  | none =>
    show t = { t with stack := t.stack.modifyFrame t.stack.active fp fun r => r }
    rw [SegmentedStack.modifyFrame_self]
  | handlers kept =>
    show { t with handlers := t.handlers.take kept } = { t with
      handlers := t.handlers.take kept
      stack := t.stack.modifyFrame t.stack.active fp fun r => r }
    rw [SegmentedStack.modifyFrame_self]
  | bytecodeOffset fp' offset =>
    cases h
    rfl
  | context fp' v =>
    cases h
    rfl
  | exception fp' v =>
    cases h
    rfl

/-- Frame pointers also tell the frames of a segment apart. -/
structure IsOrdinary (codes : CodeRegistry) (d : Dispatch) (ids : List Nat) : Prop
    extends IsWalkable codes d ids where
  distinct : ∀ id ∈ ids, d.thread.stack.FpsDistinct id

/-- Dispatch after execution went on in the frame `f`, behind the frames `before`: it returned to
the segment of that frame, and changed no other one. -/
structure ResumedAt (codes : CodeRegistry) (d : Dispatch) (ids : List Nat) (before : List Frame)
    (f : Frame) (after : List Frame) (r : Frame.Resumption) (d' : Dispatch) : Prop where
  thread : d'.thread = { d.thread with
    pending := none, pendingHandler := some r.handler, handlers := r.handlers
    stack := d'.thread.stack }
  frames : d'.thread.stack.frames codes ids = before ++ { f with raw := r.raw } :: after
  stack : ∃ left outer edit, ids = left ++ f.segment :: outer ∧
    d'.thread.stack = (d.thread.stack.returnedTo left f.segment).modifyFrame f.segment f.fp edit
  active : d'.thread.stack.active = f.segment
  materialized : d'.materialized = forgetAll d.materialized before
  lazyThrow : d'.lazyThrow = (d.lazyThrow || r.lazyThrow)
  restart : d'.restart = d.restart

theorem matchFrame_catchable {c : DispatchContext} {restart : Option Address}
    {handlers : List Address} {visited : Nat} {f : Frame} (hr : restart ≠ some f.fp)
    (hc : c.catchable = true) :
    c.matchFrame restart handlers visited f = c.matchCatchable handlers visited f := by
  rw [DispatchContext.matchFrame, if_neg hr, hc, if_pos rfl]

theorem run_catchable (hp : d.thread.pending = some e) (hc : e.isCatchable = true) :
    run codes builtins false d =
      (match (searchFor { codes, builtins, exception := e, catchable := true }
          d.thread.stack.segments.length 0 d).1 with
        | .ok () => .ok e
        | .error v => .error (.fatal v),
      (searchFor { codes, builtins, exception := e, catchable := true }
        d.thread.stack.segments.length 0 d).2) := by
  simp only [run, hp, hc, Bool.not_false, Bool.and_true, if_true]
  cases (searchFor { codes, builtins, exception := e, catchable := true }
    d.thread.stack.segments.length 0 d).1 <;> rfl

theorem of_onFrame (patch : FramePatch) (segment : Nat) (r : RawFrame) :
    Frame.of codes segment (patch.onFrame r) =
      { Frame.of codes segment r with raw := patch.onFrame r } := by
  cases patch <;> rfl

/-- Dispatch that applied a match of the frame it reached went on there. -/
theorem resumedAt_apply {left outer : List Nat} {id : Nat}
    {inner rest : List RawFrame} {raw : RawFrame} {m : HandlerMatch} (h : d.IsOrdinary codes ids)
    (hids : ids = left ++ id :: outer) (hf : d.thread.stack.framesOf id = inner ++ raw :: rest)
    (hfor : m.patch.IsFor raw.fp) (hr : m.clearsRestart = false) :
    d.ResumedAt codes ids (d.thread.stack.frames codes left ++ inner.map (.of codes id))
      (.of codes id raw) (rest.map (.of codes id) ++ d.thread.stack.frames codes outer)
      (m.resumption raw d.thread.handlers) ((d.atFrame codes left id inner).apply m) := by
  have hchain := h.chain
  rw [hids] at hchain
  have hactive := SegmentedStack.active_returnedTo hchain
  have hstack : ((d.atFrame codes left id inner).apply m).thread.stack =
      (d.thread.stack.returnedTo left id).modifyFrame id raw.fp m.patch.onFrame := by
    rw [apply, applyPatch_eq hfor]
    simp only [atFrame, hactive]
  have hframes := hf
  rw [← SegmentedStack.framesOf_returnedTo left id id] at hframes
  have hdistinct : (d.thread.stack.returnedTo left id).FpsDistinct id := by
    have := h.distinct id (by simp [hids])
    rwa [SegmentedStack.FpsDistinct, SegmentedStack.framesOf_returnedTo]
  refine ⟨?_, ?_, ⟨left, outer, _, hids, hstack⟩, ?_, ?_, rfl, ?_⟩
  · rw [apply, applyPatch_eq hfor]
    rfl
  · rw [hstack, hids, SegmentedStack.frames_modifyFrame hchain.nodup hframes hdistinct,
      SegmentedStack.frames_returnedTo, SegmentedStack.frames_returnedTo, of_onFrame]
    rfl
  · rw [hstack]
    exact hactive
  · rfl
  · simp [apply, atFrame, hr]

/-- The first frame of the chain that does not let the exception pass decides. If it handles the
exception and has what it needs for that, execution goes on there; if it lacks something or must
not handle, dispatch breaks a rule. Without such a frame no handler is found. -/
theorem run_first_handler (hp : d.thread.pending = some e) (hc : e.isCatchable = true)
    (h : d.IsOrdinary codes ids) :
    (∀ before f after, d.thread.stack.frames codes ids = before ++ f :: after →
      (∀ g ∈ before, ¬g.Handles ∧ ¬g.Misplaced) →
      (f.Handles → f.IsSound d.thread.handlers before.length →
        ∃ r d', run codes builtins false d = (.ok e, d') ∧
          f.Resumes { codes, builtins, exception := e, catchable := true } d.thread.handlers
            before.length r ∧
          d.ResumedAt codes ids before f after r d') ∧
      ((f.Handles ∧ ¬f.IsSound d.thread.handlers before.length) ∨ f.Misplaced →
        ∃ v, (run codes builtins false d).1 = .error (.fatal (.invariantViolation v)))) ∧
    ((∀ f ∈ d.thread.stack.frames codes ids, ¬f.Handles ∧ ¬f.Misplaced) →
      (run codes builtins false d).1 = .error (.fatal .noHandlerFound)) := by
  let c : DispatchContext := { codes, builtins, exception := e, catchable := true }
  have hpass : ∀ g ∈ d.thread.stack.frames codes ids, ¬g.Handles ∧ ¬g.Misplaced →
      Passes c d.restart d.thread.handlers g := by
    intro g hg hn visited
    rw [matchFrame_catchable (h.noRestart g hg) rfl]
    exact DispatchContext.matchCatchable_passes hn.1 hn.2
  refine ⟨?_, ?_⟩
  · intro before f after split hbefore
    obtain ⟨left, outer, inner, rest, hids, hf, hview, rfl, rfl⟩ :=
      SegmentedStack.frames_split split
    have hmem : f ∈ d.thread.stack.frames codes ids := by simp [split]
    have hreach : Reaches c d left f.segment inner f.raw :=
      .of_split h.chain hids hf h.known fun g hg =>
        hpass g (split ▸ List.mem_append_left _ hg) (hbefore g hg)
    have hcode : f.HasCode := by
      rw [hview]
      exact Frame.hasCode_of codes f.segment f.raw
    -- The frame is asked with as many frames inside of it as were passed in all segments.
    have hmatch : c.matchFrame d.restart d.thread.handlers
        ((d.thread.stack.frames codes left).length + inner.length) (.of codes f.segment f.raw) =
        c.matchCatchable d.thread.handlers
          ((d.thread.stack.frames codes left).length + inner.length) f := by
      rw [← hview]
      exact matchFrame_catchable (h.noRestart f hmem) rfl
    rw [List.length_append, List.length_map]
    refine ⟨?_, ?_⟩
    · intro hh hs
      obtain ⟨m, hm, hr, hfor, hclears⟩ :=
        DispatchContext.matchCatchable_resumes (c := c) hcode hh hs
      have hat := resumedAt_apply h hids hf hfor hclears
      rw [← hview] at hat
      refine ⟨m.resumption f.raw d.thread.handlers,
        (d.atFrame codes left f.segment inner).apply m, ?_, hr, hat⟩
      rw [run_catchable hp hc, hreach.searchFor_found (hmatch.trans hm)]
    · intro hbad
      obtain ⟨v, hv⟩ : ∃ v, c.matchCatchable d.thread.handlers
          ((d.thread.stack.frames codes left).length + inner.length) f =
          .error (.invariantViolation v) := by
        rcases hbad with ⟨hh, hs⟩ | hm
        · exact DispatchContext.matchCatchable_unsound hcode hh hs
        · obtain ⟨name, hn⟩ := DispatchContext.matchCatchable_misplaced hm
          exact ⟨_, hn⟩
      refine ⟨v, ?_⟩
      rw [run_catchable hp hc, hreach.searchFor_error (hmatch.trans hv)]
  · intro hnone
    obtain ⟨left, id, rfl⟩ : ∃ left id, ids = left ++ [id] := by
      obtain ⟨rest, rfl⟩ := h.chain.head
      exact ⟨_, _, (List.dropLast_concat_getLast (List.cons_ne_nil _ rest)).symm⟩
    have hs := searchFor_none (c := c) h.chain h.known fun f hf => hpass f hf (hnone f hf)
    rw [run_catchable hp hc, hs]

end Dispatch

namespace Dispatch.Example

def codes : CodeRegistry := { codes := [⟨0, 4096, Builtin.interpreterEntry.description⟩] }

/-- Stands in a guarded range. -/
def guarded : RawFrame where
  marker := .managed
  fp := 800
  pc := 4112
  registers := [.null]
  bytecode := some {
    length := 10
    registerCount := 1
    handlers := { ranges := [⟨2, 8, 9, 0, .caught⟩] } }
  bytecodeOffset := 4
  slots := 5

def native : RawFrame := { marker := .native, fp := 600, pc := 0, slots := 4 }

def dispatch : Dispatch where
  thread := {
    pending := some (.smi 7)
    stack := {
      segments := [{ id := 0, base := 1000, cursor := 0, frames := [guarded], state := .inactive },
        { id := 1, base := 700, cursor := 0, frames := [native], parent := some 0 }]
      active := 1 } }
  materialized := []
  lazyThrow := false
  restart := none

theorem frames_dispatch :
    dispatch.thread.stack.frames codes [1, 0] = [.of codes 1 native, .of codes 0 guarded] := rfl

theorem isOrdinary_dispatch : dispatch.IsOrdinary codes [1, 0] where
  chain := .child rfl rfl (.root rfl rfl)
  known := by
    intro f hf hm
    simp only [frames_dispatch, List.mem_cons, List.not_mem_nil, or_false] at hf
    rcases hf with rfl | rfl
    · cases hm
    · exact ⟨_, rfl⟩
  distinct := by unfold SegmentedStack.FpsDistinct; decide
  noRestart := by
    intro f _ h
    cases h

/-- The interpreted frame goes on, with the value of the register that its range names. -/
theorem run_first_handler_across_segments :
    ∃ r d', run codes ⟨⟨[], []⟩, 0, 0⟩ false dispatch = (.ok (.smi 7), d') ∧
      r.raw = { guarded with bytecodeOffset := 9 } ∧ r.handler.context = .null ∧
      dispatch.ResumedAt codes [1, 0] [.of codes 1 native] (.of codes 0 guarded) [] r d' := by
  obtain ⟨hfirst, -⟩ :=
    @run_first_handler codes ⟨⟨[], []⟩, 0, 0⟩ dispatch [1, 0] (.smi 7) rfl rfl isOrdinary_dispatch
  have hbefore : ∀ g ∈ [Frame.of codes 1 native], ¬g.Handles ∧ ¬g.Misplaced := by
    intro g hg
    rw [List.mem_singleton.mp hg]
    refine ⟨id, ?_⟩
    rintro ⟨hk, -⟩
    cases hk
  have hhandles : (Frame.of codes 0 guarded).Handles := ⟨_, rfl, _, List.mem_singleton_self _, rfl⟩
  have hsound : (Frame.of codes 0 guarded).IsSound dispatch.thread.handlers 1 := by
    refine ⟨Nat.one_pos, ?_⟩
    intro r hr
    cases hr
    exact Nat.one_pos
  obtain ⟨r, d', hrun, hresumes, hat⟩ := (hfirst _ _ _ frames_dispatch hbefore).1 hhandles hsound
  have hkind : (Frame.of codes 0 guarded).kind = .interpreted := rfl
  suffices h : r.raw = { guarded with bytecodeOffset := 9 } ∧ r.handler.context = .null from
    ⟨r, d', hrun, h.1, h.2, hat⟩
  cases hresumes with
  | interpreted _ covered register =>
    cases covered
    cases register
    exact ⟨rfl, rfl⟩
  | entry kind => simp [Frame.IsEntry, hkind] at kind
  | optimized kind => simp [hkind] at kind
  | stub kind => simp [hkind] at kind
  | baseline kind => simp [hkind] at kind
  | continuation kind => simp [hkind] at kind

end Dispatch.Example

end ScriptEngine

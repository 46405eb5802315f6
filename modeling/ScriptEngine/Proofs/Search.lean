import ScriptEngine.Exception.Dispatch
import ScriptEngine.Proofs.SegmentChain

namespace ScriptEngine

/-- Managed frames have code at their pc. -/
def RawFrame.IsKnown (codes : CodeRegistry) (r : RawFrame) : Prop :=
  r.marker = .managed → ∃ code, codes.lookup r.pc = some code

namespace Frame

/-- The kind of a frame by its marker and the code at its pc. -/
def kindOf : FrameMarker → Option Code → FrameKind
  | .entry, _ => .entry
  | .constructEntry, _ => .constructEntry
  | .exit, _ => .exit
  | .stub, _ => .stub
  | .continuationWithCatch, _ => .continuationWithCatch
  | .native, _ => .native
  | .managed, some c => c.managedKind
  | .managed, none => .native

/-- The typed view of a frame whose code is known. -/
def of (codes : CodeRegistry) (segment : Nat) (r : RawFrame) : Frame :=
  ⟨r, codes.lookup r.pc, segment, kindOf r.marker (codes.lookup r.pc)⟩

theorem view_eq_of {codes : CodeRegistry} {r : RawFrame} (h : r.IsKnown codes) (segment : Nat) :
    view codes segment r = .ok (of codes segment r) := by
  unfold view of
  cases hm : r.marker
  case managed =>
    obtain ⟨code, hc⟩ := h hm
    simp [hc, kindOf]
  all_goals rfl

theorem isKnown_of_view {codes : CodeRegistry} {segment : Nat} {r : RawFrame} {f : Frame}
    (h : view codes segment r = .ok f) : r.IsKnown codes := by
  intro hm
  cases hc : codes.lookup r.pc with
  | none => simp [view, hm, hc, breach] at h
  | some code => exact ⟨code, rfl⟩

end Frame

namespace SegmentedStack

/-- The frames of some segments in order. -/
def frames (s : SegmentedStack) (codes : CodeRegistry) (ids : List Nat) : List Frame :=
  ids.flatMap fun id => (s.framesOf id).map (.of codes id)

variable {s : SegmentedStack} {codes : CodeRegistry} {ids : List Nat}

theorem frames_cons (id : Nat) (ids : List Nat) : s.frames codes (id :: ids) =
    (s.framesOf id).map (.of codes id) ++ s.frames codes ids := rfl

theorem frames_append (left right : List Nat) :
    s.frames codes (left ++ right) = s.frames codes left ++ s.frames codes right :=
  List.flatMap_append

theorem frames_returnedTo (left : List Nat) (id : Nat) :
    (s.returnedTo left id).frames codes ids = s.frames codes ids := by
  simp only [frames, framesOf_returnedTo]

/-- A frame of some segments lies in one of them, behind the frames of the segments before. -/
theorem frames_split {before after : List Frame} {f : Frame}
    (h : s.frames codes ids = before ++ f :: after) :
    ∃ left outer inner rest, ids = left ++ f.segment :: outer ∧
      s.framesOf f.segment = inner ++ f.raw :: rest ∧ f = .of codes f.segment f.raw ∧
      before = s.frames codes left ++ inner.map (.of codes f.segment) ∧
      after = rest.map (.of codes f.segment) ++ s.frames codes outer := by
  induction ids generalizing before with
  | nil => simp [frames] at h
  | cons j js ih =>
    rw [frames_cons] at h
    rcases List.append_eq_append_iff.mp h with ⟨more, hb, hl⟩ | ⟨more, hf, hl⟩
    · obtain ⟨left, outer, inner, rest, rfl, hi, hv, rfl, ha⟩ := ih hl
      exact ⟨j :: left, outer, inner, rest, rfl, hi, hv, by simp [hb, frames_cons], ha⟩
    · cases more with
      | nil =>
        -- The segment `j` ends right before the frame, which is the first one of a later segment.
        obtain ⟨left, outer, inner, rest, rfl, hi, hv, hb, ha⟩ :=
          ih (show s.frames codes js = [] ++ f :: after from hl.symm)
        refine ⟨j :: left, outer, inner, rest, rfl, hi, hv, ?_, ha⟩
        rw [frames_cons, List.append_assoc, ← hb, List.append_nil, hf, List.append_nil]
      | cons g more =>
        simp only [List.cons_append, List.cons.injEq] at hl
        obtain ⟨rfl, rfl⟩ := hl
        obtain ⟨inner, tail, hi, rfl, ht⟩ := List.map_eq_append_iff.mp hf
        obtain ⟨r, rest, rfl, rfl, rfl⟩ := List.map_eq_cons_iff.mp ht
        exact ⟨[], js, inner, rest, rfl, hi, rfl, rfl, rfl⟩

end SegmentedStack

namespace Dispatch

/-- What is left of the objects made for frames once some frames are passed. -/
def forgetAll (materialized : MaterializedObjects) (frames : List Frame) : MaterializedObjects :=
  materialized.filter fun o => !frames.any fun f => f.isTurbofan && f.fp == o.1

theorem forgetAll_nil (materialized : MaterializedObjects) :
    forgetAll materialized [] = materialized :=
  List.filter_eq_self.mpr fun _ _ => rfl

theorem forget_eq (materialized : MaterializedObjects) (f : Frame) :
    forget materialized f = forgetAll materialized [f] := by
  unfold forget forgetAll
  cases ht : f.isTurbofan with
  | false => exact (List.filter_eq_self.mpr fun o _ => by simp [ht]).symm
  | true =>
    apply List.filter_congr
    intro o _
    simp only [List.any_cons, List.any_nil, ht, Bool.true_and, Bool.or_false, bne, Bool.beq_comm]

theorem forgetAll_append (materialized : MaterializedObjects) (xs ys : List Frame) :
    forgetAll (forgetAll materialized xs) ys = forgetAll materialized (xs ++ ys) := by
  unfold forgetAll
  rw [List.filter_filter]
  apply List.filter_congr
  intro o _
  rw [List.any_append, Bool.not_or, Bool.and_comm]

/-- A frame that the search goes past, however many frames came before it. -/
def Passes (c : DispatchContext) (restart : Option Address) (handlers : List Address)
    (f : Frame) : Prop :=
  ∀ visited, c.matchFrame restart handlers visited f = .ok none

variable {c : DispatchContext} {restart : Option Address} {handlers : List Address}
  {segment visited : Nat} {inner rest : List RawFrame} {raw : RawFrame}
  {materialized : MaterializedObjects} {m : HandlerMatch} {e : FatalError} {d : Dispatch}

theorem searchFrames_pass (hk : ∀ r ∈ inner, r.IsKnown c.codes)
    (hp : ∀ r ∈ inner, Passes c restart handlers (.of c.codes segment r)) :
    searchFrames c restart handlers segment (inner ++ rest) visited materialized =
      searchFrames c restart handlers segment rest (visited + inner.length)
        (forgetAll materialized (inner.map (.of c.codes segment))) := by
  induction inner generalizing visited materialized with
  | nil => simp [forgetAll_nil]
  | cons r inner ih =>
    rw [List.cons_append, searchFrames, Frame.view_eq_of (hk r List.mem_cons_self)]
    dsimp only
    rw [hp r List.mem_cons_self visited]
    dsimp only
    rw [ih (fun q hq => hk q (List.mem_cons_of_mem _ hq))
      (fun q hq => hp q (List.mem_cons_of_mem _ hq)), forget_eq, forgetAll_append,
      List.length_cons, Nat.add_assoc, Nat.add_comm 1]
    rfl

/-- A frame that handles ends the search. -/
theorem searchFrames_found (hk : ∀ r ∈ inner ++ [raw], r.IsKnown c.codes)
    (hp : ∀ r ∈ inner, Passes c restart handlers (.of c.codes segment r))
    (hm : c.matchFrame restart handlers (visited + inner.length) (.of c.codes segment raw) =
      .ok (some m)) :
    searchFrames c restart handlers segment (inner ++ raw :: rest) visited materialized =
      (.ok (.found m), forgetAll materialized (inner.map (.of c.codes segment))) := by
  rw [searchFrames_pass (fun r hr => hk r (List.mem_append_left _ hr)) hp, searchFrames,
    Frame.view_eq_of (hk raw (by simp))]
  dsimp only
  rw [hm]

/-- A frame that breaks a rule of dispatch ends it too. -/
theorem searchFrames_error (hk : ∀ r ∈ inner ++ [raw], r.IsKnown c.codes)
    (hp : ∀ r ∈ inner, Passes c restart handlers (.of c.codes segment r))
    (hm : c.matchFrame restart handlers (visited + inner.length) (.of c.codes segment raw) =
      .error e) :
    searchFrames c restart handlers segment (inner ++ raw :: rest) visited materialized =
      (.error e, forgetAll materialized (inner.map (.of c.codes segment))) := by
  rw [searchFrames_pass (fun r hr => hk r (List.mem_append_left _ hr)) hp, searchFrames,
    Frame.view_eq_of (hk raw (by simp))]
  dsimp only
  rw [hm]

/-- Dispatch once the walk has returned through the segments `left` to segment `id`. -/
def returnedTo (d : Dispatch) (codes : CodeRegistry) (left : List Nat) (id : Nat) : Dispatch :=
  { d with
    thread := { d.thread with stack := d.thread.stack.returnedTo left id }
    materialized := forgetAll d.materialized (d.thread.stack.frames codes left) }

theorem returnedTo_nil (codes : CodeRegistry) (id : Nat) : d.returnedTo codes [] id = d := by
  simp [returnedTo, SegmentedStack.returnedTo, SegmentedStack.frames, forgetAll_nil]

theorem returnedTo_cons (codes : CodeRegistry) {first parent id : Nat} {left : List Nat}
    (hd : (left ++ [id]).head? = some parent) (hl : first ∉ left) (hne : first ≠ id) :
    (d.returnedTo codes [first] parent).returnedTo codes left id =
      d.returnedTo codes (first :: left) id := by
  unfold returnedTo
  dsimp only
  rw [SegmentedStack.returnedTo_cons hd hl hne, SegmentedStack.frames_returnedTo, forgetAll_append,
    ← SegmentedStack.frames_append]
  rfl

/-- The walk goes on in the parent if no frame of the active segment handles. -/
theorem searchFor_parent {first parent : Nat} {ids : List Nat} (k : Nat)
    (chain : d.thread.stack.Chain d.thread.stack.active (first :: ids)) (hne : ids ≠ [])
    (hd : ids.head? = some parent)
    (hk : ∀ r ∈ d.thread.stack.framesOf first, r.IsKnown c.codes)
    (hp : ∀ r ∈ d.thread.stack.framesOf first,
      Passes c d.restart d.thread.handlers (.of c.codes first r)) :
    searchFor c (k + 1) visited d =
      searchFor c k (visited + (d.thread.stack.framesOf first).length)
        (d.returnedTo c.codes [first] parent) := by
  obtain ⟨parent', hd', -, hswitch⟩ := chain.switchToParent hne
  cases hd.symm.trans hd'
  obtain ⟨hactive, g, -, found, -⟩ := chain.next hne
  have hid : g.id = first := SegmentedStack.segment?_id found
  rw [← hactive] at found
  have hs : searchFrames c d.restart d.thread.handlers first (d.thread.stack.framesOf first ++ [])
      visited d.materialized = _ := searchFrames_pass hk hp
  rw [List.append_nil] at hs
  rw [searchFor]
  dsimp only
  rw [SegmentedStack.framesOf_active found, SegmentedStack.activeSegment_eq found, hid, hactive, hs,
    searchFrames]
  dsimp only
  rw [hswitch]
  simp [returnedTo, SegmentedStack.frames, hactive]

/-- The walk goes on through segments none of whose frames handles. -/
theorem searchFor_leave {left outer : List Nat} {id : Nat} (k : Nat)
    (chain : d.thread.stack.Chain d.thread.stack.active (left ++ id :: outer))
    (hk : ∀ f ∈ d.thread.stack.frames c.codes left, f.raw.IsKnown c.codes)
    (hp : ∀ f ∈ d.thread.stack.frames c.codes left, Passes c d.restart d.thread.handlers f) :
    searchFor c (left.length + k) visited d =
      searchFor c k (visited + (d.thread.stack.frames c.codes left).length)
        (d.returnedTo c.codes left id) := by
  induction left generalizing visited d with
  | nil => simp [returnedTo_nil, SegmentedStack.frames]
  | cons first left ih =>
    obtain ⟨hactive, g, parent, _, _, rest⟩ := chain.next (by simp)
    obtain ⟨_, hrest⟩ := rest.head
    have hparent : (left ++ id :: outer).head? = some parent := congrArg List.head? hrest
    have hd : (left ++ [id]).head? = some parent := by
      cases left <;> simpa using hparent
    have hnodup := List.nodup_cons.mp chain.nodup
    have hl : first ∉ left := fun hm => hnodup.1 (List.mem_append_left _ hm)
    have hne : first ≠ id := fun he => hnodup.1 (he ▸ by simp)
    have hfirst : ∀ r ∈ d.thread.stack.framesOf first,
        Frame.of c.codes first r ∈ d.thread.stack.frames c.codes (first :: left) := by
      intro r hr
      rw [SegmentedStack.frames_cons]
      exact List.mem_append_left _ (List.mem_map.mpr ⟨r, hr, rfl⟩)
    have hmore : ∀ f ∈ (d.returnedTo c.codes [first] parent).thread.stack.frames c.codes left,
        f ∈ d.thread.stack.frames c.codes (first :: left) := by
      intro f hm
      rw [returnedTo, SegmentedStack.frames_returnedTo] at hm
      rw [SegmentedStack.frames_cons]
      exact List.mem_append_right _ hm
    -- One step leaves `first`; its chain goes on in `parent`, with the same frames.
    rw [List.length_cons, Nat.add_right_comm,
      searchFor_parent _ chain (by simp) hparent
        (fun r hr => hk _ (hfirst r hr)) (fun r hr => hp _ (hfirst r hr)),
      ih (rest.returnedTo [first] parent) (fun f hm => hk f (hmore f hm))
        (fun f hm => hp f (hmore f hm)),
      returnedTo_cons c.codes hd hl hne]
    congr 1
    simp [returnedTo, SegmentedStack.frames_returnedTo, SegmentedStack.frames_cons, Nat.add_assoc]

/-- A walk that passes every frame of the chain finds none that handles. -/
theorem searchFor_none {left : List Nat} {id : Nat}
    (chain : d.thread.stack.Chain d.thread.stack.active (left ++ [id]))
    (hk : ∀ f ∈ d.thread.stack.frames c.codes (left ++ [id]), f.raw.IsKnown c.codes)
    (hp : ∀ f ∈ d.thread.stack.frames c.codes (left ++ [id]),
      Passes c d.restart d.thread.handlers f) :
    (searchFor c d.thread.stack.segments.length 0 d).1 = .error .noHandlerFound := by
  have hlast : ∀ r ∈ d.thread.stack.framesOf id,
      Frame.of c.codes id r ∈ d.thread.stack.frames c.codes (left ++ [id]) := by
    intro r hr
    rw [SegmentedStack.frames_append, SegmentedStack.frames_cons]
    exact List.mem_append_right _ (List.mem_append_left _ (List.mem_map.mpr ⟨r, hr, rfl⟩))
  have hleft : ∀ f ∈ d.thread.stack.frames c.codes left,
      f ∈ d.thread.stack.frames c.codes (left ++ [id]) := by
    intro f hm
    rw [SegmentedStack.frames_append]
    exact List.mem_append_left _ hm
  obtain ⟨k, hfuel⟩ := chain.fuel
  obtain ⟨hid, hframes, hnone⟩ := SegmentedStack.activeSegment_returnedTo chain
  have hs : searchFrames c d.restart d.thread.handlers id (d.thread.stack.framesOf id ++ [])
      (d.thread.stack.frames c.codes left).length (d.returnedTo c.codes left id).materialized = _ :=
    searchFrames_pass (fun r hr => hk _ (hlast r hr)) (fun r hr => hp _ (hlast r hr))
  rw [List.append_nil, searchFrames] at hs
  have hparent : (d.thread.stack.returnedTo left id).switchToParent = none := by
    simp [SegmentedStack.switchToParent, SegmentedStack.leave, hnone rfl]
  rw [hfuel,
    searchFor_leave k chain (fun f hm => hk f (hleft f hm)) (fun f hm => hp f (hleft f hm)),
    Nat.zero_add, searchFor]
  dsimp only [returnedTo] at hs ⊢
  rw [hid, hframes, hs]
  dsimp only
  rw [hparent]
  cases k <;> rfl

/-- A frame to stop at, behind frames that the walk passes: in a segment that control returns to
through the segments `left`, behind the frames `inner` of its own segment. -/
structure Reaches (c : DispatchContext) (d : Dispatch) (left : List Nat) (id : Nat)
    (inner : List RawFrame) (raw : RawFrame) : Prop where
  chain : ∃ outer, d.thread.stack.Chain d.thread.stack.active (left ++ id :: outer)
  frames : ∃ rest, d.thread.stack.framesOf id = inner ++ raw :: rest
  known : ∀ f ∈ d.thread.stack.frames c.codes left ++ (inner ++ [raw]).map (.of c.codes id),
    f.raw.IsKnown c.codes
  passes : ∀ f ∈ d.thread.stack.frames c.codes left ++ inner.map (.of c.codes id),
    Passes c d.restart d.thread.handlers f

/-- Dispatch at a frame that it reached. -/
def atFrame (d : Dispatch) (codes : CodeRegistry) (left : List Nat) (id : Nat)
    (inner : List RawFrame) : Dispatch :=
  { d with
    thread := { d.thread with stack := d.thread.stack.returnedTo left id }
    materialized := forgetAll d.materialized
      (d.thread.stack.frames codes left ++ inner.map (.of codes id)) }

namespace Reaches

variable {left : List Nat} {id : Nat}

/-- All frames before one of the chain are passed: the walk reaches it. -/
theorem of_split {outer ids : List Nat}
    (chain : d.thread.stack.Chain d.thread.stack.active ids) (hids : ids = left ++ id :: outer)
    (hframes : d.thread.stack.framesOf id = inner ++ raw :: rest)
    (known : ∀ f ∈ d.thread.stack.frames c.codes ids, f.raw.IsKnown c.codes)
    (passes : ∀ f ∈ d.thread.stack.frames c.codes left ++ inner.map (.of c.codes id),
      Passes c d.restart d.thread.handlers f) :
    Reaches c d left id inner raw where
  chain := ⟨outer, hids ▸ chain⟩
  frames := ⟨rest, hframes⟩
  known := by
    intro f hf
    apply known f
    have he : d.thread.stack.frames c.codes ids = (d.thread.stack.frames c.codes left ++
        (inner ++ [raw]).map (.of c.codes id)) ++
        (rest.map (.of c.codes id) ++ d.thread.stack.frames c.codes outer) := by
      rw [hids, SegmentedStack.frames_append, SegmentedStack.frames_cons, hframes]
      simp
    rw [he]
    exact List.mem_append_left _ hf
  passes := passes

variable (h : Reaches c d left id inner raw)
include h

/-- The walk arrives at the frame's segment. -/
theorem leave :
    ∃ k rest, (d.returnedTo c.codes left id).thread.stack.activeSegment.id = id ∧
      (d.returnedTo c.codes left id).thread.stack.activeSegment.innermostFirst =
        inner ++ raw :: rest ∧
      searchFor c d.thread.stack.segments.length 0 d =
        searchFor c k (d.thread.stack.frames c.codes left).length
          (d.returnedTo c.codes left id) := by
  obtain ⟨outer, chain⟩ := h.chain
  obtain ⟨rest, hframes⟩ := h.frames
  obtain ⟨k, hfuel⟩ := chain.fuel
  obtain ⟨hid, hactive, _⟩ := SegmentedStack.activeSegment_returnedTo chain
  refine ⟨k, rest, hid, hactive.trans hframes, ?_⟩
  rw [hfuel, searchFor_leave k chain (fun f hf => h.known f (List.mem_append_left _ hf))
    (fun f hf => h.passes f (List.mem_append_left _ hf)), Nat.zero_add]

theorem known_inner : ∀ r ∈ inner ++ [raw], r.IsKnown c.codes := fun r hr =>
  h.known (.of c.codes id r) (List.mem_append_right _ (List.mem_map.mpr ⟨r, hr, rfl⟩))

theorem passes_inner : ∀ r ∈ inner, Passes c d.restart d.thread.handlers (.of c.codes id r) :=
  fun r hr => h.passes (.of c.codes id r) (List.mem_append_right _ (List.mem_map.mpr ⟨r, hr, rfl⟩))

/-- Dispatch applies the match of the frame that it stops at. -/
theorem searchFor_found (hm : c.matchFrame d.restart d.thread.handlers
      ((d.thread.stack.frames c.codes left).length + inner.length) (.of c.codes id raw) =
      .ok (some m)) :
    searchFor c d.thread.stack.segments.length 0 d =
      (.ok (), (d.atFrame c.codes left id inner).apply m) := by
  obtain ⟨k, rest, hid, hframes, he⟩ := h.leave
  rw [he, searchFor, hid, hframes]
  dsimp only
  rw [show (d.returnedTo c.codes left id).restart = d.restart from rfl,
    show (d.returnedTo c.codes left id).thread.handlers = d.thread.handlers from rfl,
    searchFrames_found h.known_inner h.passes_inner hm, returnedTo, forgetAll_append]
  rfl

/-- Dispatch ends with the rule that the frame it stops at breaks. -/
theorem searchFor_error (hm : c.matchFrame d.restart d.thread.handlers
      ((d.thread.stack.frames c.codes left).length + inner.length) (.of c.codes id raw) =
      .error e) :
    searchFor c d.thread.stack.segments.length 0 d =
      (.error e, d.atFrame c.codes left id inner) := by
  obtain ⟨k, rest, hid, hframes, he⟩ := h.leave
  rw [he, searchFor, hid, hframes]
  dsimp only
  rw [show (d.returnedTo c.codes left id).restart = d.restart from rfl,
    show (d.returnedTo c.codes left id).thread.handlers = d.thread.handlers from rfl,
    searchFrames_error h.known_inner h.passes_inner hm, returnedTo, forgetAll_append]
  rfl

end Reaches

/-- The frames of a chain have code where they need it, and no debugger wants to restart one. -/
structure IsWalkable (codes : CodeRegistry) (d : Dispatch) (ids : List Nat) : Prop where
  chain : d.thread.stack.Chain d.thread.stack.active ids
  known : ∀ f ∈ d.thread.stack.frames codes ids, f.raw.IsKnown codes
  noRestart : ∀ f ∈ d.thread.stack.frames codes ids, d.restart ≠ some f.fp

end Dispatch

end ScriptEngine

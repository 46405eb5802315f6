import Mathlib.Data.List.Basic
import ScriptEngine.Proofs.SegmentChain
import ScriptEngine.Thread.State

namespace ScriptEngine

/-- The frame without the addresses of its place. -/
def RawFrame.unplaced (r : RawFrame) : RawFrame := { r with fp := 0, sp := 0, callerSp := 0 }

/-- The frame without its place on the stack and among the handlers. -/
def RawFrame.detached (r : RawFrame) : RawFrame := { r.unplaced with handler := none }

/-- What is stripped off a frame does not matter to its view. -/
def RawFrame.KeepsView (strip : RawFrame → RawFrame) : Prop :=
  ∀ r, (strip r).marker = r.marker ∧ (strip r).pc = r.pc

theorem RawFrame.keepsView_id : KeepsView id := fun _ => ⟨rfl, rfl⟩

theorem RawFrame.keepsView_unplaced : KeepsView unplaced := fun _ => ⟨rfl, rfl⟩

theorem RawFrame.keepsView_detached : KeepsView detached := fun _ => ⟨rfl, rfl⟩

namespace Frame

/-- The view of a frame in no particular segment, with some of the frame stripped off. -/
def stripped (strip : RawFrame → RawFrame) (f : Frame) : Frame :=
  { f with raw := strip f.raw, segment := 0 }

variable {strip : RawFrame → RawFrame}

theorem view_strip (hstrip : RawFrame.KeepsView strip) (codes : CodeRegistry) (segment : Nat)
    (r : RawFrame) : view codes 0 (strip r) = (view codes segment r).map (stripped strip) := by
  unfold view
  rw [(hstrip r).1, (hstrip r).2]
  cases r.marker
  case managed => cases codes.lookup r.pc <;> rfl
  all_goals rfl

/-- Frames that are the same once stripped have the same view then, or none for the same reason. -/
theorem view_alike (hstrip : RawFrame.KeepsView strip) (codes : CodeRegistry)
    (segment segment' : Nat) {r r' : RawFrame} (h : strip r = strip r') :
    (∃ e, view codes segment r = .error e ∧ view codes segment' r' = .error e) ∨
    ∃ f f', view codes segment r = .ok f ∧ view codes segment' r' = .ok f' ∧
      f.stripped strip = f'.stripped strip := by
  have hview := (view_strip hstrip codes segment r).symm.trans
    ((congrArg (view codes 0) h).trans (view_strip hstrip codes segment' r'))
  cases hv : view codes segment r <;> cases hv' : view codes segment' r' <;>
    simp only [hv, hv', Except.map, Except.ok.injEq, Except.error.injEq, reduceCtorEq] at hview
  case error.error e e' => exact .inl ⟨e, rfl, hview ▸ rfl⟩
  case ok.ok f f' => exact .inr ⟨f, f', rfl, rfl, hview⟩

end Frame

namespace SegmentedStack

/-- The frames of the active segment, innermost first. -/
def activeFrames (s : SegmentedStack) : List RawFrame := s.activeSegment.innermostFirst

/-- The frames that lie on the stack, innermost first: those of the active segment, then those of
the segment that it returns to, and so on. Segments are numbered as they are started. -/
structure Holds (s : SegmentedStack) (frames : List RawFrame) : Prop where
  numbered : ∀ j g, s.segment? j = some g → j < s.segments.length
  chain : ∃ ids, s.Chain s.active ids ∧ ids.flatMap s.framesOf = frames

variable {s : SegmentedStack} {frames : List RawFrame}

theorem holds_empty : Holds {} [] where
  numbered := by
    intro j g h
    have hj : g.id = j := segment?_id h
    rw [List.mem_singleton.mp (List.mem_of_find?_eq_some h)] at hj
    rw [← hj]
    exact Nat.zero_lt_one
  chain := ⟨[0], .root rfl rfl, rfl⟩

theorem Holds.found (h : s.Holds frames) : ∃ g, s.segment? s.active = some g := by
  obtain ⟨_, hc, _⟩ := h.chain
  exact hc.found

/-- The new segment comes after the old ones, of which the active one changes its state. -/
theorem segment?_switchToNew (h : s.Holds frames) : ∃ state : StackSegment → SegmentState,
    ∀ j, s.switchToNew.2.segment? j =
      if j = s.segments.length then
        some (.fresh j (stackBase - j * segmentSpan) (some s.active))
      else (s.segment? j).map fun g => { g with state := state g } := by
  refine ⟨fun g => if g.id = s.active then .inactive else g.state, fun j => ?_⟩
  have hleft : (s.modifyActive fun g => { g with state := .inactive }).segments =
      (s.mapSegments (fun g =>
        { g with state := if g.id = s.active then .inactive else g.state }) s.active).segments := by
    apply List.map_congr_left
    intro g _
    split <;> rfl
  have hmap := segment?_mapSegments (s := s) (f := fun g =>
    { g with state := if g.id = s.active then .inactive else g.state }) (fun _ => rfl) s.active j
  simp only [segment?] at hmap
  simp only [segment?, switchToNew, List.find?_append, hleft, hmap]
  by_cases hj : j = s.segments.length
  · -- No old segment has the number of the new one.
    have hnone : s.segment? j = none := by
      cases hs : s.segment? j with
      | none => rfl
      | some g => exact absurd (h.numbered j g hs) (hj ▸ Nat.lt_irrefl _)
    simp only [segment?] at hnone
    simp [hj ▸ hnone, hj, StackSegment.fresh]
  · simp [hj, StackSegment.fresh, Ne.symm hj]

/-- Cutting a stack leaves its frames. -/
theorem Holds.switchToNew (h : s.Holds frames) : s.switchToNew.2.Holds frames := by
  obtain ⟨ids, hc, hframes⟩ := h.chain
  obtain ⟨state, hsegments⟩ := segment?_switchToNew h
  have hold : ∀ j ∈ ids, s.switchToNew.2.segment? j =
      (s.segment? j).map fun g => { g with state := state g } := by
    intro j hj
    obtain ⟨_, hj', _⟩ := hc.suffix hj
    obtain ⟨g, hg⟩ := hj'.found
    rw [hsegments, if_neg (Nat.ne_of_lt (h.numbered j g hg))]
  have hnew := hsegments s.segments.length
  rw [if_pos rfl] at hnew
  refine ⟨?_, s.segments.length :: ids, .child hnew rfl (hc.congr ?_), ?_⟩
  · intro j g hg
    have hlength : s.switchToNew.2.segments.length = s.segments.length + 1 := by
      simp [SegmentedStack.switchToNew, modifyActive, modifySegment]
    rw [hlength]
    rw [hsegments] at hg
    split at hg
    case isTrue hj => exact hj ▸ Nat.lt_succ_self _
    case isFalse hj =>
      obtain ⟨g', hg', _⟩ := Option.map_eq_some_iff.mp hg
      exact Nat.lt_succ_of_lt (h.numbered j g' hg')
  · intro j hj
    rw [hold j hj, Option.map_map]
    rfl
  · have hsame : ∀ j ∈ ids, s.switchToNew.2.framesOf j = s.framesOf j := by
      intro j hj
      rw [framesOf, framesOf, hold j hj, Option.map_map]
      rfl
    rw [List.flatMap_cons, List.flatMap_congr hsame, hframes, framesOf, hnew]
    rfl

theorem activeFrames_switchToNew (h : s.Holds frames) : s.switchToNew.2.activeFrames = [] := by
  obtain ⟨state, hsegments⟩ := segment?_switchToNew h
  have hnew := hsegments s.segments.length
  rw [if_pos rfl] at hnew
  rw [activeFrames, activeSegment_eq hnew]
  rfl

theorem segment?_push {g : StackSegment} (found : s.segment? s.active = some g) (spec : FrameSpec)
    (j : Nat) : (s.push spec).2.segment? j =
      if j = s.active then some (g.push spec).2 else s.segment? j := by
  have hid : g.id = s.active := segment?_id found
  rw [push, activeSegment_eq found]
  dsimp only
  rw [modifyActive, segment?_modifySegment (f := fun _ => (g.push spec).2) fun _ _ => hid]
  split
  case isTrue hj => rw [hj, found, Option.map_some]
  case isFalse => rfl

/-- The second stack is the first one with a frame put on its active segment. -/
structure Pushes (s s' : SegmentedStack) (r : RawFrame) : Prop where
  length : s'.segments.length = s.segments.length
  active : s'.active = s.active
  segments : ∃ cursor, ∀ j, s'.segment? j =
    if j = s.active then
      (s.segment? j).map fun g => { g with cursor, frames := g.frames ++ [r] }
    else s.segment? j

variable {s' : SegmentedStack} {r : RawFrame}

theorem Pushes.framesOf_active (h : s.Pushes s' r) (hs : s.Holds frames) :
    s'.framesOf s.active = r :: s.framesOf s.active := by
  obtain ⟨cursor, hsegments⟩ := h.segments
  obtain ⟨g, hg⟩ := hs.found
  rw [framesOf, framesOf, hsegments, if_pos rfl, hg]
  simp [StackSegment.innermostFirst]

/-- The frame lies before all others. -/
theorem Pushes.holds (h : s.Pushes s' r) (hs : s.Holds frames) : s'.Holds (r :: frames) := by
  obtain ⟨ids, hc, hframes⟩ := hs.chain
  obtain ⟨rest, rfl⟩ := hc.head
  obtain ⟨g, hg⟩ := hc.found
  obtain ⟨cursor, hsegments⟩ := h.segments
  refine ⟨?_, s.active :: rest, h.active.symm ▸ hc.congr ?_, ?_⟩
  · intro j g' hg'
    rw [h.length]
    rw [hsegments] at hg'
    split at hg'
    case isTrue hj => exact hj ▸ hs.numbered _ g hg
    case isFalse => exact hs.numbered j g' hg'
  · intro j _
    rw [hsegments]
    split
    case isTrue => rw [Option.map_map]; rfl
    case isFalse => rfl
  · have hrest : ∀ j ∈ rest, s'.framesOf j = s.framesOf j := by
      intro j hj
      have hne : j ≠ s.active := fun he => (List.nodup_cons.mp hc.nodup).1 (he ▸ hj)
      rw [framesOf, framesOf, hsegments, if_neg hne]
    rw [List.flatMap_cons, List.flatMap_congr hrest, h.framesOf_active hs, ← hframes]
    rfl

theorem Holds.activeFrames_eq (h : s.Holds frames) : s.activeFrames = s.framesOf s.active := by
  obtain ⟨g, hg⟩ := h.found
  exact SegmentedStack.framesOf_active hg

theorem Pushes.activeFrames (h : s.Pushes s' r) (hs : s.Holds frames) :
    s'.activeFrames = r :: s.activeFrames := by
  rw [(h.holds hs).activeFrames_eq, h.active, h.framesOf_active hs, hs.activeFrames_eq]

end SegmentedStack

namespace ThreadState

open SegmentedStack

variable {t : ThreadState} {frames : List RawFrame}

/-- The frame that a push puts on the stack. -/
def placed (t : ThreadState) (spec : FrameSpec) : RawFrame :=
  let r := StackSegment.place t.stack.activeSegment.cursor spec
  if spec.frame.marker.isEntry then { r with handler := some t.handlers.length } else r

theorem pushes_pushFrame (h : t.stack.Holds frames) (spec : FrameSpec) :
    t.stack.Pushes (t.pushFrame spec).2.stack (t.placed spec) := by
  obtain ⟨g, hg⟩ := h.found
  cases hentry : spec.frame.marker.isEntry with
  | false =>
    have hstack : (t.pushFrame spec).2.stack = (t.stack.push spec).2 := by
      simp [pushFrame, hentry]
    rw [hstack]
    refine ⟨by simp [push, modifyActive, modifySegment], rfl, (t.placed spec).sp, fun j => ?_⟩
    rw [segment?_push hg]
    split
    case isTrue hj =>
      rw [hj, hg]
      simp [StackSegment.push, placed, hentry, activeSegment_eq hg]
    case isFalse => rfl
  | true =>
    have hstack : (t.pushFrame spec).2.stack = (t.stack.push spec).2.modifyActive fun g =>
        { g with frames := g.frames.dropLast ++ [t.placed spec] } := by
      simp only [pushFrame, hentry, placed, if_true]
      rfl
    rw [hstack]
    refine ⟨by simp [push, modifyActive, modifySegment], rfl, (t.placed spec).sp, fun j => ?_⟩
    have hactive : (t.stack.push spec).2.active = t.stack.active := rfl
    rw [modifyActive, segment?_modifySegment (by exact fun _ h => h), segment?_push hg, hactive]
    split
    case isTrue hj =>
      rw [hj, hg]
      simp [StackSegment.push, placed, hentry, activeSegment_eq hg]
    case isFalse => rfl

/-- Pushes a frame, or starts a segment. -/
def lay (t : ThreadState) : Option FrameSpec → ThreadState
  | some spec => (t.pushFrame spec).2
  | none => { t with stack := t.stack.switchToNew.2 }

/-- Pushes frames in order, outermost first, and starts a segment wherever none is given. -/
def layOut (t : ThreadState) (layout : List (Option FrameSpec)) : ThreadState :=
  layout.foldl lay t

/-- Only the stack and the handlers are laid out. -/
theorem layOut_eq (t : ThreadState) (layout : List (Option FrameSpec)) :
    ∃ stack handlers, t.layOut layout = { t with stack, handlers } := by
  induction layout generalizing t with
  | nil => exact ⟨t.stack, t.handlers, rfl⟩
  | cons step layout ih =>
    have hlay : ∃ stack handlers, t.lay step = { t with stack, handlers } := by
      cases step with
      | none => exact ⟨_, t.handlers, rfl⟩
      | some spec =>
        simp only [lay, pushFrame]
        split
        · exact ⟨_, _, rfl⟩
        · exact ⟨_, t.handlers, rfl⟩
    obtain ⟨_, _, hlay⟩ := hlay
    obtain ⟨stack, handlers, hmore⟩ := ih (t.lay step)
    refine ⟨stack, handlers, hmore.trans ?_⟩
    rw [hlay]

theorem holds_lay (h : t.stack.Holds frames) (step : Option FrameSpec) :
    ∃ frames', (t.lay step).stack.Holds frames' := by
  cases step with
  | none => exact ⟨_, h.switchToNew⟩
  | some spec => exact ⟨_, (pushes_pushFrame h spec).holds h⟩

theorem holds_layOut (h : t.stack.Holds frames) (layout : List (Option FrameSpec)) :
    ∃ frames', (t.layOut layout).stack.Holds frames' := by
  induction layout generalizing t frames with
  | nil => exact ⟨frames, h⟩
  | cons step layout ih =>
    obtain ⟨_, hstep⟩ := holds_lay h step
    exact ih hstep

theorem placed_detached (t : ThreadState) (spec : FrameSpec) :
    (t.placed spec).detached = spec.frame.detached := by
  unfold placed
  split <;> rfl

/-- The frames that are pushed without a cut lie on the active segment, before those that were
there. -/
theorem activeFrames_layOut (h : t.stack.Holds frames) (specs : List FrameSpec) :
    ∃ pushed, (t.layOut (specs.map some)).stack.activeFrames = pushed ++ t.stack.activeFrames ∧
      pushed.map (·.detached) = (specs.map (·.frame.detached)).reverse := by
  induction specs generalizing t frames with
  | nil => exact ⟨[], rfl, rfl⟩
  | cons spec specs ih =>
    have hpush := pushes_pushFrame h spec
    obtain ⟨pushed, hframes, hspecs⟩ := ih (hpush.holds h)
    refine ⟨pushed ++ [t.placed spec], ?_, ?_⟩
    · rw [List.append_assoc, List.singleton_append, ← hpush.activeFrames h]
      exact hframes
    · simp [hspecs, placed_detached]

/-- The same frames without a cut. -/
def uncut (layout : List (Option FrameSpec)) : List (Option FrameSpec) := layout.filter (·.isSome)

/-- The stacks of two threads hold the same frames up to addresses, with as many handlers. -/
structure SameFrames (t t' : ThreadState) : Prop where
  frames : ∃ frames frames', t.stack.Holds frames ∧ t'.stack.Holds frames' ∧
    frames.map (·.unplaced) = frames'.map (·.unplaced)
  handlers : t.handlers.length = t'.handlers.length

variable {t' : ThreadState}

theorem SameFrames.push (h : t.SameFrames t') (spec : FrameSpec) :
    (t.lay (some spec)).SameFrames (t'.lay (some spec)) := by
  obtain ⟨frames, frames', hs, hs', hsame⟩ := h.frames
  have hplaced : (t.placed spec).unplaced = (t'.placed spec).unplaced := by
    unfold placed
    rw [h.handlers]
    split <;> rfl
  have hpush := (pushes_pushFrame hs spec).holds hs
  have hpush' := (pushes_pushFrame hs' spec).holds hs'
  refine ⟨⟨_, _, hpush, hpush', ?_⟩, ?_⟩
  · rw [List.map_cons, List.map_cons, hplaced, hsame]
  · simp only [lay, pushFrame]
    split <;> simp [h.handlers]

/-- Cuts make no difference to what frames a stack holds. -/
theorem SameFrames.layOut (h : t.SameFrames t') (layout : List (Option FrameSpec)) :
    (t.layOut layout).SameFrames (t'.layOut (uncut layout)) := by
  induction layout generalizing t t' with
  | nil => exact h
  | cons step layout ih =>
    cases step with
    | some spec => exact ih (h.push spec)
    | none =>
      obtain ⟨frames, frames', hs, hs', hsame⟩ := h.frames
      exact ih ⟨⟨frames, frames', hs.switchToNew, hs', hsame⟩, h.handlers⟩

end ThreadState

end ScriptEngine

import ScriptEngine.Proofs.InstalledHandlers
import ScriptEngine.Proofs.RootVisits

namespace ScriptEngine

/-- The frame without its values and notes. -/
def RawFrame.blank (r : RawFrame) : RawFrame :=
  { r with
    function := .undefined
    receiver := .undefined
    context := .undefined
    registers := r.registers.map fun _ => .undefined
    bytecodeOffset := 0
    handler := none
    exception := .undefined }

/-- The frame was pushed by the description when the cursor was there. -/
structure RawFrame.IsFrom (r : RawFrame) (spec : FrameSpec) (cursor : Address) : Prop where
  built : spec.Built
  blank : r.blank = (StackSegment.place cursor spec).blank

def RawFrame.IsPushed (r : RawFrame) : Prop := ∃ spec cursor, r.IsFrom spec cursor

section Origin

variable {r r' : RawFrame} {spec : FrameSpec} {cursor : Address}

theorem RawFrame.IsPushed.congr (h : r.IsPushed) (same : r'.blank = r.blank) : r'.IsPushed := by
  obtain ⟨spec, cursor, built, blank⟩ := h
  exact ⟨spec, cursor, built, same.trans blank⟩

theorem RawFrame.isPushed_place (built : spec.Built) (cursor : Address) :
    (StackSegment.place cursor spec).IsPushed :=
  ⟨spec, cursor, built, rfl⟩

theorem RawFrame.blank_onFrame (patch : FramePatch) (r : RawFrame) :
    (patch.onFrame r).blank = r.blank := by
  cases patch <;> rfl

theorem RawFrame.blank_mapValues (f : Value → Value) (r : RawFrame) :
    (r.mapValues f).blank = r.blank := by
  simp only [blank, mapValues, List.map_map, Function.comp_def]

end Origin

def StackSegment.IsPushed (g : StackSegment) : Prop := ∀ r ∈ g.frames, r.IsPushed

/-- All frames were pushed, also those of segments that are out of reach. -/
def SegmentedStack.IsPushed (s : SegmentedStack) : Prop := ∀ g ∈ s.segments, g.IsPushed

namespace StackSegment

variable {g : StackSegment}

theorem isPushed_fresh (id : Nat) (base : Address) (parent : Option Nat) :
    (fresh id base parent).IsPushed :=
  fun _ hr => absurd hr List.not_mem_nil

theorem IsPushed.append (h : g.IsPushed) {frames : List RawFrame} {r : RawFrame}
    (sublist : frames.Sublist g.frames) (pushed : r.IsPushed) :
    ∀ q ∈ frames ++ [r], q.IsPushed := by
  intro q hq
  rcases List.mem_append.mp hq with hold | hnew
  · exact h q (sublist.subset hold)
  · exact List.mem_singleton.mp hnew ▸ pushed

theorem isPushed_modifyFirst {fp : Address} {edit : RawFrame → RawFrame} {frames : List RawFrame}
    (h : ∀ r ∈ frames, r.IsPushed) (hedit : ∀ r, (edit r).blank = r.blank) :
    ∀ r ∈ modifyFirst fp edit frames, r.IsPushed := by
  induction frames with
  | nil => exact h
  | cons q frames ih =>
    obtain ⟨hq, hframes⟩ := List.forall_mem_cons.mp h
    rw [modifyFirst]
    split
    · exact List.forall_mem_cons.mpr ⟨hq.congr (hedit q), hframes⟩
    · exact List.forall_mem_cons.mpr ⟨hq, ih hframes⟩

end StackSegment

namespace SegmentedStack

variable {s s' : SegmentedStack} {id : Nat}

theorem IsPushed.activeSegment (h : s.IsPushed) : s.activeSegment.IsPushed := by
  unfold SegmentedStack.activeSegment
  cases hg : s.segment? s.active with
  | none => exact StackSegment.isPushed_fresh 0 stackBase none
  | some g => exact h g (List.mem_of_find?_eq_some hg)

theorem IsPushed.framesOf (h : s.IsPushed) : ∀ r ∈ s.framesOf id, r.IsPushed := by
  intro r hr
  rw [SegmentedStack.framesOf] at hr
  cases hg : s.segment? id with
  | none => simp [hg] at hr
  | some g =>
    rw [hg] at hr
    exact h g (List.mem_of_find?_eq_some hg) r (List.mem_reverse.mp hr)

theorem IsPushed.modifySegment (h : s.IsPushed) {f : StackSegment → StackSegment}
    (hf : ∀ g : StackSegment, g.IsPushed → (f g).IsPushed) : (s.modifySegment id f).IsPushed := by
  intro g hg
  obtain ⟨g', hg', rfl⟩ := List.mem_map.mp hg
  split
  · exact hf g' (h g' hg')
  · exact h g' hg'

theorem IsPushed.push (h : s.IsPushed) {spec : FrameSpec} (built : spec.Built) :
    (s.push spec).2.IsPushed :=
  h.modifySegment fun _ _ =>
    h.activeSegment.append (List.Sublist.refl _) (RawFrame.isPushed_place built _)

theorem IsPushed.pop (h : s.IsPushed) : s.pop.2.IsPushed := by
  have hpop : s.activeSegment.pop.2.IsPushed := by
    unfold StackSegment.pop
    split
    · exact h.activeSegment
    · exact fun r hr => h.activeSegment r ((List.dropLast_sublist _).subset hr)
  exact h.modifySegment fun _ _ => hpop

theorem IsPushed.switchToNew (h : s.IsPushed) : s.switchToNew.2.IsPushed := by
  intro g hg
  rcases List.mem_append.mp hg with hold | hnew
  · have hleft : (s.modifyActive ({ · with state := .inactive })).IsPushed :=
      h.modifySegment fun _ hg => hg
    exact hleft g hold
  · rw [List.mem_singleton.mp hnew]
    exact StackSegment.isPushed_fresh _ _ _

theorem IsPushed.leave (h : s.IsPushed) {state : SegmentState} {parent : Nat}
    (hleave : s.leave state = some (parent, s')) : s'.IsPushed := by
  simp only [SegmentedStack.leave, Option.bind_eq_bind, Option.bind_eq_some_iff, pure,
    Option.some.injEq, Prod.mk.injEq] at hleave
  obtain ⟨_, -, _, -, -, rfl⟩ := hleave
  have hleft : (s.modifyActive ({ · with state := state })).IsPushed :=
    h.modifySegment fun _ hg => hg
  exact hleft.modifySegment fun _ hg => hg

end SegmentedStack

namespace ThreadState

open SegmentedStack

/-- What a thread can come to: frames, segments and scopes come and go, dispatch moves its stack,
its values are replaced when objects move, and all but the stack changes otherwise. -/
inductive Arises : ThreadState → Prop
  | new : Arises {}
  | move {t : ThreadState} (h : Arises t) (move : StackMove) : Arises (move.on t)
  | dispatch {d : Dispatch} (h : Arises d.thread) (codes : CodeRegistry) (builtins : Builtins)
      (termination : Bool) : Arises (Dispatch.run codes builtins termination d).2.thread
  | replace {t : ThreadState} (h : Arises t) (f : Value → Value) : Arises (t.mapValues f)
  | elsewhere {t t' : ThreadState} (h : Arises t) (same : t'.stack = t.stack) : Arises t'

variable {t : ThreadState}

theorem isPushed_pushFrame (h : t.stack.IsPushed) {spec : FrameSpec} (built : spec.Built) :
    (t.pushFrame spec).2.stack.IsPushed := by
  have hpush := h.push built
  unfold pushFrame
  dsimp only
  split
  · refine hpush.modifySegment fun g hg => hg.append (List.dropLast_sublist _) ?_
    exact (RawFrame.isPushed_place built t.stack.activeSegment.cursor).congr rfl
  · exact hpush

theorem stack_popFrame (t : ThreadState) : t.popFrame.2.stack = t.stack.pop.2 := by
  unfold popFrame
  split <;> simp_all

/-- Only the innermost scope gives its space back. -/
theorem stack_unregister (t : ThreadState) (id : TryCatchId) :
    ((StackMove.unregister id).on t).stack = t.stack ∨ ∃ address,
      ((StackMove.unregister id).on t).stack = t.stack.releaseNative address TryCatch.size := by
  simp only [StackMove.on]
  cases hid : t.unregisterTryCatch id with
  | error e => exact .inl rfl
  | ok result =>
    unfold unregisterTryCatch at hid
    split at hid
    · cases hid
    split at hid
    · cases hid
      exact .inr ⟨_, rfl⟩
    · split at hid <;> cases hid

theorem isPushed_move (h : t.stack.IsPushed) (move : StackMove) : (move.on t).stack.IsPushed := by
  have hleave : ∀ state, (StackMove.leave t state).stack.IsPushed := by
    intro state
    unfold StackMove.leave
    split
    · exact h
    · exact h.leave ‹_›
  cases move with
  | push spec built => exact isPushed_pushFrame h built
  | pop => exact (stack_popFrame t).symm ▸ h.pop
  | startSegment => exact h.switchToNew
  | returnToParent => exact hleave .retired
  | suspendToParent => exact hleave .suspended
  | register scope => exact h.modifySegment fun _ hg => hg
  | unregister id =>
    obtain hsame | ⟨address, hreleased⟩ := stack_unregister t id
    · exact hsame ▸ h
    · rw [hreleased]
      refine h.modifySegment fun g hg => ?_
      split <;> exact hg

/-- A stack stays one that can be walked from the active segment to the last parent. -/
theorem piled_move {piles : List Pile} (h : t.stack.Piled piles) (move : StackMove) :
    ∃ piles', (move.on t).stack.Piled piles' := by
  obtain ⟨posts, rest, rfl⟩ := h.exists_cons
  have hleave : ∀ state, ∃ piles', (StackMove.leave t state).stack.Piled piles' := by
    intro state
    unfold StackMove.leave
    cases rest with
    | nil =>
      rw [h.leave_last state]
      exact ⟨_, h⟩
    | cons p rest =>
      obtain ⟨parent, stack, hleave, hparent⟩ := h.leave (by simp) state
      rw [hleave]
      exact ⟨_, hparent⟩
  cases move with
  | push spec built =>
    obtain ⟨frames, hframes, -⟩ := h.holds
    exact ⟨_, h.push (pushes_pushFrame hframes spec)⟩
  | pop =>
    obtain ⟨g, found⟩ := h.chain.found
    rw [StackMove.on, stack_popFrame]
    rcases List.eq_nil_or_concat' g.frames with hnil | ⟨frames, r, hframes⟩
    · exact ⟨_, (h.pop_nothing found hnil).2.2⟩
    · exact ⟨_, (h.pop found hframes).2.2⟩
  | startSegment => exact ⟨_, h.switchToNew⟩
  | returnToParent => exact hleave .retired
  | suspendToParent => exact hleave .suspended
  | register scope => exact ⟨_, h.reserveNative TryCatch.size⟩
  | unregister id =>
    obtain hsame | ⟨address, hreleased⟩ := stack_unregister t id
    · exact ⟨_, hsame ▸ h⟩
    · exact ⟨_, hreleased ▸ h.releaseNative address TryCatch.size⟩

theorem isPushed_mapValues (h : t.stack.IsPushed) (f : Value → Value) :
    (t.mapValues f).stack.IsPushed := by
  intro g hg
  obtain ⟨g', hg', rfl⟩ := List.mem_map.mp hg
  intro r hr
  obtain ⟨r', hr', rfl⟩ := List.mem_map.mp hr
  exact (h g' hg' r' hr').congr (RawFrame.blank_mapValues f r')

theorem piled_mapValues {piles : List Pile} (h : t.stack.Piled piles) (f : Value → Value) :
    (t.mapValues f).stack.Piled piles := by
  have houtline : ∀ g : StackSegment, (g.mapValues f).outline = g.outline := by
    intro g
    simp only [StackSegment.outline, StackSegment.innermostFirst, StackSegment.mapValues,
      List.map_reverse, List.map_map]
    rfl
  refine h.congr (List.length_map _) rfl fun j => ?_
  have hmap := segment?_mapSegments (s := t.stack) (f := StackSegment.mapValues f) (fun _ => rfl)
    t.stack.active j
  have hsegment : (t.mapValues f).stack.segment? j =
      (t.stack.segment? j).map (StackSegment.mapValues f) := hmap
  rw [outline?, outline?, hsegment, Option.map_map]
  exact congrFun (congrArg Option.map (funext houtline)) _

end ThreadState

namespace Dispatch

open SegmentedStack

variable {c : DispatchContext} {d : Dispatch} {piles : List Pile}

theorem isPushed_apply (h : d.thread.stack.IsPushed) (m : HandlerMatch) :
    (d.apply m).thread.stack.IsPushed := by
  unfold apply
  have hedit := RawFrame.blank_onFrame m.patch
  cases hm : m.patch <;> rw [hm] at hedit
  case none => exact h
  case handlers => exact h
  all_goals
    exact h.modifySegment fun g hg => StackSegment.isPushed_modifyFirst hg hedit

theorem isPushed_searchFor (h : d.thread.stack.IsPushed) (n visited : Nat) :
    (searchFor c n visited d).2.thread.stack.IsPushed := by
  induction n generalizing visited d with
  | zero =>
    rw [searchFor]
    generalize searchFrames _ _ _ _ _ _ _ = searched
    obtain ⟨e | ⟨m | passed⟩, kept⟩ := searched
    · exact h
    · exact isPushed_apply (d := { d with materialized := kept }) h m
    · exact h
  | succ n ih =>
    rw [searchFor]
    generalize searchFrames _ _ _ _ _ _ _ = searched
    obtain ⟨e | ⟨m | passed⟩, kept⟩ := searched
    · exact h
    · exact isPushed_apply (d := { d with materialized := kept }) h m
    · cases hleave : d.thread.stack.switchToParent with
      | none =>
        simp only [hleave]
        exact h
      | some left =>
        simp only [hleave]
        exact ih (show left.2.IsPushed from h.leave hleave) passed

theorem piled_searchFor (h : d.thread.stack.Piled piles) :
    ∃ piles', (searchFor c d.thread.stack.segments.length 0 d).2.thread.stack.Piled piles' := by
  cases hresult : (searchFor c d.thread.stack.segments.length 0 d).1 with
  | error e =>
    obtain ⟨left, rest, stack, -, hrest, hthread⟩ := searchFor_failed hresult h
    exact ⟨rest, by rw [hthread]; exact hrest⟩
  | ok u =>
    obtain ⟨landing, hlands⟩ := exists_lands h rfl hresult
    obtain ⟨left, posts, rest, d', -, hsearch, hstack, -⟩ := hlands.searchFor_eq h
    exact ⟨_, by rw [hsearch]; exact hstack⟩

theorem stack_consulted (catchable : Bool) :
    (d.consulted catchable).thread.stack = d.thread.stack := by
  obtain ⟨joins, hjoins⟩ := consulted_thread (d := d) catchable
  rw [hjoins]

/-- What holds of a thread before dispatch holds after it, if a search for a handler keeps it. -/
theorem run_keeps {P : SegmentedStack → Prop} (h : P d.thread.stack)
    (hsearch : ∀ (c : DispatchContext) (d : Dispatch), P d.thread.stack →
      P (searchFor c d.thread.stack.segments.length 0 d).2.thread.stack)
    (codes : CodeRegistry) (builtins : Builtins) (termination : Bool) :
    P (run codes builtins termination d).2.thread.stack := by
  cases hp : d.thread.pending with
  | none =>
    have hrun : (run codes builtins termination d).2 = d := by
      unfold run
      rw [hp]
    rwa [hrun]
  | some v =>
    rw [run_pending hp]
    exact hsearch _ _ ((stack_consulted _).symm ▸ h)

end Dispatch

namespace ThreadState

variable {t : ThreadState}

theorem Arises.moves (h : t.Arises) (moves : List StackMove) :
    (moves.foldl StackMove.on t).Arises := by
  induction moves generalizing t with
  | nil => exact h
  | cons move moves ih => exact ih (h.move move)

/-- Every frame of a thread was pushed. -/
theorem Arises.isPushed (h : t.Arises) : t.stack.IsPushed := by
  induction h with
  | new => exact List.forall_mem_singleton.mpr (StackSegment.isPushed_fresh _ _ _)
  | move _ move ih => exact isPushed_move ih move
  | dispatch _ codes builtins termination ih =>
    exact Dispatch.run_keeps ih (fun _ _ h => Dispatch.isPushed_searchFor h _ _) _ _ _
  | replace _ f ih => exact isPushed_mapValues ih f
  | elsewhere _ same ih => exact same ▸ ih

/-- Every segment of a thread returns to its parent, up to one without. -/
theorem Arises.piled (h : t.Arises) : ∃ piles, t.stack.Piled piles := by
  induction h with
  | new => exact ⟨_, SegmentedStack.piled_empty⟩
  | move _ move ih =>
    obtain ⟨piles, hpiles⟩ := ih
    exact piled_move hpiles move
  | dispatch _ codes builtins termination ih =>
    refine Dispatch.run_keeps (P := fun s => ∃ piles, s.Piled piles) ih ?_ _ _ _
    rintro c d ⟨piles, hpiles⟩
    exact Dispatch.piled_searchFor hpiles
  | replace _ f ih =>
    obtain ⟨piles, hpiles⟩ := ih
    exact ⟨piles, piled_mapValues hpiles f⟩
  | elsewhere _ same ih => exact same ▸ ih

end ThreadState

end ScriptEngine

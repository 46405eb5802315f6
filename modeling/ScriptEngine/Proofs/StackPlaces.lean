import ScriptEngine.Proofs.CutDispatch

namespace ScriptEngine

/-- A place on a stack: in the segment `id`, behind the frames `inner`. Control returns to it
through the segments `left`. -/
structure StackPlace where
  left : List Nat
  id : Nat
  outer : List Nat
  inner : List RawFrame
  rest : List RawFrame

namespace StackPlace

/-- The frames above the place, innermost first. -/
def before (p : StackPlace) (s : SegmentedStack) : List RawFrame :=
  p.left.flatMap s.framesOf ++ p.inner

def after (p : StackPlace) (s : SegmentedStack) : List RawFrame :=
  p.rest ++ p.outer.flatMap s.framesOf

end StackPlace

namespace SegmentedStack

structure HasAt (s : SegmentedStack) (p : StackPlace) (r : RawFrame) : Prop where
  chain : s.Chain s.active (p.left ++ p.id :: p.outer)
  frames : s.framesOf p.id = p.inner ++ r :: p.rest

variable {s s' : SegmentedStack} {p : StackPlace} {r r' : RawFrame} {fp : Address}
  {edit : RawFrame → RawFrame}

theorem HasAt.frames_eq (h : s.HasAt p r) :
    (p.left ++ p.id :: p.outer).flatMap s.framesOf = p.before s ++ r :: p.after s := by
  rw [List.flatMap_append, List.flatMap_cons, h.frames, StackPlace.before, StackPlace.after]
  simp

theorem HasAt.not_mem (h : s.HasAt p r) : p.id ∉ p.left ++ p.outer := by
  obtain ⟨-, hcons, hdisjoint⟩ := List.nodup_append.mp h.chain.nodup
  intro hm
  rcases List.mem_append.mp hm with hleft | houter
  · exact hdisjoint _ hleft _ List.mem_cons_self rfl
  · exact (List.nodup_cons.mp hcons).1 houter

/-- The frames around the place are those of the other stack, if the other segments are. -/
theorem HasAt.around_eq (h : s.HasAt p r)
    (hsame : ∀ j, j ≠ p.id → s'.framesOf j = s.framesOf j) :
    p.before s' = p.before s ∧ p.after s' = p.after s := by
  have hflat : ∀ ids : List Nat, p.id ∉ ids → ids.flatMap s'.framesOf = ids.flatMap s.framesOf :=
    fun ids hids => List.flatMap_congr fun j hj => hsame j fun he => hids (he ▸ hj)
  have hleft := hflat p.left fun hm => h.not_mem (List.mem_append_left _ hm)
  have houter := hflat p.outer fun hm => h.not_mem (List.mem_append_right _ hm)
  exact ⟨by rw [StackPlace.before, StackPlace.before, hleft],
    by rw [StackPlace.after, StackPlace.after, houter]⟩

/-- Every frame of a chain has a place. -/
theorem exists_place {ids : List Nat} {before after : List RawFrame}
    (chain : s.Chain s.active ids) (h : ids.flatMap s.framesOf = before ++ r :: after) :
    ∃ p : StackPlace, s.HasAt p r ∧ p.before s = before ∧ p.after s = after := by
  suffices hsplit : ∃ p : StackPlace, ids = p.left ++ p.id :: p.outer ∧
      s.framesOf p.id = p.inner ++ r :: p.rest ∧ p.before s = before ∧ p.after s = after by
    obtain ⟨p, rfl, hframes, hplace⟩ := hsplit
    exact ⟨p, ⟨chain, hframes⟩, hplace⟩
  clear chain
  induction ids generalizing before with
  | nil => simp at h
  | cons j js ih =>
    rw [List.flatMap_cons] at h
    rcases List.append_eq_append_iff.mp h with ⟨more, rfl, hrest⟩ | ⟨more, hj, hrest⟩
    · obtain ⟨p, rfl, hframes, rfl, hafter⟩ := ih hrest
      exact ⟨{ p with left := j :: p.left }, rfl, hframes, by simp [StackPlace.before], hafter⟩
    · cases more with
      | nil =>
        -- The segment `j` ends right before the frame, which is the first one of a later segment.
        obtain ⟨p, rfl, hframes, hbefore, hafter⟩ :=
          ih (show js.flatMap s.framesOf = [] ++ r :: after from hrest.symm)
        refine ⟨{ p with left := j :: p.left }, rfl, hframes, ?_, hafter⟩
        rw [StackPlace.before] at hbefore ⊢
        simp only [List.flatMap_cons, List.append_assoc, hbefore, hj, List.append_nil]
      | cons q more =>
        simp only [List.cons_append, List.cons.injEq] at hrest
        obtain ⟨rfl, rfl⟩ := hrest
        exact ⟨⟨[], j, js, before, more⟩, rfl, hj, rfl, rfl⟩

end SegmentedStack

namespace DispatchContext

variable {c : DispatchContext} {restart : Option Address} {handlers : List Address}
  {visited : Nat} {f : Frame}

/-- Whether a frame is passed does not depend on how many frames came before it. -/
theorem matchFrame_passed (hf : f.HasCode)
    (h : c.matchFrame restart handlers visited f = .ok none) (visited' : Nat) :
    c.matchFrame restart handlers visited' f = .ok none := by
  unfold matchFrame at h ⊢
  split at h
  · cases hr : c.restartFrame visited f <;> simp [hr] at h
  · rename_i hrestart
    rw [if_neg hrestart]
    split at h
    · rename_i hc
      obtain ⟨hn, hm⟩ := not_handles_of_passed hf h
      rw [if_pos hc]
      exact matchCatchable_passes hn hm
    · rename_i hc
      rw [if_neg hc]
      unfold matchUncatchable at h ⊢
      cases hk : f.kind <;> simp only [hk] at h ⊢
      case entry => cases hm : matchEntry handlers visited f <;> simp [hm] at h
      case constructEntry => cases hm : matchEntry handlers visited f <;> simp [hm] at h

end DispatchContext

namespace Dispatch

open SegmentedStack

variable {c : DispatchContext} {restart : Option Address} {handlers : List Address}
  {frames : List RawFrame} {visited : Nat} {e : FatalError}

/-- Frames that a search goes past are known, and passed wherever they lie. -/
theorem search_passed {visited' : Nat}
    (h : search c restart handlers frames visited = .ok (.passed visited')) :
    visited' = visited + frames.length ∧ ∀ r ∈ frames, r.IsKnown c.codes ∧
      ∀ segment, Passes c restart handlers (.of c.codes segment r) := by
  induction frames generalizing visited with
  | nil =>
    cases h
    exact ⟨rfl, fun _ hr => absurd hr List.not_mem_nil⟩
  | cons r frames ih =>
    rw [search_cons] at h
    cases hv : Frame.view c.codes 0 r with
    | error e => simp [hv, Except.bind] at h
    | ok f =>
      have hknown := Frame.isKnown_of_view hv
      obtain rfl : Frame.of c.codes 0 r = f :=
        Except.ok.inj ((Frame.view_eq_of hknown 0).symm.trans hv)
      rw [hv] at h
      simp only [Except.bind] at h
      cases hm : c.matchFrame restart handlers visited (.of c.codes 0 r) with
      | error e => simp [hm] at h
      | ok found =>
        cases found with
        | some m => simp [hm] at h
        | none =>
          rw [hm] at h
          obtain ⟨rfl, hrest⟩ := ih h
          refine ⟨by rw [List.length_cons]; omega,
            List.forall_mem_cons.mpr ⟨⟨hknown, fun segment position => ?_⟩, hrest⟩⟩
          exact DispatchContext.matchFrame_passed (Frame.hasCode_of c.codes 0 r) hm position

/-- A search that ends with a match went past all frames before the one that it is of. -/
theorem search_found {m : HandlerMatch}
    (h : search c restart handlers frames visited = .ok (.found m)) :
    ∃ before r after, frames = before ++ r :: after ∧ r.IsKnown c.codes ∧
      search c restart handlers before visited = .ok (.passed (visited + before.length)) ∧
      c.matchFrame restart handlers (visited + before.length) (.of c.codes 0 r) =
        .ok (some m) := by
  induction frames generalizing visited with
  | nil => cases h
  | cons q frames ih =>
    rw [search_cons] at h
    cases hv : Frame.view c.codes 0 q with
    | error e => simp [hv, Except.bind] at h
    | ok f =>
      have hknown := Frame.isKnown_of_view hv
      obtain rfl : Frame.of c.codes 0 q = f :=
        Except.ok.inj ((Frame.view_eq_of hknown 0).symm.trans hv)
      rw [hv] at h
      simp only [Except.bind] at h
      cases hm : c.matchFrame restart handlers visited (.of c.codes 0 q) with
      | error e => simp [hm] at h
      | ok found =>
        rw [hm] at h
        cases found with
        | some m' =>
          cases h
          exact ⟨[], q, frames, rfl, hknown, rfl, hm⟩
        | none =>
          obtain ⟨before, r, after, rfl, hr, hbefore, hfound⟩ := ih h
          rw [Nat.add_assoc, Nat.add_comm 1] at hbefore hfound
          refine ⟨q :: before, r, after, rfl, hr, ?_, hfound⟩
          rw [search_cons, hv, List.length_cons]
          simp only [Except.bind, hm]
          exact hbefore

/-- A search that ends with an error has it from one of the frames. -/
theorem search_error (h : search c restart handlers frames visited = .error e) :
    ∃ r ∈ frames, Frame.view c.codes 0 r = .error e ∨
      ∃ visited', c.matchFrame restart handlers visited' (.of c.codes 0 r) = .error e := by
  induction frames generalizing visited with
  | nil => cases h
  | cons q frames ih =>
    rw [search_cons] at h
    cases hv : Frame.view c.codes 0 q with
    | error e' =>
      rw [hv] at h
      cases h
      exact ⟨q, List.mem_cons_self, .inl hv⟩
    | ok f =>
      obtain rfl : Frame.of c.codes 0 q = f :=
        Except.ok.inj ((Frame.view_eq_of (Frame.isKnown_of_view hv) 0).symm.trans hv)
      rw [hv] at h
      simp only [Except.bind] at h
      cases hm : c.matchFrame restart handlers visited (.of c.codes 0 q) with
      | error e' =>
        rw [hm] at h
        cases h
        exact ⟨q, List.mem_cons_self, .inr ⟨visited, hm⟩⟩
      | ok found =>
        rw [hm] at h
        cases found with
        | some m => cases h
        | none =>
          obtain ⟨r, hr, hcause⟩ := ih h
          exact ⟨r, List.mem_cons_of_mem _ hr, hcause⟩

variable {d : Dispatch} {p : StackPlace} {r : RawFrame} {m : HandlerMatch}

theorem reaches_of_passed (hs : d.thread.stack.HasAt p r) (hk : r.IsKnown c.codes)
    (h : search c d.restart d.thread.handlers (p.before d.thread.stack) 0 =
      .ok (.passed visited)) :
    Reaches c d p.left p.id p.inner r := by
  obtain ⟨-, hpassed⟩ := search_passed h
  have hframe : ∀ f ∈ d.thread.stack.frames c.codes p.left ++ p.inner.map (.of c.codes p.id),
      ∃ segment q, q ∈ p.before d.thread.stack ∧ f = .of c.codes segment q := by
    intro f hf
    rcases List.mem_append.mp hf with hf | hf
    · obtain ⟨j, hj, hf⟩ := List.mem_flatMap.mp hf
      obtain ⟨q, hq, rfl⟩ := List.mem_map.mp hf
      exact ⟨j, q, List.mem_append_left _ (List.mem_flatMap.mpr ⟨j, hj, hq⟩), rfl⟩
    · obtain ⟨q, hq, rfl⟩ := List.mem_map.mp hf
      exact ⟨p.id, q, List.mem_append_right _ hq, rfl⟩
  refine ⟨⟨p.outer, hs.chain⟩, ⟨p.rest, hs.frames⟩, ?_, ?_⟩
  · intro f hf
    rw [List.map_append, ← List.append_assoc] at hf
    rcases List.mem_append.mp hf with hf | hf
    · obtain ⟨segment, q, hq, rfl⟩ := hframe f hf
      exact (hpassed q hq).1
    · rw [List.mem_singleton.mp hf]
      exact hk
  · intro f hf
    obtain ⟨segment, q, hq, rfl⟩ := hframe f hf
    exact (hpassed q hq).2 segment

/-- Dispatch stops at the frame behind those that the search goes past. -/
theorem searchFor_here (hs : d.thread.stack.HasAt p r) (hk : r.IsKnown c.codes)
    (h : search c d.restart d.thread.handlers (p.before d.thread.stack) 0 =
      .ok (.passed visited))
    (hm : c.matchFrame d.restart d.thread.handlers (p.before d.thread.stack).length
      (.of c.codes p.id r) = .ok (some m)) :
    searchFor c d.thread.stack.segments.length 0 d =
      (.ok (), (d.atFrame c.codes p.left p.id p.inner).apply m) := by
  have hlength : (p.before d.thread.stack).length =
      (d.thread.stack.frames c.codes p.left).length + p.inner.length := by
    simp [StackPlace.before, SegmentedStack.frames, List.length_flatMap]
  rw [hlength] at hm
  exact (reaches_of_passed hs hk h).searchFor_found hm

end Dispatch

end ScriptEngine

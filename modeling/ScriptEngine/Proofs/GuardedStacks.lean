import ScriptEngine.Proofs.Landings
import ScriptEngine.Proofs.Nesting

namespace ScriptEngine

/-- The posts that stay once the frames above the landing are popped; none if its segment is out
of reach. -/
def Landing.staying (l : Landing) : List Pile → List Post
  | [] => []
  | p :: rest =>
    if p.segment = l.segment then
      p.posts.drop (p.posts.length - l.depth) ++ rest.flatMap (·.posts)
    else l.staying rest

/-- The posts that stay: all of them if no frames have to be popped. -/
def staying : Option Landing → List Pile → List Post
  | none, piles => piles.flatMap (·.posts)
  | some l, piles => l.staying piles

def Post.IsInstalled (handlers : List Address) (x : Post) : Prop :=
  ∀ i, x.handler = some i → handlers[i]? = some x.sp

/-- Entry frames have handlers, and no others; the handlers of inner frames are the later ones. -/
structure Ranked (posts : List Post) : Prop where
  marked : ∀ x ∈ posts, x.handler.isSome = x.isEntry
  descending : (posts.filterMap (·.handler)).Pairwise (· > ·)

section Staying

variable {owed : Option Landing} {l : Landing} {p : Pile} {piles : List Pile} {posts : List Post}
  {x y : Post} {handlers : List Address} {i j : Nat}

@[simp]
theorem staying_none : staying none piles = piles.flatMap (·.posts) := rfl

theorem staying_eq_nil (h : l.segment ∉ piles.map (·.segment)) : staying (some l) piles = [] := by
  induction piles with
  | nil => rfl
  | cons p rest ih =>
    rw [List.map_cons, List.mem_cons, not_or] at h
    rw [staying, Landing.staying, if_neg (Ne.symm h.1)]
    exact ih h.2

theorem staying_reached (h : p.segment = l.segment) (hd : p.posts.length ≤ l.depth) :
    staying (some l) (p :: piles) = staying none (p :: piles) := by
  rw [staying_none, staying, Landing.staying, if_pos h, Nat.sub_eq_zero_of_le hd]
  rfl

/-- Returning to the parent puts no frame back in reach. -/
theorem mem_staying_of_parent (hnodup : ((p :: piles).map (·.segment)).Nodup)
    (h : x ∈ staying owed piles) : x ∈ staying owed (p :: piles) := by
  cases owed with
  | none => exact List.mem_append_right _ h
  | some l =>
    rw [staying, Landing.staying]
    split
    case isTrue hp =>
      have hnot : l.segment ∉ piles.map (·.segment) := hp ▸ (List.nodup_cons.mp hnodup).1
      rw [staying_eq_nil hnot] at h
      cases h
    case isFalse => exact h

/-- Popping leaves the frames that are to stay, or fewer if they are the innermost ones. -/
theorem mem_staying_of_pop (h : x ∈ staying owed (⟨p.segment, p.posts.tail⟩ :: piles)) :
    x ∈ staying owed (p :: piles) := by
  obtain ⟨segment, posts⟩ := p
  cases owed with
  | none =>
    simp only [staying_none, List.flatMap_cons, List.mem_append] at h ⊢
    exact h.imp_left List.mem_of_mem_tail
  | some l =>
    rw [staying, Landing.staying] at h ⊢
    split
    case isFalse hs => rwa [if_neg hs] at h
    case isTrue hs =>
      rw [if_pos hs, List.mem_append] at h
      refine List.mem_append.mpr (h.imp_left fun hx => ?_)
      cases posts with
      | nil => exact hx
      | cons y posts =>
        dsimp only [List.tail_cons, List.length_cons] at hx ⊢
        rcases Nat.lt_or_ge posts.length l.depth with hd | hd
        · rw [Nat.sub_eq_zero_of_le hd]
          exact List.mem_cons_of_mem _ (List.mem_of_mem_drop hx)
        · rw [Nat.sub_add_comm hd, List.drop_succ_cons]
          exact hx

theorem mem_of_staying (h : x ∈ staying owed piles) : x ∈ piles.flatMap (·.posts) := by
  induction piles with
  | nil => cases owed <;> exact h
  | cons p piles ih =>
    cases owed with
    | none => exact h
    | some l =>
      rw [staying, Landing.staying] at h
      rw [List.flatMap_cons, List.mem_append]
      split at h
      · exact (List.mem_append.mp h).imp_left List.mem_of_mem_drop
      · exact .inr (ih h)

theorem Ranked.tail (h : Ranked (x :: posts)) : Ranked posts where
  marked y hy := h.marked y (List.mem_cons_of_mem _ hy)
  descending := by
    have hd := h.descending
    rw [List.filterMap_cons] at hd
    split at hd
    · exact hd
    · exact (List.pairwise_cons.mp hd).2

theorem Ranked.append_right {inner : List Post} (h : Ranked (inner ++ posts)) : Ranked posts := by
  induction inner with
  | nil => exact h
  | cons x inner ih => exact ih h.tail

theorem Ranked.lt (h : Ranked (x :: posts)) (hx : x.handler = some i) (hy : y ∈ posts)
    (hj : y.handler = some j) : j < i := by
  have hd := h.descending
  rw [List.filterMap_cons, hx] at hd
  exact (List.pairwise_cons.mp hd).1 j (List.mem_filterMap.mpr ⟨y, hy, hj⟩)

/-- A frame inside of all others, with a handler after all others. -/
theorem Ranked.cons (h : Ranked posts) (hx : x.handler.isSome = x.isEntry)
    (hlast : ∀ i, x.handler = some i → ∀ y ∈ posts, ∀ j, y.handler = some j → j < i) :
    Ranked (x :: posts) where
  marked := List.forall_mem_cons.mpr ⟨hx, h.marked⟩
  descending := by
    cases hi : x.handler with
    | none =>
      rw [List.filterMap_cons, hi]
      exact h.descending
    | some i =>
      rw [List.filterMap_cons, hi]
      refine List.pairwise_cons.mpr ⟨fun j hj => ?_, h.descending⟩
      obtain ⟨y, hy, hyj⟩ := List.mem_filterMap.mp hj
      exact hlast i hi y hy j hyj

theorem Post.IsInstalled.take (h : y.IsInstalled handlers)
    (hlt : ∀ j, y.handler = some j → j < i) : y.IsInstalled (handlers.take i) := by
  intro j hj
  rw [List.getElem?_take_of_lt (hlt j hj)]
  exact h j hj

theorem Post.IsInstalled.append (h : y.IsInstalled handlers) (more : List Address) :
    y.IsInstalled (handlers ++ more) := by
  intro j hj
  have hlt := (List.getElem?_eq_some_iff.mp (h j hj)).1
  rw [List.getElem?_append_left hlt]
  exact h j hj

end Staying

/-- What changes the stack of a thread other than dispatch. -/
inductive StackMove
  | push (spec : FrameSpec) (built : spec.Built)
  | pop
  | startSegment
  | returnToParent
  | suspendToParent
  | register (scope : TryCatch)
  | unregister (id : TryCatchId)

namespace StackMove

def isPush : StackMove → Bool
  | push _ _ => true
  | _ => false

/-- Leaves the active segment if it has a parent. -/
def leave (t : ThreadState) (state : SegmentState) : ThreadState :=
  match t.stack.leave state with
  | none => t
  | some (_, stack) => { t with stack := stack }

def on (t : ThreadState) : StackMove → ThreadState
  | push spec _ => (t.pushFrame spec).2
  | pop => t.popFrame.2
  | startSegment => { t with stack := t.stack.switchToNew.2 }
  | returnToParent => leave t .retired
  | suspendToParent => leave t .suspended
  | register scope => (t.registerTryCatch scope).2
  | unregister id =>
    match t.unregisterTryCatch id with
    | .error _ => t
    | .ok (_, t) => t

end StackMove

namespace ThreadState

open SegmentedStack

/-- Entry frames in reach have handlers of their own, inner ones later ones, and those of the frames
that stay are installed. Until the frames above the landing are popped nothing is pending. -/
structure Guarded (t : ThreadState) (owed : Option Landing) : Prop where
  piled : ∃ piles, t.stack.Piled piles ∧ Ranked (piles.flatMap (·.posts)) ∧
    ∀ x ∈ staying owed piles, x.IsInstalled t.handlers
  quiet : ∀ l, owed = some l → t.pending = none
  known : ∀ l, owed = some l → l.segment < t.stack.segments.length

variable {t t' : ThreadState} {owed : Option Landing}

theorem guarded_new : Guarded {} none where
  piled := ⟨_, piled_empty, ⟨nofun, .nil⟩, nofun⟩
  quiet := nofun
  known := nofun

/-- Only the stack, the handlers and the exception matter. -/
theorem Guarded.of_same (h : t.Guarded owed) (stack : t'.stack = t.stack)
    (handlers : t'.handlers = t.handlers) (pending : t.pending = none → t'.pending = none) :
    t'.Guarded owed where
  piled := by
    rw [stack, handlers]
    exact h.piled
  quiet l hl := pending (h.quiet l hl)
  known l hl := stack ▸ h.known l hl

/-- The frames above the landing are popped: all frames in reach stay. -/
theorem Guarded.reached (h : t.Guarded owed) :
    t.Guarded (owed.filter fun l => !l.isReached t) := by
  cases owed with
  | none => exact h
  | some l =>
    cases hl : l.isReached t with
    | false =>
      have hsome : (some l).filter (fun l => !l.isReached t) = some l := by simp [hl]
      rw [hsome]
      exact h
    | true =>
      obtain ⟨piles, hpiles, hranked, hinstalled⟩ := h.piled
      obtain ⟨posts, rest, rfl⟩ := hpiles.exists_cons
      simp only [Landing.isReached, Bool.and_eq_true, beq_iff_eq, decide_eq_true_eq] at hl
      obtain ⟨g, found⟩ := hpiles.chain.found
      have hlength : posts.length = t.stack.activeSegment.frames.length := by
        have hposts := hpiles.posts ⟨t.stack.active, posts⟩ List.mem_cons_self
        dsimp only at hposts
        rw [← hposts, List.length_map, ← framesOf_active found]
        simp [StackSegment.innermostFirst]
      rw [staying_reached hl.1 (hlength ▸ hl.2)] at hinstalled
      have hnone : (some l).filter (fun l => !l.isReached t) = none := by
        simp [Landing.isReached, hl]
      rw [hnone]
      exact ⟨⟨_, hpiles, hranked, hinstalled⟩, fun _ hl => (by cases hl), fun _ hl => by cases hl⟩

section Moves

theorem handler_placed {spec : FrameSpec} (built : spec.Built) :
    (t.placed spec).post.handler =
      if spec.frame.marker.isEntry then some t.handlers.length else none := by
  unfold placed
  split
  · rfl
  · exact built.handler_eq

theorem handlers_pushFrame (spec : FrameSpec) : (t.pushFrame spec).2.handlers =
    if spec.frame.marker.isEntry then t.handlers ++ [(t.placed spec).sp] else t.handlers := by
  unfold pushFrame placed
  cases spec.frame.marker.isEntry <;> rfl

theorem Guarded.push (h : t.Guarded none) {spec : FrameSpec} (built : spec.Built) :
    (t.pushFrame spec).2.Guarded none := by
  obtain ⟨piles, hpiles, hranked, hinstalled⟩ := h.piled
  obtain ⟨posts, rest, rfl⟩ := hpiles.exists_cons
  obtain ⟨frames, hframes, -⟩ := hpiles.holds
  refine ⟨⟨_, hpiles.push (pushes_pushFrame hframes spec), ?_, ?_⟩, nofun, nofun⟩
  · refine hranked.cons ?_ fun i hi y hy j hj => ?_
    · rw [handler_placed built]
      have hentry : (t.placed spec).post.isEntry = spec.frame.marker.isEntry := by
        unfold placed
        split <;> rfl
      rw [hentry]
      split <;> simp_all
    · rw [handler_placed built] at hi
      split at hi <;> cases hi
      exact (List.getElem?_eq_some_iff.mp (hinstalled y hy j hj)).1
  · rw [handlers_pushFrame]
    refine List.forall_mem_cons.mpr ⟨fun i hi => ?_, fun y hy => ?_⟩
    · rw [handler_placed built] at hi
      split at hi <;> cases hi
      rw [if_pos ‹_›, List.getElem?_concat_length]
      rfl
    · split
      · exact (hinstalled y hy).append _
      · exact hinstalled y hy

theorem Guarded.pop (h : t.Guarded owed) : t.popFrame.2.Guarded owed := by
  obtain ⟨piles, hpiles, hranked, hinstalled⟩ := h.piled
  obtain ⟨posts, rest, rfl⟩ := hpiles.exists_cons
  obtain ⟨g, found⟩ := hpiles.chain.found
  have hlength : t.stack.pop.2.segments.length = t.stack.segments.length := length_modifySegment _
  rcases List.eq_nil_or_concat' g.frames with hnil | ⟨frames, r, hframes⟩
  · obtain ⟨hnone, -, hstack⟩ := hpiles.pop_nothing found hnil
    have hpop : t.popFrame.2 = { t with stack := t.stack.pop.2 } := by
      unfold popFrame
      generalize t.stack.pop = popped at hnone
      obtain ⟨popped, stack⟩ := popped
      cases hnone
      rfl
    rw [hpop]
    exact ⟨⟨_, hstack, hranked, hinstalled⟩, h.quiet, fun l hl => hlength ▸ h.known l hl⟩
  · obtain ⟨hsome, hposts, hstack⟩ := hpiles.pop found hframes
    have hpop : t.popFrame.2 = { t with
        stack := t.stack.pop.2
        handlers := (r.handler.map (t.handlers.take ·)).getD t.handlers } := by
      unfold popFrame
      generalize t.stack.pop = popped at hsome
      obtain ⟨popped, stack⟩ := popped
      cases hsome
      cases hhandler : r.handler <;> simp [hhandler]
    rw [hpop]
    dsimp only at hposts
    rw [List.flatMap_cons, hposts, List.cons_append] at hranked
    refine ⟨⟨_, hstack, hranked.tail, fun y hy => ?_⟩, h.quiet, fun l hl => hlength ▸ h.known l hl⟩
    -- What is left lies outside of the popped frame, so its handlers are earlier ones.
    have hinner : y ∈ posts.tail ++ rest.flatMap (·.posts) := mem_of_staying hy
    have hy' := hinstalled y (mem_staying_of_pop hy)
    dsimp only
    cases hr : r.handler with
    | none => exact hy'
    | some i => exact hy'.take fun j hj => hranked.lt hr hinner hj

theorem Guarded.startSegment (h : t.Guarded owed) :
    { t with stack := t.stack.switchToNew.2 }.Guarded owed := by
  obtain ⟨piles, hpiles, hranked, hinstalled⟩ := h.piled
  have hlength : t.stack.switchToNew.2.segments.length = t.stack.segments.length + 1 := by
    simp [SegmentedStack.switchToNew, modifyActive, modifySegment]
  refine ⟨⟨_, hpiles.switchToNew, hranked, fun x hx => hinstalled x ?_⟩, h.quiet, fun l hl => ?_⟩
  · cases owed with
    | none => exact hx
    | some l =>
      rw [staying, Landing.staying, if_neg (Nat.ne_of_gt (h.known l rfl))] at hx
      exact hx
  · rw [hlength]
    exact Nat.lt_succ_of_lt (h.known l hl)

theorem length_leave {s : SegmentedStack} {state : SegmentState} {parent : Nat}
    {s' : SegmentedStack} (h : s.leave state = some (parent, s')) :
    s'.segments.length = s.segments.length := by
  simp only [SegmentedStack.leave, Option.bind_eq_bind, Option.bind_eq_some_iff, pure,
    Option.some.injEq, Prod.mk.injEq] at h
  obtain ⟨_, -, _, -, -, rfl⟩ := h
  simp [modifyActive]

theorem Guarded.leave (h : t.Guarded owed) (state : SegmentState) :
    (StackMove.leave t state).Guarded owed := by
  obtain ⟨piles, hpiles, hranked, hinstalled⟩ := h.piled
  obtain ⟨posts, rest, rfl⟩ := hpiles.exists_cons
  unfold StackMove.leave
  cases rest with
  | nil =>
    rw [hpiles.leave_last state]
    exact h
  | cons p rest =>
    obtain ⟨parent, stack, hleave, hparent⟩ := hpiles.leave (by simp) state
    rw [hleave]
    refine ⟨⟨_, hparent, hranked.append_right, fun x hx => ?_⟩, h.quiet, fun l hl => ?_⟩
    · exact hinstalled x (mem_staying_of_parent hpiles.nodup hx)
    · rw [length_leave hleave]
      exact h.known l hl

theorem Guarded.register (h : t.Guarded owed) (scope : TryCatch) :
    (t.registerTryCatch scope).2.Guarded owed := by
  obtain ⟨piles, hpiles, hranked, hinstalled⟩ := h.piled
  refine ⟨⟨piles, hpiles.reserveNative TryCatch.size, hranked, hinstalled⟩, h.quiet, fun l hl => ?_⟩
  rw [show (t.registerTryCatch scope).2.stack.segments.length = t.stack.segments.length from
    length_modifySegment _]
  exact h.known l hl

theorem Guarded.unregister (h : t.Guarded owed) {id : TryCatchId} {scope : TryCatch}
    (hid : t.unregisterTryCatch id = .ok (scope, t')) : t'.Guarded owed := by
  obtain ⟨piles, hpiles, hranked, hinstalled⟩ := h.piled
  unfold unregisterTryCatch at hid
  split at hid
  · cases hid
  split at hid
  · cases hid
    refine ⟨⟨piles, hpiles.releaseNative _ _, hranked, hinstalled⟩, h.quiet, fun l hl => ?_⟩
    exact (length_modifySegment _).symm ▸ h.known l hl
  · split at hid <;> cases hid

end Moves

/-- Moves keep the handlers installed, pushes if no frames have to be popped before. -/
theorem Guarded.move (h : t.Guarded owed) (move : StackMove)
    (allowed : move.isPush = true → owed = none) : (move.on t).Guarded owed := by
  cases move with
  | push spec built =>
    obtain rfl := allowed rfl
    exact h.push built
  | pop => exact h.pop
  | startSegment => exact h.startSegment
  | returnToParent => exact h.leave .retired
  | suspendToParent => exact h.leave .suspended
  | register scope => exact h.register scope
  | unregister id =>
    simp only [StackMove.on]
    cases hid : t.unregisterTryCatch id with
    | error e => exact h
    | ok result => exact h.unregister hid

end ThreadState

end ScriptEngine

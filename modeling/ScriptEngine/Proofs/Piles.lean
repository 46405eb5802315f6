import ScriptEngine.Proofs.CutStacks
import ScriptEngine.Proofs.FirstHandler

namespace ScriptEngine

/-- What a frame has to do with the handlers of its thread. -/
structure Post where
  isEntry : Bool
  handler : Option Nat
  sp : Address
  deriving DecidableEq

def RawFrame.post (r : RawFrame) : Post := ⟨r.marker.isEntry, r.handler, r.sp⟩

/-- A segment with the posts of its frames, innermost first. -/
structure Pile where
  segment : Nat
  posts : List Post
  deriving DecidableEq

/-- What counts of a segment: where it returns to, and the posts of its frames. -/
def StackSegment.outline (g : StackSegment) : Option Nat × List Post :=
  (g.parent, g.innermostFirst.map (·.post))

namespace SegmentedStack

def outline? (s : SegmentedStack) (id : Nat) : Option (Option Nat × List Post) :=
  (s.segment? id).map (·.outline)

/-- The segments from the active one outwards, with the posts of their frames. -/
structure Piled (s : SegmentedStack) (piles : List Pile) : Prop where
  numbered : ∀ j g, s.segment? j = some g → j < s.segments.length
  chain : s.Chain s.active (piles.map (·.segment))
  posts : ∀ p ∈ piles, (s.framesOf p.segment).map (·.post) = p.posts

variable {s s' : SegmentedStack} {p : Pile} {piles : List Pile} {id : Nat}

theorem posts_of_outline? {posts : List Post} {parent : Option Nat}
    (h : s.outline? id = some (parent, posts)) : (s.framesOf id).map (·.post) = posts := by
  obtain ⟨g, hg, ho⟩ := Option.map_eq_some_iff.mp h
  rw [framesOf, hg]
  exact congrArg Prod.snd ho

theorem posts_congr (h : s'.outline? id = s.outline? id) :
    (s'.framesOf id).map (·.post) = (s.framesOf id).map (·.post) := by
  cases hs : s.outline? id with
  | none =>
    have hnone : s.segment? id = none := Option.map_eq_none_iff.mp hs
    have hnone' : s'.segment? id = none := Option.map_eq_none_iff.mp (h.trans hs)
    rw [framesOf, framesOf, hnone, hnone']
  | some o => rw [posts_of_outline? hs, posts_of_outline? (h.trans hs)]

theorem parents_congr (h : s'.outline? id = s.outline? id) :
    (s'.segment? id).map (·.parent) = (s.segment? id).map (·.parent) := by
  have hfst := congrArg (Option.map Prod.fst) h
  simp only [outline?, Option.map_map] at hfst
  exact hfst

theorem piled_empty : Piled {} [⟨0, []⟩] where
  numbered := holds_empty.numbered
  chain := .root rfl rfl
  posts := List.forall_mem_singleton.mpr rfl

namespace Piled

/-- The frames behind the posts. -/
theorem holds (h : s.Piled piles) : ∃ frames, s.Holds frames ∧
    frames.map (·.post) = piles.flatMap (·.posts) := by
  refine ⟨_, ⟨h.numbered, _, h.chain, rfl⟩, ?_⟩
  rw [List.map_flatMap, List.flatMap_map]
  exact List.flatMap_congr h.posts

theorem active_eq (h : s.Piled (p :: piles)) : s.active = p.segment := by
  obtain ⟨_, he⟩ := h.chain.head
  exact (List.cons.inj he).1.symm

theorem exists_cons (h : s.Piled piles) : ∃ posts rest, piles = ⟨s.active, posts⟩ :: rest := by
  cases piles with
  | nil => exact absurd h.chain nofun
  | cons p rest => exact ⟨p.posts, rest, by rw [h.active_eq]⟩

theorem nodup (h : s.Piled piles) : (piles.map (·.segment)).Nodup := h.chain.nodup

/-- A stack with the same outlines has the same piles. -/
theorem congr (h : s.Piled piles) (length : s'.segments.length = s.segments.length)
    (active : s'.active = s.active) (same : ∀ j, s'.outline? j = s.outline? j) :
    s'.Piled piles where
  numbered j g hg := by
    have hsome : (s'.outline? j).isSome := by simp [outline?, hg]
    rw [same, outline?, Option.isSome_map, Option.isSome_iff_exists] at hsome
    obtain ⟨g', hg'⟩ := hsome
    exact length ▸ h.numbered j g' hg'
  chain := active ▸ h.chain.congr fun j _ => parents_congr (same j)
  posts q hq := (posts_congr (same q.segment)).trans (h.posts q hq)

/-- A stack of which only the active segment has other posts. -/
theorem update (h : s.Piled (p :: piles)) {posts : List Post}
    (length : s'.segments.length = s.segments.length) (active : s'.active = s.active)
    (changed : s'.outline? s.active = (s.outline? s.active).map fun o => (o.1, posts))
    (same : ∀ j, j ≠ s.active → s'.outline? j = s.outline? j) :
    s'.Piled (⟨p.segment, posts⟩ :: piles) := by
  obtain ⟨g, hg⟩ := h.chain.found
  have houtline : s.outline? s.active = some g.outline := by rw [outline?, hg]; rfl
  have hparent : ∀ j, (s'.segment? j).map (·.parent) = (s.segment? j).map (·.parent) := by
    intro j
    by_cases hj : j = s.active
    · have hfst := congrArg (Option.map Prod.fst) changed
      simp only [outline?, Option.map_map] at hfst
      exact hj ▸ hfst
    · exact parents_congr (same j hj)
  refine ⟨?_, active ▸ h.chain.congr fun j _ => hparent j, ?_⟩
  · intro j g' hg'
    have hsome : ((s.segment? j).map (·.parent)).isSome := by simp [← hparent, hg']
    rw [Option.isSome_map, Option.isSome_iff_exists] at hsome
    obtain ⟨g'', hg''⟩ := hsome
    exact length ▸ h.numbered j g'' hg''
  · intro q hq
    rcases List.mem_cons.mp hq with rfl | hq
    · rw [houtline] at changed
      rw [← h.active_eq]
      exact posts_of_outline? changed
    · have hne : q.segment ≠ s.active := by
        rw [h.active_eq]
        intro he
        have hnot := (List.nodup_cons.mp h.nodup).1
        exact hnot (List.mem_map.mpr ⟨q, hq, he⟩)
      exact (posts_congr (same q.segment hne)).trans (h.posts q (List.mem_cons_of_mem _ hq))

end Piled

theorem outline?_modifySegment {f : StackSegment → StackSegment}
    (hf : ∀ g : StackSegment, g.id = id → (f g).id = id) (j : Nat) :
    (s.modifySegment id f).outline? j =
      if j = id then (s.segment? j).map fun g => (f g).outline else s.outline? j := by
  rw [outline?, segment?_modifySegment hf]
  split
  · rw [Option.map_map]
    rfl
  · rfl

@[simp]
theorem length_modifySegment (f : StackSegment → StackSegment) :
    (s.modifySegment id f).segments.length = s.segments.length := by
  simp [modifySegment]

/-- A change of the active segment that leaves its outline leaves the piles. -/
theorem Piled.modifyActive (h : s.Piled piles) {f : StackSegment → StackSegment}
    (hid : ∀ g, (f g).id = g.id) (hf : ∀ g, (f g).outline = g.outline) :
    (s.modifyActive f).Piled piles := by
  refine h.congr (length_modifySegment f) rfl fun j => ?_
  rw [SegmentedStack.modifyActive, outline?_modifySegment fun g hg => (hid g).trans hg]
  split
  · simp only [hf]
    rfl
  · rfl

theorem Piled.reserveNative (h : s.Piled piles) (size : Nat) :
    (s.reserveNative size).2.Piled piles :=
  h.modifyActive (fun _ => rfl) fun _ => rfl

theorem Piled.releaseNative (h : s.Piled piles) (address : Address) (size : Nat) :
    (s.releaseNative address size).Piled piles := by
  refine h.modifyActive (fun g => ?_) fun g => ?_ <;> split <;> rfl

/-- The innermost frame of the active segment goes. -/
theorem Piled.pop (h : s.Piled (p :: piles)) {g : StackSegment} {frames : List RawFrame}
    {r : RawFrame} (found : s.segment? s.active = some g) (hframes : g.frames = frames ++ [r]) :
    s.pop.1 = some r ∧ p.posts = r.post :: p.posts.tail ∧
      s.pop.2.Piled (⟨p.segment, p.posts.tail⟩ :: piles) := by
  have hposts : p.posts = r.post :: frames.reverse.map (·.post) := by
    rw [← h.posts p List.mem_cons_self, ← h.active_eq, framesOf, found]
    simp [StackSegment.innermostFirst, hframes]
  have hpop : s.activeSegment.pop =
      (some r, { g with cursor := r.callerSp, frames := frames }) := by
    simp [activeSegment_eq found, StackSegment.pop, hframes]
  have hid : g.id = s.active := segment?_id found
  have hstack : s.pop.2 = s.modifyActive fun _ =>
      { g with cursor := r.callerSp, frames := frames } := by
    rw [SegmentedStack.pop, hpop]
  refine ⟨by rw [SegmentedStack.pop, hpop], by rw [hposts, List.tail_cons], ?_⟩
  rw [hstack, hposts, List.tail_cons]
  refine h.update (length_modifySegment _) rfl ?_ fun j hj => ?_
  · rw [SegmentedStack.modifyActive, outline?_modifySegment (by exact fun _ _ => hid), if_pos rfl,
      outline?,
      found]
    rfl
  · rw [SegmentedStack.modifyActive, outline?_modifySegment (by exact fun _ _ => hid), if_neg hj]

theorem Piled.pop_nothing (h : s.Piled (p :: piles)) {g : StackSegment}
    (found : s.segment? s.active = some g) (hframes : g.frames = []) :
    s.pop.1 = none ∧ p.posts = [] ∧ s.pop.2.Piled (p :: piles) := by
  have hposts : p.posts = [] := by
    rw [← h.posts p List.mem_cons_self, ← h.active_eq, framesOf, found]
    simp [StackSegment.innermostFirst, hframes]
  have hpop : s.activeSegment.pop = (none, g) := by
    simp [activeSegment_eq found, StackSegment.pop, hframes]
  have hid : g.id = s.active := segment?_id found
  have hstack : s.pop.2 = s.modifyActive fun _ => g := by rw [SegmentedStack.pop, hpop]
  refine ⟨by rw [SegmentedStack.pop, hpop], hposts, ?_⟩
  rw [hstack]
  refine h.congr (length_modifySegment _) rfl fun j => ?_
  rw [SegmentedStack.modifyActive, outline?_modifySegment (by exact fun _ _ => hid)]
  split
  case isTrue hj =>
    rw [hj, outline?, found]
    rfl
  case isFalse => rfl

/-- A new frame becomes the innermost one of the active segment. -/
theorem Piled.push (h : s.Piled (p :: piles)) {r : RawFrame} (hr : s.Pushes s' r) :
    s'.Piled (⟨p.segment, r.post :: p.posts⟩ :: piles) := by
  obtain ⟨g, found⟩ := h.chain.found
  obtain ⟨cursor, hsegments⟩ := hr.segments
  have hposts : g.outline = (g.parent, p.posts) := by
    rw [← h.posts p List.mem_cons_self, ← h.active_eq, framesOf, found]
    rfl
  refine h.update hr.length hr.active ?_ fun j hj => ?_
  · rw [outline?, hsegments, if_pos rfl, outline?, found]
    simp only [Option.map_some, hposts]
    simp only [StackSegment.outline, Prod.mk.injEq] at hposts
    simp [StackSegment.outline, StackSegment.innermostFirst] at hposts ⊢
    exact hposts
  · rw [outline?, hsegments, if_neg hj]
    rfl

/-- The new segment is empty. -/
theorem Piled.switchToNew (h : s.Piled piles) :
    s.switchToNew.2.Piled (⟨s.segments.length, []⟩ :: piles) := by
  obtain ⟨frames, hframes, -⟩ := h.holds
  have hnew := hframes.switchToNew
  obtain ⟨state, hsegments⟩ := segment?_switchToNew hframes
  have hold : ∀ j ∈ piles.map (·.segment), s.switchToNew.2.outline? j = s.outline? j := by
    intro j hj
    obtain ⟨_, hchain, _⟩ := h.chain.suffix hj
    obtain ⟨g, hg⟩ := hchain.found
    rw [outline?, hsegments, if_neg (Nat.ne_of_lt (h.numbered j g hg)), Option.map_map]
    rfl
  have hfresh := hsegments s.segments.length
  rw [if_pos rfl] at hfresh
  have hchain := h.chain.congr fun j hj => parents_congr (hold j hj)
  refine ⟨hnew.numbered, .child hfresh rfl hchain, ?_⟩
  intro q hq
  rcases List.mem_cons.mp hq with rfl | hq
  · rw [framesOf, hfresh]
    rfl
  · rw [posts_congr (hold q.segment (List.mem_map.mpr ⟨q, hq, rfl⟩))]
    exact h.posts q hq

theorem Piled.leave_last (h : s.Piled [p]) (state : SegmentState) : s.leave state = none := by
  have hchain : s.Chain s.active ([] ++ [p.segment]) := h.chain
  obtain ⟨g, found, last⟩ := hchain.last
  rw [← h.active_eq] at found
  simp [leave, activeSegment_eq found, last]

/-- Control returns to the parent; the frames of the active segment are out of reach. -/
theorem Piled.leave (h : s.Piled (p :: piles)) (hne : piles ≠ []) (state : SegmentState) :
    ∃ parent s', s.leave state = some (parent, s') ∧ s'.Piled piles := by
  obtain ⟨hactive, g, parent, found, next, rest⟩ := h.chain.next (by simpa using hne)
  obtain ⟨parentSegment, hparent⟩ := rest.found
  rw [← hactive] at found
  let left := s.modifyActive fun g => { g with state := state }
  have houtline : ∀ j, (left.modifySegment parent fun g => { g with state := .active }).outline? j =
      s.outline? j := by
    intro j
    have hleft : left.outline? j = s.outline? j := by
      simp only [left, SegmentedStack.modifyActive]
      rw [outline?_modifySegment (by exact fun _ hg => hg)]
      split <;> rfl
    rw [outline?_modifySegment (by exact fun _ hg => hg)]
    split
    · exact hleft
    · exact hleft
  refine ⟨parent,
    { left.modifySegment parent fun g => { g with state := .active } with active := parent },
    ?_, ?_⟩
  · simp [SegmentedStack.leave, activeSegment_eq found, next, hparent, left, bind, Option.bind,
      pure]
  · refine ⟨?_, ?_, ?_⟩
    · intro j g' hg'
      have hsome : ((left.modifySegment parent fun g => { g with state := .active }).outline?
          j).isSome := by
        rw [outline?, Option.isSome_map, Option.isSome_iff_exists]
        exact ⟨g', hg'⟩
      rw [houtline, outline?, Option.isSome_map, Option.isSome_iff_exists] at hsome
      obtain ⟨g'', hg''⟩ := hsome
      simpa [left, SegmentedStack.modifyActive] using h.numbered j g'' hg''
    · exact rest.congr fun j _ => parents_congr (houtline j)
    · intro q hq
      exact (posts_congr (houtline q.segment)).trans (h.posts q (List.mem_cons_of_mem _ hq))

theorem outline?_returnedTo (left : List Nat) (j : Nat) :
    (s.returnedTo left id).outline? j = s.outline? j := by
  obtain ⟨state, h⟩ := segment?_returnedTo (s := s) left id j
  rw [outline?, outline?, h, Option.map_map]
  rfl

theorem length_returnedTo (left : List Nat) :
    (s.returnedTo left id).segments.length = s.segments.length := by
  cases left with
  | nil => rfl
  | cons first more => simp [SegmentedStack.returnedTo, mapSegments]

/-- The frames that dispatch left behind are out of reach. -/
theorem Piled.returnedTo {left : List Pile} (h : s.Piled (left ++ p :: piles)) :
    (s.returnedTo (left.map (·.segment)) p.segment).Piled (p :: piles) := by
  have hchain : s.Chain s.active (left.map (·.segment) ++ p.segment :: piles.map (·.segment)) := by
    simpa using h.chain
  have hsame : ∀ j, (s.returnedTo (left.map (·.segment)) p.segment).outline? j = s.outline? j :=
    outline?_returnedTo _
  have hrest := hchain.drop.returnedTo (left.map (·.segment)) p.segment
  have hactive := active_returnedTo hchain
  refine ⟨fun j g hg => ?_, hactive.symm ▸ hrest, fun q hq => ?_⟩
  · obtain ⟨state, hj⟩ := segment?_returnedTo (s := s) (left.map (·.segment)) p.segment j
    rw [hj] at hg
    obtain ⟨g', hg', -⟩ := Option.map_eq_some_iff.mp hg
    rw [length_returnedTo]
    exact h.numbered j g' hg'
  · rw [posts_congr (hsame q.segment)]
    exact h.posts q (List.mem_append_right _ hq)

theorem posts_modifyFirst {fp : Address} {edit : RawFrame → RawFrame}
    (hedit : ∀ r, (edit r).post = r.post) (frames : List RawFrame) :
    (StackSegment.modifyFirst fp edit frames).map (·.post) = frames.map (·.post) := by
  induction frames with
  | nil => rfl
  | cons r rest ih =>
    rw [StackSegment.modifyFirst]
    split
    · rw [List.map_cons, List.map_cons, hedit]
    · rw [List.map_cons, List.map_cons, ih]

theorem Piled.modifyFrame (h : s.Piled piles) {fp : Address} {edit : RawFrame → RawFrame}
    (hedit : ∀ r, (edit r).post = r.post) : (s.modifyFrame s.active fp edit).Piled piles := by
  refine h.modifyActive (fun _ => rfl) fun g => ?_
  have hposts : (StackSegment.modifyFirst fp edit g.frames).map (·.post) = g.frames.map (·.post) :=
    posts_modifyFirst hedit g.frames
  simp only [StackSegment.outline, StackSegment.innermostFirst, StackSegment.modifyFrame,
    List.map_reverse, hposts]

end SegmentedStack

end ScriptEngine

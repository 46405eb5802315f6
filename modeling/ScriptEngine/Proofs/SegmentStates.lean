import Mathlib.Data.List.Nodup
import Mathlib.Data.List.Perm.Basic
import Mathlib.Logic.Relation
import ScriptEngine.Proofs.FrameOrigins

namespace ScriptEngine

namespace StackSegment

/-- Control does not come back to the segment. -/
def IsLeft (g : StackSegment) : Prop := g.state = .retired ∨ g.state = .suspended

/-- There are addresses left for the segment: the subtraction that gives its base does not
overflow. -/
def HasRoom (g : StackSegment) : Prop := g.id * segmentSpan ≤ stackBase

/-- The segment without its frames. -/
def label (g : StackSegment) : StackSegment := { g with cursor := 0, frames := [] }

/-- The segment on a stack with an active segment and the ones that it returns through. -/
structure Stands (g : StackSegment) (active : Nat) (ancestors : List Nat) : Prop where
  base : g.base = stackBase - g.id * segmentSpan
  parent : g.id = 0 ∧ g.parent = none ∨ ∃ p < g.id, g.parent = some p
  active : g.state = .active ↔ g.id = active
  inactive : g.state = .inactive ↔ g.id ∈ ancestors

variable {g g' : StackSegment} {active : Nat} {ancestors : List Nat}

theorem Stands.congr (h : g.Stands active ancestors) (same : g'.label = g.label) :
    g'.Stands active ancestors := by
  obtain ⟨_, _, _, _, _, _⟩ := g
  obtain ⟨_, _, _, _, _, _⟩ := g'
  simp only [label, StackSegment.mk.injEq] at same
  obtain ⟨rfl, rfl, -, -, rfl, rfl⟩ := same
  exact ⟨h.base, h.parent, h.active, h.inactive⟩

theorem Stands.isLeft_iff (h : g.Stands active ancestors) :
    g.IsLeft ↔ g.id ∉ active :: ancestors := by
  rw [List.mem_cons, ← h.active, ← h.inactive, IsLeft]
  cases g.state <;> simp

/-- The active segment waits once another one is started. -/
theorem Stands.start (h : g.Stands active ancestors) {id : Nat} (hid : g.id < id) :
    (if g.id = active then { g with state := .inactive } else g).Stands id
      (active :: ancestors) := by
  have hne : g.id ≠ id := Nat.ne_of_lt hid
  obtain ⟨hbase, hparent, hactive, hinactive⟩ := h
  split
  case isTrue heq =>
    exact ⟨hbase, hparent, ⟨nofun, fun he => absurd he hne⟩,
      ⟨fun _ => heq ▸ List.mem_cons_self, fun _ => rfl⟩⟩
  case isFalse hother =>
    refine ⟨hbase, hparent, ⟨fun he => absurd (hactive.mp he) hother, fun he => absurd he hne⟩, ?_⟩
    rw [hinactive, List.mem_cons, or_iff_right hother]

/-- The first ancestor is active once the active segment was left. -/
theorem Stands.leave {parent : Nat} {more : List Nat} (h : g.Stands active (parent :: more))
    (nodup : (active :: parent :: more).Nodup) {state : SegmentState}
    (gone : state = .retired ∨ state = .suspended) :
    (if g.id = parent then { g with state := .active }
      else if g.id = active then { g with state := state } else g).Stands parent more := by
  obtain ⟨hbase, hparent, hactive, hinactive⟩ := h
  rw [List.nodup_cons, List.nodup_cons] at nodup
  split
  case isTrue heq =>
    exact ⟨hbase, hparent, ⟨fun _ => heq, fun _ => rfl⟩,
      ⟨nofun, fun hm => absurd (heq ▸ hm) nodup.2.1⟩⟩
  case isFalse hp =>
    split
    case isTrue heq =>
      have hnot : g.id ∉ more := heq ▸ fun hm => nodup.1 (List.mem_cons_of_mem _ hm)
      obtain rfl | rfl := gone <;>
        exact ⟨hbase, hparent, ⟨nofun, fun he => absurd he hp⟩, ⟨nofun, fun hm => absurd hm hnot⟩⟩
    case isFalse hother =>
      refine ⟨hbase, hparent, ⟨fun he => absurd (hactive.mp he) hother, fun he => absurd he hp⟩, ?_⟩
      rw [hinactive, List.mem_cons, or_iff_right hp]

end StackSegment

namespace SegmentedStack

variable {s s' : SegmentedStack} {ancestors : List Nat}

/-- Segments are numbered as they were started, and the active one returns through its ancestors. -/
structure Standing (s : SegmentedStack) (ancestors : List Nat) : Prop where
  numbered : s.segments.map (·.id) = List.range s.segments.length
  chain : s.Chain s.active (s.active :: ancestors)
  stands : ∀ g ∈ s.segments, g.Stands s.active ancestors

theorem standing_empty : Standing {} [] where
  numbered := rfl
  chain := .root rfl rfl
  stands := by
    refine List.forall_mem_singleton.mpr ⟨rfl, .inl ⟨rfl, rfl⟩, ?_, ?_⟩ <;> decide

section Numbered

variable (numbered : s.segments.map (·.id) = List.range s.segments.length)
include numbered

theorem id_getElem {i : Nat} (hi : i < s.segments.length) : s.segments[i].id = i := by
  have hget := congrArg (·[i]?) numbered
  simpa [hi] using hget

theorem segment?_eq_getElem? (j : Nat) : s.segment? j = s.segments[j]? := by
  unfold segment?
  rcases Nat.lt_or_ge j s.segments.length with hj | hj
  · rw [List.getElem?_eq_getElem hj, List.find?_eq_some_iff_getElem]
    refine ⟨by simpa using id_getElem numbered hj, j, hj, rfl, fun i hi => ?_⟩
    simpa [id_getElem numbered (Nat.lt_trans hi hj)] using Nat.ne_of_lt hi
  · rw [List.getElem?_eq_none hj, List.find?_eq_none]
    intro g hg
    obtain ⟨i, hi, rfl⟩ := List.mem_iff_getElem.mp hg
    simpa [id_getElem numbered hi] using Nat.ne_of_lt (Nat.lt_of_lt_of_le hi hj)

end Numbered

namespace Standing

variable (h : s.Standing ancestors)
include h

theorem id_lt {g : StackSegment} (hg : g ∈ s.segments) : g.id < s.segments.length := by
  have hid : g.id ∈ s.segments.map (·.id) := List.mem_map_of_mem hg
  rwa [h.numbered, List.mem_range] at hid

theorem nodup : (s.segments.map (·.id)).Nodup := h.numbered ▸ List.nodup_range

theorem eq_of_id {g g' : StackSegment} (hg : g ∈ s.segments) (hg' : g' ∈ s.segments)
    (same : g.id = g'.id) : g = g' :=
  List.inj_on_of_nodup_map h.nodup hg hg' same

theorem segment?_of_mem {g : StackSegment} (hg : g ∈ s.segments) : s.segment? g.id = some g := by
  obtain ⟨i, hi, rfl⟩ := List.mem_iff_getElem.mp hg
  rw [id_getElem h.numbered hi, segment?_eq_getElem? h.numbered, List.getElem?_eq_getElem hi]

theorem exists_mem {j : Nat} (hj : j < s.segments.length) : ∃ g ∈ s.segments, g.id = j := by
  rw [← List.mem_range, ← h.numbered] at hj
  exact List.mem_map.mp hj

theorem activeSegment_mem : s.activeSegment ∈ s.segments ∧ s.activeSegment.id = s.active := by
  obtain ⟨g, found⟩ := h.chain.found
  rw [activeSegment_eq found]
  exact ⟨List.mem_of_find?_eq_some found, segment?_id found⟩

theorem eq_activeSegment {g : StackSegment} (hg : g ∈ s.segments) (hid : g.id = s.active) :
    g = s.activeSegment :=
  h.eq_of_id hg h.activeSegment_mem.1 (hid.trans h.activeSegment_mem.2.symm)

theorem chain_lt {j : Nat} (hj : j ∈ s.active :: ancestors) : j < s.segments.length := by
  obtain ⟨_, hsuffix, -⟩ := h.chain.suffix hj
  obtain ⟨g, found⟩ := hsuffix.found
  exact segment?_id found ▸ h.id_lt (List.mem_of_find?_eq_some found)

/-- Changes of segments in place leave numbers and chains. -/
theorem mapped (t : SegmentedStack) {f : StackSegment → StackSegment}
    (hf : ∀ g ∈ s.segments, (f g).id = g.id ∧ (f g).parent = g.parent)
    (hs : t.segments = s.segments.map f) :
    t.segments.map (·.id) = List.range t.segments.length ∧
      ∀ j ids, s.Chain j ids → t.Chain j ids := by
  have hnumbered : t.segments.map (·.id) = List.range t.segments.length := by
    rw [hs, List.map_map, List.length_map, ← h.numbered]
    exact List.map_congr_left fun g hg => (hf g hg).1
  refine ⟨hnumbered, fun j ids hc => hc.congr fun k _ => ?_⟩
  rw [segment?_eq_getElem? hnumbered, segment?_eq_getElem? h.numbered, hs, List.getElem?_map]
  cases hk : s.segments[k]? with
  | none => rfl
  | some g => exact congrArg some (hf g (List.mem_of_getElem? hk)).2

end Standing

/-- What a stack goes through: its active segment gets other frames, is put aside for a new
segment, or is left for its parent. -/
inductive Changes : SegmentedStack → SegmentedStack → Prop
  | edit {s : SegmentedStack} (f : StackSegment → StackSegment)
      (same : (f s.activeSegment).label = s.activeSegment.label) : Changes s (s.modifyActive f)
  | start {s : SegmentedStack} : Changes s s.switchToNew.2
  | leave {s s' : SegmentedStack} {state : SegmentState} {parent : Nat}
      (gone : state = .retired ∨ state = .suspended) (left : s.leave state = some (parent, s')) :
      Changes s s'

theorem leave_eq_some {state : SegmentState} {parent : Nat}
    (h : s.leave state = some (parent, s')) :
    s.activeSegment.parent = some parent ∧ s'.active = parent ∧
      s'.segments = s.segments.map fun g =>
        if g.id = parent then { g with state := .active }
        else if g.id = s.active then { g with state := state } else g := by
  simp only [leave, Option.bind_eq_bind, Option.bind_eq_some_iff, pure, Option.some.injEq,
    Prod.mk.injEq] at h
  obtain ⟨_, hparent, _, -, rfl, rfl⟩ := h
  refine ⟨hparent, rfl, ?_⟩
  simp only [modifyActive, modifySegment, List.map_map]
  apply List.map_congr_left
  intro g _
  by_cases hactive : g.id = s.active <;> simp [hactive]

namespace Standing

variable (h : s.Standing ancestors)
include h

theorem edit {f : StackSegment → StackSegment}
    (same : (f s.activeSegment).label = s.activeSegment.label) :
    (s.modifyActive f).Standing ancestors := by
  have hlabel : ∀ g ∈ s.segments, (if g.id = s.active then f g else g).label = g.label := by
    intro g hg
    split
    case isTrue hid => rw [h.eq_activeSegment hg hid, same]
    case isFalse => rfl
  obtain ⟨hnumbered, hchains⟩ := h.mapped (s.modifyActive f)
    (fun g hg => ⟨congrArg (·.id) (hlabel g hg), congrArg (·.parent) (hlabel g hg)⟩) rfl
  refine ⟨hnumbered, hchains _ _ h.chain, fun g' hg' => ?_⟩
  obtain ⟨g, hg, rfl⟩ := List.mem_map.mp hg'
  exact (h.stands g hg).congr (hlabel g hg)

/-- The segment that was active waits for the new one. -/
theorem start : s.switchToNew.2.Standing (s.active :: ancestors) := by
  have hsegments : s.switchToNew.2.segments =
      (s.modifyActive fun g => { g with state := .inactive }).segments ++
        [.fresh s.segments.length (stackBase - s.segments.length * segmentSpan)
          (some s.active)] := rfl
  have hlength : (s.modifyActive fun g => { g with state := .inactive }).segments.length =
      s.segments.length := List.length_map _
  obtain ⟨hnumbered, hchains⟩ := h.mapped
    (s.modifyActive fun g => { g with state := .inactive })
    (f := fun g => if g.id = s.active then { g with state := .inactive } else g)
    (fun g _ => by split <;> exact ⟨rfl, rfl⟩) rfl
  have hnew : s.switchToNew.2.segments.map (·.id) =
      List.range s.switchToNew.2.segments.length := by
    rw [hsegments, List.map_append, hnumbered, List.length_append, List.length_singleton,
      List.range_succ, hlength]
    rfl
  have hfresh : s.switchToNew.2.segment? s.segments.length = some
      (.fresh s.segments.length (stackBase - s.segments.length * segmentSpan) (some s.active)) := by
    rw [segment?_eq_getElem? hnew, hsegments, ← hlength, List.getElem?_concat_length]
  refine ⟨hnew, .child hfresh rfl ((hchains _ _ h.chain).congr fun j hj => ?_), fun g' hg' => ?_⟩
  · -- The new segment has a number that no chain has.
    have hj' := h.chain_lt hj
    rw [segment?_eq_getElem? hnew, segment?_eq_getElem? hnumbered, hsegments,
      List.getElem?_append_left (hlength.symm ▸ hj')]
  · rcases List.mem_append.mp hg' with hold | hfresh
    · obtain ⟨g, hg, rfl⟩ := List.mem_map.mp hold
      exact (h.stands g hg).start (h.id_lt hg)
    · rw [List.mem_singleton.mp hfresh]
      refine ⟨rfl, .inr ⟨_, h.chain_lt List.mem_cons_self, rfl⟩, ⟨fun _ => rfl, fun _ => rfl⟩,
        ⟨nofun, fun hj => ?_⟩⟩
      exact absurd (h.chain_lt hj) (Nat.lt_irrefl _)

/-- The parent is the first ancestor. -/
theorem exists_cons {parent : Nat} (hparent : s.activeSegment.parent = some parent) :
    ∃ more, ancestors = parent :: more := by
  cases h.chain with
  | root found last =>
    rw [activeSegment_eq found, last] at hparent
    cases hparent
  | child found next rest =>
    rw [activeSegment_eq found, next] at hparent
    cases hparent
    exact rest.head

theorem leave {state : SegmentState} {parent : Nat} (gone : state = .retired ∨ state = .suspended)
    (left : s.leave state = some (parent, s')) :
    ∃ more, ancestors = parent :: more ∧ s'.Standing more := by
  obtain ⟨hparent, hactive, hsegments⟩ := leave_eq_some left
  obtain ⟨more, rfl⟩ := h.exists_cons hparent
  obtain ⟨hnumbered, hchains⟩ := h.mapped s'
    (fun g _ => by split <;> [skip; split] <;> exact ⟨rfl, rfl⟩) hsegments
  have hsplit : s.Chain s.active ([s.active] ++ parent :: more) := h.chain
  have hchain := hchains _ _ hsplit.drop
  refine ⟨more, rfl, hnumbered, hactive ▸ hchain, fun g' hg' => ?_⟩
  rw [hsegments] at hg'
  obtain ⟨g, hg, rfl⟩ := List.mem_map.mp hg'
  exact hactive ▸ (h.stands g hg).leave h.chain.nodup gone

theorem change (step : s.Changes s') : ∃ ancestors', s'.Standing ancestors' := by
  cases step with
  | edit f same => exact ⟨_, h.edit same⟩
  | start => exact ⟨_, h.start⟩
  | leave gone left =>
    obtain ⟨more, -, hmore⟩ := h.leave gone left
    exact ⟨_, hmore⟩

/-- A segment that was left stays as it is. -/
theorem isLeft_change (step : s.Changes s') {g : StackSegment} (hg : g ∈ s.segments)
    (left : g.IsLeft) : g ∈ s'.segments := by
  have hid := (h.stands g hg).isLeft_iff.mp left
  obtain ⟨hactive, hancestors⟩ := not_or.mp (mt List.mem_cons.mpr hid)
  cases step with
  | edit f same => exact List.mem_map.mpr ⟨g, hg, if_neg hactive⟩
  | start =>
    exact List.mem_append_left _ (List.mem_map.mpr ⟨g, hg, if_neg hactive⟩)
  | leave gone hleave =>
    obtain ⟨more, rfl, -⟩ := h.leave gone hleave
    have hparent := (not_or.mp (mt List.mem_cons.mpr hancestors)).1
    rw [(leave_eq_some hleave).2.2]
    exact List.mem_map.mpr ⟨g, hg, by rw [if_neg hparent, if_neg hactive]⟩

end Standing

theorem Standing.changes (h : s.Standing ancestors)
    (steps : Relation.ReflTransGen Changes s s') :
    (∃ ancestors', s'.Standing ancestors') ∧ ∀ g ∈ s.segments, g.IsLeft → g ∈ s'.segments := by
  induction steps with
  | refl => exact ⟨⟨_, h⟩, fun g hg _ => hg⟩
  | tail _ step ih =>
    obtain ⟨⟨ancestors', hstanding⟩, hkept⟩ := ih
    exact ⟨hstanding.change step,
      fun g hg left => hstanding.isLeft_change step (hkept g hg left) left⟩

namespace Standing

variable (h : s.Standing ancestors)
include h

/-- Following parents ends at the first segment. -/
theorem getLast?_chain : (s.active :: ancestors).getLast? = some 0 := by
  obtain ⟨left, j, hsplit⟩ := List.eq_nil_or_concat' (s.active :: ancestors) |>.resolve_left nofun
  have hchain := h.chain
  rw [hsplit] at hchain ⊢
  obtain ⟨g, found, hnone⟩ := hchain.last
  obtain ⟨hzero, -⟩ | ⟨p, -, hsome⟩ := (h.stands g (List.mem_of_find?_eq_some found)).parent
  · rw [List.getLast?_concat, ← segment?_id found, hzero]
  · rw [hnone] at hsome
    cases hsome

theorem active_iff {g : StackSegment} (hg : g ∈ s.segments) :
    g.state = .active ↔ g = s.activeSegment := by
  rw [(h.stands g hg).active]
  exact ⟨h.eq_activeSegment hg, fun he => he ▸ h.activeSegment_mem.2⟩

/-- The first segment is on every chain. -/
theorem root_not_isLeft {g : StackSegment} (hg : g ∈ s.segments) (hid : g.id = 0) : ¬g.IsLeft := by
  rw [(h.stands g hg).isLeft_iff, not_not, hid]
  exact List.mem_of_getLast? h.getLast?_chain

theorem base_lt {g g' : StackSegment} (hg : g ∈ s.segments) (hg' : g' ∈ s.segments)
    (room : g.HasRoom) (hid : g'.id < g.id) : g.base < g'.base := by
  rw [(h.stands g hg).base, (h.stands g' hg').base]
  unfold StackSegment.HasRoom at room
  have hspan := Nat.mul_lt_mul_of_pos_right hid (show 0 < segmentSpan by decide)
  exact Nat.sub_lt_sub_left (Nat.lt_of_lt_of_le hspan room) hspan

theorem parent_above {g : StackSegment} (hg : g ∈ s.segments) {p : Nat} (hp : g.parent = some p) :
    p < g.id ∧ ∃ q ∈ s.segments, q.id = p ∧ (g.HasRoom → g.base < q.base) := by
  obtain ⟨-, hnone⟩ | ⟨p', hlt, hsome⟩ := (h.stands g hg).parent
  · rw [hnone] at hp
    cases hp
  · cases hp.symm.trans hsome
    obtain ⟨q, hq, hid⟩ := h.exists_mem (Nat.lt_trans hlt (h.id_lt hg))
    exact ⟨hlt, q, hq, hid, fun room => h.base_lt hg hq room (hid ▸ hlt)⟩

theorem eq_of_base {g g' : StackSegment} (hg : g ∈ s.segments) (hg' : g' ∈ s.segments)
    (room : g.HasRoom) (room' : g'.HasRoom) (same : g.base = g'.base) : g = g' := by
  apply h.eq_of_id hg hg'
  rcases Nat.lt_trichotomy g.id g'.id with hlt | heq | hgt
  · exact absurd same (Nat.ne_of_gt (h.base_lt hg' hg room' hlt))
  · exact heq
  · exact absurd same (Nat.ne_of_lt (h.base_lt hg hg' room hgt))

end Standing

theorem depth_eq_foldr (s : SegmentedStack) : s.depth =
    (s.segments.filter (·.state ≠ .retired)).foldr (fun g n => g.frames.length + n) 0 := by
  have hlength : ∀ l : List StackSegment, (l.flatMap (·.frames)).length =
      l.foldr (fun g n => g.frames.length + n) 0 := by
    intro l
    induction l with
    | nil => rfl
    | cons g l ih => rw [List.flatMap_cons, List.length_append, ih, List.foldr_cons]
  rw [← hlength, depth]
  congr 3
  funext g
  cases g.state <;> rfl

namespace Standing

variable (h : s.Standing ancestors)
include h

/-- The ids on the chain are those of the segments on it. -/
theorem perm_chain : ((s.segments.filter (·.id ∈ s.active :: ancestors)).map (·.id)).Perm
    (s.active :: ancestors) := by
  have hsublist := (List.filter_sublist (l := s.segments)
    (p := fun g => g.id ∈ s.active :: ancestors)).map (·.id)
  refine (List.perm_ext_iff_of_nodup (h.nodup.sublist hsublist) h.chain.nodup).mpr fun j => ?_
  constructor
  · intro hj
    obtain ⟨g, hg, rfl⟩ := List.mem_map.mp hj
    exact of_decide_eq_true (List.mem_filter.mp hg).2
  · intro hj
    obtain ⟨g, hg, rfl⟩ := h.exists_mem (h.chain_lt hj)
    exact List.mem_map.mpr ⟨g, List.mem_filter.mpr ⟨hg, decide_eq_true hj⟩, rfl⟩

theorem perm_framesOf : ((s.active :: ancestors).flatMap s.framesOf).Perm
    ((s.segments.filter (·.id ∈ s.active :: ancestors)).flatMap (·.frames)) := by
  refine (h.perm_chain.symm.flatMap_right s.framesOf).trans ?_
  rw [List.flatMap_map]
  refine List.Perm.flatMap_left _ fun g hg => ?_
  rw [framesOf, h.segment?_of_mem (List.mem_filter.mp hg).1]
  exact List.reverse_perm _

/-- A segment that is not retired is on the chain, or was left and is suspended then. -/
theorem perm_kept : (s.segments.filter (·.id ∈ s.active :: ancestors) ++
    s.segments.filter (·.state = .suspended)).Perm (s.segments.filter (·.state != .retired)) := by
  have hsplit := List.filter_append_perm (fun g => decide (g.id ∈ s.active :: ancestors))
    (s.segments.filter (·.state != .retired))
  have hchain : (s.segments.filter (·.state != .retired)).filter (·.id ∈ s.active :: ancestors) =
      s.segments.filter (·.id ∈ s.active :: ancestors) := by
    rw [List.filter_filter]
    refine List.filter_congr fun g hg => Bool.eq_iff_iff.mpr ?_
    rw [Bool.and_eq_true, decide_eq_true_iff, bne_iff_ne]
    refine and_iff_left_of_imp fun hid hretired => ?_
    exact (h.stands g hg).isLeft_iff.mp (.inl hretired) hid
  have hsuspended : (s.segments.filter (·.state != .retired)).filter
      (fun g => !decide (g.id ∈ s.active :: ancestors)) =
      s.segments.filter (·.state = .suspended) := by
    rw [List.filter_filter]
    refine List.filter_congr fun g hg => Bool.eq_iff_iff.mpr ?_
    rw [Bool.and_eq_true, ← decide_not, decide_eq_true_iff, decide_eq_true_iff, bne_iff_ne,
      ← (h.stands g hg).isLeft_iff, StackSegment.IsLeft]
    cases g.state <;> decide
  rwa [hchain, hsuspended] at hsplit

/-- The frames that the depth counts are those in use, and those of suspended segments. -/
theorem depth_eq : s.depth = ((s.active :: ancestors).flatMap s.framesOf).length +
    ((s.segments.filter (·.state = .suspended)).flatMap (·.frames)).length := by
  rw [depth, ← (h.perm_kept.flatMap_right _).length_eq, List.flatMap_append, List.length_append,
    h.perm_framesOf.length_eq]

end Standing

end SegmentedStack

namespace Dispatch

variable {c : DispatchContext} {d : Dispatch} {ids : List Nat}

/-- Searches the active segment, once `visited` frames were searched in others. -/
def searchActive (c : DispatchContext) (visited : Nat) (d : Dispatch) :
    Walk SearchResult × MaterializedObjects :=
  searchFrames c d.restart d.thread.handlers d.thread.stack.activeSegment.id
    d.thread.stack.activeSegment.innermostFirst visited d.materialized

/-- The search of segment after segment until it is decided. Nothing bounds it. -/
inductive Loops (c : DispatchContext) : Nat → Dispatch → Walk Unit × Dispatch → Prop
  | failed {visited : Nat} {d : Dispatch} {e : FatalError} {kept : MaterializedObjects}
      (search : searchActive c visited d = (.error e, kept)) :
      Loops c visited d (.error e, { d with materialized := kept })
  | found {visited : Nat} {d : Dispatch} {m : HandlerMatch} {kept : MaterializedObjects}
      (search : searchActive c visited d = (.ok (.found m), kept)) :
      Loops c visited d (.ok (), { d with materialized := kept }.apply m)
  | exhausted {visited passed : Nat} {d : Dispatch} {kept : MaterializedObjects}
      (search : searchActive c visited d = (.ok (.passed passed), kept))
      (last : d.thread.stack.switchToParent = none) :
      Loops c visited d (.error .noHandlerFound, { d with materialized := kept })
  | next {visited passed parent : Nat} {d : Dispatch} {kept : MaterializedObjects}
      {stack : SegmentedStack} {result : Walk Unit × Dispatch}
      (search : searchActive c visited d = (.ok (.passed passed), kept))
      (left : d.thread.stack.switchToParent = some (parent, stack))
      (rest : Loops c passed
        { d with materialized := kept, thread := { d.thread with stack := stack } } result) :
      Loops c visited d result

/-- With segments enough to count by, a search is the loop, which therefore ends. -/
theorem loops_searchFor (hchain : d.thread.stack.Chain d.thread.stack.active ids) {n : Nat}
    (enough : ids.length ≤ n + 1) (visited : Nat) :
    Loops c visited d (searchFor c n visited d) := by
  obtain ⟨outer, rfl⟩ := hchain.head
  induction n generalizing outer visited d with
  | zero =>
    obtain rfl := List.length_eq_zero_iff.mp (Nat.le_zero.mp (Nat.le_of_succ_le_succ enough))
    rw [searchFor]
    generalize hsearch : searchFrames _ _ _ _ _ _ _ = searched
    obtain ⟨e | ⟨m | passed⟩, kept⟩ := searched
    · exact .failed hsearch
    · exact .found hsearch
    · exact .exhausted hsearch hchain.switchToParent_last
  | succ n ih =>
    rw [searchFor]
    generalize hsearch : searchFrames _ _ _ _ _ _ _ = searched
    obtain ⟨e | ⟨m | passed⟩, kept⟩ := searched
    · exact .failed hsearch
    · exact .found hsearch
    · rcases outer with _ | ⟨parent, outer⟩
      · have hlast := hchain.switchToParent_last
        simp only [hlast]
        exact .exhausted hsearch hlast
      · obtain ⟨_, hhead, hparent, hleave⟩ := hchain.switchToParent (by simp)
        cases hhead
        simp only [hleave]
        have hnext := hparent.returnedTo [d.thread.stack.active] parent
        exact .next hsearch hleave (ih passed outer hnext (Nat.le_of_succ_le_succ enough))

/-- The loop leaves segments, edits the one it ends in, and does nothing else to the stack. -/
theorem Loops.changes {visited : Nat} {result : Walk Unit × Dispatch}
    (h : Loops c visited d result) :
    Relation.ReflTransGen SegmentedStack.Changes d.thread.stack result.2.thread.stack := by
  induction h with
  | failed _ => exact .refl
  | @found _ d m kept _ =>
    unfold apply
    cases m.patch
    case none => exact .refl
    case handlers => exact .refl
    all_goals exact .single (.edit _ rfl)
  | exhausted _ _ => exact .refl
  | next _ left _ ih => exact .head (.leave (.inl rfl) left) ih

end Dispatch

/-- What a stack is put through. -/
inductive SegmentMove
  | push (spec : FrameSpec)
  | pop
  | switchToNew
  | switchToParent
  | suspendToParent
  /-- An exception is dispatched in a thread on this stack, whatever else the thread holds. -/
  | unwind (codes : CodeRegistry) (builtins : Builtins) (termination : Bool) (d : Dispatch)

namespace SegmentMove

/-- The stack after a move. A switch without a parent leaves it; a failed dispatch does not put it
back. -/
def on (s : SegmentedStack) : SegmentMove → SegmentedStack
  | push spec => (s.push spec).2
  | pop => s.pop.2
  | switchToNew => s.switchToNew.2
  | switchToParent => (s.switchToParent.map (·.2)).getD s
  | suspendToParent => (s.suspendToParent.map (·.2)).getD s
  | unwind codes builtins termination d =>
    (Dispatch.run codes builtins termination
      { d with thread := { d.thread with stack := s } }).2.thread.stack

def run (moves : List SegmentMove) (s : SegmentedStack) : SegmentedStack := moves.foldl on s

variable {s : SegmentedStack} {ancestors : List Nat}

theorem changes_leave {state : SegmentState} (gone : state = .retired ∨ state = .suspended) :
    Relation.ReflTransGen SegmentedStack.Changes s (((s.leave state).map (·.2)).getD s) := by
  cases hleave : s.leave state with
  | none => exact .refl
  | some left => exact .single (.leave gone hleave)

theorem changes (h : s.Standing ancestors) (move : SegmentMove) :
    Relation.ReflTransGen SegmentedStack.Changes s (move.on s) := by
  cases move with
  | push spec => exact .single (.edit _ rfl)
  | pop =>
    refine .single (.edit _ ?_)
    split <;> rfl
  | switchToNew => exact .single .start
  | switchToParent => exact changes_leave (.inl rfl)
  | suspendToParent => exact changes_leave (.inr rfl)
  | unwind codes builtins termination d =>
    refine Dispatch.run_keeps (P := Relation.ReflTransGen SegmentedStack.Changes s) .refl ?_ _ _ _
    intro c d hsteps
    obtain ⟨⟨_, hstanding⟩, -⟩ := h.changes hsteps
    have enough := hstanding.chain.length_le
    have hloops := Dispatch.loops_searchFor (c := c) hstanding.chain (Nat.le_succ_of_le enough) 0
    exact hsteps.trans hloops.changes

theorem changes_run (h : s.Standing ancestors) (moves : List SegmentMove) :
    Relation.ReflTransGen SegmentedStack.Changes s (run moves s) := by
  induction moves generalizing s ancestors with
  | nil => exact .refl
  | cons move moves ih =>
    have hmove := changes h move
    obtain ⟨⟨_, hstanding⟩, -⟩ := h.changes hmove
    exact hmove.trans (ih hstanding)

/-- Whatever a stack is put through from the start on, one segment is active, those that it returns
through wait, and all others were left; what was left stays as it was, and is not made active by
anything `more`. Parents come before the segments that return to them and lie above them, up to the
first segment, so that the loop of a search ends. -/
theorem run_sound (moves more : List SegmentMove) :
    let s := run moves {}
    let s' := run more s
    ∃ ancestors,
      s.segments.map (·.id) = List.range s.segments.length ∧
      (s.activeSegment ∈ s.segments ∧ s.activeSegment.id = s.active) ∧
      s.Chain s.active (s.active :: ancestors) ∧ (s.active :: ancestors).getLast? = some 0 ∧
      (∀ g ∈ s.segments,
        (g.state = .active ↔ g = s.activeSegment) ∧
        (g.state = .inactive ↔ g.id ∈ ancestors) ∧
        (g.IsLeft ↔ g.id ∉ s.active :: ancestors) ∧
        (g.IsLeft → g ∈ s'.segments ∧ g.id ≠ s'.active) ∧
        (g.id = 0 → ¬g.IsLeft) ∧
        (∀ p, g.parent = some p →
          p < g.id ∧ ∃ q ∈ s.segments, q.id = p ∧ (g.HasRoom → g.base < q.base)) ∧
        ∀ g' ∈ s.segments, g.HasRoom → g'.HasRoom → g.base = g'.base → g = g') ∧
      (∀ c visited (d : Dispatch), d.thread.stack = s →
        Dispatch.Loops c visited d (Dispatch.searchFor c s.segments.length visited d)) ∧
      s.depth = (s.segments.filter (·.state ≠ .retired)).foldr (fun g n => g.frames.length + n) 0 ∧
      s.depth = ((s.active :: ancestors).flatMap s.framesOf).length +
        ((s.segments.filter (·.state = .suspended)).flatMap (·.frames)).length := by
  intro s s'
  obtain ⟨⟨ancestors, h⟩, -⟩ := SegmentedStack.standing_empty.changes
    (changes_run SegmentedStack.standing_empty moves)
  obtain ⟨⟨_, h'⟩, hkept⟩ := h.changes (changes_run h more)
  refine ⟨ancestors, h.numbered, h.activeSegment_mem, h.chain, h.getLast?_chain,
    fun g hg => ⟨h.active_iff hg, (h.stands g hg).inactive, (h.stands g hg).isLeft_iff,
      fun left => ?stays, h.root_not_isLeft hg, fun p => h.parent_above hg,
      fun g' hg' => h.eq_of_base hg hg'⟩,
    fun c visited d hd => ?loop, s.depth_eq_foldr, h.depth_eq⟩
  case stays =>
    have hmem := hkept g hg left
    have hnot := (h'.stands g hmem).isLeft_iff.mp left
    exact ⟨hmem, fun hid => hnot (hid ▸ List.mem_cons_self)⟩
  case loop =>
    have hchain : d.thread.stack.Chain d.thread.stack.active (s.active :: ancestors) := by
      rw [hd]
      exact h.chain
    exact Dispatch.loops_searchFor hchain (Nat.le_succ_of_le h.chain.length_le) visited

end SegmentMove

end ScriptEngine

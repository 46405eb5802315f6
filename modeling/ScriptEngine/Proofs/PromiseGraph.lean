import Mathlib.Data.Finset.Card
import Mathlib.Data.Finset.Range
import Mathlib.Logic.Relation
import ScriptEngine.Exception.Promises
import ScriptEngine.Proofs.AwaitChains

namespace ScriptEngine

namespace Heap

open Relation

/-- The derived promise of a reaction, directly or through a capability. -/
def derivedOf? (h : Heap) (r : Reaction) : Option Value :=
  if (h.promise? r.derived).isSome then some r.derived
  else (h.capability? r.derived).map (·.promise)

def isPending (h : Heap) (v : Value) : Bool := (h.promise? v).any (·.isPending)

def isHinted (h : Heap) (v : Value) : Bool := (h.promise? v).any (·.handledHint)

/-- The first is a promise that is handled by the second. -/
def IsHandledBy (h : Heap) (v w : Value) : Prop := ∃ p, h.promise? v = some p ∧ p.handledBy = w

/-- The second is derived from the first, a promise, by one of its reactions. -/
def Derives (h : Heap) (v w : Value) : Prop :=
  ∃ p, h.promise? v = some p ∧ ∃ r ∈ p.reactions, h.derivedOf? r = some w

/-- The edges of the graph of promises. -/
def Refers (h : Heap) (v w : Value) : Prop := h.IsHandledBy v w ∨ h.Derives v w

/-- The edges that a rejection goes along. A promise that is settled has no more to derive. -/
def PassesOn (h : Heap) (v w : Value) : Prop :=
  h.IsHandledBy v w ∨ (h.isPending v ∧ h.Derives v w)

variable {h : Heap} {v w : Value}

theorem isPending_of {p : Promise} (hp : h.promise? v = some p) :
    h.isPending v = p.isPending := by
  rw [isPending, hp, Option.any_some]

theorem isHinted_of {p : Promise} (hp : h.promise? v = some p) :
    h.isHinted v = p.handledHint := by
  rw [isHinted, hp, Option.any_some]

theorem IsHandledBy.unique {u : Value} (hw : h.IsHandledBy v w) (hu : h.IsHandledBy v u) :
    w = u := by
  obtain ⟨p, hp, rfl⟩ := hw
  obtain ⟨q, hq, rfl⟩ := hu
  rw [Option.some.inj (hp.symm.trans hq)]

/-- No promise leads back to itself. -/
def IsAcyclic (h : Heap) : Prop := ∀ v, ¬TransGen h.Refers v v

open Classical in
/-- The numbers of the objects that a value leads to. -/
noncomputable def reach (h : Heap) (v : Value) : Finset Nat :=
  (Finset.range h.size).filter fun i => ReflTransGen h.Refers v (.object (UInt32.ofNat i))

noncomputable def rank (h : Heap) (v : Value) : Nat := (h.reach v).card

theorem mem_reach {i : Nat} : i ∈ h.reach v ↔
    i < h.size ∧ ReflTransGen h.Refers v (.object (UInt32.ofNat i)) := by
  classical
  rw [reach, Finset.mem_filter, Finset.mem_range]

theorem rank_le_size (h : Heap) (v : Value) : h.rank v ≤ h.size := by
  have hsub : h.reach v ⊆ Finset.range h.size :=
    fun _ hi => Finset.mem_range.mpr (mem_reach.mp hi).1
  exact (Finset.card_le_card hsub).trans (Finset.card_range _).le

theorem mem_reach_self (hv : (h.promise? v).isSome) :
    ∃ id : ObjectId, v = .object id ∧ id.toNat ∈ h.reach v := by
  obtain ⟨id, rfl, hid⟩ := exists_of_promise? hv
  refine ⟨id, rfl, mem_reach.mpr ⟨hid, ?_⟩⟩
  rw [UInt32.ofNat_toNat]

theorem Refers.isSome (hvw : h.Refers v w) : (h.promise? v).isSome := by
  obtain ⟨p, hp, -⟩ | ⟨p, hp, -⟩ := hvw <;> exact Option.isSome_of_eq_some hp

/-- What a promise refers to reaches less: not the promise itself. -/
theorem rank_lt (hacyclic : h.IsAcyclic) (hvw : h.Refers v w) : h.rank w < h.rank v := by
  refine Finset.card_lt_card ⟨fun i hi => ?_, fun hback => ?_⟩
  · obtain ⟨hi, hreach⟩ := mem_reach.mp hi
    exact mem_reach.mpr ⟨hi, hreach.head hvw⟩
  · obtain ⟨id, rfl, hid⟩ := mem_reach_self hvw.isSome
    have hcycle := (mem_reach.mp (hback hid)).2
    rw [UInt32.ofNat_toNat] at hcycle
    exact hacyclic _ (.head' hvw hcycle)

theorem rank_le_of_outer (hvw : ReflTransGen h.IsHandledBy v w) : h.rank w ≤ h.rank v := by
  have hle : h.IsHandledBy ≤ h.Refers := fun _ _ => Or.inl
  refine Finset.card_le_card fun i hi => ?_
  obtain ⟨hi, hreach⟩ := mem_reach.mp hi
  exact mem_reach.mpr ⟨hi, (ReflTransGen.mono hle _ _ hvw).trans hreach⟩

theorem rank_pos (hv : (h.promise? v).isSome) : 0 < h.rank v := by
  obtain ⟨id, -, hid⟩ := mem_reach_self hv
  exact Finset.card_pos.mpr ⟨_, hid⟩

/-- No chain of outer promises passes more pending ones than a descent may. -/
def HasShortChains (h : Heap) : Prop :=
  ∀ vs : List Value, vs.IsChain h.IsHandledBy → vs.countP h.isPending ≤ outerPromiseLimit

/-- Only a heap with more objects than a descent passes has longer chains. -/
theorem hasShortChains_of_size (hacyclic : h.IsAcyclic) (hsize : h.size ≤ outerPromiseLimit) :
    h.HasShortChains := by
  have hrank : ∀ vs v, (v :: vs).IsChain h.IsHandledBy →
      (v :: vs).countP h.isPending ≤ h.rank v := by
    intro vs
    induction vs with
    | nil =>
      intro v _
      rw [List.countP_singleton]
      split
      case isTrue hpending => exact rank_pos (Option.isSome_of_any hpending)
      case isFalse => exact Nat.zero_le _
    | cons w vs ih =>
      intro v hvs
      obtain ⟨hvw, hvs⟩ := List.isChain_cons_cons.mp hvs
      have hw := ih w hvs
      have hless := rank_lt hacyclic (.inl hvw)
      rw [List.countP_cons]
      split <;> omega
  intro vs hvs
  cases vs with
  | nil => exact Nat.zero_le _
  | cons v vs => exact (hrank vs v hvs).trans ((rank_le_size h v).trans hsize)

def SettledHaveNoReactions (h : Heap) : Prop :=
  ∀ v p, h.promise? v = some p → p.isPending = false → p.reactions = []

/-- All that a promise refers to. -/
def referencesOf (h : Heap) (p : Promise) : List Value :=
  p.handledBy :: p.reactions.filterMap h.derivedOf?

/-- The number of an object; other values come behind all of them. -/
def numberOf (h : Heap) (v : Value) : Nat := v.objectId?.elim h.size (·.toNat)

/-- What holds of each object by number holds of every promise. -/
theorem check_promises (check : Value → Promise → Bool) (hall : ∀ i < h.size,
      (h.promise? (.object (UInt32.ofNat i))).all (check (.object (UInt32.ofNat i))))
    {p : Promise} (hp : h.promise? v = some p) : check v p := by
  obtain ⟨id, rfl, hid⟩ := exists_of_promise? (Option.isSome_of_eq_some hp)
  have hcheck := hall id.toNat hid
  rwa [UInt32.ofNat_toNat, hp, Option.all_some] at hcheck

def refersToNewer (h : Heap) (v : Value) (p : Promise) : Bool :=
  (h.referencesOf p).all fun w => h.numberOf v < h.numberOf w

theorem isAcyclic_of_newer (hnewer : ∀ i < h.size, (h.promise? (.object (UInt32.ofNat i))).all
    (h.refersToNewer (.object (UInt32.ofNat i)))) : h.IsAcyclic := by
  have hrefers : ∀ {v p}, h.promise? v = some p → ∀ w ∈ h.referencesOf p,
      h.numberOf v < h.numberOf w := fun hp w hw =>
    of_decide_eq_true (List.all_eq_true.mp (check_promises h.refersToNewer hnewer hp) w hw)
  have hstep : ∀ v w, h.Refers v w → h.numberOf v < h.numberOf w := by
    rintro v w (⟨p, hp, rfl⟩ | ⟨p, hp, r, hr, hd⟩)
    · exact hrefers hp _ List.mem_cons_self
    · exact hrefers hp w (List.mem_cons_of_mem _ (List.mem_filterMap.mpr ⟨r, hr, hd⟩))
  have hlt : ∀ v w, TransGen h.Refers v w → h.numberOf v < h.numberOf w := by
    intro v w hvw
    induction hvw with
    | single hvw => exact hstep v _ hvw
    | tail _ hvw ih => exact ih.trans (hstep _ _ hvw)
  exact fun v hcycle => lt_irrefl _ (hlt v v hcycle)

end Heap

end ScriptEngine

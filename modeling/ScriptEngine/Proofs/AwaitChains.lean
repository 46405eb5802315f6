import Mathlib.Data.Finset.Card
import Mathlib.Order.Interval.Finset.Nat
import ScriptEngine.Proofs.TraceItems

namespace ScriptEngine

namespace Hop

/-- The item of a hop, if it has one. -/
def item? : Hop → Option TraceItem
  | await g => some (.suspended g)
  | element combinator closure => some (.element combinator closure)
  | resolve _ => none
  | derive _ => none

/-- A function that waits must be suspended. -/
def isSound : Hop → Bool
  | await g => g.isSuspended
  | _ => true

theorem addTo_eq (h : Heap) (intrinsics : Intrinsics) (b : TraceBuilder) (hop : Hop) :
    hop.addTo h intrinsics b =
      if hop.isSound then .ok (b.addItems h intrinsics hop.item?.toList)
      else breach .awaitingGeneratorRuns := by
  cases hop <;> rfl

theorem isActivation_item {hop : Hop} {item : TraceItem} (hi : hop.item? = some item) :
    item.isActivation = false := by
  cases hop <;> cases hi <;> rfl

end Hop

namespace Heap

/-- Only allocated objects are promises. -/
theorem exists_of_promise? {h : Heap} {v : Value} (hp : (h.promise? v).isSome) :
    ∃ id : ObjectId, v = .object id ∧ id.toNat < h.size := by
  unfold promise? object? at hp
  cases v <;> simp [Value.objectId?] at hp
  case object id =>
    refine ⟨id, rfl, ?_⟩
    by_contra hout
    rw [Array.getElem?_eq_none (by simpa [size] using hout)] at hp
    simp at hp

/-- The promise after one that a trace passes without a new site. -/
def idleNext? (h : Heap) (showBuiltins : Bool) (promise : Value) : Option Value :=
  (Hop.ofPromise? h promise).bind fun hop =>
    if hop.isSound && !hop.item?.any (·.isVisible h showBuiltins) then hop.next? h else none

/-- The promise that many such hops away. -/
def idleAfter? (h : Heap) (showBuiltins : Bool) : Nat → Value → Option Value
  | 0, promise => some promise
  | hops + 1, promise => (h.idleNext? showBuiltins promise).bind (h.idleAfter? showBuiltins hops)

variable {h : Heap} {showBuiltins : Bool} {p q : Value} {n m : Nat}

theorem idleAfter?_add (n m : Nat) (p : Value) : h.idleAfter? showBuiltins (n + m) p =
    (h.idleAfter? showBuiltins n p).bind (h.idleAfter? showBuiltins m) := by
  induction n generalizing p with
  | zero => simp [idleAfter?]
  | succ n ih =>
    rw [Nat.succ_add, idleAfter?, idleAfter?, Option.bind_assoc]
    exact congrArg _ (funext ih)

theorem idleAfter?_isSome_of_le (hsome : (h.idleAfter? showBuiltins m p).isSome) (hn : n ≤ m) :
    (h.idleAfter? showBuiltins n p).isSome := by
  obtain ⟨k, rfl⟩ := Nat.exists_eq_add_of_le hn
  rw [idleAfter?_add] at hsome
  exact Option.isSome_of_isSome_bind hsome

theorem exists_of_idleNext? (hsome : (h.idleNext? showBuiltins p).isSome) :
    ∃ id : ObjectId, p = .object id ∧ id.toNat < h.size := by
  have hhop : (Hop.ofPromise? h p).isSome := Option.isSome_of_isSome_bind hsome
  refine exists_of_promise? ?_
  unfold Hop.ofPromise? at hhop
  cases hp : h.promise? p with
  | none => simp [hp] at hhop
  | some _ => rfl

/-- More idle hops than objects lead in a circle. -/
theorem idle_forever (hlong : (h.idleAfter? showBuiltins (h.size + 1) p).isSome) (k : Nat) :
    (h.idleAfter? showBuiltins k p).isSome := by
  have hobject : ∀ i ∈ Finset.range (h.size + 1), ∃ id : ObjectId,
      h.idleAfter? showBuiltins i p = some (.object id) ∧ id.toNat < h.size := by
    intro i hi
    have hnext : (h.idleAfter? showBuiltins (i + 1) p).isSome :=
      idleAfter?_isSome_of_le hlong (Finset.mem_range.mp hi)
    obtain ⟨v, hv⟩ := Option.isSome_iff_exists.mp
      (idleAfter?_isSome_of_le hnext (Nat.le_add_right i 1))
    rw [idleAfter?_add, hv] at hnext
    obtain ⟨id, rfl, hid⟩ := exists_of_idleNext? (Option.isSome_of_isSome_bind hnext)
    exact ⟨id, hv, hid⟩
  choose! number hnumber using hobject
  obtain ⟨i, hi, j, hj, hne, hsame⟩ := Finset.exists_ne_map_eq_of_card_lt_of_maps_to
    (s := Finset.range (h.size + 1)) (t := Finset.range h.size) (by simp)
    (f := fun i => (number i).toNat) fun i hi => Finset.mem_range.mpr (hnumber i hi).2
  have hmeet : h.idleAfter? showBuiltins i p = h.idleAfter? showBuiltins j p := by
    rw [(hnumber i hi).1, (hnumber j hj).1, UInt32.toNat_inj.mp hsame]
  wlog hlt : i < j generalizing i j
  · exact this j hj i hi hne.symm hsame.symm hmeet.symm (by omega)
  -- From `j` on, the chain is at a promise that it was at `j - i` hops before.
  induction k using Nat.strong_induction_on with
  | _ k ih =>
    by_cases hk : k ≤ j
    · exact idleAfter?_isSome_of_le hlong (hk.trans (Finset.mem_range.mp hj).le)
    · have hback : h.idleAfter? showBuiltins k p =
          h.idleAfter? showBuiltins (i + (k - j)) p := by
        rw [idleAfter?_add, hmeet, ← idleAfter?_add, Nat.add_sub_of_le (by omega)]
      rw [hback]
      exact ih _ (by omega)

theorem exists_halt (hnone : h.idleAfter? showBuiltins (n + 1) p = none) :
    ∃ k ≤ n, ∃ q, h.idleAfter? showBuiltins k p = some q ∧
      h.idleNext? showBuiltins q = none := by
  induction n generalizing p with
  | zero =>
    refine ⟨0, le_rfl, p, rfl, ?_⟩
    simpa [idleAfter?] using hnone
  | succ n ih =>
    cases hnext : h.idleNext? showBuiltins p with
    | none => exact ⟨0, Nat.zero_le _, p, rfl, hnext⟩
    | some v =>
      rw [idleAfter?, hnext, Option.bind_some] at hnone
      obtain ⟨k, hk, q, hq, hstop⟩ := ih hnone
      refine ⟨k + 1, Nat.succ_le_succ hk, q, ?_, hstop⟩
      rw [idleAfter?, hnext, Option.bind_some, hq]

/-- A chain is idle for ever, or comes to a promise that is not passed in no more hops than there
are objects. -/
theorem idle_or_halts (h : Heap) (showBuiltins : Bool) (p : Value) :
    (∀ k, (h.idleAfter? showBuiltins k p).isSome) ∨
      ∃ k ≤ h.size, ∃ q, h.idleAfter? showBuiltins k p = some q ∧
        h.idleNext? showBuiltins q = none := by
  by_cases hlong : (h.idleAfter? showBuiltins (h.size + 1) p).isSome
  · exact .inl (idle_forever hlong)
  · exact .inr (exists_halt (Option.not_isSome_iff_eq_none.mp hlong))

end Heap

namespace TraceBuilder

variable {h : Heap} {intrinsics : Intrinsics} {b : TraceBuilder} {p q : Value} {n m : Nat}

theorem followFor_full (hfull : b.isFull) : followFor h intrinsics n p b = .ok b := by
  cases n with
  | zero => rfl
  | succ n => rw [followFor, if_pos hfull]

/-- Goes on from a hop with the bound on the rest. -/
def followOn (h : Heap) (intrinsics : Intrinsics) (n : Nat) (hop : Hop) (b : TraceBuilder) :
    Walk TraceBuilder :=
  (hop.next? h).elim (.ok b) fun v => followFor h intrinsics n v b

theorem followFor_hop {hop : Hop} (hhop : Hop.ofPromise? h p = some hop) (hsound : hop.isSound)
    (b : TraceBuilder) : followFor h intrinsics (n + 1) p b =
      if b.isFull then .ok b
      else followOn h intrinsics n hop (b.addItems h intrinsics hop.item?.toList) := by
  simp only [followFor, hhop, Hop.addTo_eq, hsound, if_true, followOn]
  cases hop.next? h <;> rfl

/-- A hop without a site that is listed leaves the builder as it is. -/
theorem followFor_idle_next (hroom : b.isFull = false)
    (hnext : h.idleNext? b.showBuiltins p = some q) :
    followFor h intrinsics (n + 1) p b = followFor h intrinsics n q b := by
  obtain ⟨hop, hhop, hnext⟩ := Option.bind_eq_some_iff.mp hnext
  obtain ⟨hidle, hnext⟩ := Option.ite_none_right_eq_some.mp hnext
  obtain ⟨hsound, hidle⟩ := Bool.and_eq_true_iff.mp hidle
  have hstays : b.addItems h intrinsics hop.item?.toList = b := by
    cases hi : hop.item? with
    | none => rfl
    | some item =>
      rw [hi, Option.any_some, Bool.not_eq_true'] at hidle
      exact addItem_hidden hidle
  rw [followFor_hop hhop hsound, hstays, followOn, hnext, hroom]
  rfl

theorem followFor_idle (hroom : b.isFull = false) (k : Nat)
    (hidle : h.idleAfter? b.showBuiltins k p = some q) :
    followFor h intrinsics (k + n) p b = followFor h intrinsics n q b := by
  induction k generalizing p with
  | zero => cases hidle; rw [Nat.zero_add]
  | succ k ih =>
    obtain ⟨v, hv, hidle⟩ := Option.bind_eq_some_iff.mp hidle
    rw [Nat.succ_add, followFor_idle_next hroom hv, ih hidle]

/-- Where a chain is not passed, only what comes after a new site depends on the bound. -/
theorem followFor_halted (hroom : b.isFull = false) (hq : h.idleNext? b.showBuiltins q = none)
    (hrest : ∀ v b', b'.limit = b.limit → b'.sites.length = b.sites.length + 1 →
      followFor h intrinsics n v b' = followFor h intrinsics m v b') :
    followFor h intrinsics (n + 1) q b = followFor h intrinsics (m + 1) q b := by
  cases hhop : Hop.ofPromise? h q with
  | none => simp only [followFor, hhop]
  | some hop =>
    cases hsound : hop.isSound with
    | false => simp only [followFor, hhop, Hop.addTo_eq, hsound]; rfl
    | true =>
      rw [followFor_hop hhop hsound, followFor_hop hhop hsound, followOn, followOn]
      cases hnext : hop.next? h with
      | none => rfl
      | some v =>
        have hlists : hop.item?.any (·.isVisible h b.showBuiltins) := by
          simpa [Heap.idleNext?, hhop, hnext, hsound] using hq
        cases hi : hop.item? with
        | none => simp [hi] at hlists
        | some item =>
          rw [hi, Option.any_some] at hlists
          have hadds : b.addItems h intrinsics (some item).toList = b.listed h intrinsics item := by
            refine addItem_listed hroom hlists fun hact => ?_
            rw [Hop.isActivation_item hi] at hact
            exact nomatch hact
          have hone : (b.listed h intrinsics item).sites.length = b.sites.length + 1 := by
            simp [listed]
          rw [hadds, Option.elim_some, Option.elim_some,
            hrest v (b.listed h intrinsics item) rfl hone]

/-- All bounds that leave a round for every site that there is room for have one outcome. -/
theorem followFor_of_enough (room : Nat) (hleft : b.limit - b.sites.length ≤ room)
    (hn : (h.size + 1) * room ≤ n) (hm : (h.size + 1) * room ≤ m) :
    followFor h intrinsics n p b = followFor h intrinsics m p b := by
  induction room generalizing p b n m with
  | zero =>
    have hfull : b.isFull := isFull_iff.mpr (Nat.le_of_sub_eq_zero (Nat.le_zero.mp hleft))
    rw [followFor_full hfull, followFor_full hfull]
  | succ room ih =>
    cases hfull : b.isFull with
    | true => rw [followFor_full hfull, followFor_full hfull]
    | false =>
      rw [Nat.mul_succ] at hn hm
      obtain hforever | ⟨k, hk, q, hq, hstop⟩ := h.idle_or_halts b.showBuiltins p
      · have hends : ∀ steps, followFor h intrinsics steps p b = .ok b := by
          intro steps
          obtain ⟨v, hv⟩ := Option.isSome_iff_exists.mp (hforever steps)
          rw [← Nat.add_zero steps, followFor_idle hfull steps hv, followFor]
        rw [hends, hends]
      · obtain ⟨n, rfl⟩ : ∃ n', n = k + (n' + 1) := ⟨n - k - 1, by omega⟩
        obtain ⟨m, rfl⟩ : ∃ m', m = k + (m' + 1) := ⟨m - k - 1, by omega⟩
        rw [followFor_idle hfull k hq, followFor_idle hfull k hq]
        refine followFor_halted hfull hstop fun v b' hlimit hsites => ih ?_ (by omega) (by omega)
        omega

/-- A higher bound on the hops changes nothing. -/
theorem follow_eq_followFor {steps : Nat} (hsteps : (h.size + 1) * (b.limit + 1) ≤ steps) :
    b.follow h intrinsics p = followFor h intrinsics steps p b :=
  followFor_of_enough (b.limit + 1) (by omega) le_rfl hsteps

end TraceBuilder

end ScriptEngine

import Mathlib.Data.List.Pairwise
import ScriptEngine.Code.Basic

namespace ScriptEngine

namespace Code

variable {c : Code} {offset : Nat} {pc p : Address}

/-- Bytecode offsets and code offsets increase together, and code offsets are 32 bits wide. -/
structure HasOrderedMap (c : Code) : Prop where
  increasing : c.description.pcMap.Pairwise fun a b => a.1 < b.1 ∧ a.2 < b.2
  narrow : ∀ e ∈ c.description.pcMap, e.2 < 4294967296

def mappedOffsets (c : Code) : List Nat := c.description.pcMap.map (·.1)

def mappedPcs (c : Code) : List Address := c.description.pcMap.map (c.start + ·.2)

/-- The address is not before the code, and its offset is 32 bits wide. -/
def Reaches (c : Code) (pc : Address) : Prop := c.start ≤ pc ∧ pc - c.start < 4294967296

instance (c : Code) (pc : Address) : Decidable (c.Reaches pc) := inferInstanceAs (Decidable (_ ∧ _))

theorem Reaches.pcOffset_eq (h : c.Reaches pc) : c.pcOffset pc = pc - c.start :=
  Nat.mod_eq_of_lt h.2

theorem pcForBytecodeOffset_isSome :
    (c.pcForBytecodeOffset offset).isSome ↔ ∃ e ∈ c.description.pcMap, e.1 = offset := by
  simp [pcForBytecodeOffset]

theorem exists_entry (h : c.pcForBytecodeOffset offset = some pc) :
    ∃ n, (offset, n) ∈ c.description.pcMap ∧ pc = c.start + n := by
  obtain ⟨⟨offset', n⟩, hfind, rfl⟩ := Option.map_eq_some_iff.mp h
  have hoffset : offset' = offset := by simpa using List.find?_some hfind
  exact ⟨n, hoffset ▸ List.mem_of_find?_eq_some hfind, rfl⟩

theorem start_le_of_pcForBytecodeOffset (h : c.pcForBytecodeOffset offset = some pc) :
    c.start ≤ pc := by
  obtain ⟨n, _, rfl⟩ := exists_entry h
  exact Nat.le_add_right _ _

/-- Of some entries, one with the greatest code offset wins. -/
theorem exists_foldl_laterEntry (entries : List (Nat × Nat)) (first : Nat × Nat) :
    ∃ e ∈ first :: entries, entries.foldl laterEntry (some first) = some e ∧
      ∀ d ∈ first :: entries, d.2 ≤ e.2 := by
  induction entries generalizing first with
  | nil => exact ⟨first, List.mem_cons_self, rfl, by simp⟩
  | cons x rest ih =>
    by_cases hle : first.2 ≤ x.2
    · obtain ⟨e, he, hfold, hgreatest⟩ := ih x
      refine ⟨e, List.mem_cons_of_mem _ he, ?_, ?_⟩
      · rw [List.foldl_cons, laterEntry, if_pos hle, hfold]
      · intro d hd
        rcases List.mem_cons.mp hd with rfl | hd
        · exact Nat.le_trans hle (hgreatest x List.mem_cons_self)
        · exact hgreatest d hd
    · obtain ⟨e, he, hfold, hgreatest⟩ := ih first
      refine ⟨e, ?_, ?_, ?_⟩
      · rcases List.mem_cons.mp he with rfl | he
        · exact List.mem_cons_self
        · exact List.mem_cons_of_mem _ (List.mem_cons_of_mem _ he)
      · rw [List.foldl_cons, laterEntry, if_neg hle, hfold]
      · intro d hd
        have hfirst := hgreatest first List.mem_cons_self
        rcases List.mem_cons.mp hd with rfl | hd
        · exact hfirst
        rcases List.mem_cons.mp hd with rfl | hd
        · omega
        · exact hgreatest d (List.mem_cons_of_mem _ hd)

/-- An address belongs to the entry with the greatest code offset at or before it, or to none if
all are behind it. -/
theorem Reaches.bytecodeOffsetForPc_cases (h : c.Reaches pc) :
    (c.bytecodeOffsetForPc pc = none ∧ ∀ e ∈ c.description.pcMap, pc < c.start + e.2) ∨
      ∃ e ∈ c.description.pcMap, c.bytecodeOffsetForPc pc = some e.1 ∧ c.start + e.2 ≤ pc ∧
        ∀ d ∈ c.description.pcMap, c.start + d.2 ≤ pc → d.2 ≤ e.2 := by
  have hstart := h.1
  have hkept : ∀ e, e ∈ c.description.pcMap.filter (·.2 ≤ c.pcOffset pc) ↔
      e ∈ c.description.pcMap ∧ c.start + e.2 ≤ pc := by
    intro e
    have hiff : e.2 ≤ pc - c.start ↔ c.start + e.2 ≤ pc := by lia
    rw [List.mem_filter, decide_eq_true_eq, h.pcOffset_eq, hiff]
  unfold bytecodeOffsetForPc
  cases hentries : c.description.pcMap.filter (·.2 ≤ c.pcOffset pc) with
  | nil =>
    refine .inl ⟨rfl, ?_⟩
    intro e he
    apply Nat.lt_of_not_le
    intro hle
    have hmem := (hkept e).mpr ⟨he, hle⟩
    rw [hentries] at hmem
    exact List.not_mem_nil hmem
  | cons first rest =>
    rw [hentries] at hkept
    obtain ⟨e, he, hfold, hgreatest⟩ := exists_foldl_laterEntry rest first
    obtain ⟨hmem, hle⟩ := (hkept e).mp he
    refine .inr ⟨e, hmem, ?_, hle, fun d hd hbefore => hgreatest d ((hkept d).mpr ⟨hd, hbefore⟩)⟩
    exact congrArg (Option.map (·.1)) hfold

namespace HasOrderedMap

variable (h : c.HasOrderedMap)
include h

theorem compare {a b : Nat × Nat} (ha : a ∈ c.description.pcMap) (hb : b ∈ c.description.pcMap) :
    a = b ∨ (a.1 < b.1 ∧ a.2 < b.2) ∨ (b.1 < a.1 ∧ b.2 < a.2) := by
  by_cases heq : a = b
  · exact .inl heq
  · have hsymm : Std.Symm fun x y : Nat × Nat =>
        (x.1 < y.1 ∧ x.2 < y.2) ∨ (y.1 < x.1 ∧ y.2 < x.2) := ⟨fun _ _ => Or.symm⟩
    have hboth : c.description.pcMap.Pairwise fun x y =>
        (x.1 < y.1 ∧ x.2 < y.2) ∨ (y.1 < x.1 ∧ y.2 < x.2) := h.increasing.imp .inl
    exact .inr (hboth.forall ha hb heq)

theorem le_iff {a b : Nat × Nat} (ha : a ∈ c.description.pcMap) (hb : b ∈ c.description.pcMap) :
    a.1 ≤ b.1 ↔ a.2 ≤ b.2 := by
  rcases h.compare ha hb with rfl | hless | hgreater
  · simp
  · omega
  · omega

theorem pcForBytecodeOffset_of_mem {e : Nat × Nat} (he : e ∈ c.description.pcMap) :
    c.pcForBytecodeOffset e.1 = some (c.start + e.2) := by
  obtain ⟨p, hp⟩ := Option.isSome_iff_exists.mp (pcForBytecodeOffset_isSome.mpr ⟨e, he, rfl⟩)
  obtain ⟨n, hmem, rfl⟩ := exists_entry hp
  rcases h.compare hmem he with heq | hless | hgreater
  · have hn : n = e.2 := congrArg (·.2) heq
    rw [hp, hn]
  · exact absurd hless.1 (Nat.lt_irrefl _)
  · exact absurd hgreater.1 (Nat.lt_irrefl _)

theorem reaches (hpc : c.pcForBytecodeOffset offset = some p) : c.Reaches p := by
  refine ⟨start_le_of_pcForBytecodeOffset hpc, ?_⟩
  obtain ⟨n, hmem, rfl⟩ := exists_entry hpc
  rw [Nat.add_sub_cancel_left]
  exact h.narrow _ hmem

/-- The code for the offset that an address belongs to starts at or before the address, and no
other code starts in between. -/
theorem pcForBytecodeOffset_of_bytecodeOffsetForPc (hreaches : c.Reaches pc)
    (hoffset : c.bytecodeOffsetForPc pc = some offset) :
    ∃ p, c.pcForBytecodeOffset offset = some p ∧ p ≤ pc ∧ ∀ q ∈ c.mappedPcs, p < q → pc < q := by
  rcases hreaches.bytecodeOffsetForPc_cases with ⟨hnone, -⟩ | ⟨e, he, hsome, hle, hgreatest⟩
  · rw [hnone] at hoffset
    cases hoffset
  · cases hsome.symm.trans hoffset
    refine ⟨c.start + e.2, h.pcForBytecodeOffset_of_mem he, hle, ?_⟩
    intro q hq hbetween
    obtain ⟨d, hd, rfl⟩ := List.mem_map.mp hq
    apply Nat.lt_of_not_le
    intro hbefore
    have hle' := hgreatest d hd hbefore
    lia

/-- The two directions of the map are a Galois connection. -/
theorem le_pc_iff (hpc : c.pcForBytecodeOffset offset = some p) (hreaches : c.Reaches pc) :
    p ≤ pc ↔ ∃ offset', c.bytecodeOffsetForPc pc = some offset' ∧ offset ≤ offset' := by
  obtain ⟨n, hmem, rfl⟩ := exists_entry hpc
  rcases hreaches.bytecodeOffsetForPc_cases with ⟨hnone, hbehind⟩ | ⟨e, he, hsome, hle, hgreatest⟩
  · rw [hnone]
    have hless := hbehind _ hmem
    simp only at hless
    simp [hless]
  · have hiff : offset ≤ e.1 ↔ n ≤ e.2 := h.le_iff hmem he
    rw [hsome]
    constructor
    · intro hbefore
      exact ⟨e.1, rfl, hiff.mpr (hgreatest _ hmem hbefore)⟩
    · rintro ⟨_, hself, hoffset⟩
      cases hself
      exact Nat.le_trans (Nat.add_le_add_left (hiff.mp hoffset) _) hle

theorem bytecodeOffsetForPc_pcForBytecodeOffset (hpc : c.pcForBytecodeOffset offset = some p) :
    c.bytecodeOffsetForPc p = some offset := by
  have hreaches := h.reaches hpc
  obtain ⟨offset', hoffset', hle⟩ := (h.le_pc_iff hpc hreaches).mp (Nat.le_refl p)
  obtain ⟨p', hp', hbefore, -⟩ := h.pcForBytecodeOffset_of_bytecodeOffsetForPc hreaches hoffset'
  obtain ⟨n, hmem, rfl⟩ := exists_entry hpc
  obtain ⟨n', hmem', rfl⟩ := exists_entry hp'
  have hiff : offset' ≤ offset ↔ n' ≤ n := h.le_iff hmem' hmem
  have heq : offset' = offset := Nat.le_antisymm (hiff.mpr (Nat.le_of_add_le_add_left hbefore)) hle
  rw [hoffset', heq]

/-- The least mapped address is the one of the first entry. -/
theorem bytecodeOffsetForPc_eq_none (hreaches : c.Reaches pc) :
    c.bytecodeOffsetForPc pc = none ↔ ∀ first ∈ c.mappedPcs.head?, pc < first := by
  have hall : c.bytecodeOffsetForPc pc = none ↔ ∀ e ∈ c.description.pcMap, pc < c.start + e.2 := by
    rcases hreaches.bytecodeOffsetForPc_cases with ⟨hnone, hbehind⟩ | ⟨e, he, hsome, hle, -⟩
    · simpa [hnone] using hbehind
    · rw [hsome]
      constructor
      · intro hnone
        cases hnone
      · intro hbehind
        exact absurd (hbehind e he) (Nat.not_lt.mpr hle)
  have hincreasing := h.increasing
  rw [hall, mappedPcs]
  cases hmap : c.description.pcMap with
  | nil => simp
  | cons e rest =>
    rw [hmap, List.pairwise_cons] at hincreasing
    simp only [List.map_cons, List.head?_cons, Option.mem_some_iff, forall_eq',
      List.forall_mem_cons]
    constructor
    · intro hbehind
      exact hbehind.1
    · intro hfirst
      refine ⟨hfirst, fun d hd => Nat.lt_trans hfirst ?_⟩
      exact Nat.add_lt_add_left (hincreasing.1 d hd).2 _

/-- What a mapped offset is taken to is taken back to it. An address is taken to the offset whose
code starts last before it, to none exactly if it lies before the first mapped address, and to no
smaller offset than an address before it. -/
theorem pcMap_galois :
    (∀ offset ∈ c.mappedOffsets,
      ∃ p, c.pcForBytecodeOffset offset = some p ∧ c.bytecodeOffsetForPc p = some offset) ∧
    (∀ pc, c.Reaches pc →
      (∀ offset, c.bytecodeOffsetForPc pc = some offset → ∃ p,
        c.pcForBytecodeOffset offset = some p ∧ p ≤ pc ∧ ∀ q ∈ c.mappedPcs, p < q → pc < q) ∧
      (c.bytecodeOffsetForPc pc = none ↔ ∀ first ∈ c.mappedPcs.head?, pc < first) ∧
      (∀ offset p, c.pcForBytecodeOffset offset = some p →
        (p ≤ pc ↔ ∃ offset', c.bytecodeOffsetForPc pc = some offset' ∧ offset ≤ offset')) ∧
      ∀ pc', pc ≤ pc' → c.Reaches pc' → ∀ offset, c.bytecodeOffsetForPc pc = some offset →
        ∃ offset', c.bytecodeOffsetForPc pc' = some offset' ∧ offset ≤ offset') := by
  refine ⟨?_, fun pc hreaches => ⟨?_, h.bytecodeOffsetForPc_eq_none hreaches, ?_, ?_⟩⟩
  · intro offset hoffset
    obtain ⟨e, he, rfl⟩ := List.mem_map.mp hoffset
    have hpc := h.pcForBytecodeOffset_of_mem he
    exact ⟨_, hpc, h.bytecodeOffsetForPc_pcForBytecodeOffset hpc⟩
  · intro offset hoffset
    exact h.pcForBytecodeOffset_of_bytecodeOffsetForPc hreaches hoffset
  · intro offset p hpc
    exact h.le_pc_iff hpc hreaches
  · intro pc' hle hreaches' offset hoffset
    obtain ⟨p, hpc, hbefore, -⟩ := h.pcForBytecodeOffset_of_bytecodeOffsetForPc hreaches hoffset
    exact (h.le_pc_iff hpc hreaches').mp (Nat.le_trans hbefore hle)

omit h in
/-- The map starts behind the first instruction; an address in the middle of the code belongs to
the entry before it. -/
theorem pcMap_galois_prologue :
    let c : Code := ⟨0, 0x4000,
      { kind := .baseline, size := 100, pcMap := [(2, 8), (4, 16), (9, 40)] }⟩
    c.HasOrderedMap ∧ c.Reaches 0x4027 ∧ c.bytecodeOffsetForPc 0x4027 = some 4 ∧
      (∃ p, c.pcForBytecodeOffset 4 = some p ∧ p ≤ 0x4027 ∧
        ∀ q ∈ c.mappedPcs, p < q → 0x4027 < q) ∧
      c.Reaches 0x4007 ∧ c.bytecodeOffsetForPc 0x4007 = none := by
  intro c
  have hmap : c.HasOrderedMap := ⟨by simp [c], by simp [c]⟩
  obtain ⟨-, hat⟩ := hmap.pcMap_galois
  have hreaches : c.Reaches 0x4027 := by decide
  have hreaches' : c.Reaches 0x4007 := by decide
  obtain ⟨hstart, -⟩ := hat 0x4027 hreaches
  obtain ⟨-, hnone, -⟩ := hat 0x4007 hreaches'
  exact ⟨hmap, hreaches, rfl, hstart 4 rfl, hreaches', hnone.mpr (by decide)⟩

end HasOrderedMap

end Code

end ScriptEngine

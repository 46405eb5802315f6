import ScriptEngine.Code.Basic

namespace ScriptEngine

section Nearest

variable {α : Type} {key : α → Nat} {offset : Nat} {items others : List α}

/-- The greatest key at or before an offset. -/
def floorKey? (key : α → Nat) (offset : Nat) (items : List α) : Option Nat :=
  ((items.map key).filter (· ≤ offset)).max?

/-- The items with the greatest key at or before an offset, in their order. -/
def nearest (key : α → Nat) (offset : Nat) (items : List α) : List α :=
  match floorKey? key offset items with
  | none => []
  | some k => items.filter (key · == k)

theorem floorKey?_eq_some {k : Nat} : floorKey? key offset items = some k ↔
    (∃ a ∈ items, key a = k) ∧ k ≤ offset ∧ ∀ b ∈ items, key b ≤ offset → key b ≤ k := by
  rw [floorKey?, List.max?_eq_some_iff]
  simp [and_assoc]

theorem floorKey?_eq_none : floorKey? key offset items = none ↔ ∀ a ∈ items, offset < key a := by
  simp [floorKey?]

/-- Only the members of a list decide on the key, not their order. -/
theorem floorKey?_congr (h : ∀ a, a ∈ items ↔ a ∈ others) :
    floorKey? key offset items = floorKey? key offset others := by
  apply Option.ext
  intro k
  simp only [floorKey?_eq_some, h]

theorem nearest_eq_nil : nearest key offset items = [] ↔ ∀ a ∈ items, offset < key a := by
  unfold nearest
  cases hfloor : floorKey? key offset items with
  | none => simpa using floorKey?_eq_none.mp hfloor
  | some k =>
    obtain ⟨⟨a, ha, rfl⟩, hle, -⟩ := floorKey?_eq_some.mp hfloor
    constructor
    · intro hempty
      exact absurd (List.filter_eq_nil_iff.mp hempty a ha) (by simp)
    · intro hbehind
      exact absurd (hbehind a ha) (Nat.not_lt.mpr hle)

theorem nearest_reverse :
    nearest key offset items.reverse = (nearest key offset items).reverse := by
  unfold nearest
  rw [floorKey?_congr fun _ => List.mem_reverse]
  cases floorKey? key offset items with
  | none => rfl
  | some k => exact List.filter_reverse

/-- The two lists have the same items of each key, in the same order. -/
def SameByKey (key : α → Nat) (items others : List α) : Prop :=
  ∀ k, items.filter (key · == k) = others.filter (key · == k)

namespace SameByKey

theorem refl (items : List α) : SameByKey key items items := fun _ => rfl

/-- Two lists without a key in common may change places. -/
theorem swap (h : ∀ a ∈ items, ∀ b ∈ others, key a ≠ key b) :
    SameByKey key (items ++ others) (others ++ items) := by
  intro k
  rw [List.filter_append, List.filter_append]
  by_cases hnone : items.filter (key · == k) = []
  · rw [hnone, List.nil_append, List.append_nil]
  · obtain ⟨a, ha⟩ := List.exists_mem_of_ne_nil _ hnone
    obtain ⟨hmem, rfl⟩ : a ∈ items ∧ key a = k := by simpa using ha
    have hothers : others.filter (key · == key a) = [] := by
      apply List.filter_eq_nil_iff.mpr
      intro b hb
      simpa using (h a hmem b hb).symm
    rw [hothers, List.nil_append, List.append_nil]

variable (h : SameByKey key items others)
include h

theorem trans {more : List α} (h' : SameByKey key others more) : SameByKey key items more :=
  fun k => (h k).trans (h' k)

theorem append {more more' : List α} (h' : SameByKey key more more') :
    SameByKey key (items ++ more) (others ++ more') := by
  intro k
  rw [List.filter_append, List.filter_append, h k, h' k]

theorem mem_iff {a : α} : a ∈ items ↔ a ∈ others := by
  have hfilter : ∀ l : List α, a ∈ l ↔ a ∈ l.filter (key · == key a) := by
    intro l
    simp
  rw [hfilter items, h, ← hfilter others]

theorem nearest_eq : nearest key offset items = nearest key offset others := by
  unfold nearest
  rw [floorKey?_congr fun _ => h.mem_iff]
  cases floorKey? key offset others with
  | none => rfl
  | some k => exact h k

end SameByKey

end Nearest

namespace BinarySearch.Ordered

variable {α : Type} {key : α → Nat} {items : List α} (h : Ordered key items)
include h

/-- In ordered items, the last one at or before an offset is the last of the nearest ones. -/
theorem last?_eq_nearest (offset : Nat) :
    last? (key · ≤ offset) items = (nearest key offset items).getLast? := by
  rw [(h.leads_le offset).last?_eq]
  cases hlast : (items.filter (key · ≤ offset)).getLast? with
  | none =>
    have hempty := List.filter_eq_nil_iff.mp (List.getLast?_eq_none_iff.mp hlast)
    have hnearest : nearest key offset items = [] :=
      nearest_eq_nil.mpr fun a ha => by simpa using hempty a ha
    rw [hnearest]
    rfl
  | some a =>
    obtain ⟨before, hsplit⟩ := List.getLast?_eq_some_iff.mp hlast
    obtain ⟨ha, hle⟩ : a ∈ items ∧ key a ≤ offset := by
      simpa using List.mem_of_getLast? hlast
    have hgreatest : ∀ b ∈ items, key b ≤ offset → key b ≤ key a := by
      intro b hb hbelow
      have hkept : Ordered key (before ++ [a]) := hsplit ▸ List.Pairwise.filter _ h
      have hmem : b ∈ before ++ [a] := hsplit ▸ List.mem_filter.mpr ⟨hb, decide_eq_true hbelow⟩
      rcases List.mem_append.mp hmem with hbefore | hself
      · exact (List.pairwise_append.mp hkept).2.2 b hbefore a List.mem_cons_self
      · exact Nat.le_of_eq (congrArg key (List.mem_singleton.mp hself))
    have hfloor := floorKey?_eq_some.mpr ⟨⟨a, ha, rfl⟩, hle, hgreatest⟩
    have hgroup : items.filter (key · == key a) =
        (items.filter (key · ≤ offset)).filter (key · == key a) := by
      rw [List.filter_filter]
      apply List.filter_congr
      intro b _
      by_cases hkey : key b = key a <;> simp [hkey, hle]
    simp [nearest, hfloor, hgroup, hsplit]

/-- Behind the items of no greater key, an item is the last one of its key. -/
theorem sameByKey_insertAfter_le (a : α) :
    SameByKey key (BinarySearch.insertAfter (key · ≤ key a) items a) (items ++ [a]) := by
  let n := partitionPoint (key · ≤ key a) items
  have hgreater : ∀ b ∈ items.drop n, key a < key b := by
    intro b hb
    simpa using (h.leads_le (key a)).of_mem_drop hb
  have hswap : SameByKey key ([a] ++ items.drop n) (items.drop n ++ [a]) := by
    apply SameByKey.swap
    intro b hb c hc
    cases List.mem_singleton.mp hb
    exact Nat.ne_of_lt (hgreater c hc)
  have hsame := (SameByKey.refl (items.take n)).append hswap
  rw [← List.append_assoc _ _ [a], List.take_append_drop] at hsame
  exact hsame

/-- Before the items of no smaller key, an item is the first one of its key. -/
theorem sameByKey_insertAfter_lt (a : α) :
    SameByKey key (BinarySearch.insertAfter (key · < key a) items a) (a :: items) := by
  let n := partitionPoint (key · < key a) items
  have hless : ∀ b ∈ items.take n, key b < key a := by
    intro b hb
    simpa using (h.leads_lt (key a)).of_mem_take hb
  have hswap : SameByKey key (items.take n ++ [a]) ([a] ++ items.take n) := by
    apply SameByKey.swap
    intro b hb c hc
    cases List.mem_singleton.mp hc
    exact Nat.ne_of_lt (hless b hb)
  have hsame := hswap.append (SameByKey.refl (items.drop n))
  rw [List.append_assoc, List.append_assoc, List.take_append_drop] at hsame
  exact hsame

end BinarySearch.Ordered

namespace SourcePositions

/-- Adds pairs of an offset and a position one after the other. -/
def addAll (t : SourcePositions) (additions : List (Nat × Nat)) : SourcePositions :=
  additions.foldl (fun t e => t.add e.1 e.2) t

theorem sameByKey_addAll {t : SourcePositions} {past : List (Nat × Nat)}
    (h : SameByKey (·.1) t.entries past) (additions : List (Nat × Nat)) :
    SameByKey (·.1) (t.addAll additions).entries (past ++ additions) := by
  induction additions generalizing t past with
  | nil =>
    rw [List.append_nil]
    exact h
  | cons e rest ih =>
    have hadd : SameByKey (·.1) (t.add e.1 e.2).entries (past ++ [e]) :=
      (t.ordered.sameByKey_insertAfter_le e).trans (h.append (.refl [e]))
    have hrest := ih hadd
    rw [List.append_assoc] at hrest
    exact hrest

theorem lookup_addAll (additions : List (Nat × Nat)) (offset : Nat) :
    (addAll {} additions).lookup offset = (nearest (·.1) offset additions).getLast?.map (·.2) := by
  have hsame : SameByKey (·.1) (addAll {} additions).entries additions :=
    sameByKey_addAll (fun _ => rfl) additions
  rw [lookup, (addAll {} additions).ordered.last?_eq_nearest, hsame.nearest_eq]

end SourcePositions

namespace CodeDescription

def addDeoptPoints (d : CodeDescription) (points : List DeoptPoint) : CodeDescription :=
  points.foldl addDeoptPoint d

theorem addDeoptPoints_spec {d : CodeDescription}
    (h : BinarySearch.Ordered (·.pcOffset) d.deoptPoints) (points : List DeoptPoint) :
    BinarySearch.Ordered (·.pcOffset) (d.addDeoptPoints points).deoptPoints ∧
      SameByKey (·.pcOffset) (d.addDeoptPoints points).deoptPoints
        (points.reverse ++ d.deoptPoints) := by
  induction points generalizing d with
  | nil => exact ⟨h, fun _ => rfl⟩
  | cons p rest ih =>
    obtain ⟨hordered, hsame⟩ := ih (d := d.addDeoptPoint p) (h.insertAfter_lt p)
    refine ⟨hordered, ?_⟩
    rw [List.reverse_cons, List.append_assoc]
    exact hsame.trans ((SameByKey.refl _).append (h.sameByKey_insertAfter_lt p))

end CodeDescription

theorem Code.deoptPoint_addDeoptPoints {c : Code} {d : CodeDescription} {points : List DeoptPoint}
    (fresh : d.deoptPoints = []) (described : c.description = d.addDeoptPoints points)
    (offset : Nat) : c.deoptPoint offset = (nearest (·.pcOffset) offset points).head? := by
  have hempty : BinarySearch.Ordered DeoptPoint.pcOffset d.deoptPoints := fresh ▸ .nil
  obtain ⟨hordered, hsame⟩ := d.addDeoptPoints_spec hempty points
  rw [fresh, List.append_nil] at hsame
  rw [deoptPoint, described, hordered.last?_eq_nearest, hsame.nearest_eq, nearest_reverse,
    List.getLast?_reverse]

/-- An offset finds nothing only in front of all entries. Otherwise, of what was added for the
greatest offset at or before it, it finds the last position and the first point. -/
theorem offsetTables_nearest (additions : List (Nat × Nat)) {d : CodeDescription}
    (fresh : d.deoptPoints = []) (points : List DeoptPoint) {c : Code}
    (described : c.description = d.addDeoptPoints points) (offset : Nat) :
    let t := SourcePositions.addAll {} additions
    (t.lookup offset = none ↔ ∀ e ∈ additions, offset < e.1) ∧
      t.lookup offset = (nearest (·.1) offset additions).getLast?.map (·.2) ∧
      (c.deoptPoint offset = none ↔ ∀ p ∈ points, offset < p.pcOffset) ∧
      c.deoptPoint offset = (nearest (·.pcOffset) offset points).head? := by
  have hlookup := SourcePositions.lookup_addAll additions offset
  have hpoint := Code.deoptPoint_addDeoptPoints fresh described offset
  refine ⟨?_, hlookup, ?_, hpoint⟩
  · rw [hlookup, Option.map_eq_none_iff, List.getLast?_eq_none_iff]
    exact nearest_eq_nil
  · rw [hpoint, List.head?_eq_none_iff]
    exact nearest_eq_nil

/-- Two entries share the greatest offset, and stand on different sides of a later addition. -/
theorem offsetTables_nearest_shared :
    let frame : TranslatedFrame := ⟨.undefined, .undefined, 3, false⟩
    let points : List DeoptPoint := [⟨40, []⟩, ⟨8, [frame]⟩, ⟨0, []⟩, ⟨8, [frame, frame]⟩]
    let d : CodeDescription := { kind := .turbofan, size := 64 }
    let c : Code := ⟨0, 0x3000, d.addDeoptPoints points⟩
    let t := SourcePositions.addAll {} [(4, 9), (10, 20), (4, 7), (1, 5)]
    d.deoptPoints = [] ∧ t.lookup 6 = some 7 ∧ t.lookup 0 = none ∧
      c.deoptPoint 20 = some ⟨8, [frame]⟩ := by
  intro frame points d c t
  have hat := offsetTables_nearest [(4, 9), (10, 20), (4, 7), (1, 5)] (d := d) rfl points
    (c := c) rfl
  obtain ⟨-, hlookup, -, -⟩ := hat 6
  obtain ⟨hbefore, -, -, -⟩ := hat 0
  obtain ⟨-, -, -, hpoint⟩ := hat 20
  exact ⟨rfl, hlookup, hbefore.mpr (by decide), hpoint⟩

end ScriptEngine

namespace ScriptEngine.BinarySearch

variable {α : Type}

/-- Looks for the last item that satisfies `p` among the `size` items from `base` on. Every round
halves their number; one is left before the rounds are over. -/
def narrow (p : α → Bool) (items : List α) : Nat → Nat → Nat → Nat
  | 0, base, _ => base
  | rounds + 1, base, size =>
    if size ≤ 1 then base
    else if items[base + size / 2]?.any p then
      narrow p items rounds (base + size / 2) (size - size / 2)
    else narrow p items rounds base (size - size / 2)

/-- The index of the last item that satisfies `p`, or zero if none does. -/
def lastIndex (p : α → Bool) (items : List α) : Nat := narrow p items items.length 0 items.length

/-- How many items satisfy `p`. -/
def partitionPoint (p : α → Bool) (items : List α) : Nat :=
  if items[lastIndex p items]?.any p then lastIndex p items + 1 else lastIndex p items

/-- Puts an item behind the first ones that satisfy `p`. -/
def insertAfter (p : α → Bool) (items : List α) (a : α) : List α :=
  items.take (partitionPoint p items) ++ a :: items.drop (partitionPoint p items)

/-- The last of the first items that satisfy `p`. -/
def last? (p : α → Bool) (items : List α) : Option α :=
  match partitionPoint p items with
  | 0 => none
  | n + 1 => items[n]?

/-- The items that satisfy `p` come first. -/
def Leads (p : α → Bool) (items : List α) : Prop := items.Pairwise fun a b => p b → p a

variable {p : α → Bool} {items : List α}

theorem Leads.any_of_le (h : Leads p items) {i j : Nat} (hij : i ≤ j) (hj : items[j]?.any p) :
    items[i]?.any p := by
  rcases Nat.lt_or_eq_of_le hij with hlt | rfl
  · obtain ⟨a, ha, hp⟩ := (Option.any_eq_true ..).mp hj
    obtain ⟨hlength, rfl⟩ := List.getElem?_eq_some_iff.mp ha
    have hi : i < items.length := Nat.lt_trans hlt hlength
    rw [List.getElem?_eq_getElem hi, Option.any_some]
    exact List.pairwise_iff_getElem.mp h i j hi hlength hlt hp
  · exact hj

theorem Leads.any_eq_false_of_le (h : Leads p items) {i j : Nat} (hij : i ≤ j)
    (hi : items[i]?.any p = false) : items[j]?.any p = false :=
  Bool.eq_false_iff.mpr fun hj => Bool.eq_false_iff.mp hi (h.any_of_le hij hj)

/-- If no item behind those that are searched satisfies `p`, then none behind the one that is
found does. -/
theorem Leads.narrow_spec (h : Leads p items) {rounds base size : Nat} (enough : size ≤ rounds + 1)
    (below : base = 0 ∨ items[base]?.any p)
    (above : ∀ i, base + size ≤ i → items[i]?.any p = false) :
    (narrow p items rounds base size = 0 ∨ items[narrow p items rounds base size]?.any p) ∧
      ∀ i, narrow p items rounds base size < i → items[i]?.any p = false := by
  induction rounds generalizing base size with
  | zero => exact ⟨below, fun i hi => above i (by rw [narrow] at hi; omega)⟩
  | succ rounds ih =>
    have henough : size - size / 2 ≤ rounds + 1 := by omega
    rw [narrow]
    split
    · exact ⟨below, fun i hi => above i (by omega)⟩
    split
    case isTrue hmiddle => exact ih henough (.inr hmiddle) fun i hi => above i (by omega)
    case isFalse hmiddle =>
      exact ih henough below fun i hi =>
        h.any_eq_false_of_le (by omega) (Bool.eq_false_iff.mpr hmiddle)

theorem Leads.lastIndex_spec (h : Leads p items) :
    (lastIndex p items = 0 ∨ items[lastIndex p items]?.any p) ∧
      ∀ i, lastIndex p items < i → items[i]?.any p = false := by
  refine h.narrow_spec (Nat.le_succ _) (.inl rfl) fun i hi => ?_
  rw [List.getElem?_eq_none (by omega)]
  rfl

theorem Leads.any_iff (h : Leads p items) (i : Nat) :
    items[i]?.any p ↔ i < partitionPoint p items := by
  obtain ⟨hlast, hbehind⟩ := h.lastIndex_spec
  unfold partitionPoint
  split
  case isTrue hp =>
    refine ⟨fun hi => Nat.lt_of_not_le fun hle => ?_, fun hi => h.any_of_le (by omega) hp⟩
    exact Bool.eq_false_iff.mp (hbehind i (by omega)) hi
  case isFalse hp =>
    have hzero := hlast.resolve_right hp
    rw [hzero] at hp ⊢
    exact ⟨fun hi => absurd (h.any_of_le (Nat.zero_le i) hi) hp, fun hi => absurd hi (by omega)⟩

/-- The items before the partition point satisfy `p`. -/
theorem Leads.of_mem_take (h : Leads p items) {a : α}
    (ha : a ∈ items.take (partitionPoint p items)) :
    p a := by
  obtain ⟨i, hi, rfl⟩ := List.mem_take_iff_getElem.mp ha
  have hany := (h.any_iff i).mpr (by omega)
  rwa [List.getElem?_eq_getElem (by omega), Option.any_some] at hany

/-- The items from the partition point on do not. -/
theorem Leads.of_mem_drop (h : Leads p items) {a : α}
    (ha : a ∈ items.drop (partitionPoint p items)) :
    p a = false := by
  obtain ⟨i, hi, rfl⟩ := List.mem_drop_iff_getElem.mp ha
  refine Bool.eq_false_iff.mpr fun hp => ?_
  have hlt := (h.any_iff (partitionPoint p items + i)).mp
    (by rw [List.getElem?_eq_getElem (by omega), Option.any_some, hp])
  omega

theorem Leads.partitionPoint_le (h : Leads p items) : partitionPoint p items ≤ items.length := by
  refine Nat.le_of_not_lt fun hlt => ?_
  have hany := (h.any_iff items.length).mpr hlt
  rw [List.getElem?_eq_none (Nat.le_refl _)] at hany
  cases hany

theorem Leads.take_eq_filter (h : Leads p items) :
    items.take (partitionPoint p items) = items.filter p := by
  have hbehind : (items.drop (partitionPoint p items)).filter p = [] :=
    List.filter_eq_nil_iff.mpr fun a ha => Bool.eq_false_iff.mp (h.of_mem_drop ha)
  have hbefore : (items.take (partitionPoint p items)).filter p =
      items.take (partitionPoint p items) :=
    List.filter_eq_self.mpr fun a ha => h.of_mem_take ha
  calc items.take (partitionPoint p items)
    _ = (items.take (partitionPoint p items) ++ items.drop (partitionPoint p items)).filter p := by
      rw [List.filter_append, hbehind, hbefore, List.append_nil]
    _ = items.filter p := by rw [List.take_append_drop]

theorem Leads.partitionPoint_eq (h : Leads p items) :
    partitionPoint p items = (items.filter p).length := by
  rw [← h.take_eq_filter, List.length_take, Nat.min_eq_left h.partitionPoint_le]

theorem Leads.last?_eq (h : Leads p items) : last? p items = (items.filter p).getLast? := by
  have hle := h.partitionPoint_le
  rw [← h.take_eq_filter, last?]
  cases hpoint : partitionPoint p items with
  | zero => simp
  | succ n =>
    have hn : n < items.length := by omega
    simp [List.getLast?_take, List.getElem?_eq_getElem hn]

/-- The keys do not decrease. -/
def Ordered (key : α → Nat) (items : List α) : Prop := items.Pairwise fun a b => key a ≤ key b

namespace Ordered

variable {key : α → Nat}

theorem leads_lt (h : Ordered key items) (k : Nat) : Leads (key · < k) items :=
  h.imp fun hab hb => decide_eq_true (Nat.lt_of_le_of_lt hab (of_decide_eq_true hb))

theorem leads_le (h : Ordered key items) (k : Nat) : Leads (key · ≤ k) items :=
  h.imp fun hab hb => decide_eq_true (Nat.le_trans hab (of_decide_eq_true hb))

/-- An item may stand behind items of no greater keys and before items of no smaller ones. -/
theorem insertAfter {a : α} (h : Ordered key items) (hleads : Leads p items)
    (hbefore : ∀ b, p b → key b ≤ key a) (hbehind : ∀ b, p b = false → key a ≤ key b) :
    Ordered key (insertAfter p items a) := by
  have hparts := h
  rw [Ordered, ← List.take_append_drop (partitionPoint p items) items,
    List.pairwise_append] at hparts
  obtain ⟨hfirst, hrest, hacross⟩ := hparts
  have hless : ∀ b ∈ items.take (partitionPoint p items), key b ≤ key a :=
    fun b hb => hbefore b (hleads.of_mem_take hb)
  have hgreater : ∀ b ∈ items.drop (partitionPoint p items), key a ≤ key b :=
    fun b hb => hbehind b (hleads.of_mem_drop hb)
  refine List.pairwise_append.mpr ⟨hfirst, List.pairwise_cons.mpr ⟨hgreater, hrest⟩, ?_⟩
  intro b hb c hc
  rcases List.mem_cons.mp hc with rfl | hc
  · exact hless b hb
  · exact hacross b hb c hc

theorem insertAfter_le (h : Ordered key items) (a : α) :
    Ordered key (BinarySearch.insertAfter (key · ≤ key a) items a) :=
  h.insertAfter (h.leads_le _) (fun _ hb => of_decide_eq_true hb)
    fun _ hb => Nat.le_of_lt (Nat.lt_of_not_le (of_decide_eq_false hb))

theorem insertAfter_lt (h : Ordered key items) (a : α) :
    Ordered key (BinarySearch.insertAfter (key · < key a) items a) :=
  h.insertAfter (h.leads_lt _) (fun _ hb => Nat.le_of_lt (of_decide_eq_true hb))
    fun _ hb => Nat.le_of_not_lt (of_decide_eq_false hb)

end Ordered

end ScriptEngine.BinarySearch

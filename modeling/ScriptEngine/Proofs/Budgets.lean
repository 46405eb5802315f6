import ScriptEngine.Memory

namespace ScriptEngine

namespace Budget

variable {b : Budget} {size : Nat}

theorem fits_iff : b.fits size ↔ b.used + size < Memory.wordLimit ∧ b.used + size ≤ b.limit := by
  simp [fits]

theorem unbook_book (b : Budget) (size : Nat) : (b.book size).unbook size = b := by
  simp [book, unbook]

end Budget

namespace PageAllocator

variable {a a' : PageAllocator} {size : Nat} {r : Reservation} {granted : Option Reservation}
  {budgets : List Budget}

theorem ask_granted_iff : (ask size budgets).1 = true ↔
    (∀ b ∈ budgets, b.fits size) ∧ size ≤ Memory.systemLimit := by
  induction budgets with
  | nil => simp [ask]
  | cons b inner ih =>
    rw [ask, List.forall_mem_cons, and_assoc, ← ih]
    split
    case isTrue hfits => exact ⟨fun h => ⟨hfits, h⟩, fun h => h.2⟩
    case isFalse hfits => exact ⟨nofun, fun h => absurd h.1 hfits⟩

theorem ask_granted (h : (ask size budgets).1 = true) :
    (ask size budgets).2 = budgets.map (·.book size) := by
  induction budgets with
  | nil => rfl
  | cons b inner ih =>
    rw [ask] at h ⊢
    split at h
    case isTrue hfits =>
      rw [if_pos hfits, List.map_cons, ← ih h]
      dsimp only at h ⊢
      rw [if_pos h]
    case isFalse => cases h

/-- Whichever budget refuses, those before it give back what they booked. -/
theorem ask_refused (h : (ask size budgets).1 = false) : (ask size budgets).2 = budgets := by
  induction budgets with
  | nil => rfl
  | cons b inner ih =>
    rw [ask] at h ⊢
    split at h
    case isTrue hfits =>
      dsimp only at h ⊢
      rw [if_pos hfits, ih h, h, if_neg Bool.false_ne_true, Budget.unbook_book]
    case isFalse hfits => rw [if_neg hfits]

theorem attempt_granted (h : (∀ b ∈ a.budgets, b.fits size) ∧ size ≤ Memory.systemLimit) :
    a.attempt size = (some ⟨a.next, size⟩,
      { budgets := a.budgets.map (·.book size), next := a.next + size + Memory.guardSize }) := by
  have hgranted := ask_granted_iff.mpr h
  rw [attempt]
  dsimp only
  rw [if_pos hgranted, ask_granted hgranted]

theorem attempt_refused (h : ¬((∀ b ∈ a.budgets, b.fits size) ∧ size ≤ Memory.systemLimit)) :
    a.attempt size = (none, a) := by
  have hrefused := Bool.eq_false_iff.mpr (mt ask_granted_iff.mp h)
  rw [attempt]
  dsimp only
  rw [hrefused, if_neg Bool.false_ne_true, ask_refused hrefused]

/-- A region of the size is granted if every budget and the system have room for it, and otherwise
nothing changes. -/
theorem attempt_cases (h : a.attempt size = (granted, a')) :
    (granted = some ⟨a.next, size⟩ ∧ (∀ b ∈ a.budgets, b.fits size) ∧
        size ≤ Memory.systemLimit ∧ a'.budgets = a.budgets.map (·.book size)) ∨
      (granted = none ∧ a' = a ∧
        ¬((∀ b ∈ a.budgets, b.fits size) ∧ size ≤ Memory.systemLimit)) := by
  by_cases hroom : (∀ b ∈ a.budgets, b.fits size) ∧ size ≤ Memory.systemLimit
  · rw [attempt_granted hroom] at h
    cases h
    exact .inl ⟨rfl, hroom.1, hroom.2, rfl⟩
  · rw [attempt_refused hroom] at h
    cases h
    exact .inr ⟨rfl, rfl, hroom⟩

theorem reserve_eq_some : a.reserve size = some (r, a') ↔ a.attempt size = (some r, a') := by
  unfold reserve
  split <;> simp_all

end PageAllocator

/-- The bytes of some regions. -/
def Reservation.total (held : List Reservation) : Nat := held.foldr (fun r n => r.size + n) 0

theorem Reservation.total_split {before after : List Reservation} {r : Reservation} :
    total (before ++ r :: after) = total (before ++ after) + r.size := by
  have hcons : ∀ (q : Reservation) l, total (q :: l) = q.size + total l := fun _ _ => rfl
  induction before with
  | nil => rw [List.nil_append, hcons, List.nil_append, Nat.add_comm]
  | cons q rest ih => rw [List.cons_append, List.cons_append, hcons, hcons, ih, Nat.add_assoc]

namespace PageAllocator

/-- Budgets of the limits, outermost first, with nothing booked. -/
def ofLimits (limits : List Nat) (next : Nat) : PageAllocator where
  budgets := limits.map fun limit => { limit }
  next := next

/-- An allocator that started with the limits, and the regions that it granted and did not get
back. Whoever holds a region can release it once. -/
inductive Uses (limits : List Nat) : PageAllocator → List Reservation → Prop
  | new (next : Nat) : Uses limits (ofLimits limits next) []
  | grant {a a' : PageAllocator} {held : List Reservation} {size : Nat} {r : Reservation}
      (uses : Uses limits a held) (answer : a.attempt size = (some r, a')) :
      Uses limits a' (r :: held)
  | refuse {a a' : PageAllocator} {held : List Reservation} {size : Nat}
      (uses : Uses limits a held) (answer : a.attempt size = (none, a')) : Uses limits a' held
  | release {a : PageAllocator} {before after : List Reservation} {r : Reservation}
      (uses : Uses limits a (before ++ r :: after)) :
      Uses limits (a.release r) (before ++ after)

/-- Every budget books what is held, within its limit. -/
structure Books (limits : List Nat) (a : PageAllocator) (held : List Reservation) : Prop where
  limits : a.budgets.map (·.limit) = limits
  used : ∀ b ∈ a.budgets, b.used = Reservation.total held
  within : ∀ b ∈ a.budgets, b.used ≤ b.limit

section Runs

variable {limits : List Nat} {a a' : PageAllocator} {held before after : List Reservation}
  {size : Nat} {r : Reservation}

theorem books_new (next : Nat) : (ofLimits limits next).Books limits [] where
  limits := by simp [ofLimits, Function.comp_def]
  used := by simp [ofLimits, Reservation.total]
  within := by simp [ofLimits]

theorem Books.grant (h : a.Books limits held) (answer : a.attempt size = (some r, a')) :
    a'.Books limits (r :: held) := by
  obtain ⟨hr, hfits, -, hbudgets⟩ | ⟨hr, -⟩ := attempt_cases answer
  · cases hr
    refine ⟨?_, ?_, ?_⟩
    · rw [hbudgets, List.map_map]
      exact h.limits
    · intro b hb
      obtain ⟨old, hold, rfl⟩ := List.mem_map.mp (hbudgets ▸ hb)
      show old.used + size = size + Reservation.total held
      rw [h.used old hold, Nat.add_comm]
    · intro b hb
      obtain ⟨old, hold, rfl⟩ := List.mem_map.mp (hbudgets ▸ hb)
      exact (Budget.fits_iff.mp (hfits old hold)).2
  · cases hr

theorem Books.release (h : a.Books limits (before ++ r :: after)) :
    (a.release r).Books limits (before ++ after) := by
  refine ⟨?_, ?_, ?_⟩
  · rw [PageAllocator.release, List.map_map]
    exact h.limits
  · intro b hb
    obtain ⟨old, hold, rfl⟩ := List.mem_map.mp hb
    show old.used - r.size = _
    rw [h.used old hold, Reservation.total_split, Nat.add_sub_cancel]
  · intro b hb
    obtain ⟨old, hold, rfl⟩ := List.mem_map.mp hb
    exact Nat.le_trans (Nat.sub_le _ _) (h.within old hold)

theorem Uses.books (h : a.Uses limits held) : a.Books limits held := by
  induction h with
  | new next => exact books_new next
  | grant _ answer ih => exact ih.grant answer
  | refuse _ answer ih =>
    obtain ⟨hr, -⟩ | ⟨-, rfl, -⟩ := attempt_cases answer
    · cases hr
    · exact ih
  | release _ ih => exact ih.release

/-- Every budget of an allocator books the regions that were granted and not released, within its
limit. A region is granted exactly if the size fits on every budget and the system has it, and
nothing changes on any budget if it is refused. -/
theorem Uses.books_exactly (h : a.Uses limits held) :
    a.budgets.map (·.limit) = limits ∧
      (∀ b ∈ a.budgets, b.used = Reservation.total held ∧ b.used ≤ b.limit) ∧
      ∀ size,
        ((a.attempt size).1.isSome ↔
          (∀ b ∈ a.budgets, b.used + size < Memory.wordLimit ∧ b.used + size ≤ b.limit) ∧
            size ≤ Memory.systemLimit) ∧
        (∀ r, (a.attempt size).1 = some r → r.size = size) ∧
        ((a.attempt size).1 = none → (a.attempt size).2 = a) := by
  have hbooks := h.books
  refine ⟨hbooks.limits, fun b hb => ⟨hbooks.used b hb, hbooks.within b hb⟩, fun size => ?_⟩
  simp only [← Budget.fits_iff]
  generalize hanswer : a.attempt size = answer
  obtain ⟨granted, a'⟩ := answer
  obtain ⟨rfl, hfits, hsystem, -⟩ | ⟨rfl, rfl, hroom⟩ := attempt_cases hanswer
  · refine ⟨⟨fun _ => ⟨hfits, hsystem⟩, fun _ => rfl⟩, ?_, nofun⟩
    rintro r ⟨⟩
    rfl
  · exact ⟨⟨nofun, fun hfits => absurd hfits hroom⟩, nofun, fun _ => rfl⟩

/-- The outer of two budgets books 500 bytes and gives them back, as the inner one refuses them.
A size that overflows is refused by the outer one. -/
theorem Uses.books_exactly_refusedInside :
    let a : PageAllocator :=
      { budgets := [⟨0xffffffffffffffff, 600⟩, ⟨1024, 600⟩]
        next := 0x1000 + 600 + Memory.guardSize }
    a.Uses [0xffffffffffffffff, 1024] [⟨0x1000, 600⟩] ∧
      (∀ b ∈ a.budgets, b.used = 600 ∧ b.used ≤ b.limit) ∧
      (a.attempt 500).1 = none ∧ (a.attempt 500).2 = a ∧
      (a.attempt 0xfffffffffffffda8).2 = a := by
  intro a
  have granted : (ofLimits [0xffffffffffffffff, 1024] 0x1000).attempt 600 =
      (some ⟨0x1000, 600⟩, a) := by decide
  have refused : a.attempt 500 = (none, a) := by decide
  have uses : a.Uses [0xffffffffffffffff, 1024] [⟨0x1000, 600⟩] :=
    ((Uses.new 0x1000).grant granted).refuse refused
  obtain ⟨-, hused, hattempt⟩ := uses.books_exactly
  have hrefused : (a.attempt 500).1 = none := congrArg Prod.fst refused
  have hoverflow : (a.attempt 0xfffffffffffffda8).1 = none := by decide
  exact ⟨uses, hused, hrefused, (hattempt 500).2.2 hrefused, (hattempt _).2.2 hoverflow⟩

end Runs

end PageAllocator

end ScriptEngine

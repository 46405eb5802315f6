import Mathlib.Data.List.Pairwise
import Mathlib.Order.CompletePartialOrder
import Mathlib.Order.Interval.Set.Disjoint
import ScriptEngine.Code.Registry

namespace ScriptEngine

/-- The first code ends before the second one starts. -/
def Code.Before (c d : Code) : Prop := c.start < d.start ∧ c.stop ≤ d.start

def Code.Apart (c d : Code) : Prop := c.Before d ∨ d.Before c

/-- The addresses of the instructions. -/
def Code.extent (c : Code) : Set Nat := Set.Ico c.start c.stop

/-- Where code stands: its instructions, or just its start if it has none. -/
def Code.place (c : Code) : Set Nat := Set.Ico c.start (max c.stop (c.start + 1))

theorem Code.extent_subset_place (c : Code) : c.extent ⊆ c.place :=
  Set.Ico_subset_Ico_right (le_max_left _ _)

theorem Code.apart_iff {c d : Code} : c.Apart d ↔ Disjoint c.place d.place := by
  have hc : c.stop = c.start + c.size := rfl
  have hd : d.stop = d.start + d.size := rfl
  unfold Apart Before place
  rw [Set.Ico_disjoint_Ico]
  lia

theorem Code.contains_iff {c : Code} {pc : Address} :
    c.contains pc ↔ c.start ≤ pc ∧ pc < c.stop := by
  simp [Code.contains]

namespace CodeRegistry

variable {codes : List Code} {c d : Code} {pc : Address}

theorem apart_of_ne (h : codes.Pairwise Code.Before) (hc : c ∈ codes) (hd : d ∈ codes)
    (hne : c ≠ d) : c.Apart d := by
  have symm : Std.Symm Code.Apart := ⟨fun _ _ => Or.symm⟩
  have hapart : codes.Pairwise Code.Apart := h.imp Or.inl
  exact hapart.forall hc hd hne

/-- No address is in two codes. -/
theorem eq_of_contains (h : codes.Pairwise Code.Before) (hc : c ∈ codes) (hd : d ∈ codes)
    (hcpc : c.contains pc) (hdpc : d.contains pc) : c = d := by
  by_contra hne
  rw [Code.contains_iff] at hcpc hdpc
  rcases apart_of_ne h hc hd hne with ⟨-, hcd⟩ | ⟨-, hdc⟩
  · lia
  · lia

section Lookup

variable {r : CodeRegistry}

/-- The nearest start before an address decides like a scan of all code. -/
theorem lookup_eq_find? (h : r.codes.Pairwise Code.Before) (pc : Address) :
    r.lookup pc = r.codes.find? (·.contains pc) := by
  unfold lookup
  generalize r.codes = codes at h
  induction codes with
  | nil => rfl
  | cons d rest ih =>
    obtain ⟨hd, hrest⟩ := List.pairwise_cons.1 h
    by_cases hstart : d.start ≤ pc
    · rw [List.takeWhile_cons_of_pos (by simpa using hstart)]
      by_cases hin : d.contains pc
      · -- What follows starts behind the address.
        have hnone : rest.takeWhile (·.start ≤ pc) = [] := by
          cases rest with
          | nil => rfl
          | cons e rest =>
            apply List.takeWhile_cons_of_neg
            have hbefore := (hd e List.mem_cons_self).2
            have hstop := (Code.contains_iff.1 hin).2
            simp only [decide_eq_true_eq]
            lia
        rw [hnone, List.find?_cons, hin]
        simp [hin]
      · rw [List.find?_cons_of_neg (p := fun c : Code => c.contains pc) hin, ← ih hrest,
          List.getLast?_cons]
        cases (rest.takeWhile (·.start ≤ pc)).getLast? with
        | none => simp [hin]
        | some e => rfl
    · rw [List.takeWhile_cons_of_neg (by simpa using hstart)]
      symm
      apply List.find?_eq_none.2
      intro c hc hin
      have hpc := (Code.contains_iff.1 hin).1
      rcases List.mem_cons.1 hc with rfl | hc
      · exact hstart hpc
      · have hlater := (hd c hc).1
        lia

theorem lookup_eq_some_iff (h : r.codes.Pairwise Code.Before) :
    r.lookup pc = some c ↔ c ∈ r.codes ∧ c.contains pc := by
  rw [lookup_eq_find? h]
  constructor
  · intro hfound
    have hin := List.find?_some hfound
    exact ⟨List.mem_of_find?_eq_some hfound, hin⟩
  · rintro ⟨hc, hin⟩
    obtain ⟨d, hfound⟩ : ∃ d, r.codes.find? (·.contains pc) = some d :=
      Option.isSome_iff_exists.1 (List.find?_isSome.2 ⟨c, hc, hin⟩)
    have hd := List.mem_of_find?_eq_some hfound
    have hdin := List.find?_some hfound
    rw [hfound, eq_of_contains h hd hc hdin hin]

end Lookup

section Insert

theorem mem_insertByStart (h : codes.Pairwise Code.Before) :
    d ∈ insertByStart c codes ↔ d = c ∨ d ∈ codes ∧ d.start ≠ c.start := by
  induction codes with
  | nil => simp [insertByStart]
  | cons e rest ih =>
    obtain ⟨he, hrest⟩ := List.pairwise_cons.1 h
    have hlater : d ∈ rest → e.start < d.start := fun hd => (he d hd).1
    unfold insertByStart
    split
    · -- Everything starts behind the new code.
      simp only [List.mem_cons]
      grind
    · split
      · -- The new code takes the place of the first.
        simp only [List.mem_cons]
        grind
      · simp only [List.mem_cons, ih hrest]
        grind

/-- Code that is apart from all that starts elsewhere can be added. -/
theorem pairwise_insertByStart (h : codes.Pairwise Code.Before)
    (hc : ∀ d ∈ codes, d.start ≠ c.start → c.Apart d) :
    (insertByStart c codes).Pairwise Code.Before := by
  induction codes with
  | nil => simp [insertByStart]
  | cons e rest ih =>
    obtain ⟨he, hrest⟩ := List.pairwise_cons.1 h
    have hbehind : ∀ x ∈ e :: rest, c.start < x.start → c.Before x := by
      intro x hx hlt
      rcases hc x hx (by lia) with hbefore | ⟨hafter, -⟩
      · exact hbefore
      · lia
    unfold insertByStart
    split
    · refine List.pairwise_cons.2 ⟨?_, h⟩
      intro x hx
      apply hbehind x hx
      rcases List.mem_cons.1 hx with rfl | hx
      · assumption
      · have hlater := (he x hx).1
        lia
    · split
      · refine List.pairwise_cons.2 ⟨?_, hrest⟩
        intro x hx
        apply hbehind x (List.mem_cons_of_mem e hx)
        have hlater := (he x hx).1
        lia
      · have hrec := ih hrest fun x hx => hc x (List.mem_cons_of_mem e hx)
        refine List.pairwise_cons.2 ⟨?_, hrec⟩
        intro x hx
        rcases (mem_insertByStart hrest).1 hx with rfl | ⟨hx, -⟩
        · rcases hc e List.mem_cons_self (by lia) with ⟨hbefore, -⟩ | hafter
          · lia
          · exact hafter
        · exact he x hx

end Insert

end CodeRegistry

end ScriptEngine

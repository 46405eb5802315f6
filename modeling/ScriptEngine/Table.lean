namespace ScriptEngine

/-- Things by key. The first entry of a key counts. -/
abbrev Table (κ α : Type) := List (κ × α)

namespace Table

variable {κ α : Type} [BEq κ]

def remove (t : Table κ α) (key : κ) : Table κ α := t.filter (·.1 != key)

/-- What was under the key before is gone. -/
def put (t : Table κ α) (key : κ) (a : α) : Table κ α := (key, a) :: t.remove key

/-- The alphabetically first name of the things that pass a test. -/
def firstName? (t : Table String α) (p : α → Bool) : Option String :=
  (((t.filter fun entry => p entry.2).map (·.1)).mergeSort (fun a b => a ≤ b)).head?

variable [LawfulBEq κ]

theorem lookup_cons_of_ne {key other : κ} (h : other ≠ key) (a : α) (t : Table κ α) :
    List.lookup other ((key, a) :: t) = t.lookup other := by
  rw [List.lookup_cons, beq_eq_false_iff_ne.2 h]

theorem lookup_remove_self (t : Table κ α) (key : κ) : (t.remove key).lookup key = none := by
  induction t with
  | nil => rfl
  | cons entry rest ih =>
    by_cases h : entry.1 = key
    · simpa [remove, h] using ih
    · have kept : remove (entry :: rest) key = entry :: remove rest key := by simp [remove, h]
      rw [kept, lookup_cons_of_ne (Ne.symm h)]
      exact ih

theorem lookup_remove_of_ne {key other : κ} (h : other ≠ key) (t : Table κ α) :
    (t.remove key).lookup other = t.lookup other := by
  induction t with
  | nil => rfl
  | cons entry rest ih =>
    by_cases hk : entry.1 = key
    · have dropped : remove (entry :: rest) key = remove rest key := by simp [remove, hk]
      rw [dropped, ih, lookup_cons_of_ne (hk ▸ h)]
    · have kept : remove (entry :: rest) key = entry :: remove rest key := by simp [remove, hk]
      rw [kept, List.lookup_cons, List.lookup_cons, ih]

theorem lookup_put_self (t : Table κ α) (key : κ) (a : α) : (t.put key a).lookup key = some a := by
  simp [put]

theorem lookup_put_of_ne {key other : κ} (h : other ≠ key) (t : Table κ α) (a : α) :
    (t.put key a).lookup other = t.lookup other := by
  rw [put, lookup_cons_of_ne h, lookup_remove_of_ne h]

end Table

end ScriptEngine

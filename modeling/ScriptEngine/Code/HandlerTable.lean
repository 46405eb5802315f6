import ScriptEngine.BinarySearch

namespace ScriptEngine

/-- How a handler is expected to treat an exception. -/
inductive HandlerPrediction
  /-- The handler throws it again. -/
  | uncaught
  | caught
  /-- It becomes the rejection of a promise. -/
  | promise
  | asyncAwait
  /-- An await whose async function has no handler. -/
  | uncaughtAsyncAwait
  deriving DecidableEq

structure RangeEntry where
  start : Nat
  stop : Nat
  handler : Nat
  /-- The register that holds the context at the handler. -/
  contextRegister : Nat
  prediction : HandlerPrediction
  deriving DecidableEq

/-- The start belongs to the range, the stop does not. -/
def RangeEntry.covers (e : RangeEntry) (offset : Nat) : Bool :=
  e.start ≤ offset && offset < e.stop

structure ReturnEntry where
  offset : Nat
  handler : Nat
  deriving DecidableEq

namespace ReturnEntry

/-- In the order of their offsets. -/
def Ordered (entries : List ReturnEntry) : Prop := entries.Pairwise fun a b => a.offset ≤ b.offset

/-- Before the entries of equal or greater offset. -/
def insert (entries : List ReturnEntry) (e : ReturnEntry) : List ReturnEntry :=
  let i := BinarySearch.partitionPoint (·.offset < e.offset) entries
  entries.take i ++ e :: entries.drop i

/-- The entry of an offset. -/
def search? (entries : List ReturnEntry) (offset : Nat) : Option ReturnEntry :=
  entries[BinarySearch.lastIndex (·.offset ≤ offset) entries]?.filter (·.offset == offset)

variable {entries : List ReturnEntry}

theorem ordered_nil : Ordered [] := .nil

theorem ordered_singleton (e : ReturnEntry) : Ordered [e] := List.pairwise_singleton _ _

theorem ordered_mergeSort (entries : List ReturnEntry) :
    Ordered (entries.mergeSort fun a b => a.offset ≤ b.offset) := by
  have h := @List.pairwise_mergeSort ReturnEntry (fun a b => a.offset ≤ b.offset)
    (fun a b c hab hbc =>
      decide_eq_true (Nat.le_trans (of_decide_eq_true hab) (of_decide_eq_true hbc)))
    (fun a b => by simp only [Bool.or_eq_true, decide_eq_true_eq]; omega) entries
  exact h.imp of_decide_eq_true

theorem Ordered.leads_le (h : Ordered entries) (offset : Nat) :
    BinarySearch.Leads (·.offset ≤ offset) entries := BinarySearch.Ordered.leads_le h offset

theorem Ordered.insert (h : Ordered entries) (e : ReturnEntry) : Ordered (insert entries e) :=
  BinarySearch.Ordered.insertAfter_lt h e

theorem mem_of_search? {offset : Nat} {e : ReturnEntry} (h : search? entries offset = some e) :
    e ∈ entries ∧ e.offset = offset := by
  obtain ⟨hfound, hoffset⟩ := Option.filter_eq_some_iff.mp h
  exact ⟨List.mem_of_getElem? hfound, beq_iff_eq.mp hoffset⟩

/-- The search comes to the last entry of no greater offset, which is no less than the one that is
looked for. -/
theorem Ordered.search?_isSome (h : Ordered entries) {offset : Nat} :
    (search? entries offset).isSome ↔ ∃ e ∈ entries, e.offset = offset := by
  constructor
  · intro hfound
    obtain ⟨e, he⟩ := Option.isSome_iff_exists.mp hfound
    exact ⟨e, mem_of_search? he⟩
  · rintro ⟨e, he, rfl⟩
    obtain ⟨k, hk, rfl⟩ := List.mem_iff_getElem.mp he
    obtain ⟨hlast, hbehind⟩ := (h.leads_le entries[k].offset).lastIndex_spec
    have hself : entries[k]?.any (·.offset ≤ entries[k].offset) := by simp [hk]
    have hle : k ≤ BinarySearch.lastIndex (·.offset ≤ entries[k].offset) entries :=
      Nat.le_of_not_lt fun hlt => Bool.eq_false_iff.mp (hbehind k hlt) hself
    have hany := hlast.elim (fun hzero => by rwa [hzero, ← Nat.le_zero.mp (hzero ▸ hle)]) id
    obtain ⟨last, hfound, hless⟩ := (Option.any_eq_true ..).mp hany
    have hgreater : entries[k].offset ≤ last.offset := by
      obtain ⟨hlength, rfl⟩ := List.getElem?_eq_some_iff.mp hfound
      rcases Nat.lt_or_eq_of_le hle with hlt | heq
      · exact List.pairwise_iff_getElem.mp h k _ hk hlength hlt
      · simp only [← heq, Nat.le_refl]
    have heq : last.offset = entries[k].offset := Nat.le_antisymm (of_decide_eq_true hless) hgreater
    rw [search?, hfound]
    simp [heq]

end ReturnEntry

structure HandlerTable where
  ranges : List RangeEntry := []
  returns : List ReturnEntry := []
  ordered : ReturnEntry.Ordered returns := by
    first | exact ReturnEntry.ordered_nil | exact ReturnEntry.ordered_singleton _

namespace HandlerTable

def ofRanges (ranges : List RangeEntry) : HandlerTable := { ranges }

def ofReturns (returns : List ReturnEntry) : HandlerTable :=
  { returns := returns.mergeSort fun a b => a.offset ≤ b.offset
    ordered := ReturnEntry.ordered_mergeSort returns }

def pushRange (t : HandlerTable) (e : RangeEntry) : HandlerTable :=
  { t with ranges := t.ranges ++ [e] }

def pushReturn (t : HandlerTable) (e : ReturnEntry) : HandlerTable :=
  { t with
    returns := ReturnEntry.insert t.returns e
    ordered := t.ordered.insert e }

def isEmpty (t : HandlerTable) : Bool := t.ranges.isEmpty && t.returns.isEmpty

/-- The innermost range that covers the offset. -/
def lookupRange (t : HandlerTable) (offset : Nat) : Option RangeEntry :=
  t.ranges.reverse.find? (·.covers offset)

/-- The handler of the call that returns to the offset. -/
def lookupReturn (t : HandlerTable) (offset : Nat) : Option Nat :=
  (ReturnEntry.search? t.returns offset).map (·.handler)

end HandlerTable

end ScriptEngine

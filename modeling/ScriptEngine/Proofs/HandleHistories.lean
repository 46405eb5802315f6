import ScriptEngine.Proofs.MappedRoots

namespace ScriptEngine

inductive HandleCall
  | create (v : Value)
  | destroy (handle : Nat)
  | get (handle : Nat)

/-- A call with its answer. -/
inductive HandleEvent
  | created (handle : Nat) (v : Value)
  | destroyed (handle : Nat) (answer : Option Value)
  | read (handle : Nat) (answer : Option Value)

/-- Events, the latest first. -/
abbrev HandleHistory := List HandleEvent

namespace HandleHistory

/-- What was given at the latest creation of a handle, unless it was destroyed since. -/
def value? : HandleHistory → Nat → Option Value
  | [], _ => none
  | .created other v :: past, handle => if other = handle then some v else value? past handle
  | .destroyed other _ :: past, handle => if other = handle then none else value? past handle
  | .read _ _ :: past, handle => value? past handle

/-- The handle was created and not destroyed since. -/
def Live (past : HandleHistory) (handle : Nat) : Prop := (past.value? handle).isSome

theorem not_live_iff {past : HandleHistory} {handle : Nat} :
    ¬past.Live handle ↔ past.value? handle = none := by
  simp [Live]

/-- Each creation gave a handle that was not live, and each answer was the value of the handle. -/
def Faithful : HandleHistory → Prop
  | [] => True
  | .created handle _ :: past => ¬Live past handle ∧ Faithful past
  | .destroyed handle answer :: past => answer = value? past handle ∧ Faithful past
  | .read handle answer :: past => answer = value? past handle ∧ Faithful past

end HandleHistory

namespace GlobalHandles

def perform (g : GlobalHandles) : HandleCall → HandleEvent × GlobalHandles
  | .create v =>
    let (handle, g) := g.create v
    (.created handle v, g)
  | .destroy handle =>
    let (answer, g) := g.destroy handle
    (.destroyed handle answer, g)
  | .get handle => (.read handle (g.get? handle), g)

/-- The history after some more calls, and the handles after them. -/
def runFrom (g : GlobalHandles) (past : HandleHistory) :
    List HandleCall → HandleHistory × GlobalHandles
  | [] => (past, g)
  | call :: rest => (g.perform call).2.runFrom ((g.perform call).1 :: past) rest

def run (calls : List HandleCall) : HandleHistory × GlobalHandles := runFrom {} [] calls

variable {g : GlobalHandles} {handle : Nat}

/-- The free list has each empty slot once. -/
structure Tight (g : GlobalHandles) : Prop where
  nodup : g.free.Nodup
  mem_free_iff : ∀ handle, handle ∈ g.free ↔ g.slots[handle]? = some none

theorem tight_empty : Tight {} := ⟨.nil, by simp⟩

theorem get?_eq_some {v : Value} : g.get? handle = some v ↔ g.slots[handle]? = some (some v) := by
  simp [get?, Option.join_eq_some_iff]

theorem destroy_of_none (hnone : g.get? handle = none) : g.destroy handle = (none, g) := by
  rw [destroy, hnone]

section Tight

variable (h : g.Tight)
include h

/-- A free slot is below the end of the slots, and empty. -/
theorem Tight.lt_of_mem_free (hfree : handle ∈ g.free) :
    handle < g.slots.length ∧ g.get? handle = none := by
  have hslot := (h.mem_free_iff handle).mp hfree
  refine ⟨(List.getElem?_eq_some_iff.mp hslot).1, ?_⟩
  simp [get?, hslot]

theorem Tight.create (v : Value) : (g.create v).2.Tight ∧ g.get? (g.create v).1 = none ∧
    ∀ other, (g.create v).2.get? other =
      if (g.create v).1 = other then some v else g.get? other := by
  cases hfree : g.free with
  | nil =>
    have hcreate : g.create v = (g.slots.length, { g with slots := g.slots ++ [some v] }) := by
      rw [GlobalHandles.create, hfree]
    rw [hcreate]
    refine ⟨⟨h.nodup, ?_⟩, by simp [get?], ?_⟩
    · intro other
      rw [h.mem_free_iff]
      grind
    · intro other
      simp only [get?]
      grind
  | cons first free =>
    have hcreate : g.create v = (first, { slots := g.slots.set first (some v), free }) := by
      rw [GlobalHandles.create, hfree]
    have hnodup := h.nodup
    rw [hfree, List.nodup_cons] at hnodup
    obtain ⟨hlt, hnone⟩ := h.lt_of_mem_free (hfree ▸ List.mem_cons_self)
    -- The slot is full now, and no later entry of the free list is the same slot.
    rw [hcreate]
    refine ⟨⟨hnodup.2, ?_⟩, hnone, ?_⟩
    · intro other
      have hmem := h.mem_free_iff other
      rw [hfree, List.mem_cons] at hmem
      simp only [List.getElem?_set]
      grind
    · intro other
      simp only [get?, List.getElem?_set]
      grind

theorem Tight.destroy (handle : Nat) : (g.destroy handle).2.Tight ∧
    (g.destroy handle).1 = g.get? handle ∧
    ∀ other, (g.destroy handle).2.get? other = if handle = other then none else g.get? other := by
  cases hvalue : g.get? handle with
  | none =>
    rw [destroy_of_none hvalue]
    refine ⟨h, rfl, ?_⟩
    intro other
    by_cases heq : handle = other
    · rw [if_pos heq, ← heq, hvalue]
    · rw [if_neg heq]
  | some v =>
    have hdestroy : g.destroy handle =
        (some v, { slots := g.slots.set handle none, free := handle :: g.free }) := by
      rw [GlobalHandles.destroy, hvalue]
    have hslot := get?_eq_some.mp hvalue
    have hlt := (List.getElem?_eq_some_iff.mp hslot).1
    -- The slot had a value, so that it is not in the free list yet.
    rw [hdestroy]
    refine ⟨⟨List.nodup_cons.mpr ⟨?_, h.nodup⟩, ?_⟩, rfl, ?_⟩
    · rw [h.mem_free_iff, hslot]
      simp
    · intro other
      rw [List.mem_cons, h.mem_free_iff, List.getElem?_set]
      grind
    · intro other
      simp only [get?, List.getElem?_set]
      grind

end Tight

/-- The handles that have a value, in order. -/
def live (g : GlobalHandles) : List Nat :=
  (List.range g.slots.length).filter fun handle => (g.get? handle).isSome

theorem slots_eq (g : GlobalHandles) : g.slots = (List.range g.slots.length).map g.get? := by
  apply List.ext_getElem
  · simp
  · intro i hi _
    simp [get?, List.getElem?_eq_getElem hi]

theorem mem_live : handle ∈ g.live ↔ (g.get? handle).isSome := by
  rw [live, List.mem_filter, List.mem_range]
  constructor
  · exact And.right
  · intro hsome
    obtain ⟨v, hv⟩ := Option.isSome_iff_exists.mp hsome
    exact ⟨(List.getElem?_eq_some_iff.mp (get?_eq_some.mp hv)).1, hsome⟩

theorem nodup_live (g : GlobalHandles) : g.live.Nodup := List.nodup_range.filter _

theorem size_eq (g : GlobalHandles) : g.size = g.live.length := by
  rw [size, slots_eq g, List.filter_map, List.length_map]
  rfl

/-- The values are those of the live handles, one of each. -/
theorem values_eq (g : GlobalHandles) : g.values = g.live.filterMap g.get? := by
  have hflat : ∀ l : List Nat, (l.map g.get?).flatMap (·.toList) =
      (l.filter fun handle => (g.get? handle).isSome).filterMap g.get? := by
    intro l
    induction l with
    | nil => rfl
    | cons handle rest ih => cases hv : g.get? handle <;> simp [hv, ih]
  rw [values, slots_eq g]
  exact hflat _

theorem run_mapM_overwriting {σ : Type} (f : Value → Value)
    (note : RootKind → String → Value → σ → σ) (kind : RootKind) (description : String)
    (slots : List (Option Value)) (s : σ) :
    (slots.mapM ((RootVisitor.overwriting f note).option kind description)).run s =
      (slots.map (·.map f),
        (slots.flatMap (·.toList)).foldl (fun s v => note kind description v s) s) := by
  induction slots generalizing s with
  | nil => rfl
  | cons slot rest ih =>
    rw [List.mapM_cons]
    cases slot with
    | none =>
      have hrest := congrArg (fun r => (none :: r.1, r.2)) (ih s)
      exact hrest
    | some v =>
      have hrest := congrArg (fun r => (some (f v) :: r.1, r.2)) (ih (note kind description v s))
      exact hrest

/-- A visit sees the value of each live handle once. -/
theorem run_visitRoots {σ : Type} (f : Value → Value) (note : RootKind → String → Value → σ → σ)
    (g : GlobalHandles) (s : σ) : (g.visitRoots (.overwriting f note)).run s =
      (g.mapValues f, (g.live.filterMap g.get?).foldl
        (fun s v => note .globalHandles "global handle" v s) s) := by
  have hslots := run_mapM_overwriting f note .globalHandles "global handle" g.slots s
  rw [← values_eq]
  exact congrArg (fun r => ({ g with slots := r.1 }, r.2)) hslots

/-- The handles have what their history says, and the history is right. -/
structure Agrees (past : HandleHistory) (g : GlobalHandles) : Prop where
  tight : g.Tight
  value : ∀ handle, g.get? handle = past.value? handle
  faithful : past.Faithful

theorem Agrees.perform {past : HandleHistory} (h : Agrees past g) (call : HandleCall) :
    Agrees ((g.perform call).1 :: past) (g.perform call).2 := by
  cases call with
  | create v =>
    obtain ⟨htight, hfresh, hvalue⟩ := h.tight.create v
    have hnot := HandleHistory.not_live_iff.mpr ((h.value _).symm.trans hfresh)
    refine ⟨htight, ?_, hnot, h.faithful⟩
    intro handle
    exact (hvalue handle).trans (by rw [h.value]; rfl)
  | destroy handle =>
    obtain ⟨htight, hanswer, hvalue⟩ := h.tight.destroy handle
    refine ⟨htight, ?_, hanswer.trans (h.value handle), h.faithful⟩
    intro other
    exact (hvalue other).trans (by rw [h.value]; rfl)
  | get handle => exact ⟨h.tight, h.value, h.value handle, h.faithful⟩

theorem Agrees.runFrom {past : HandleHistory} (h : Agrees past g) (calls : List HandleCall) :
    Agrees (g.runFrom past calls).1 (g.runFrom past calls).2 := by
  induction calls generalizing past g with
  | nil => exact h
  | cons call rest ih => exact ih (h.perform call)

theorem agrees_run (calls : List HandleCall) : Agrees (run calls).1 (run calls).2 := by
  have hempty : Agrees [] {} := ⟨tight_empty, fun _ => rfl, trivial⟩
  exact hempty.runFrom calls

/-- After any calls the handles answer as their history says, and so did they before. A new handle
is not live, and leaves the values of live ones; a live handle gives its value once when it is
destroyed, and another one nothing; the live handles are counted, and a visit sees the value of
each of them once. The free list has each empty slot once. -/
theorem history_exact (calls : List HandleCall) :
    let past := (run calls).1
    let g := (run calls).2
    past.Faithful ∧ (∀ handle, g.get? handle = past.value? handle) ∧
      (∀ v, ¬past.Live (g.create v).1 ∧ (g.create v).2.get? (g.create v).1 = some v ∧
        ∀ handle, past.Live handle → (g.create v).2.get? handle = g.get? handle) ∧
      (∀ handle v, past.value? handle = some v →
        (g.destroy handle).1 = some v ∧ (g.destroy handle).2.destroy handle =
          (none, (g.destroy handle).2)) ∧
      (∀ handle, ¬past.Live handle → g.destroy handle = (none, g)) ∧
      (∃ live : List Nat, live.Nodup ∧ (∀ handle, handle ∈ live ↔ past.Live handle) ∧
        g.size = live.length ∧
        ∀ (σ : Type) (note : RootKind → String → Value → σ → σ) (f : Value → Value) (s : σ),
          (g.visitRoots (.overwriting f note)).run s =
            (g.mapValues f, (live.filterMap past.value?).foldl
              (fun s v => note .globalHandles "global handle" v s) s)) ∧
      g.free.Nodup ∧ ∀ handle, handle ∈ g.free ↔ g.slots[handle]? = some none := by
  intro past g
  have h : Agrees past g := agrees_run calls
  have hvalue : g.get? = past.value? := funext h.value
  refine ⟨h.faithful, h.value, ?_, ?_, ?_, ?_, h.tight.nodup, h.tight.mem_free_iff⟩
  · intro v
    obtain ⟨-, hfresh, hcreated⟩ := h.tight.create v
    have hnot : ¬past.Live (g.create v).1 :=
      HandleHistory.not_live_iff.mpr ((h.value _).symm.trans hfresh)
    refine ⟨hnot, ?_, ?_⟩
    · rw [hcreated, if_pos rfl]
    · intro handle hlive
      have hne : (g.create v).1 ≠ handle := fun heq => hnot (heq ▸ hlive)
      rw [hcreated, if_neg hne]
  · intro handle v hsome
    obtain ⟨-, hanswer, hdestroyed⟩ := h.tight.destroy handle
    refine ⟨by rw [hanswer, hvalue, hsome], destroy_of_none ?_⟩
    rw [hdestroyed, if_pos rfl]
  · intro handle hnot
    exact destroy_of_none ((h.value handle).trans (HandleHistory.not_live_iff.mp hnot))
  · refine ⟨g.live, g.nodup_live, ?_, g.size_eq, ?_⟩
    · intro handle
      rw [mem_live, hvalue]
      rfl
    · intro σ note f s
      rw [← hvalue]
      exact run_visitRoots f note g s

/-- A handle that is destroyed twice is given out again once. -/
example :
    let (past, g) :=
      run [.create .null, .destroy 0, .destroy 0, .create (.bool true), .create .null]
    past.head? = some (.created 1 .null) ∧ g.get? 0 = some (.bool true) ∧ g.free = [] :=
  ⟨rfl, rfl, rfl⟩

end GlobalHandles

end ScriptEngine

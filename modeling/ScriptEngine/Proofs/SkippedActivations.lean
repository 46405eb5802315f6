import ScriptEngine.Proofs.TraceLimits

namespace ScriptEngine

/-- Of activations, innermost first, those outside of the first one of a function. -/
def Activation.outsideOf (f : Value) (acts : List Activation) : List Activation :=
  (acts.dropWhile (·.function != f)).tail

namespace Activation

variable {f : Value} {a : Activation} {acts inner outer : List Activation}

theorem outsideOf_cons_of_eq (h : a.function = f) : outsideOf f (a :: acts) = acts := by
  rw [outsideOf, List.dropWhile_cons_of_neg (by simp [h]), List.tail_cons]

theorem outsideOf_cons_of_ne (h : a.function ≠ f) : outsideOf f (a :: acts) = outsideOf f acts := by
  rw [outsideOf, List.dropWhile_cons_of_pos (by simp [h]), outsideOf]

theorem outsideOf_append (hinner : ∀ b ∈ inner, b.function ≠ f) :
    outsideOf f (inner ++ acts) = outsideOf f acts := by
  induction inner with
  | nil => rfl
  | cons b inner ih =>
    rw [List.forall_mem_cons] at hinner
    rw [List.cons_append, outsideOf_cons_of_ne hinner.1, ih hinner.2]

end Activation

namespace TraceItem

theorem unskipped_passive (skip : Skip) (isSkipping : Bool) {items : List TraceItem}
    (h : ∀ item ∈ items, item.isActivation = false) : unskipped skip isSkipping items = items := by
  induction items generalizing isSkipping with
  | nil => cases isSkipping <;> rfl
  | cons item items ih =>
    rw [List.forall_mem_cons] at h
    cases isSkipping with
    | false => rfl
    | true =>
      cases item with
      | activation a => exact nomatch h.1
      | suspended g => exact congrArg _ (ih true h.2)
      | element combinator closure => exact congrArg _ (ih true h.2)

/-- A skip until a function is seen hides activations, and no waiting items. -/
theorem unskipped_untilSeen (f : Value) (acts : List Activation) {waiting : List TraceItem}
    (h : ∀ item ∈ waiting, item.isActivation = false) :
    unskipped (.untilSeen f) true (acts.map .activation ++ waiting) =
      (Activation.outsideOf f acts).map .activation ++ waiting := by
  induction acts with
  | nil => exact unskipped_passive _ _ h
  | cons a acts ih =>
    rw [List.map_cons, List.cons_append, unskipped]
    by_cases ha : a.function = f
    · rw [Activation.outsideOf_cons_of_eq ha, bne_eq_false_iff_eq.mpr ha, unskipped_over]
    · rw [Activation.outsideOf_cons_of_ne ha, bne_iff_ne.mpr ha, ih]

end TraceItem

/-- The activations that a trace may show. -/
def Surroundings.visible (env : Surroundings) (showBuiltins : Bool) (acts : List Activation) :
    List Activation :=
  acts.filter fun a => (TraceItem.activation a).isVisible env.heap showBuiltins

namespace TraceBuilder

variable {env : Surroundings} {intrinsics : Intrinsics}

theorem filter_isVisible (showBuiltins : Bool) (acts : List Activation) (waiting : List TraceItem) :
    (acts.map TraceItem.activation ++ waiting).filter (·.isVisible env.heap showBuiltins) =
      (env.visible showBuiltins acts).map .activation ++
        waiting.filter (·.isVisible env.heap showBuiltins) := by
  rw [List.filter_append, List.filter_map]
  rfl

theorem sitesOf_start_none {o : TraceOptions} (hskip : o.skip = .none) (acts : List Activation)
    (waiting : List TraceItem) :
    (start o).sitesOf env.heap intrinsics (acts.map .activation ++ waiting) =
      TraceItem.sites env.heap intrinsics false
        ((env.visible o.showBuiltins acts).map .activation ++
          waiting.filter (·.isVisible env.heap o.showBuiltins)) := by
  have hstart : (start o).isSkipping = false := by simp [start, hskip]
  rw [sitesOf, hstart, TraceItem.unskipped_over]
  exact congrArg _ (filter_isVisible ..)

theorem sitesOf_start_untilSeen {o : TraceOptions} {f : Value} (hskip : o.skip = .untilSeen f)
    (acts : List Activation) {waiting : List TraceItem}
    (hpassive : ∀ item ∈ waiting, item.isActivation = false) :
    (start o).sitesOf env.heap intrinsics (acts.map .activation ++ waiting) =
      TraceItem.sites env.heap intrinsics false
        ((Activation.outsideOf f (env.visible o.showBuiltins acts)).map .activation ++
          waiting.filter (·.isVisible env.heap o.showBuiltins)) := by
  have hstart : (start o).isSkipping = true := by simp [start, hskip]
  rw [sitesOf, hstart, ← TraceItem.unskipped_untilSeen f _ fun item hitem =>
    hpassive item (List.mem_of_mem_filter hitem), ← filter_isVisible, ← hskip]
  rfl

end TraceBuilder

/-- Outside of a visible activation there are the visible ones outside of it. -/
theorem Activation.outsideOf_visible {env : Surroundings} {showBuiltins : Bool} {f : Value}
    {a : Activation} {inner : List Activation} (outer : List Activation)
    (hinner : ∀ b ∈ inner, b.function ≠ f) (ha : a.function = f)
    (hvisible : (TraceItem.activation a).isVisible env.heap showBuiltins) :
    outsideOf f (env.visible showBuiltins (inner ++ a :: outer)) =
      env.visible showBuiltins outer := by
  have hsplit : env.visible showBuiltins (inner ++ a :: outer) =
      env.visible showBuiltins inner ++ a :: env.visible showBuiltins outer := by
    simp [Surroundings.visible, hvisible]
  have hbefore : ∀ b ∈ env.visible showBuiltins inner, b.function ≠ f := fun b hb =>
    hinner b (List.mem_of_mem_filter hb)
  rw [hsplit, outsideOf_append hbefore, outsideOf_cons_of_eq ha]

namespace ThreadState

open TraceBuilder

variable {t : ThreadState} {env : Surroundings} {o : TraceOptions} {intrinsics : Intrinsics}
  {sites : List CallSite}

/-- Beside a trace with room to spare, one that begins outside of a function has the same items but
the visible activations up to the first visible one of the function. If the innermost activation of
the function is visible, the others that are left are those outside of it. -/
theorem trace_untilSeen (h : t.trace env { o with skip := .none } intrinsics = .ok sites)
    (hroom : sites.length < o.limit) (f : Value) (n : Nat) :
    ∃ (acts : List Activation) (waiting : List TraceItem),
      t.activations env = .ok acts ∧
      (∀ item ∈ waiting, item.isActivation = false ∧ item.isVisible env.heap o.showBuiltins) ∧
      let visible := env.visible o.showBuiltins
      let outside := Activation.outsideOf f (visible acts)
      sites = TraceItem.sites env.heap intrinsics false
        ((visible acts).map .activation ++ waiting) ∧
      t.trace env { o with skip := .untilSeen f, limit := n } intrinsics =
        .ok ((TraceItem.sites env.heap intrinsics false
          (outside.map .activation ++ waiting)).take n) ∧
      ∀ inner a outer, acts = inner ++ a :: outer → (∀ b ∈ inner, b.function ≠ f) →
        a.function = f → (TraceItem.activation a).isVisible env.heap o.showBuiltins →
        outside = visible outer := by
  obtain ⟨acts, waiting, hpassive, hsites, hall, hreplays⟩ :=
    trace_replays h { o with skip := .untilSeen f, limit := n } rfl
  rw [sitesOf_start_none rfl] at hsites hall hreplays
  rw [sitesOf_start_untilSeen rfl acts hpassive] at hreplays
  let listed := TraceItem.sites env.heap intrinsics false
    ((env.visible o.showBuiltins acts).map .activation ++
      waiting.filter (·.isVisible env.heap o.showBuiltins))
  have hsites : sites = listed.take o.limit := hsites
  have hshort : listed.length < o.limit := by
    rw [hsites, List.length_take] at hroom
    omega
  refine ⟨acts, waiting.filter (·.isVisible env.heap o.showBuiltins), hall hshort,
    fun item hitem => ?_, ?_, hreplays fun hcut => absurd hcut (Nat.not_le.mpr hshort), ?_⟩
  · obtain ⟨hmem, hvisible⟩ := List.mem_filter.mp hitem
    exact ⟨hpassive item hmem, hvisible⟩
  · rw [hsites, List.take_of_length_le hshort.le]
  · rintro inner a outer rfl hinner ha hvisible
    exact Activation.outsideOf_visible outer hinner ha hvisible

end ThreadState

namespace ThreadState.AwaitExample

def joinActivation : Activation := ⟨.undefined, .object 0, .code joining, 8, false⟩

def loadActivation : Activation := ⟨.undefined, .object 1, .bytecode bytecode, 2, false⟩

/-- Outside of `load` there are only items that wait. -/
theorem trace_untilSeen_load :
    ∃ waiting,
      thread.trace surroundings {} intrinsics = .ok (TraceItem.sites heap intrinsics false
        (.activation loadActivation :: waiting)) ∧
      thread.trace surroundings { skip := .untilSeen (.object 1) } intrinsics =
        .ok ((TraceItem.sites heap intrinsics false waiting).take 10) := by
  obtain ⟨sites, htrace, hroom⟩ : ∃ sites, thread.trace surroundings {} intrinsics = .ok sites ∧
      sites.length < 10 := ⟨_, rfl, by decide⟩
  obtain ⟨acts, waiting, hacts, -, hsites, hskipped, -⟩ :=
    trace_untilSeen (o := {}) htrace hroom (.object 1) 10
  obtain rfl : [joinActivation, loadActivation] = acts := Except.ok.inj hacts
  exact ⟨waiting, htrace.trans (congrArg Except.ok hsites), hskipped⟩

/-- Outside of builtin code that is not visible there is `load`, and of a function that does not run
there is nothing; but traces that begin there have the items that wait, and no others. -/
theorem trace_untilSeen_hidden :
    thread.activations surroundings = .ok [joinActivation, loadActivation] ∧
    (thread.trace surroundings {} intrinsics).map (·.map (·.functionName)) =
      .ok ["load", "Promise.all", "checkout"] ∧
    (thread.trace surroundings { skip := .untilSeen (.object 0) } intrinsics).map
      (·.map (·.functionName)) = .ok ["Promise.all", "checkout"] ∧
    (thread.trace surroundings { skip := .untilSeen (.object 2) } intrinsics).map
      (·.map (·.functionName)) = .ok ["Promise.all", "checkout"] :=
  ⟨rfl, rfl, rfl, rfl⟩

end ThreadState.AwaitExample

end ScriptEngine

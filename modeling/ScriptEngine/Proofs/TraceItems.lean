import ScriptEngine.Trace.Awaiting

namespace ScriptEngine

/-- What a trace may list. -/
inductive TraceItem
  | activation (a : Activation)
  /-- A function that goes on once what it waits for is settled. -/
  | suspended (g : Generator)
  /-- The closure that a combinator made for one of its elements. -/
  | element (combinator : Combinator) (closure : Value)

namespace TraceItem

variable (heap : Heap) (intrinsics : Intrinsics)

/-- Without builtins, user functions are visible, unless builtin code runs for them. The closures of
elements are builtins and visible all the same. -/
def isVisible (showBuiltins : Bool) : TraceItem → Bool
  | activation a => showBuiltins ||
      (!a.code.isBuiltin && (heap.function? a.function).any (·.info.isUserCode))
  | suspended g => (heap.function? g.function).any fun f => showBuiltins || f.info.isUserCode
  | element _ closure => (heap.function? closure).isSome

def isActivation : TraceItem → Bool
  | activation _ => true
  | _ => false

def isStrict : TraceItem → Bool
  | activation a => (heap.function? a.function).any (·.info.isStrict)
  | suspended g => (heap.function? g.function).any (·.info.isStrict)
  | element _ _ => false

/-- The call site of an item. An element hides nothing, strict code or not. -/
def site (poisoned : Bool) : TraceItem → CallSite
  | activation a =>
    { ownReceiver := a.receiver
      ownFunction := a.function
      functionName := (TraceBuilder.nameAndScript heap a).1
      script := (TraceBuilder.nameAndScript heap a).2
      codeOffset := a.offset
      sourcePosition := a.sourcePosition
      isAsync := false
      isStrict := poisoned
      isConstructor := a.isConstructor
      combinator := none }
  | suspended g =>
    let info := (heap.function? g.function).map (·.info)
    { ownReceiver := g.receiver
      ownFunction := g.function
      functionName := (info.map (·.name)).getD ""
      script := info.bind (·.script)
      codeOffset := g.position
      sourcePosition := info.bind (·.bytecode.positions.lookup g.position)
      isAsync := true
      isStrict := poisoned
      isConstructor := false
      combinator := none }
  | element combinator closure =>
    { ownReceiver := .undefined
      ownFunction := intrinsics.function combinator
      functionName := combinator.name
      script := none
      codeOffset := 0
      sourcePosition := none
      isAsync := true
      isStrict := false
      isConstructor := false
      combinator := some (combinator, ((heap.function? closure).map (·.identityHash)).getD 0 - 1) }

/-- The sites of items that are all listed, when strict code was seen before them or not. -/
def sites : Bool → List TraceItem → List CallSite
  | _, [] => []
  | seenStrict, item :: items =>
    item.site heap intrinsics (seenStrict || item.isStrict heap) ::
      sites (seenStrict || item.isStrict heap) items

/-- The items that a skip lets through, while it goes on or once it is over. -/
def unskipped (skip : Skip) : Bool → List TraceItem → List TraceItem
  | false, items => items
  | true, [] => []
  | true, activation a :: items =>
    match skip with
    | .none => activation a :: unskipped skip true items
    | .first => items
    | .untilSeen f => unskipped skip (a.function != f) items
  | true, item :: items => item :: unskipped skip true items

theorem unskipped_over (skip : Skip) (items : List TraceItem) :
    unskipped skip false items = items := by
  cases items <;> rfl

end TraceItem

namespace TraceBuilder

open TraceItem

variable {heap : Heap} {intrinsics : Intrinsics} {b : TraceBuilder}

def addItem (heap : Heap) (intrinsics : Intrinsics) (b : TraceBuilder) : TraceItem → TraceBuilder
  | .activation a => b.addActivation heap a
  | .suspended g => b.addSuspended heap g
  | .element combinator closure =>
    b.addElement heap closure combinator (intrinsics.function combinator)

def addItems (heap : Heap) (intrinsics : Intrinsics) (b : TraceBuilder) (items : List TraceItem) :
    TraceBuilder :=
  items.foldl (addItem heap intrinsics) b

/-- The builder with one more site, of an item that is listed. -/
def listed (heap : Heap) (intrinsics : Intrinsics) (b : TraceBuilder) (item : TraceItem) :
    TraceBuilder :=
  { b with
    seenStrict := b.seenStrict || item.isStrict heap
    sites := b.sites ++ [item.site heap intrinsics (b.seenStrict || item.isStrict heap)] }

theorem addItem_full (h : b.isFull) (item : TraceItem) : b.addItem heap intrinsics item = b := by
  cases item with
  | activation a => simp [addItem, addActivation, h]
  | suspended g =>
    simp only [addItem, addSuspended, h, Bool.true_or, if_true]
    split <;> rfl
  | element combinator closure => simp [addItem, addElement, h]

theorem addItem_hidden {item : TraceItem} (h : item.isVisible heap b.showBuiltins = false) :
    b.addItem heap intrinsics item = b := by
  cases item with
  | activation a =>
    have hhidden : b.isVisible heap a.function a.code = false := h
    simp [addItem, addActivation, hhidden]
  | suspended g =>
    simp only [addItem, addSuspended]
    cases hf : heap.function? g.function with
    | none => rfl
    | some f =>
      have hhidden : b.isVisible heap g.function (.bytecode f.info.bytecode) = false := by
        simpa [TraceItem.isVisible, TraceBuilder.isVisible, ActiveCode.isBuiltin, hf] using h
      simp [hhidden]
  | element combinator closure =>
    simp only [addItem, addElement]
    split
    · rfl
    · rw [Option.isNone_iff_eq_none.mp (Option.isSome_eq_false_iff.mp h)]

/-- A visible item that the skip does not hide is listed if there is room. -/
theorem addItem_listed {item : TraceItem} (hroom : b.isFull = false)
    (h : item.isVisible heap b.showBuiltins)
    (hskip : item.isActivation → b.isSkipping → b.skip = .none) :
    b.addItem heap intrinsics item = b.listed heap intrinsics item := by
  cases item with
  | activation a =>
    have hvisible : b.isVisible heap a.function a.code = true := h
    have hpass : b.passSkip a.function = (true, b) := by
      unfold passSkip
      split
      · rw [hskip rfl (by assumption)]
      · rfl
    simp [addItem, addActivation, hroom, hvisible, hpass, add, noteStrict, listed, site,
      TraceItem.isStrict]
  | suspended g =>
    simp only [addItem, addSuspended]
    cases hf : heap.function? g.function with
    | none => simp [TraceItem.isVisible, hf] at h
    | some f =>
      have hvisible : b.isVisible heap g.function (.bytecode f.info.bytecode) = true := by
        simpa [TraceItem.isVisible, TraceBuilder.isVisible, ActiveCode.isBuiltin, hf] using h
      simp [hroom, hvisible, add, noteStrict, listed, site, TraceItem.isStrict, hf,
        ActiveCode.sourcePosition]
  | element combinator closure =>
    simp only [addItem, addElement, hroom, Bool.false_eq_true, if_false]
    cases hf : heap.function? closure with
    | none => simp [TraceItem.isVisible, hf] at h
    | some f => simp [add, listed, site, TraceItem.isStrict, hf]

/-- An activation that is skipped leaves no more than the skip changed. -/
theorem addItem_skipped {a : Activation} (hroom : b.isFull = false)
    (h : (TraceItem.activation a).isVisible heap b.showBuiltins) (hs : b.isSkipping)
    (hskip : b.skip ≠ .none) : b.addItem heap intrinsics (.activation a) =
      { b with isSkipping := match b.skip with
        | .untilSeen f => a.function != f
        | _ => false } := by
  have hvisible : b.isVisible heap a.function a.code = true := h
  cases hb : b.skip with
  | none => exact absurd hb hskip
  | first => simp [addItem, addActivation, hroom, hvisible, passSkip, hs, hb]
  | untilSeen f => simp [addItem, addActivation, hroom, hvisible, passSkip, hs, hb]

theorem addItems_full (h : b.isFull) (items : List TraceItem) :
    b.addItems heap intrinsics items = b := by
  induction items with
  | nil => rfl
  | cons item items ih => rw [addItems, List.foldl_cons, addItem_full h, ← addItems, ih]

theorem isFull_iff : b.isFull = true ↔ b.limit ≤ b.sites.length := decide_eq_true_iff

theorem hasRoom_iff : b.isFull = false ↔ b.sites.length < b.limit :=
  decide_eq_false_iff_not.trans Nat.not_le

/-- The sites of the items that a builder in this state lists, whatever its limit. -/
def sitesOf (heap : Heap) (intrinsics : Intrinsics) (b : TraceBuilder) (items : List TraceItem) :
    List CallSite :=
  TraceItem.sites heap intrinsics b.seenStrict
    (unskipped b.skip b.isSkipping (items.filter (·.isVisible heap b.showBuiltins)))

theorem sitesOf_hidden {item : TraceItem} (h : item.isVisible heap b.showBuiltins = false)
    (items : List TraceItem) :
    b.sitesOf heap intrinsics (item :: items) = b.sitesOf heap intrinsics items := by
  simp [sitesOf, h]

theorem sitesOf_listed {item : TraceItem} (h : item.isVisible heap b.showBuiltins)
    (hskip : item.isActivation → b.isSkipping → b.skip = .none) (items : List TraceItem) :
    b.sitesOf heap intrinsics (item :: items) =
      item.site heap intrinsics (b.seenStrict || item.isStrict heap) ::
        (b.listed heap intrinsics item).sitesOf heap intrinsics items := by
  have hpass : ∀ rest, unskipped b.skip b.isSkipping (item :: rest) =
      item :: unskipped b.skip b.isSkipping rest := by
    intro rest
    cases hs : b.isSkipping with
    | false => rw [unskipped_over, unskipped_over]
    | true =>
      cases item with
      | activation a => rw [hskip rfl hs, unskipped]
      | suspended g => rw [unskipped]; simp
      | element combinator closure => rw [unskipped]; simp
  simp [sitesOf, h, hpass, TraceItem.sites, listed]

theorem sitesOf_skipped {a : Activation}
    (h : (TraceItem.activation a).isVisible heap b.showBuiltins) (hs : b.isSkipping)
    (hskip : b.skip ≠ .none) (items : List TraceItem) :
    b.sitesOf heap intrinsics (.activation a :: items) =
      { b with isSkipping := match b.skip with
        | .untilSeen f => a.function != f
        | _ => false }.sitesOf heap intrinsics items := by
  cases hb : b.skip with
  | none => exact absurd hb hskip
  | first => simp [sitesOf, h, hs, hb, unskipped]
  | untilSeen f => simp [sitesOf, h, hs, hb, unskipped]

/-- The limit cuts the sites off, and does nothing else. -/
theorem addItems_sites (b : TraceBuilder) (items : List TraceItem) :
    (b.addItems heap intrinsics items).sites =
      b.sites ++ (b.sitesOf heap intrinsics items).take (b.limit - b.sites.length) := by
  induction items generalizing b with
  | nil => cases hs : b.isSkipping <;> simp [addItems, sitesOf, unskipped, hs, TraceItem.sites]
  | cons item items ih =>
    have hstep : b.addItems heap intrinsics (item :: items) =
        (b.addItem heap intrinsics item).addItems heap intrinsics items := rfl
    cases hfull : b.isFull with
    | true =>
      rw [addItems_full hfull, Nat.sub_eq_zero_of_le (isFull_iff.mp hfull), List.take_zero,
        List.append_nil]
    | false =>
      rw [hstep]
      cases hvisible : item.isVisible heap b.showBuiltins with
      | false => rw [addItem_hidden hvisible, sitesOf_hidden hvisible, ih]
      | true =>
        by_cases hskip : item.isActivation → b.isSkipping → b.skip = .none
        · have hroom : b.limit - b.sites.length = b.limit - (b.sites.length + 1) + 1 := by
            have := hasRoom_iff.mp hfull
            omega
          rw [addItem_listed hfull hvisible hskip, sitesOf_listed hvisible hskip, ih, hroom,
            List.take_succ_cons]
          simp [listed]
        · obtain ⟨a, rfl⟩ : ∃ a, item = .activation a := by
            cases item with
            | activation a => exact ⟨a, rfl⟩
            | suspended g => exact absurd (fun h => nomatch h) hskip
            | element combinator closure => exact absurd (fun h => nomatch h) hskip
          simp only [isActivation, forall_const, Classical.not_imp] at hskip
          rw [addItem_skipped hfull hvisible hskip.1 hskip.2,
            sitesOf_skipped hvisible hskip.1 hskip.2, ih]

end TraceBuilder

end ScriptEngine

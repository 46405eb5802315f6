import ScriptEngine.Proofs.TraceLimits

namespace ScriptEngine

namespace TraceItem

variable {heap : Heap} {intrinsics : Intrinsics}

/-- A site is poisoned if its own item or one listed before it is strict. -/
theorem sites_getElem? (seenStrict : Bool) (items : List TraceItem) (i : Nat) :
    (sites heap intrinsics seenStrict items)[i]? = items[i]?.map fun item =>
      item.site heap intrinsics (seenStrict || (items.take (i + 1)).any (·.isStrict heap)) := by
  induction items generalizing seenStrict i with
  | nil => rfl
  | cons item items ih =>
    cases i with
    | zero => simp [sites]
    | succ i => simp [sites, ih, Bool.or_assoc]

theorem site_isStrict (item : TraceItem) (poisoned : Bool) :
    (item.site heap intrinsics poisoned).isStrict =
      (poisoned && (item.site heap intrinsics poisoned).combinator.isNone) := by
  cases item <;> simp [site]

/-- The function that poison leaves. -/
theorem site_poisoned (item : TraceItem) :
    (item.site heap intrinsics true).receiver = .undefined ∧
    (item.site heap intrinsics true).function =
      match (item.site heap intrinsics true).combinator with
      | none => .undefined
      | some (combinator, _) => intrinsics.function combinator := by
  cases item <;> exact ⟨rfl, rfl⟩

end TraceItem

namespace ThreadState

open TraceBuilder

variable {t : ThreadState} {env : Surroundings} {o : TraceOptions} {intrinsics : Intrinsics}
  {sites : List CallSite}

/-- Each site of a trace is that of an item, poisoned if the items up to it are not all sloppy. -/
theorem exists_items_of_trace (h : t.trace env o intrinsics = .ok sites) :
    ∃ items : List TraceItem, ∀ (i : Nat) (s : CallSite), sites[i]? = some s →
      ∃ item : TraceItem, s = item.site env.heap intrinsics
        ((items.take (i + 1)).any (·.isStrict env.heap)) := by
  obtain ⟨acts, waiting, -, hsites, -⟩ := trace_replays h o rfl
  obtain ⟨items, rfl⟩ : ∃ items, sites =
      (TraceItem.sites env.heap intrinsics false items).take o.limit := ⟨_, hsites⟩
  refine ⟨items, fun i s hi => ?_⟩
  rw [List.getElem?_take] at hi
  split at hi
  · rw [TraceItem.sites_getElem?] at hi
    obtain ⟨item, -, rfl⟩ := Option.map_eq_some_iff.mp hi
    exact ⟨item, rfl⟩
  · exact nomatch hi

/-- Behind a strict site all are strict but elements, there are no receivers, and no functions but
those of combinators. -/
theorem trace_behind_strict (h : t.trace env o intrinsics = .ok sites) {i j : Nat}
    {strict behind : CallSite} (hi : sites[i]? = some strict) (hstrict : strict.isStrict)
    (hij : i < j) (hj : sites[j]? = some behind) :
    behind.isStrict = behind.combinator.isNone ∧
    behind.receiver = .undefined ∧
    behind.function = match behind.combinator with
      | none => .undefined
      | some (combinator, _) => intrinsics.function combinator := by
  obtain ⟨items, hitems⟩ := exists_items_of_trace h
  obtain ⟨item, rfl⟩ := hitems i strict hi
  obtain ⟨item', rfl⟩ := hitems j behind hj
  rw [TraceItem.site_isStrict, Bool.and_eq_true] at hstrict
  have hprefix : items.take (i + 1) ⊆ items.take (j + 1) :=
    (List.take_prefix_take_left (by omega)).subset
  have hpoisoned : (items.take (j + 1)).any (·.isStrict env.heap) = true := by
    obtain ⟨x, hx, hxs⟩ := List.any_eq_true.mp hstrict.1
    exact List.any_eq_true.mpr ⟨x, hprefix hx, hxs⟩
  rw [hpoisoned]
  exact ⟨item'.site_isStrict true, item'.site_poisoned⟩

/-- `load` is strict; what waits for it are an element and a sloppy function. -/
theorem trace_behind_strict_settling :
    ∃ load all checkout,
      AwaitExample.thread.trace AwaitExample.surroundings {} AwaitExample.intrinsics =
        .ok [load, all, checkout] ∧
      load.isStrict ∧
      (all.receiver = .undefined ∧ all.function = AwaitExample.intrinsics.promiseAll) ∧
      checkout.receiver = .undefined ∧ checkout.function = .undefined := by
  obtain ⟨load, all, checkout, htrace, hstrict, hall, hcheckout⟩ : ∃ load all checkout,
      AwaitExample.thread.trace AwaitExample.surroundings {} AwaitExample.intrinsics =
        .ok [load, all, checkout] ∧ load.isStrict ∧ all.combinator = some (.all, 0) ∧
      checkout.combinator = none := ⟨_, _, _, rfl, rfl, rfl, rfl⟩
  have hbehind := trace_behind_strict htrace (i := 0) rfl hstrict (j := 1) (by decide) rfl
  have hfar := trace_behind_strict htrace (i := 0) rfl hstrict (j := 2) (by decide) rfl
  rw [hall] at hbehind
  rw [hcheckout] at hfar
  exact ⟨load, all, checkout, htrace, hstrict, hbehind.2, hfar.2⟩

/-- The function of an element shows behind strict code. -/
theorem trace_shows_combinator_behind_strict :
    ∃ load all checkout,
      AwaitExample.thread.trace AwaitExample.surroundings {} AwaitExample.intrinsics =
        .ok [load, all, checkout] ∧
      load.isStrict ∧ ¬(all.function = .undefined ∧ all.receiver = .undefined) :=
  ⟨_, _, _, rfl, rfl, by decide⟩

end ThreadState

end ScriptEngine

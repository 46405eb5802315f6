import Mathlib.Logic.Relation
import ScriptEngine.Proofs.BlobReferences

namespace ScriptEngine

/-- A registry with what its users have done so far. -/
structure BlobUsage where
  registry : BlobRegistry
  /-- Shared blobs that were handed out and have not come back. -/
  out : List PlacedBlob := []
  /-- The references that were counted when the blob was freed by hand. -/
  stranded : Nat := 0

namespace BlobUsage

open ScriptEngine.Action ScriptEngine.BlobRegistry

variable {u v : BlobUsage} {b own : PlacedBlob}

/-- A registry that nobody has used yet. -/
def new (default : Option PlacedBlob) (nextAddress : Address) : BlobUsage where
  registry := { default, nextAddress }

/-- One use that does not end the process. -/
inductive Step : BlobUsage → BlobUsage → Prop
  | acquire (u : BlobUsage) :
      Step u { u with
        registry := u.registry.acquire.2
        out := (u.registry.acquire.1.bind (·.shared?)).toList ++ u.out }
  /-- A handle that the caller shows stays with the caller, who gets another one. -/
  | create {u : BlobUsage} {held : Option BlobHandle} {handle : BlobHandle} {r : BlobRegistry}
      (made : (createAndSet held).outcome u.registry = (.ok handle, r)) :
      Step u { u with registry := r, out := handle.shared?.toList ++ u.out }
  /-- The new handle takes the place of the one that the caller shows. -/
  | exchange {u : BlobUsage} {before after : List PlacedBlob} {own : PlacedBlob}
      {handle : BlobHandle} {r : BlobRegistry} (out : u.out = before ++ own :: after)
      (made : (createAndSet (some (.shared own))).outcome u.registry = (.ok handle, r)) :
      Step u { u with registry := r, out := before ++ handle.shared?.toList ++ after }
  /-- A handle comes back once: it has to be out. -/
  | release {u : BlobUsage} {before after : List PlacedBlob} {own : PlacedBlob} {r : BlobRegistry}
      (out : u.out = before ++ own :: after)
      (released : (release (.shared own)).outcome u.registry = (.ok (), r)) :
      Step u { u with registry := r, out := before ++ after }
  | releaseBinary {u : BlobUsage} {b : PlacedBlob} {r : BlobRegistry}
      (released : (BlobRegistry.release (.binary b)).outcome u.registry = (.ok (), r)) :
      Step u { u with registry := r }
  | disableCounting (u : BlobUsage) : Step u { u with registry := u.registry.disableCounting }
  | free {u : BlobUsage} {r : BlobRegistry} (freed : freeCurrent.outcome u.registry = (.ok (), r)) :
      Step u { u with
        registry := r
        stranded := if u.registry.sticky.isSome then u.registry.refs else u.stranded }

/-- Uses one after the other. -/
abbrev Run : BlobUsage → BlobUsage → Prop := Relation.ReflTransGen Step

/-- How many handles are of a blob. -/
def handlesTo (b : PlacedBlob) (out : List PlacedBlob) : Nat :=
  out.countP fun own => own.codeAddress == b.codeAddress

/-- The sticky blob has no more references than handles, and what is counted without a sticky blob
is stranded. -/
structure Accounted (u : BlobUsage) : Prop where
  sticky {b : PlacedBlob} (h : u.registry.sticky = some b) :
    u.stranded = 0 ∧ u.registry.refs ≤ handlesTo b u.out
  stranded (h : u.registry.sticky = none) : u.registry.refs = u.stranded

section Handles

variable {before after : List PlacedBlob}

@[simp]
theorem handlesTo_append : handlesTo b (before ++ after) = handlesTo b before + handlesTo b after :=
  List.countP_append

theorem handlesTo_cons_of_eq (h : own.codeAddress = b.codeAddress) :
    handlesTo b (own :: after) = handlesTo b after + 1 := by
  simp [handlesTo, h]

@[simp]
theorem handlesTo_nil : handlesTo b [] = 0 := rfl

@[simp]
theorem handlesTo_cons_self : handlesTo b (b :: after) = handlesTo b after + 1 :=
  handlesTo_cons_of_eq rfl

end Handles

theorem Accounted.of_sticky (hs : u.registry.sticky = some b) (hu : u.stranded = 0)
    (hrefs : u.registry.refs ≤ handlesTo b u.out) : u.Accounted where
  sticky h := by
    cases hs.symm.trans h
    exact ⟨hu, hrefs⟩
  stranded h := by
    cases hs.symm.trans h

theorem Accounted.of_none (hs : u.registry.sticky = none) (hrefs : u.registry.refs = u.stranded) :
    u.Accounted where
  sticky h := by
    cases hs.symm.trans h
  stranded _ := hrefs

theorem accounted_new (default : Option PlacedBlob) (nextAddress : Address) :
    (new default nextAddress).Accounted := .of_none rfl rfl

theorem Accounted.acquire (hu : u.Accounted) :
    Accounted { u with
      registry := u.registry.acquire.2
      out := (u.registry.acquire.1.bind (·.shared?)).toList ++ u.out } := by
  obtain hs | ⟨b, hs⟩ := Option.eq_none_or_eq_some u.registry.sticky
  · cases hd : u.registry.default with
    | none => simpa [BlobRegistry.acquire, hs, hd] using hu
    | some b =>
      simp only [BlobRegistry.acquire, hs, hd, Option.bind_some, BlobHandle.shared?]
      exact .of_none hs (hu.stranded hs)
  · obtain ⟨hstranded, hrefs⟩ := hu.sticky hs
    simp only [BlobRegistry.acquire, hs, Option.bind_some, BlobHandle.shared?, Option.toList_some]
    exact .of_sticky (b := b) rfl hstranded (by simp; omega)

theorem Accounted.create {held : Option BlobHandle} {handle : BlobHandle} {r : BlobRegistry}
    (made : (createAndSet held).outcome u.registry = (.ok handle, r)) (hu : u.Accounted) :
    Accounted { u with registry := r, out := handle.shared?.toList ++ u.out } := by
  obtain ⟨b, own, hs, -, -, rfl, rfl⟩ | ⟨b, hs, -, rfl, rfl⟩ | ⟨hs, hzero, -, rfl, rfl⟩ :=
    createAndSet_ok made
  · obtain ⟨hstranded, hrefs⟩ := hu.sticky hs
    exact .of_sticky (b := b) hs hstranded (by simp [BlobHandle.shared?]; omega)
  · obtain ⟨hstranded, hrefs⟩ := hu.sticky hs
    exact .of_sticky (b := b) hs hstranded (by simp [BlobHandle.shared?]; omega)
  · have hstranded : u.stranded = 0 := (hu.stranded hs).symm.trans hzero
    exact .of_sticky rfl hstranded (by simp [BlobHandle.shared?, hzero])

theorem Accounted.exchange {before after : List PlacedBlob} {handle : BlobHandle}
    {r : BlobRegistry} (out : u.out = before ++ own :: after)
    (made : (createAndSet (some (.shared own))).outcome u.registry = (.ok handle, r))
    (hu : u.Accounted) :
    Accounted { u with registry := r, out := before ++ handle.shared?.toList ++ after } := by
  obtain ⟨b, _, hs, hheld, hown, rfl, rfl⟩ | ⟨_, _, hheld, -, -⟩ | ⟨_, _, hheld, -, -⟩ :=
    createAndSet_ok made
  · cases hheld
    obtain ⟨hstranded, hrefs⟩ := hu.sticky hs
    rw [out, handlesTo_append, handlesTo_cons_of_eq hown] at hrefs
    exact .of_sticky (b := b) hs hstranded (by simp [BlobHandle.shared?]; omega)
  · simp [BlobHandle.shared?] at hheld
  · simp [BlobHandle.shared?] at hheld

theorem Accounted.release {before after : List PlacedBlob} {r : BlobRegistry}
    (out : u.out = before ++ own :: after)
    (released : (BlobRegistry.release (.shared own)).outcome u.registry = (.ok (), r))
    (hu : u.Accounted) : Accounted { u with registry := r, out := before ++ after } := by
  obtain ⟨hs, rfl⟩ | ⟨b, hs, hown, hpos, rfl⟩ := release_ok released
  · exact .of_none hs (hu.stranded hs)
  · obtain ⟨hstranded, hrefs⟩ := hu.sticky hs
    rw [out, handlesTo_append, handlesTo_cons_of_eq hown] at hrefs
    by_cases hlast : u.registry.refs - 1 = 0 && u.registry.isCounting
    · have hgone : u.registry.withReturned.sticky = none := by
        rw [withReturned_sticky, if_pos hlast]
      simp only [Bool.and_eq_true, decide_eq_true_eq] at hlast
      exact .of_none hgone (by simp [hstranded, hlast.1])
    · have hkept : u.registry.withReturned.sticky = some b := by
        rw [withReturned_sticky, if_neg hlast, hs]
      exact .of_sticky hkept hstranded (by simp; omega)

theorem Accounted.free {r : BlobRegistry} (freed : freeCurrent.outcome u.registry = (.ok (), r))
    (hu : u.Accounted) :
    Accounted { u with
      registry := r
      stranded := if u.registry.sticky.isSome then u.registry.refs else u.stranded } := by
  obtain ⟨-, ⟨hs, rfl⟩ | ⟨b, hs, rfl⟩⟩ := freeCurrent_ok freed
  · exact .of_none hs (by simp [hs, hu.stranded hs])
  · exact .of_none rfl (by simp [hs])

theorem Step.accounted (h : Step u v) (hu : u.Accounted) : v.Accounted := by
  cases h with
  | acquire => exact hu.acquire
  | create made => exact hu.create made
  | exchange out made => exact hu.exchange out made
  | release out released => exact hu.release out released
  | releaseBinary released =>
    cases released
    exact hu
  | disableCounting => exact ⟨fun h => hu.sticky h, fun h => hu.stranded h⟩
  | free freed => exact hu.free freed

theorem Run.accounted (h : Run u v) (hu : u.Accounted) : v.Accounted := by
  induction h with
  | refl => exact hu
  | tail _ step ih => exact step.accounted ih

/-- With all handles back, only references that were out when the blob was freed by hand are
counted, and a registry without a sticky blob makes the next one just if there are none. -/
theorem Run.settled {default : Option PlacedBlob} {nextAddress : Address}
    (h : Run (new default nextAddress) u) (back : u.out = []) :
    u.registry.refs = u.stranded ∧
      (u.registry.sticky = none →
        (createAndSet none).outcome u.registry =
          if u.stranded = 0 then (.ok (.shared u.registry.nextBlob), u.registry.withNextBlob)
          else (.error (.fatal (.blobMismatch (.outstandingReferences u.stranded))),
            u.registry)) := by
  have hu : u.Accounted := h.accounted (accounted_new default nextAddress)
  have hrefs : u.registry.refs = u.stranded := by
    obtain hs | ⟨b, hs⟩ := Option.eq_none_or_eq_some u.registry.sticky
    · exact hu.stranded hs
    · obtain ⟨hstranded, hle⟩ := hu.sticky hs
      rw [back, handlesTo_nil] at hle
      omega
  refine ⟨hrefs, fun hs => ?_⟩
  rw [← hrefs]
  split
  · exact createAndSet_new hs rfl ‹_›
  · exact createAndSet_blocked hs rfl ‹_›

/-- The references that were out when the blob was freed stay counted whatever happens next: there
never is a sticky blob again. -/
theorem Run.wedged (h : Run u v) (hs : u.registry.sticky = none)
    (hrefs : u.registry.refs ≠ 0) :
    v.registry.sticky = none ∧ v.registry.refs = u.registry.refs := by
  induction h with
  | refl => exact ⟨hs, rfl⟩
  | @tail v w run step ih =>
    obtain ⟨ihs, ihrefs⟩ := ih
    cases step with
    | acquire => cases hd : v.registry.default <;> simp [BlobRegistry.acquire, ihs, ihrefs, hd]
    | create made => exact absurd made (createAndSet_ne_ok ihs (ihrefs ▸ hrefs))
    | exchange out made => exact absurd made (createAndSet_ne_ok ihs (ihrefs ▸ hrefs))
    | release out released =>
      obtain ⟨-, rfl⟩ | ⟨b, hsome, -⟩ := release_ok released
      · exact ⟨ihs, ihrefs⟩
      · cases ihs.symm.trans hsome
    | releaseBinary released =>
      cases released
      exact ⟨ihs, ihrefs⟩
    | disableCounting => exact ⟨ihs, ihrefs⟩
    | free freed =>
      obtain ⟨-, ⟨-, rfl⟩ | ⟨b, hsome, -⟩⟩ := freeCurrent_ok freed
      · exact ⟨ihs, ihrefs⟩
      · cases ihs.symm.trans hsome

section Example

/-- Somebody holds a blob that nobody counts references to. -/
def made : BlobUsage where
  registry := (new none 0).registry.disableCounting.withNextBlob
  out := [(new none 0).registry.nextBlob]

/-- The blob is freed by hand while it is held. -/
def freed : BlobUsage := { made with registry := made.registry.free, stranded := 1 }

/-- The blob is given back after it was freed by hand. -/
def freedEarly : BlobUsage := { freed with out := [] }

theorem run_freedEarly : Run (new none 0) freedEarly := by
  have disabled : Step (new none 0) { registry := (new none 0).registry.disableCounting } :=
    .disableCounting _
  have create : Step { registry := (new none 0).registry.disableCounting } made :=
    .create (show (createAndSet none).outcome _ = _ from createAndSet_new rfl rfl rfl)
  have free : Step made freed := .free (freeCurrent_sticky rfl rfl rfl)
  have hout : freed.out = [] ++ (new none 0).registry.nextBlob :: [] := rfl
  have release : Step freed freedEarly := .release hout (release_without_sticky rfl)
  exact (((Relation.ReflTransGen.single disabled).tail create).tail free).tail release

theorem settled_freedEarly :
    freedEarly.registry.refs = 1 ∧
      (createAndSet none).outcome freedEarly.registry =
        (.error (.fatal (.blobMismatch (.outstandingReferences 1))), freedEarly.registry) := by
  obtain ⟨hrefs, hnext⟩ := run_freedEarly.settled rfl
  exact ⟨hrefs, hnext rfl⟩

/-- Having all handles back is not enough. -/
theorem not_settled_of_freed_early :
    ¬ ∀ (default : Option PlacedBlob) (nextAddress : Address) (u : BlobUsage),
      Run (new default nextAddress) u → u.out = [] →
        u.registry.refs = 0 ∧
          (u.registry.sticky = none →
            ∃ handle r, (createAndSet none).outcome u.registry = (.ok handle, r)) := by
  intro settled
  have hzero : freedEarly.registry.refs = 0 := (settled none 0 freedEarly run_freedEarly rfl).1
  exact absurd hzero (by decide)

end Example

end BlobUsage

end ScriptEngine

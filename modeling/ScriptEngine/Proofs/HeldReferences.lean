import ScriptEngine.Proofs.Lifetimes
import ScriptEngine.Proofs.RootVisits

namespace ScriptEngine

open ScriptEngine.Action

/-- Once initialized, the isolate has the functions that async traces name. -/
def Isolate.Equipped (i : Isolate) : Prop :=
  i.state = .initialized → ∀ c, (i.intrinsics.function c).isObject

namespace Hosted

variable {h h' : Hosted} {t : ThreadId} {refusal : Option String} {snapshots : Option SnapshotSet}
  {result : Except Failure Unit}

theorem meets_createIntrinsics (builtins : Builtins) :
    Meets (fun _ => True) (createIntrinsics builtins)
      (fun _ i => ∀ c, (i.intrinsics.function c).isObject) fun _ _ => True := by
  intro i _ c
  cases c <;> rfl

/-- Setting up makes the combinator functions, and snapshots leave them. -/
theorem meets_setUpPhases_intrinsics : Meets (fun _ => True) (setUpPhases t refusal snapshots)
    (fun _ h => ∀ c, (h.isolate.intrinsics.function c).isObject) fun _ _ => True := by
  have hany : ∀ {α : Type} {act : Action Hosted α},
      Meets (fun _ => True) act (fun _ _ => True) fun _ _ => True :=
    meets_any (fun _ _ => trivial) fun _ _ => trivial
  have hinstall : ∀ placed, Meets (fun _ => True) (onIsolate (installBuiltins placed))
      (fun _ h => ∀ c, (h.isolate.intrinsics.function c).isObject) fun _ _ => True := by
    refine fun placed => meets_onPart fun h _ => meets_get_bind fun i _ => ?_
    refine Meets.bind (Q := fun _ _ => True) (meets_set trivial) fun _ => ?_
    exact (meets_createIntrinsics _).bind fun _ => meets_modify fun i hi => hi
  refine meets_get_bind fun h₀ _ => Meets.strengthen ?_ fun _ _ => trivial
  refine meets_when hany (hany.bind fun range => hany.bind fun _ => ?_)
  refine meets_when hany (hany.bind fun _ => hany.bind fun placed => ?_)
  refine (hinstall placed).bind fun _ => ?_
  cases snapshots with
  | none => exact meets_pure fun _ hp => hp
  | some s =>
    refine meets_onPart fun h hh => meets_get_bind fun i hi => ?_
    cases hi
    cases hd : h.isolate.deserializer with
    | none => exact meets_refuse fun _ _ => trivial
    | some d =>
      refine Meets.bind (Q := fun _ i => ∀ c, (i.intrinsics.function c).isObject)
        (meets_set hh) fun _ => ?_
      cases d.run s with
      | ok _ => exact meets_pure fun _ hi => hi
      | error e => exact meets_refuse fun _ _ => trivial

theorem SetsUp.equipped (hs : SetsUp t h result h') (calm : endsFatally result = false)
    (hi : h.isolate.Equipped) : h'.isolate.Equipped := by
  cases hs with
  | mismatched => exact hi
  | late => exact hi
  | unable => exact hi
  | ran state deserializer phases =>
    obtain (e | e) | u := result
    · intro hstate
      cases hstate
    · cases calm
    · have hmade := meets_setUpPhases_intrinsics.ok trivial phases
      exact fun _ => hmade

theorem TearsDown.equipped (hs : TearsDown h result h') (calm : endsFatally result = false)
    (hi : h.isolate.Equipped) : h'.isolate.Equipped := by
  cases hs with
  | before => exact hi
  | busy => exact hi
  | done =>
    intro hstate
    cases hstate
  | died state released =>
    obtain ⟨_, rfl⟩ := releaseAll_dies.error trivial released
    cases calm

theorem Task.equipped (task : Task h result h') (calm : endsFatally result = false)
    (hi : h.isolate.Equipped) : h'.isolate.Equipped := by
  cases task with
  | setUp t setsUp => exact setsUp.equipped calm hi
  | tearDown tearsDown => exact tearsDown.equipped calm hi
  | dispose disposes =>
    cases disposes with
    | entered => cases calm
    | ended tearsDown survives => exact tearsDown.equipped (endsFatally_eq_false survives) hi
    | died => cases calm

end Hosted

theorem Isolate.Quiet.equipped {i i' : Isolate} (h : i.Quiet i') (hi : i.Equipped) :
    i'.Equipped := by
  intro hs c
  have hstate : i'.state = i.state := congrArg Stake.state h.stake
  rw [h.intrinsics]
  exact hi (hstate ▸ hs) c

namespace Engine

variable {p q p' : Engine} {result : Except Failure Unit}

theorem Step.equipped (h : p.Step result p') (calm : endsFatally result = false)
    (hp : ∀ r ∈ p.residents, r.isolate.Equipped) : ∀ r ∈ p'.residents, r.isolate.Equipped := by
  intro r' hr
  cases h with
  | quiet quietly =>
    obtain ⟨r, hmem, -, hquiet⟩ := quietly.mem hr
    exact hquiet.equipped (hp r hmem)
  | found o platforms residents => exact hp r' (residents ▸ hr)
  | allocate platform reserve platforms residents =>
    rw [residents] at hr
    rcases List.mem_append.mp hr with hr | hr
    · exact hp r' hr
    · rw [List.mem_singleton.mp hr]
      intro hstate
      cases hstate
  | @act before after r _ _ _ lodges housed task =>
    rcases List.mem_cons.mp (List.perm_middle.mem_iff.mp hr) with rfl | hr
    · exact task.equipped calm (hp r lodges.mem)
    · exact hp r' (lodges.mem_of_around hr)
  | destroy quietly lodges =>
    obtain ⟨r, hmem, -, hquiet⟩ := quietly.mem (lodges.mem_of_around hr)
    exact hquiet.equipped (hp r hmem)

/-- Whoever is initialized at the end of a run has its combinator functions. -/
theorem equipped_of_run {ops : List LifecycleOperation} (h : run {} ops = some p) :
    ∀ r ∈ p.residents, r.isolate.Equipped := by
  have hend : p.Sound ∧ ∀ r ∈ p.residents, r.isolate.Equipped := by
    refine run_induction (P := fun p => p.Sound ∧ ∀ r ∈ p.residents, r.isolate.Equipped)
      ⟨sound_empty, fun r hr => by cases hr⟩ (fun p op hp calm => ?_) h
    have hstep := op.step hp.1
    exact ⟨hstep.sound hp.1, hstep.equipped calm hp.2⟩
  exact hend.2

end Engine

/-- An equipped isolate holds references that no visit to the roots sees. -/
theorem Isolate.Equipped.unvisited {i : Isolate} (h : i.Equipped) (hs : i.state = .initialized)
    (c : Combinator) : ∃ id, i.intrinsics.function c = .object id ∧
      Value.object id ∈ i.unvisitedValues := by
  have hobject := h hs c
  have hmem : i.intrinsics.function c ∈ i.unvisitedValues := by
    refine List.mem_append_left _ ?_
    cases c <;> simp [Intrinsics.values, Intrinsics.function]
  cases hv : i.intrinsics.function c with
  | object id => exact ⟨id, rfl, hv ▸ hmem⟩
  | _ =>
    rw [hv] at hobject
    cases hobject

namespace Engine

/-- A relocation replaces every reference of the threads, global handles and materialized objects,
and leaves the combinator functions and the code as they are. It is complete exactly if it moves
nothing that these refer to; an isolate that is initialized holds three such references. -/
theorem relocation_complete_iff (i : Isolate) (move : ObjectId → ObjectId) (n : Nat) :
    let i' := ((i.visitRoots (RootVisitor.relocate move)).run n).1
    i' = i.mapRoots (Value.moved move) ∧
      i'.visitedValues = i.visitedValues.map (Value.moved move) ∧
      i'.unvisitedValues = i.unvisitedValues ∧
      (i'.heldValues = i.heldValues.map (Value.moved move) ↔
        ∀ id, Value.object id ∈ i.unvisitedValues → move id = id) ∧
      ∀ ops p r, run {} ops = some p → r ∈ p.residents → r.isolate = i → i.state = .initialized →
        ∀ c, ∃ id, i.intrinsics.function c = .object id ∧ i'.intrinsics.function c = .object id ∧
          Value.object id ∈ i.unvisitedValues := by
  obtain ⟨hmap, hvisited, hunvisited, hcomplete⟩ := i.relocation_reaches move n
  refine ⟨hmap, hvisited, hunvisited, hcomplete, ?_⟩
  rintro ops p r hp hr rfl hs c
  obtain ⟨id, hid, hmem⟩ := (equipped_of_run hp r hr).unvisited hs c
  exact ⟨id, hid, hmap ▸ hid, hmem⟩

/-- One isolate is set up, and has done nothing else. -/
def setUpOne : List LifecycleOperation :=
  [.addPlatform {}, .allocateIn 0 {}, .setUp "main" 1 none none none false]

theorem relocation_complete_iff_setUpOne : ∃ p r, run {} setUpOne = some p ∧ r ∈ p.residents ∧
    r.isolate.state = .initialized ∧
    let i' := ((r.isolate.visitRoots (RootVisitor.relocate (· + 100))).run 0).1
    i'.visitedValues = r.isolate.visitedValues.map (Value.moved (· + 100)) ∧
    i'.intrinsics.function .all = .object 0 ∧
    i'.heldValues ≠ r.isolate.heldValues.map (Value.moved (· + 100)) := by
  have hfacts : (run {} setUpOne).map (fun p => p.residents.map fun r =>
      (r.isolate.state, r.isolate.intrinsics.function .all)) =
      some [(.initialized, .object 0)] := by decide +kernel
  obtain ⟨p, hp, hresidents⟩ := Option.map_eq_some_iff.mp hfacts
  obtain ⟨r, hr, hfacts⟩ := List.map_eq_singleton_iff.mp hresidents
  obtain ⟨hs, hall⟩ := Prod.mk.inj hfacts
  have hmem : r ∈ p.residents := hr ▸ List.mem_singleton_self r
  obtain ⟨-, hvisited, -, hcomplete, hheld⟩ := relocation_complete_iff r.isolate (· + 100) 0
  obtain ⟨id, hid, hid', hunvisited⟩ := hheld setUpOne p r hp hmem rfl hs .all
  cases hall.symm.trans hid
  refine ⟨p, r, hp, hmem, hs, hvisited, hid', fun hmoved => ?_⟩
  have hstays := hcomplete.mp hmoved 0 hunvisited
  exact absurd hstays (by decide)

/-- Not every relocation reaches all references that an initialized isolate holds outside the
heap. -/
theorem relocation_incomplete_setUpOne : ¬∀ ops p r, run {} ops = some p → r ∈ p.residents →
    r.isolate.state = .initialized → ∀ (move : ObjectId → ObjectId) (n : Nat),
    ((r.isolate.visitRoots (RootVisitor.relocate move)).run n).1.heldValues =
      r.isolate.heldValues.map (Value.moved move) := by
  intro hcomplete
  have hfacts : (run {} setUpOne).map (fun p => p.residents.map fun r =>
      (r.isolate.state, decide
        (((r.isolate.visitRoots (RootVisitor.relocate (· + 100))).run 0).1.heldValues =
          r.isolate.heldValues.map (Value.moved (· + 100))))) =
      some [(.initialized, false)] := by decide +kernel
  obtain ⟨p, hp, hresidents⟩ := Option.map_eq_some_iff.mp hfacts
  obtain ⟨r, hr, hfacts⟩ := List.map_eq_singleton_iff.mp hresidents
  obtain ⟨hs, hmoved⟩ := Prod.mk.inj hfacts
  exact of_decide_eq_false hmoved
    (hcomplete setUpOne p r hp (hr ▸ List.mem_singleton_self r) hs (· + 100) 0)

end Engine

end ScriptEngine

import ScriptEngine.Proofs.Lifetimes

namespace ScriptEngine

open ScriptEngine.Action

/-- The part that an isolate has among others. -/
structure Part where
  id : IsolateId
  role : Option SpaceRole
  entries : Nat

def Isolate.part (i : Isolate) : Part := ⟨i.id, i.spaceRole, i.entries⟩

/-- The part of an isolate, with what its platform knows of shared spaces. -/
structure Standing where
  part : Part
  spaces : List HeldSpace
  slot : Option SpaceId
  nextSpace : SpaceId

def Hosted.standing (h : Hosted) : Standing where
  part := h.isolate.part
  spaces := h.platform.spaces
  slot := h.platform.slot
  nextSpace := h.platform.nextSpace

namespace Hosted

variable {h h' : Hosted} {t : ThreadId} {refusal : Option String} {snapshots : Option SnapshotSet}
  {α : Type} {result : Except Failure Unit}

/-- The isolate has joined the space of its platform, or has opened one. -/
def joined (h : Hosted) : Hosted :=
  match h.platform.sharedSpace? with
  | some s =>
    ⟨{ h.isolate with spaceRole := some (.client s.id) },
      h.platform.modifySpace s.id (·.attach h.isolate.id)⟩
  | none =>
    ⟨{ h.isolate with spaceRole := some (.owner (h.platform.openSpace h.isolate.id).1) },
      (h.platform.openSpace h.isolate.id).2⟩

theorem outcome_attachSharedSpace : attachSharedSpace.outcome h = (.ok (), h.joined) := by
  unfold attachSharedSpace joined
  rw [outcome_get_bind]
  cases h.platform.sharedSpace? <;> rfl

/-- The space is closed to new clients, and has lost its owner. -/
def withoutSpace (p : Platform) (id : SpaceId) : Platform :=
  if (p.unholdSpace id).slot = some id then { p.unholdSpace id with slot := none }
  else p.unholdSpace id

/-- The isolate has left the space. -/
def parted (h : Hosted) : Hosted :=
  ⟨{ h.isolate with spaceRole := none },
    match h.isolate.spaceRole with
    | none => h.platform
    | some (.client id) => h.platform.modifySpace id fun s => (s.detach h.isolate.id).2
    | some (.owner id) => withoutSpace h.platform id⟩

/-- Whoever owns no space can leave. -/
theorem outcome_detachSharedSpace (hr : ∀ id, h.isolate.spaceRole ≠ some (.owner id)) :
    detachSharedSpace.outcome h = (.ok (), h.parted) := by
  unfold detachSharedSpace parted
  rw [outcome_get_bind]
  match hrole : h.isolate.spaceRole with
  | none => rfl
  | some (.client id) => rfl
  | some (.owner id) => exact absurd hrole (hr id)

theorem outcome_detachSharedSpace_owner {id : SpaceId} {s : HeldSpace}
    (hr : h.isolate.spaceRole = some (.owner id)) (hs : h.platform.space? id = some s) :
    detachSharedSpace.outcome h =
      if s.space.clients = [] then (.ok (), h.parted)
      else (.error (.fatal (.sharedSpaceClientsAlive s.space.owner s.space.clients.length)),
        ⟨{ h.isolate with spaceRole := none }, h.platform.unholdSpace id⟩) := by
  unfold detachSharedSpace parted
  rw [outcome_get_bind, hr]
  dsimp only
  have hleft : (modifyIsolate fun i => { i with spaceRole := none }).outcome h =
      (.ok (), { h with isolate := { h.isolate with spaceRole := none } }) := rfl
  have hunheld : (modifyPlatform (·.unholdSpace id)).outcome
      { h with isolate := { h.isolate with spaceRole := none } } =
      (.ok (), ⟨{ h.isolate with spaceRole := none }, h.platform.unholdSpace id⟩) := rfl
  rw [outcome_bind_ok hleft, outcome_bind_ok hunheld, hs]
  dsimp only
  unfold SharedSpace.checkNoClients
  cases hclients : s.space.clients with
  | nil =>
    rw [if_pos rfl]
    rfl
  | cons c rest =>
    rw [if_neg (List.cons_ne_nil c rest), if_neg (by simp)]
    rfl

def keepingStanding : Evolution Hosted where
  rel h h' := h'.standing = h.standing
  refl _ := rfl
  trans h h' := h'.trans h

def keepingPart : Evolution Isolate where
  rel i i' := i'.part = i.part
  refl _ := rfl
  trans h h' := h'.trans h

theorem standing_modifyIsolate {f : Isolate → Isolate} (hf : ∀ i, (f i).part = i.part) :
    Evolves keepingStanding (modifyIsolate f) :=
  fun h => congrArg (Standing.mk · h.platform.spaces h.platform.slot h.platform.nextSpace)
    (hf h.isolate)

theorem standing_onIsolate {act : Action Isolate α} (hact : Evolves keepingPart act) :
    Evolves keepingStanding (onIsolate act) :=
  fun h => congrArg (Standing.mk · h.platform.spaces h.platform.slot h.platform.nextSpace)
    (hact h.isolate)

theorem standing_onBlobs (act : Action BlobRegistry α) : Evolves keepingStanding (onBlobs act) :=
  fun _ => rfl

theorem standing_reserve (size : Nat) (purpose : String) :
    Evolves keepingStanding (reserve size purpose) := by
  refine evolves_get_bind fun h => ?_
  unfold Platform.reserve
  cases h.platform.pages.reserve size <;> rfl

theorem standing_startCompileThread (refusal : Option String) :
    Evolves keepingStanding (startCompileThread refusal) := by
  cases refusal with
  | none => exact standing_modifyIsolate fun _ => rfl
  | some text => exact evolves_refuse _

theorem standing_setUpBlob (fromSnapshot : Bool) :
    Evolves keepingStanding (setUpBlob fromSnapshot) := by
  refine evolves_get.bind fun h => ?_
  dsimp only
  split
  case' isTrue =>
    refine (standing_onBlobs _).bind fun handle => ?_
    refine (standing_modifyIsolate fun _ => by rfl).bind fun _ => ?_
  -- With the sticky blob or with its own, the isolate makes it current.
  all_goals
    refine evolves_get.bind fun h => ?_
    split
    · exact evolves_die _
    · exact (standing_onBlobs _).bind fun _ => evolves_pure _

theorem part_allocate (o : HeapObject) : Evolves keepingPart (Isolate.allocate o) := fun _ => rfl

theorem standing_installBuiltins (placed : PlacedBlob) :
    Evolves keepingStanding (onIsolate (installBuiltins placed)) := by
  refine standing_onIsolate (evolves_get_bind fun i => ?_)
  generalize Builtins.install placed.blob placed.codeAddress i.codes = installed
  obtain ⟨builtins, codes⟩ := installed
  refine Evolves.bind_at (by rfl) fun _ => ?_
  refine Evolves.bind ?_ fun _ => evolves_modify fun _ => rfl
  refine (part_allocate _).bind fun _ => (part_allocate _).bind fun _ => ?_
  exact (part_allocate _).bind fun _ => evolves_modify fun _ => rfl

theorem standing_deserialize (s : SnapshotSet) :
    Evolves keepingStanding (onIsolate (deserialize s)) := by
  refine standing_onIsolate (evolves_get_bind fun i => ?_)
  split
  · exact rfl
  · refine Evolves.bind_at (by rfl) fun _ => ?_
    split
    · exact evolves_pure _
    · exact evolves_refuse _

/-- After the first phase, setting up leaves the standing alone. -/
theorem standing_setUpPhases : ((setUpPhases t refusal snapshots).outcome h).2.standing =
    (if h.isolate.options.sharedSpace then h.joined else h).standing := by
  unfold setUpPhases
  rw [outcome_get_bind]
  dsimp only
  split
  case' isTrue => rw [outcome_bind_ok outcome_attachSharedSpace]
  all_goals
    refine Evolves.bind (E := keepingStanding) (standing_reserve _ _) (fun range => ?_) _
    refine (standing_modifyIsolate fun _ => by rfl).bind fun _ => ?_
    refine evolves_when (standing_startCompileThread _) ?_
    refine (standing_modifyIsolate fun i => ?_).bind fun _ => ?_
    · unfold Isolate.attach
      split <;> rfl
    refine (standing_setUpBlob _).bind fun placed => ?_
    refine (standing_installBuiltins placed).bind fun _ => ?_
    cases snapshots with
    | none => exact evolves_pure _
    | some s => exact standing_deserialize s

theorem standing_releaseCode : Evolves keepingStanding releaseCode := by
  refine (standing_modifyIsolate fun _ => by rfl).bind fun _ => ?_
  refine evolves_get.bind fun h => ?_
  dsimp only
  refine (standing_modifyIsolate fun _ => by rfl).bind fun _ => ?_
  split
  · exact evolves_pure _
  · exact evolves_modify fun _ => rfl

theorem standing_releaseBlob : Evolves keepingStanding releaseBlob := by
  refine evolves_get.bind fun h => ?_
  dsimp only
  refine (standing_modifyIsolate fun _ => by rfl).bind fun _ => ?_
  split
  · exact evolves_pure _
  · exact standing_onBlobs _

/-- Every owner has a space that is alive. -/
def OwnsAlive (h : Hosted) : Prop :=
  ∀ id, h.isolate.spaceRole = some (.owner id) → ∃ s, h.platform.space? id = some s

/-- What is left of an isolate that cannot leave. -/
def deserted (h : Hosted) (id : SpaceId) : Hosted :=
  ⟨{ h.isolate with spaceRole := none }, h.platform.unholdSpace id⟩

/-- An isolate leaves, unless it owns a space that has clients. -/
theorem detachSharedSpace_cases (halive : h.OwnsAlive) :
    ((∀ id s, h.isolate.spaceRole = some (.owner id) → h.platform.space? id = some s →
        s.space.clients = []) ∧
      detachSharedSpace.outcome h = (.ok (), h.parted)) ∨
    ∃ id s, h.isolate.spaceRole = some (.owner id) ∧ h.platform.space? id = some s ∧
      s.space.clients ≠ [] ∧ detachSharedSpace.outcome h =
        (.error (.fatal (.sharedSpaceClientsAlive s.space.owner s.space.clients.length)),
          h.deserted id) := by
  by_cases hrole : ∃ id, h.isolate.spaceRole = some (.owner id)
  · obtain ⟨id, hrole⟩ := hrole
    obtain ⟨s, hs⟩ := halive id hrole
    have ho := outcome_detachSharedSpace_owner hrole hs
    by_cases hclients : s.space.clients = []
    · rw [if_pos hclients] at ho
      refine .inl ⟨fun id' s' hrole' hs' => ?_, ho⟩
      cases hrole.symm.trans hrole'
      cases hs.symm.trans hs'
      exact hclients
    · rw [if_neg hclients] at ho
      exact .inr ⟨id, s, hrole, hs, hclients, ho⟩
  · refine .inl ⟨fun id s hid => absurd ⟨id, hid⟩ hrole, ?_⟩
    exact outcome_detachSharedSpace fun id hid => hrole ⟨id, hid⟩

/-- The compile thread has stopped. -/
def stopped (h : Hosted) : Hosted :=
  { h with isolate :=
    { h.isolate with subsystems := { h.isolate.subsystems with compileQueue := none } } }

theorem outcome_releaseAll_stuck {e : Failure}
    (hd : detachSharedSpace.outcome h.stopped = (.error e, h')) :
    releaseAll.outcome h = (.error e, h') := by
  have hstop : (modifyIsolate fun i =>
      { i with subsystems := { i.subsystems with compileQueue := none } }).outcome h =
      (.ok (), h.stopped) := rfl
  rw [releaseAll, outcome_bind_ok hstop, outcome_bind_error hd]

/-- After leaving the space, taking an isolate apart leaves the standing alone. -/
theorem standing_releaseAll (hd : detachSharedSpace.outcome h.stopped = (.ok (), h')) :
    (releaseAll.outcome h).2.standing = h'.standing := by
  have hstop : (modifyIsolate fun i =>
      { i with subsystems := { i.subsystems with compileQueue := none } }).outcome h =
      (.ok (), h.stopped) := rfl
  have hrest : Evolves keepingStanding (do
      modifyIsolate fun i =>
        { i.detachAll with
          materialized := []
          subsystems := { i.subsystems with globalHandles := none }
          heap := {} }
      releaseCode
      modifyIsolate fun i => { i with intrinsics := {} }
      releaseBlob
      modifyIsolate fun i => { i with subsystems := i.subsystems.clearCaches } :
        Action Hosted Unit) := by
    refine (standing_modifyIsolate fun _ => by rfl).bind fun _ => ?_
    refine standing_releaseCode.bind fun _ => ?_
    refine (standing_modifyIsolate fun _ => by rfl).bind fun _ => ?_
    refine standing_releaseBlob.bind fun _ => ?_
    exact standing_modifyIsolate fun _ => rfl
  rw [releaseAll, outcome_bind_ok hstop, outcome_bind_ok hd]
  exact hrest h'

/-- What setting up comes to when it has run, and was not fatal. -/
def hasRun (result : Except Failure Unit) : Prop :=
  result = .ok () ∨ ∃ e, result = .error (.refused e) ∧ RefusedFromOutside e

/-- Setting up that runs joins the space, if it is to, and settles the state. -/
theorem SetsUp.standing (hs : SetsUp t h result h') (calm : endsFatally result = false) :
    (h' = h ∧ ¬hasRun result) ∨
    h.isolate.state = .allocated ∧
      h'.standing = (if h.isolate.options.sharedSpace then h.joined else h).standing ∧
      (h'.isolate.state = .initialized ∨ h'.isolate.state = .failed) := by
  cases hs with
  | mismatched => cases calm
  | late => exact .inl ⟨rfl, by rintro (h | ⟨_, h, ⟨_, rfl⟩ | ⟨_, rfl⟩⟩) <;> cases h⟩
  | unable => exact .inl ⟨rfl, by rintro (h | ⟨_, h, ⟨_, rfl⟩ | ⟨_, rfl⟩⟩) <;> cases h⟩
  | @ran reached refusal snapshots _ state deserializer phases =>
    have hreached : reached.standing =
        (if h.isolate.options.sharedSpace then h.joined else h).standing := by
      have hphases :
          ((setUpPhases t refusal snapshots).outcome (h.inState .initializing)).2.standing =
            (if h.isolate.options.sharedSpace then (h.inState .initializing).joined
              else h.inState .initializing).standing := standing_setUpPhases
      rw [phases] at hphases
      refine hphases.trans ?_
      unfold inState joined
      dsimp only
      split
      · cases h.platform.sharedSpace? <;> rfl
      · rfl
    obtain (e | e) | u := result
    · exact .inr ⟨state, hreached, .inr rfl⟩
    · cases calm
    · exact .inr ⟨state, hreached, .inl rfl⟩

/-- Tearing down that runs leaves the space. -/
theorem TearsDown.standing (hs : TearsDown h result h') (halive : h.OwnsAlive)
    (calm : endsFatally result = false) :
    h' = h ∨
    (∀ id s, h.isolate.spaceRole = some (.owner id) → h.platform.space? id = some s →
        s.space.clients = []) ∧
      h'.standing = h.parted.standing ∧ h'.isolate.state = .deinitialized := by
  cases hs with
  | before => exact .inl rfl
  | busy => exact .inl rfl
  | @done reached state released =>
    have hcases := detachSharedSpace_cases (h := (h.inState .deinitializing).stopped) halive
    obtain ⟨hclients, hd⟩ | ⟨id, s, -, -, -, hd⟩ := hcases
    · have hreached : reached.standing = h.parted.standing := by
        have hrelease := standing_releaseAll hd
        rw [released] at hrelease
        exact hrelease
      exact .inr ⟨hclients, hreached, rfl⟩
    · rw [outcome_releaseAll_stuck hd] at released
      cases released
  | died state released =>
    obtain ⟨_, rfl⟩ := releaseAll_dies.error trivial released
    cases calm

end Hosted

end ScriptEngine

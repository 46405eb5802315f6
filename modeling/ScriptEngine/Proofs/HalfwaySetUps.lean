import ScriptEngine.Proofs.BookedMemory
import ScriptEngine.Proofs.SharedSpaces

namespace ScriptEngine

open ScriptEngine.Action

/-- What is left of blobs when an isolate has given back the one that it has. -/
def BlobRegistry.givenBack (blobs : BlobRegistry) : Option BlobHandle → BlobRegistry
  | none => blobs
  | some handle => ((BlobRegistry.release handle).outcome blobs).2

/-- Beyond `base`, budgets book the code range of the isolate, if it has one. -/
def Holding.Owes (base : List Nat) (k : Holding) : Prop :=
  k.pages.booked = base.map (· + (k.stake.range.map (·.size)).getD 0)

theorem Holding.Owes.withoutRange {base : List Nat} {k : Holding} (hk : k.Owes base) :
    k.withoutRange.Owes base := by
  unfold Owes at hk ⊢
  unfold Holding.withoutRange
  cases hrange : k.stake.range with
  | none =>
    rw [hrange] at hk
    exact hk
  | some r =>
    rw [hrange] at hk
    show (k.pages.release r).booked = _
    rw [PageAllocator.release_booked, hk, List.map_map]
    simp [Function.comp_def]

namespace Hosted

variable {h h' : Hosted} {t : ThreadId} {refusal : Option String} {text : String}
  {snapshots : Option SnapshotSet} {r : Reservation} {pages : PageAllocator} {base : List Nat}

/-- The isolate has its code range, caches and handles. -/
def equipped (h : Hosted) (r : Reservation) (pages : PageAllocator) : Hosted :=
  ⟨{ h.isolate with
      codes := h.isolate.codes.setRange { reservation := r }
      subsystems := h.isolate.subsystems.createCore },
    { h.platform with pages }⟩

/-- The isolate has what it gets before its compile thread, and its part in the shared space comes
first, if it is to have one. -/
def begun (h : Hosted) (r : Reservation) (pages : PageAllocator) : Hosted :=
  (if h.isolate.options.sharedSpace then h.joined else h).equipped r pages

/-- Setting up has stopped where the compile thread was to start. -/
def halfway (h : Hosted) (r : Reservation) (pages : PageAllocator) : Hosted :=
  ((h.inState .initializing).begun r pages).inState .failed

theorem pages_joined : h.joined.platform.pages = h.platform.pages := by
  unfold joined
  cases h.platform.sharedSpace? <;> rfl

theorem outcome_reserve {size : Nat} {purpose : String}
    (hr : h.platform.pages.reserve size = some (r, pages)) :
    (reserve size purpose).outcome h = (.ok r, ⟨h.isolate, { h.platform with pages }⟩) := by
  unfold reserve Platform.reserve
  rw [outcome_get_bind, hr]
  rfl

theorem outcome_reserve_exhausted {size : Nat} {purpose : String}
    (hr : h.platform.pages.reserve size = none) :
    (reserve size purpose).outcome h = (.error (.fatal (.outOfMemory purpose)), h) := by
  unfold reserve Platform.reserve
  rw [outcome_get_bind, hr]
  rfl

/-- The phases stop where the system refuses the compile thread. -/
theorem outcome_setUpPhases_unstarted
    (hr : h.platform.pages.reserve h.isolate.options.codeRangeSize = some (r, pages))
    (hc : h.isolate.options.concurrentRecompilation = true) :
    (setUpPhases t (some text) snapshots).outcome h =
      (.error (.refused (.system text)), h.begun r pages) := by
  unfold setUpPhases begun
  rw [outcome_get_bind]
  dsimp only
  rw [if_pos hc]
  split
  · have hjoined : h.joined.platform.pages.reserve h.isolate.options.codeRangeSize =
        some (r, pages) := by rw [pages_joined, hr]
    rw [outcome_bind_ok outcome_attachSharedSpace, outcome_bind_ok (outcome_reserve hjoined)]
    rfl
  · rw [outcome_bind_ok (outcome_reserve hr)]
    rfl

theorem outcome_setUpPhases_exhausted
    (hr : h.platform.pages.reserve h.isolate.options.codeRangeSize = none) :
    ((setUpPhases t refusal snapshots).outcome h).1 =
      .error (.fatal (.outOfMemory "code range")) := by
  unfold setUpPhases
  rw [outcome_get_bind]
  dsimp only
  split
  · have hjoined : h.joined.platform.pages.reserve h.isolate.options.codeRangeSize = none := by
      rw [pages_joined, hr]
    rw [outcome_bind_ok outcome_attachSharedSpace,
      outcome_bind_error (outcome_reserve_exhausted hjoined)]
  · rw [outcome_bind_error (outcome_reserve_exhausted hr)]

/-- Setting up fails half way, from scratch or not, if the system does not start the compile
thread. -/
theorem outcome_setUpFrom_unstarted (hs : h.isolate.state = .allocated)
    (hd : snapshots.isSome → h.isolate.deserializer ≠ none)
    (hr : h.platform.pages.reserve h.isolate.options.codeRangeSize = some (r, pages))
    (hc : h.isolate.options.concurrentRecompilation = true) :
    (setUpFrom t (some text) snapshots).outcome h =
      (.error (.refused (.system text)), h.halfway r pages) := by
  have hable : ¬(snapshots.isSome && h.isolate.deserializer.isNone) = true := by
    intro hunable
    obtain ⟨hsome, hnone⟩ := Bool.and_eq_true_iff.mp hunable
    exact hd hsome (Option.isNone_iff_eq_none.mp hnone)
  have hset : (setState .initializing).outcome h = (.ok (), h.inState .initializing) := rfl
  have hstops : (setUpPhases t (some text) snapshots).outcome (h.inState .initializing) =
      (.error (.refused (.system text)), (h.inState .initializing).begun r pages) :=
    outcome_setUpPhases_unstarted hr hc
  have hphases : (attempt (setUpPhases t (some text) snapshots)).outcome (h.inState .initializing) =
      (.ok (.error (.refused (.system text))), (h.inState .initializing).begun r pages) := by
    rw [outcome_attempt, hstops]
  unfold setUpFrom
  rw [outcome_get_bind]
  dsimp only
  rw [if_neg (not_not_intro hs), if_neg hable, outcome_bind_ok hset, outcome_bind_ok hphases]
  rfl

/-- Whoever has no compile thread does not care what the system says. -/
theorem outcome_setUpPhases_alone (hc : h.isolate.options.concurrentRecompilation = false) :
    (setUpPhases t refusal snapshots).outcome h = (setUpPhases t none snapshots).outcome h := by
  unfold setUpPhases
  rw [outcome_get_bind, outcome_get_bind]
  dsimp only
  rw [hc]
  rfl

/-- The system refuses nothing but the compile thread. -/
theorem setUpPhases_not_system :
    Meets (fun _ => True) (setUpPhases t none snapshots) (fun _ _ => True)
      fun e _ => ∀ text, e ≠ .refused (.system text) := by
  refine meets_setUpPhases (P := fun _ => True) (R := fun _ => True) (fun _ _ _ _ _ => trivial) ?_
    (fun _ _ _ => nofun) (fun _ _ _ h => (by cases h)) (fun _ _ _ _ => nofun)
    (fun _ _ _ _ _ => nofun)
  refine meets_setUpBlob (fun _ _ _ _ => nofun) (fun _ _ _ _ _ => trivial) fun h _ _ r _ => ?_
  cases ho : (BlobRegistry.createAndSet h.isolate.blob).outcome r with
  | mk result r' =>
    cases result with
    | ok handle => trivial
    | error e =>
      obtain ⟨misuse, rfl⟩ := BlobRegistry.createAndSet_error ho
      exact fun _ => nofun

/-- An isolate whose set up the system refuses was to have a compile thread, and is set up half
way. -/
theorem SetsUp.unstarted (hs : SetsUp t h (.error (.refused (.system text))) h') :
    h.isolate.state = .allocated ∧ h.isolate.options.concurrentRecompilation = true ∧
    ∃ r pages, h.platform.pages.reserve h.isolate.options.codeRangeSize = some (r, pages) ∧
      h' = h.halfway r pages := by
  generalize hresult : (.error (.refused (.system text)) : Except Failure Unit) = result at hs
  cases hs with
  | mismatched => cases hresult
  | late => cases hresult
  | unable => cases hresult
  | @ran reached refusal snapshots _ state deserializer phases =>
    subst hresult
    have hstarts : (setUpPhases t none snapshots).outcome (h.inState .initializing) ≠
        (.error (.refused (.system text)), reached) := fun ho =>
      setUpPhases_not_system.error trivial ho text rfl
    have hwants : h.isolate.options.concurrentRecompilation = true := by
      by_contra hnone
      have halone : (h.inState .initializing).isolate.options.concurrentRecompilation = false :=
        Bool.eq_false_iff.mpr hnone
      rw [outcome_setUpPhases_alone halone] at phases
      exact hstarts phases
    obtain _ | said := refusal
    · exact absurd phases hstarts
    cases hr : (h.inState .initializing).platform.pages.reserve
        (h.inState .initializing).isolate.options.codeRangeSize with
    | none =>
      have hexhausted : ((setUpPhases t (some said) snapshots).outcome
          (h.inState .initializing)).1 = .error (.fatal (.outOfMemory "code range")) :=
        outcome_setUpPhases_exhausted hr
      rw [phases] at hexhausted
      cases hexhausted
    | some taken =>
      obtain ⟨r, pages⟩ := taken
      rw [outcome_setUpPhases_unstarted hr hwants] at phases
      cases phases
      exact ⟨state, hwants, r, pages, hr, rfl⟩

theorem isSome_role_joined : h.joined.isolate.spaceRole.isSome = true := by
  unfold joined
  cases h.platform.sharedSpace? <;> rfl

/-- Half way, an isolate has its part in the shared space, a code range, caches and handles, and
what it had before. It has neither a compile thread nor builtins, and no thread was attached. -/
theorem liveSubsystems_halfway (hrole : h.isolate.spaceRole = none) :
    (h.halfway r pages).isolate.liveSubsystems =
      h.isolate.subsystems.createCore.live ++ ["code range"] ++
      (if h.isolate.builtins.isSome then ["builtins"] else []) ++
      (if h.isolate.blob.isSome then ["embedded blob"] else []) ++
      (if h.isolate.options.sharedSpace then ["shared space"] else []) ++
      (if h.isolate.threads.isEmpty then [] else ["thread data"]) := by
  have hequipped : ∀ h : Hosted, (h.equipped r pages).isolate.liveSubsystems =
      h.isolate.subsystems.createCore.live ++ ["code range"] ++
      (if h.isolate.builtins.isSome then ["builtins"] else []) ++
      (if h.isolate.blob.isSome then ["embedded blob"] else []) ++
      (if h.isolate.spaceRole.isSome then ["shared space"] else []) ++
      (if h.isolate.threads.isEmpty then [] else ["thread data"]) := fun _ => rfl
  unfold halfway begun
  refine (hequipped _).trans ?_
  by_cases hshared : h.isolate.options.sharedSpace = true
  · have hjoins : (h.inState .initializing).isolate.options.sharedSpace = true := hshared
    rw [if_pos hjoins, if_pos hshared, isSome_role_joined]
    unfold joined
    cases (h.inState .initializing).platform.sharedSpace? <;> rfl
  · have halone : ¬(h.inState .initializing).isolate.options.sharedSpace = true := hshared
    rw [if_neg halone, if_neg hshared]
    show _ ++ (if h.isolate.spaceRole.isSome then _ else _) ++ _ = _
    rw [hrole]
    rfl

/-- What half way is booked for the isolate is its code range. -/
theorem halfway_owes
    (hr : h.platform.pages.reserve h.isolate.options.codeRangeSize = some (r, pages)) :
    (h.halfway r pages).holding.Owes h.platform.pages.booked := by
  obtain ⟨hsize, hbooked⟩ := PageAllocator.reserve_booked hr
  show pages.booked = h.platform.pages.booked.map (· + r.size)
  rw [hbooked, hsize]

theorem blobs_halfway : (h.halfway r pages).isolate.blob = h.isolate.blob ∧
    (h.halfway r pages).platform.blobs = h.platform.blobs := by
  unfold halfway begun
  split
  · unfold joined
    cases (h.inState .initializing).platform.sharedSpace? <;> exact ⟨rfl, rfl⟩
  · exact ⟨rfl, rfl⟩

theorem releaseAll_settles {blob : Option BlobHandle} {blobs : BlobRegistry} :
    Meets (fun h => h.holding.Owes base ∧ h.isolate.blob = blob ∧ h.platform.blobs = blobs)
      releaseAll (fun _ h => h.holding.Owes base ∧ h.platform.blobs = blobs.givenBack blob)
      fun _ _ => True := by
  refine meets_releaseAll
    (P := fun k => k.Owes base ∧ k.stake.blob = blob ∧ k.blobs = blobs)
    (Q := fun k => k.Owes base ∧ k.blobs = blobs.givenBack blob)
    (fun _ _ _ _ => trivial) (fun k hk => ⟨hk.1.withoutRange, hk.2⟩) ?_
  refine meets_releaseBlob ?_ ?_
  · rintro h ⟨howes, hblob, hblobs⟩ hnone
    have hblob : blob = none := hblob.symm.trans hnone
    exact ⟨howes, hblob ▸ hblobs⟩
  · rintro h handle ⟨howes, hblob, hblobs⟩ hsome
    have hblob : blob = some handle := hblob.symm.trans hsome
    have hblobs : h.platform.blobs = blobs := hblobs
    rw [hblob, hblobs]
    refine meets_at ?_
    cases ho : (BlobRegistry.release handle).outcome blobs with
    | mk result reached =>
      cases result with
      | ok u => exact ⟨howes, (congrArg Prod.snd ho).symm⟩
      | error e => trivial

/-- Tearing down leaves nothing alive, and gives back the code range and the blob, once each. -/
theorem TearsDown.settles (hs : TearsDown h (.ok ()) h') (hstate : h.isolate.state ≠ .deinitialized)
    (howes : h.holding.Owes base) : h'.isolate.liveSubsystems = [] ∧
      h'.platform.pages.booked = base ∧
      h'.platform.blobs = h.platform.blobs.givenBack h.isolate.blob := by
  cases hs with
  | before state => exact absurd state hstate
  | @done reached state released =>
    have hlive : reached.isolate.liveSubsystems = [] :=
      releaseAll_leaves_nothing.ok trivial released
    have hstart : (h.inState .deinitializing).holding.Owes base := howes
    obtain ⟨hreached, hblobs⟩ := releaseAll_settles.ok ⟨hstart, rfl, rfl⟩ released
    unfold Holding.Owes at hreached
    have hrange : reached.holding.stake.range = none := (Isolate.stake_of_nothing_lives hlive).1
    rw [hrange] at hreached
    exact ⟨hlive, hreached.trans (List.map_id' _), hblobs⟩

/-- Setting up in vain costs nothing: an isolate that was set up half way and is torn down leaves
memory and blobs as it does if it is torn down at once. -/
theorem SetsUp.costs_nothing {h₁ h₂ h₃ : Hosted} (hfresh : h.isolate.codes.range = none)
    (hs : SetsUp t h (.error (.refused (.system text))) h₁) (torn : TearsDown h₁ (.ok ()) h₂)
    (atOnce : TearsDown h (.ok ()) h₃) : h₂.isolate.liveSubsystems = [] ∧
      h₂.platform.pages.booked = h₃.platform.pages.booked ∧
      h₂.platform.blobs = h₃.platform.blobs := by
  obtain ⟨hstate, -, r, pages, hr, rfl⟩ := hs.unstarted
  have howes : h.holding.Owes h.platform.pages.booked := by
    have hnone : h.holding.stake.range = none := by
      show h.isolate.codes.range.map (·.reservation) = none
      rw [hfresh]
      rfl
    unfold Holding.Owes
    rw [hnone]
    exact (List.map_id' _).symm
  obtain ⟨hlive, hpages, hblobs⟩ := torn.settles nofun (halfway_owes hr)
  obtain ⟨-, hpages', hblobs'⟩ := atOnce.settles (by rw [hstate]; exact nofun) howes
  rw [blobs_halfway.1, blobs_halfway.2] at hblobs
  exact ⟨hlive, hpages.trans hpages'.symm, hblobs.trans hblobs'.symm⟩

end Hosted

end ScriptEngine

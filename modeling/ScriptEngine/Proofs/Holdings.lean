import ScriptEngine.Proofs.Contracts

namespace ScriptEngine

/-- What an isolate holds of its platform, and how far its life has got. -/
structure Stake where
  id : IsolateId
  options : IsolateOptions
  state : LifecycleState
  past : List LifecycleState
  region : Option Reservation
  range : Option Reservation
  blob : Option BlobHandle

def Isolate.stake (i : Isolate) : Stake where
  id := i.id
  options := i.options
  state := i.state
  past := i.past
  region := i.region
  range := i.codes.range.map (·.reservation)
  blob := i.blob

def Stake.life (s : Stake) : List LifecycleState := s.state :: s.past

/-- Where nothing lives, there is neither a code range nor a blob. -/
theorem Isolate.stake_of_nothing_lives {i : Isolate} (h : i.liveSubsystems = []) :
    i.stake.range = none ∧ i.stake.blob = none := by
  simp only [liveSubsystems, List.append_eq_nil_iff] at h
  obtain ⟨⟨⟨⟨⟨-, hrange⟩, -⟩, hblob⟩, -⟩, -⟩ := h
  refine ⟨?_, ?_⟩
  · cases hr : i.codes.range with
    | none => rw [Isolate.stake, hr]; rfl
    | some r => simp [hr] at hrange
  · cases hb : i.blob with
    | none => exact hb
    | some b => simp [hb] at hblob

/-- The stake of an isolate, with what its platform keeps account of. -/
structure Holding where
  stake : Stake
  deserializer : Option Deserializer
  process : ProcessOptions
  pages : PageAllocator
  blobs : BlobRegistry

def Hosted.holding (h : Hosted) : Holding where
  stake := h.isolate.stake
  deserializer := h.isolate.deserializer
  process := h.platform.options
  pages := h.platform.pages
  blobs := h.platform.blobs

/-- What an isolate and its platform keep for life. -/
def Holding.ground (h : Holding) : IsolateId × IsolateOptions × ProcessOptions :=
  (h.stake.id, h.stake.options, h.process)

/-- The code range is gone, and its memory is back. -/
def Holding.withoutRange (h : Holding) : Holding :=
  { h with
    stake := { h.stake with range := none }
    pages := (h.stake.range.map h.pages.release).getD h.pages }

namespace Builtins

theorem install_range (blob : Blob) (base : Address) (registry : CodeRegistry) :
    (install blob base registry).2.range = registry.range := by
  unfold install
  dsimp only
  generalize Builtins.mk blob base registry.installed = table
  induction Builtin.all generalizing registry with
  | nil => rfl
  | cons b rest ih =>
    rw [List.foldl_cons, ih]
    rfl

theorem uninstall_range (table : Builtins) (registry : CodeRegistry) :
    (table.uninstall registry).range = registry.range := by
  unfold uninstall
  induction table.codes generalizing registry with
  | nil => rfl
  | cons c rest ih =>
    rw [List.foldl_cons, ih]
    rfl

end Builtins

namespace Hosted

open ScriptEngine.Action

variable {P : Holding → Prop} {Q : Unit → Hosted → Prop} {F : Failure → Hosted → Prop}
  {h h' : Hosted} {t : ThreadId} {refusal : Option String} {snapshots : Option SnapshotSet}

theorem meets_modifyIsolate {f : Isolate → Isolate} (hs : ∀ i, (f i).stake = i.stake)
    (hd : ∀ i, (f i).deserializer = i.deserializer) :
    Meets (fun h => P h.holding) (modifyIsolate f) (fun _ h => P h.holding) F := by
  refine meets_modify fun h hp => ?_
  have hsame : Hosted.holding { h with isolate := f h.isolate } = h.holding := by
    simp only [Hosted.holding, hs, hd]
  exact hsame ▸ hp

theorem meets_attachSharedSpace :
    Meets (fun h => P h.holding) attachSharedSpace (fun _ h => P h.holding) F := by
  refine meets_get_bind fun h hp => ?_
  split
  · refine Meets.bind (Q := fun _ h => P h.holding) ?_ fun _ => ?_
    · exact meets_modify fun _ hs => hs ▸ hp
    · exact meets_modifyIsolate (fun _ => rfl) fun _ => rfl
  · refine Meets.bind (Q := fun _ h => P h.holding) ?_ fun _ => ?_
    · exact meets_set hp
    · exact meets_modifyIsolate (fun _ => rfl) fun _ => rfl

/-- Leaving the shared space changes the role of the isolate, and the spaces of its platform. Only
an owner that has clients cannot leave. -/
theorem meets_detachSharedSpace {R : Hosted → Prop}
    (clients : ∀ h owner n, R h → F (.fatal (.sharedSpaceClientsAlive owner n)) h) :
    Meets (fun h => ∀ spaces slot,
        R ⟨{ h.isolate with spaceRole := none }, { h.platform with spaces, slot }⟩)
      detachSharedSpace (fun _ => R) F := by
  let R' (h : Hosted) : Prop := ∀ spaces slot,
    R { h with platform := { h.platform with spaces, slot } }
  refine meets_get_bind fun h hr => ?_
  refine Meets.bind (Q := fun _ => R') ?_ fun _ => ?_
  · exact meets_modify fun _ hs => hs ▸ hr
  split
  · exact meets_pure fun h hs => hs h.platform.spaces h.platform.slot
  · exact meets_modify fun h hs => hs _ h.platform.slot
  · refine Meets.bind (Q := fun _ => R')
      (meets_modify fun h hs => fun spaces slot => hs spaces slot) fun _ => ?_
    split
    · exact meets_pure fun h hs => hs h.platform.spaces h.platform.slot
    · refine Meets.bind (Q := fun _ => R') ?_ fun _ => ?_
      · unfold SharedSpace.checkNoClients
        split
        · exact meets_pure fun _ hs => hs
        · exact meets_die fun h hs => clients h _ _ (hs h.platform.spaces h.platform.slot)
      · refine meets_modify fun h hs => ?_
        dsimp only
        split
        · exact hs h.platform.spaces none
        · exact hs h.platform.spaces h.platform.slot

theorem meets_attach :
    Meets (fun h => P h.holding) (modifyIsolate fun i => (i.attach t).setTop t {})
      (fun _ h => P h.holding) F := by
  refine meets_modifyIsolate (fun i => ?_) fun i => ?_
  · unfold Isolate.attach
    split <;> rfl
  · unfold Isolate.attach
    split <;> rfl

theorem meets_installBuiltins (placed : PlacedBlob) :
    Meets (fun h => P h.holding) (onIsolate (installBuiltins placed)) (fun _ h => P h.holding)
      F := by
  refine meets_onPart fun h hp => meets_get_bind fun i hi => ?_
  cases hi
  let R (i : Isolate) : Prop := P (Hosted.holding { h with isolate := i })
  have hrange := Builtins.install_range placed.blob placed.codeAddress h.isolate.codes
  generalize Builtins.install placed.blob placed.codeAddress h.isolate.codes = installed at hrange
  obtain ⟨builtins, codes⟩ := installed
  have hcodes : codes.range = h.isolate.codes.range := hrange
  refine Meets.bind (Q := fun _ => R) (meets_set ?_) fun _ => ?_
  · have hsame : Isolate.stake { h.isolate with codes := codes } = h.isolate.stake := by
      simp only [Isolate.stake, hcodes]
    show P { h.holding with stake := Isolate.stake { h.isolate with codes := codes } }
    exact hsame ▸ hp
  refine Meets.bind (Q := fun _ => R) ?_ fun _ => meets_modify fun i hi => hi
  refine Meets.bind (Q := fun _ => R) (fun i hi => hi) fun _ => ?_
  refine Meets.bind (Q := fun _ => R) (fun i hi => hi) fun _ => ?_
  refine Meets.bind (Q := fun _ => R) (fun i hi => hi) fun _ => ?_
  exact meets_modify fun i hi => hi

/-- Reading snapshots fails for want of a deserializer, or because the deserializer says so. -/
theorem meets_deserialize {s : SnapshotSet}
    (refused : ∀ h e, P h.holding → F (.refused (.snapshot e)) h)
    (unable : ∀ h, P h.holding → h.isolate.deserializer = none → F (.refused .noDeserializer) h) :
    Meets (fun h => P h.holding) (onIsolate (deserialize s)) (fun _ h => P h.holding) F := by
  refine meets_onPart fun h hp => meets_get_bind fun i hi => ?_
  cases hi
  cases hd : h.isolate.deserializer with
  | none =>
    refine meets_refuse ?_
    rintro _ rfl
    exact unable h hp hd
  | some d =>
    refine Meets.bind (Q := fun _ i => P (Hosted.holding { h with isolate := i })) ?_ fun _ => ?_
    · exact meets_set hp
    split
    · exact meets_pure fun _ hi => hi
    · exact meets_refuse fun _ hi => refused _ _ hi

theorem meets_reserve {R : Hosted → Prop} {Q : Reservation → Hosted → Prop} {size : Nat}
    {purpose : String} (memory : ∀ h, R h → F (.fatal (.outOfMemory purpose)) h)
    (reserved : ∀ h r pages, R h → h.platform.pages.reserve size = some (r, pages) →
      Q r { h with platform := { h.platform with pages } }) :
    Meets R (reserve size purpose) Q F := by
  refine meets_get_bind fun h hr => ?_
  unfold Platform.reserve
  cases hp : h.platform.pages.reserve size with
  | none =>
    refine meets_die ?_
    rintro _ rfl
    exact memory _ hr
  | some taken =>
    rintro s rfl
    exact reserved s taken.1 taken.2 hr hp

/-- A blob is made for whoever boots from scratch without the blob of the binary. Whoever else has
none cannot be set up. -/
theorem meets_setUpBlob {R : Hosted → Prop} {Q : PlacedBlob → Hosted → Prop} {fromSnapshot : Bool}
    (missing : ∀ h, R h → h.isolate.blob = none → F (.fatal (.blobMismatch .missing)) h)
    (held : ∀ h handle, R h → h.isolate.blob = some handle → fromSnapshot ∨ handle.isBinary →
      Q handle.placed { h with
        platform := { h.platform with blobs := h.platform.blobs.setCurrent handle.placed } })
    (made : ∀ h, R h → (∀ handle, h.isolate.blob = some handle → ¬handle.isBinary) →
      Meets (· = h.platform.blobs) (BlobRegistry.createAndSet h.isolate.blob)
        (fun handle blobs => Q handle.placed
          ⟨{ h.isolate with blob := some handle },
            { h.platform with blobs := blobs.setCurrent handle.placed }⟩)
        (fun e blobs => F e { h with platform := { h.platform with blobs } })) :
    Meets R (setUpBlob fromSnapshot) Q F := by
  refine meets_get_bind fun h hr => ?_
  dsimp only
  split
  · rename_i hmakes
    have hforeign : ∀ handle, h.isolate.blob = some handle → ¬handle.isBinary := by
      intro handle hblob
      simp only [hblob, Option.any_some, Bool.and_eq_true, Bool.not_eq_true'] at hmakes
      simp [hmakes.2]
    refine Meets.bind (Q := fun handle h' => Q handle.placed
      ⟨{ h'.isolate with blob := some handle },
        { h'.platform with blobs := h'.platform.blobs.setCurrent handle.placed }⟩) ?_
      fun handle => ?_
    · exact meets_onPart fun _ hs => hs ▸ made h hr hforeign
    refine Meets.bind (Q := fun _ h' => h'.isolate.blob = some handle ∧ Q handle.placed
      { h' with platform :=
        { h'.platform with blobs := h'.platform.blobs.setCurrent handle.placed } }) ?_
      fun _ => ?_
    · exact meets_modify fun h' hq => ⟨rfl, hq⟩
    refine meets_get_bind fun h' hq => ?_
    rw [hq.1]
    refine Meets.bind (Q := fun _ => Q handle.placed) ?_ fun _ => meets_pure fun _ hq => hq
    exact meets_onPart fun _ hs => meets_modify fun _ hb => hb ▸ hs ▸ hq.2
  · rename_i hkeeps
    refine meets_get_bind_at ?_
    cases hblob : h.isolate.blob with
    | none => exact meets_die fun _ hs => hs ▸ missing h hr hblob
    | some handle =>
      have hbinary : fromSnapshot ∨ handle.isBinary := by
        rw [hblob] at hkeeps
        cases fromSnapshot <;> simp_all
      refine Meets.bind (Q := fun _ => Q handle.placed) ?_ fun _ => meets_pure fun _ hq => hq
      have hheld := held h handle hr hblob hbinary
      exact meets_onPart fun _ hs => meets_modify fun _ hb => hb ▸ hs ▸ hheld

/-- The compile thread is started, or the system says why it is not. -/
theorem meets_startCompileThread
    (started : ∀ h text, P h.holding → refusal = some text → F (.refused (.system text)) h) :
    Meets (fun h => P h.holding) (startCompileThread refusal) (fun _ h => P h.holding) F := by
  cases refusal with
  | none => exact meets_modify fun _ hp => hp
  | some text => exact meets_refuse fun h hp => started h text hp rfl

/-- Setting up takes a code range, and keeps what getting a blob keeps. It fails where these fail,
or because there is no memory, because the compile thread is not started, or because the snapshots
are refused. -/
theorem meets_setUpPhases {R : Holding → Prop}
    (range : ∀ h r pages, P h → h.pages.reserve h.stake.options.codeRangeSize = some (r, pages) →
      R { h with stake := { h.stake with range := some r }, pages })
    (blob : Meets (fun h => R h.holding) (setUpBlob snapshots.isSome) (fun _ h => R h.holding) F)
    (memory : ∀ h, P h.holding → F (.fatal (.outOfMemory "code range")) h)
    (started : ∀ h text, R h.holding → refusal = some text → F (.refused (.system text)) h)
    (refused : ∀ h e, R h.holding → F (.refused (.snapshot e)) h)
    (unable : ∀ h, R h.holding → snapshots.isSome → h.isolate.deserializer = none →
      F (.refused .noDeserializer) h) :
    Meets (fun h => P h.holding) (setUpPhases t refusal snapshots) (fun _ h => R h.holding) F := by
  refine meets_get_bind fun h₀ hp₀ => ?_
  -- The size of the code range is read before the shared space is joined, which keeps the options.
  have hstart : ∀ h, h = h₀ → h.holding.stake.options = h₀.isolate.options ∧ P h.holding := by
    rintro h rfl
    exact ⟨rfl, hp₀⟩
  refine Meets.strengthen ?_ hstart
  refine meets_when (meets_attachSharedSpace (P := fun k => k.stake.options = _ ∧ P k)) ?_
  have hreserve : Meets (fun h => h.holding.stake.options = h₀.isolate.options ∧ P h.holding)
      (reserve h₀.isolate.options.codeRangeSize "code range")
      (fun r h => R { h.holding with stake := { h.holding.stake with range := some r } }) F := by
    refine meets_reserve (fun h hp => memory h hp.2) fun h r pages hp hr => ?_
    rw [← hp.1] at hr
    exact range h.holding r pages hp.2 hr
  refine hreserve.bind fun r => ?_
  refine Meets.bind (Q := fun _ h => R h.holding) (meets_modify fun h hp => hp) fun _ => ?_
  refine meets_when (meets_startCompileThread started) ?_
  refine meets_attach.bind fun _ => blob.bind fun placed => ?_
  refine (meets_installBuiltins placed).bind fun _ => ?_
  cases snapshots with
  | none => exact meets_pure fun _ hp => hp
  | some s => exact meets_deserialize refused fun h hp => unable h hp rfl

theorem range_uninstall (i : Isolate) :
    (((i.builtins.map (·.uninstall i.codes)).getD i.codes).clear).range = i.codes.range := by
  cases i.builtins with
  | none => rfl
  | some builtins => exact builtins.uninstall_range i.codes

/-- Releasing the code takes the builtins, and gives the code range back. -/
theorem meets_releaseCode {R : Hosted → Prop} :
    Meets (fun h => ∀ codes : CodeRegistry, codes.range = none →
        R ⟨{ h.isolate with codes, builtins := none },
          { h.platform with
            pages := ((h.isolate.codes.range.map (·.reservation)).map h.platform.pages.release).getD
              h.platform.pages }⟩)
      releaseCode (fun _ => R) F := by
  let R' (h : Hosted) : Prop := ∀ codes : CodeRegistry, codes.range = none →
    R ⟨{ h.isolate with codes },
      { h.platform with
        pages := ((h.isolate.codes.range.map (·.reservation)).map h.platform.pages.release).getD
          h.platform.pages }⟩
  refine Meets.bind (Q := fun _ => R') (meets_modify fun h hr codes hnone => ?_) fun _ => ?_
  · simp only [range_uninstall]
    exact hr codes hnone
  refine meets_get_bind fun h hr => ?_
  dsimp only [CodeRegistry.takeRange]
  have hgone := hr { h.isolate.codes with range := none } rfl
  refine Meets.bind (Q := fun _ h' => h' =
      { h with isolate := { h.isolate with codes := { h.isolate.codes with range := none } } })
    ?_ fun _ => ?_
  · exact meets_modify fun _ hs => by rw [hs]
  cases hrange : h.isolate.codes.range with
  | none =>
    rw [hrange] at hgone
    refine meets_pure ?_
    rintro _ rfl
    exact hgone
  | some range =>
    rw [hrange] at hgone
    refine meets_modify ?_
    rintro _ rfl
    exact hgone

/-- A blob that is given back is gone from the isolate, whatever the registry says. -/
theorem meets_releaseBlob {R : Hosted → Prop}
    (without : ∀ h, R h → h.isolate.blob = none → Q () h)
    (given : ∀ h handle, R h → h.isolate.blob = some handle →
      Meets (· = h.platform.blobs) (BlobRegistry.release handle)
        (fun _ blobs => Q () ⟨{ h.isolate with blob := none }, { h.platform with blobs }⟩)
        (fun e blobs => F e ⟨{ h.isolate with blob := none }, { h.platform with blobs }⟩)) :
    Meets R releaseBlob Q F := by
  refine meets_get_bind fun h hr => ?_
  dsimp only
  refine Meets.bind (Q := fun _ h' => h' = { h with isolate := { h.isolate with blob := none } }) ?_
    fun _ => ?_
  · exact meets_modify fun _ hs => by rw [hs]
  cases hblob : h.isolate.blob with
  | none =>
    refine meets_pure fun _ hs => hs ▸ ?_
    rw [← hblob]
    exact without h hr hblob
  | some handle => exact meets_onPart fun _ hs => hs ▸ given h handle hr hblob

/-- Taking an isolate apart that has left the shared space keeps what giving the code range and the
blob back keep. It fails where this fails, or because the isolate cannot leave. -/
theorem meets_releaseAll_leaving {R S : Hosted → Prop} {Q : Holding → Prop}
    (stops : ∀ h, R h → S { h with isolate :=
      { h.isolate with subsystems := { h.isolate.subsystems with compileQueue := none } } })
    (leaves : Meets S detachSharedSpace (fun _ h => P h.holding) F)
    (range : ∀ h, P h → P h.withoutRange)
    (blob : Meets (fun h => P h.holding) releaseBlob (fun _ h => Q h.holding) F) :
    Meets R releaseAll (fun _ h => Q h.holding) F := by
  refine Meets.bind (Q := fun _ => S) (meets_modify stops) fun _ => ?_
  refine leaves.bind fun _ => ?_
  refine (meets_modifyIsolate (fun _ => by rfl) fun _ => by rfl).bind fun _ => ?_
  refine Meets.bind (Q := fun _ h => P h.holding) ?_ fun _ => ?_
  · refine meets_releaseCode.strengthen fun h hp codes hnone => ?_
    have hrange : codes.range.map (·.reservation) = none := by rw [hnone]; rfl
    simp only [Hosted.holding, Isolate.stake, hrange]
    exact range h.holding hp
  refine (meets_modifyIsolate (fun _ => by rfl) fun _ => by rfl).bind fun _ => ?_
  refine blob.bind fun _ => ?_
  exact meets_modifyIsolate (fun _ => rfl) fun _ => rfl

/-- Only an owner that has clients cannot leave. -/
theorem meets_releaseAll {Q : Holding → Prop}
    (clients : ∀ h owner n, P h.holding → F (.fatal (.sharedSpaceClientsAlive owner n)) h)
    (range : ∀ h, P h → P h.withoutRange)
    (blob : Meets (fun h => P h.holding) releaseBlob (fun _ h => Q h.holding) F) :
    Meets (fun h => P h.holding) releaseAll (fun _ h => Q h.holding) F :=
  meets_releaseAll_leaving (S := fun h => P h.holding) (fun _ hp => hp)
    ((meets_detachSharedSpace clients).strengthen fun _ hp _ _ => hp) range blob

/-- An isolate that was taken apart has nothing left that lives. -/
theorem releaseAll_leaves_nothing :
    Meets (fun _ => True) releaseAll (fun _ h => h.isolate.liveSubsystems = [])
      fun _ _ => True := by
  -- What is gone so far, from step to step.
  let Idle (i : Isolate) : Prop := i.subsystems.compileQueue = none
  let Alone (i : Isolate) : Prop := Idle i ∧ i.spaceRole = none
  let Empty (i : Isolate) : Prop := Alone i ∧ i.threads = [] ∧ i.subsystems.globalHandles = none
  let Codeless (i : Isolate) : Prop := Empty i ∧ i.builtins = none ∧ i.codes.range = none
  let Bare (i : Isolate) : Prop := Codeless i ∧ i.blob = none
  refine Meets.bind (Q := fun _ h => Idle h.isolate) (meets_modify fun _ _ => rfl) fun _ => ?_
  refine Meets.bind (Q := fun _ h => Alone h.isolate) ?_ fun _ => ?_
  · refine (meets_detachSharedSpace fun _ _ _ _ => trivial).strengthen ?_
    exact fun h hidle _ _ => ⟨hidle, rfl⟩
  refine Meets.bind (Q := fun _ h => Empty h.isolate) ?_ fun _ => ?_
  · exact meets_modify fun _ halone => ⟨halone, rfl, rfl⟩
  refine Meets.bind (Q := fun _ h => Codeless h.isolate) ?_ fun _ => ?_
  · exact meets_releaseCode.strengthen fun h hempty codes hnone => ⟨hempty, rfl, hnone⟩
  refine Meets.bind (Q := fun _ h => Codeless h.isolate) ?_ fun _ => ?_
  · exact meets_modify fun _ hcodeless => hcodeless
  refine Meets.bind (Q := fun _ h => Bare h.isolate) ?_ fun _ => ?_
  · refine meets_releaseBlob (fun h hcodeless hnone => ⟨hcodeless, hnone⟩) fun h _ hcodeless _ => ?_
    exact meets_any (fun _ _ => ⟨hcodeless, rfl⟩) fun _ _ => trivial
  refine meets_modify ?_
  rintro h ⟨⟨⟨⟨hidle, hrole⟩, hthreads, hhandles⟩, hbuiltins, hrange⟩, hblob⟩
  simp only [Idle] at hidle
  simp [Isolate.liveSubsystems, Subsystems.clearCaches, Subsystems.live, hidle, hrole, hthreads,
    hhandles, hbuiltins, hrange, hblob]

/-- Setting up does not go on to another state before its phases are over. -/
theorem setUpPhases_keeps_life (l : List LifecycleState) :
    Meets (fun h => h.isolate.life = l) (setUpPhases t refusal snapshots)
      (fun _ h => h.isolate.life = l) fun _ h => h.isolate.life = l := by
  refine meets_setUpPhases (P := fun k => k.stake.life = l) (R := fun k => k.stake.life = l)
    (fun _ _ _ hl _ => hl) ?_ (fun _ hl => hl) (fun _ _ hl _ => hl) (fun _ _ hl => hl)
    fun _ hl _ _ => hl
  refine meets_setUpBlob (fun _ hl _ => hl) (fun _ _ hl _ _ => hl) fun h hl _ => ?_
  exact meets_any (fun _ _ => hl) fun _ _ => hl

theorem releaseAll_keeps_life (l : List LifecycleState) :
    Meets (fun h => h.isolate.life = l) releaseAll (fun _ h => h.isolate.life = l)
      fun _ h => h.isolate.life = l := by
  refine meets_releaseAll (P := fun k => k.stake.life = l) (Q := fun k => k.stake.life = l)
    (fun _ _ _ hl => hl) (fun _ hl => hl) ?_
  refine meets_releaseBlob (fun _ hl _ => hl) fun h _ hl _ => ?_
  exact meets_any (fun _ _ => hl) fun _ _ => hl

theorem setUpPhases_keeps_ground (g : IsolateId × IsolateOptions × ProcessOptions) :
    Meets (fun h => h.holding.ground = g) (setUpPhases t refusal snapshots)
      (fun _ h => h.holding.ground = g) fun _ h => h.holding.ground = g := by
  refine meets_setUpPhases (P := fun k => k.ground = g) (R := fun k => k.ground = g)
    (fun _ _ _ hg _ => hg) ?_ (fun _ hg => hg) (fun _ _ hg _ => hg) (fun _ _ hg => hg)
    fun _ hg _ _ => hg
  refine meets_setUpBlob (fun _ hg _ => hg) (fun _ _ hg _ _ => hg) fun h hg _ => ?_
  exact meets_any (fun _ _ => hg) fun _ _ => hg

theorem releaseAll_keeps_ground (g : IsolateId × IsolateOptions × ProcessOptions) :
    Meets (fun h => h.holding.ground = g) releaseAll (fun _ h => h.holding.ground = g)
      fun _ h => h.holding.ground = g := by
  refine meets_releaseAll (P := fun k => k.ground = g) (Q := fun k => k.ground = g)
    (fun _ _ _ hg => hg) (fun _ hg => hg) ?_
  refine meets_releaseBlob (fun _ hg _ => hg) fun h _ hg _ => ?_
  exact meets_any (fun _ _ => hg) fun _ _ => hg

end Hosted

end ScriptEngine

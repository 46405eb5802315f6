import ScriptEngine.Proofs.BlobReferences
import ScriptEngine.Proofs.Residents

namespace ScriptEngine

open ScriptEngine.Action

/-- How often a count falls to zero from one moment to the next. -/
def fell (before after : Nat) : Nat := if before ≠ 0 ∧ after = 0 then 1 else 0

theorem fell_of_le {a b : Nat} (h : a ≤ b) : fell a b = 0 := by
  unfold fell
  rw [if_neg]
  omega

namespace BlobRegistry

variable {r : BlobRegistry} {n : Nat} {b : PlacedBlob}

/-- The registry counts so many references. -/
structure Counts (r : BlobRegistry) (n : Nat) : Prop where
  counting : r.isCounting = true
  refs : r.refs = n
  sticky : r.sticky.isSome ↔ 0 < n
  /-- With a blob in the binary there is nothing to count. -/
  binary : r.default.isSome → n = 0 ∧ r.frees = 0
  current : r.default = none → r.current = (r.sticky.map (·.view)).getD {}
  placed : ∀ b, r.sticky = some b → 0 < b.codeAddress
  nextAddress : 0 < r.nextAddress

theorem Counts.default_none (h : r.Counts n) (hs : r.sticky = some b) : r.default = none := by
  have hpos : 0 < n := h.sticky.mp (by rw [hs]; rfl)
  by_contra hd
  have hzero := (h.binary (Option.ne_none_iff_isSome.mp hd)).1
  omega

theorem Counts.isNull_current (h : r.Counts n) (hd : r.default = none) :
    r.current.isNull ↔ n = 0 := by
  rw [h.current hd]
  cases hs : r.sticky with
  | none =>
    have hn : ¬0 < n := fun hpos => by
      have := h.sticky.mpr hpos
      rw [hs] at this
      cases this
    exact ⟨fun _ => Nat.eq_zero_of_not_pos hn, fun _ => rfl⟩
  | some b =>
    have hn : 0 < n := h.sticky.mp (by rw [hs]; rfl)
    have haddress : b.codeAddress ≠ 0 := Nat.ne_of_gt (h.placed b hs)
    have hnull : b.view.isNull = false := by simpa [BlobView.isNull, PlacedBlob.view] using haddress
    exact ⟨fun hnull' => absurd (hnull.symm.trans hnull') (by decide), fun hzero => by omega⟩

theorem Counts.publish (h : r.Counts n) (hs : r.sticky = some b) : (r.setCurrent b).Counts n :=
  { h with current := fun _ => by simp [setCurrent, hs] }

theorem Counts.publish_binary (h : r.Counts n) (hd : r.default.isSome) :
    (r.setCurrent b).Counts n :=
  { h with current := fun hnone => absurd hd (by simpa [setCurrent] using hnone) }

theorem Counts.join (h : r.Counts n) (hs : r.sticky = some b) :
    ({ r with refs := r.refs + 1 }.setCurrent b).Counts (n + 1) where
  counting := h.counting
  refs := congrArg (· + 1) h.refs
  sticky := by simp [hs]
  binary hd := absurd hd (by simp [setCurrent, h.default_none hs])
  current _ := by simp [setCurrent, hs]
  placed := h.placed
  nextAddress := h.nextAddress

theorem Counts.next (h : r.Counts 0) (hd : r.default = none) : r.withNextBlob.Counts 1 where
  counting := h.counting
  refs := by rw [withNextBlob_refs, h.refs]
  sticky := by simp
  binary hsome := absurd hsome (by simp [withNextBlob, setCurrent, hd])
  current _ := rfl
  placed b hb := by
    cases hb
    exact h.nextAddress
  nextAddress := Nat.lt_add_right _ h.nextAddress

/-- With the last reference the blob is freed. -/
theorem Counts.returned (h : r.Counts (n + 1)) :
    r.withReturned.Counts n ∧ (0 < n → r.withReturned.sticky = r.sticky) ∧
      r.withReturned.default = r.default ∧ r.withReturned.frees = r.frees + fell (n + 1) n := by
  have hrefs : r.refs - 1 = n := by rw [h.refs]; rfl
  have hdefault : r.default = none := by
    obtain ⟨b, hs⟩ := Option.isSome_iff_exists.mp (h.sticky.mpr (Nat.succ_pos n))
    exact h.default_none hs
  by_cases hn : n = 0
  · subst hn
    have hfreed : r.withReturned = { r with refs := r.refs - 1 }.free := by
      unfold withReturned
      rw [if_pos (by rw [hrefs, h.counting]; rfl)]
    rw [hfreed]
    refine ⟨⟨h.counting, hrefs, by simp, ?_, fun _ => rfl, ?_, h.nextAddress⟩, ?_, rfl, rfl⟩
    · exact fun hd => absurd hd (by simp [free, clearCurrent, hdefault])
    · exact fun b hb => by cases hb
    · exact fun hpos => absurd hpos (by omega)
  · have hkept : r.withReturned = { r with refs := r.refs - 1 } := by
      unfold withReturned
      rw [if_neg (by rw [hrefs]; simp [hn])]
    have hfell : fell (n + 1) n = 0 := by simp [fell, hn]
    rw [hkept, hfell]
    refine ⟨⟨h.counting, hrefs, ?_, ?_, h.current, h.placed, h.nextAddress⟩, fun _ => rfl, rfl, rfl⟩
    · exact h.sticky.trans ⟨fun _ => Nat.pos_of_ne_zero hn, fun _ => Nat.succ_pos n⟩
    · exact fun hd => absurd hd (by simp [hdefault])

end BlobRegistry

/-- Whether the isolate holds a blob that is counted. -/
def Stake.isSharer (s : Stake) : Bool := (s.blob.bind (·.shared?)).isSome

/-- How many references the isolate holds. -/
def Stake.references (s : Stake) : Nat := if s.isSharer then 1 else 0

/-- The blob of the isolate is the sticky one or that of the binary. With a blob in the binary,
every isolate starts with that one. -/
structure Stake.Backed (r : BlobRegistry) (s : Stake) : Prop where
  blob : ∀ handle, s.blob = some handle →
    (∃ b, handle = .shared b ∧ r.sticky = some b) ∨ ∃ b, handle = .binary b ∧ r.default.isSome
  start : r.default.isSome → s.state = .allocated → ∃ b, s.blob = some (.binary b)

theorem Stake.Backed.congr {r r' : BlobRegistry} {s : Stake} (h : s.Backed r)
    (hs : r'.sticky = r.sticky) (hd : r'.default = r.default) : s.Backed r' where
  blob handle hblob := by
    rw [hs, hd]
    exact h.blob handle hblob
  start hsome := h.start (hd ▸ hsome)

theorem Stake.Backed.carry {r r' : BlobRegistry} {s : Stake} (h : s.Backed r)
    (hd : r'.default = r.default) (hs : s.isSharer → r'.sticky = r.sticky) : s.Backed r' where
  blob handle hblob := by
    obtain ⟨b, rfl, hb⟩ | ⟨b, rfl, hb⟩ := h.blob handle hblob
    · have hsharer : s.isSharer := by rw [isSharer, hblob]; rfl
      exact .inl ⟨b, rfl, (hs hsharer).trans hb⟩
    · exact .inr ⟨b, rfl, hd ▸ hb⟩
  start hsome := h.start (hd ▸ hsome)

theorem Stake.references_eq_zero {s : Stake} (h : s.blob.bind (·.shared?) = none) :
    s.references = 0 := by
  simp [references, isSharer, h]

theorem Stake.references_eq_one {s : Stake} {b : PlacedBlob} (h : s.blob = some (.shared b)) :
    s.references = 1 := by
  simp [references, isSharer, h, BlobHandle.shared?]

/-- The registry `r` has become, while others hold `n` references, from one that had it all
right. -/
structure Holding.Shares (n : Nat) (r : BlobRegistry) (k : Holding) : Prop where
  counts : k.blobs.Counts (n + k.stake.references)
  backed : k.stake.Backed k.blobs
  default : k.blobs.default = r.default
  sticky : 0 < n → k.blobs.sticky = r.sticky

namespace Hosted

variable {h h' : Hosted} {n : Nat} {r : BlobRegistry} {t : ThreadId}
  {refusal : Option String} {snapshots : Option SnapshotSet} {result : Except Failure Unit}

/-- The misuse that an isolate without a blob can come to, which is not one of the registry. -/
def Proper (e : Failure) : Prop := ∀ m, e = .fatal (.blobMismatch m) → m = .missing

/-- What setting up keeps of an isolate on its way. -/
structure Booting (n : Nat) (r : BlobRegistry) (m : Nat) (k : Holding) : Prop
    extends k.Shares n r where
  frees : k.blobs.frees = r.frees
  references : m ≤ k.stake.references
  ready : k.blobs.default.isSome → ∃ b, k.stake.blob = some (.binary b)

/-- The isolate has got the sticky blob. -/
theorem Booting.get {m : Nat} {k : Holding} {b : PlacedBlob} {blobs : BlobRegistry}
    (hb : Booting n r m k) (hnone : k.blobs.default = none) (counts : blobs.Counts (n + 1))
    (sticky : blobs.sticky = some b) (default : blobs.default = k.blobs.default)
    (frees : blobs.frees = k.blobs.frees) (kept : 0 < n → blobs.sticky = k.blobs.sticky) :
    Booting n r m { k with
      stake := { k.stake with blob := some (.shared b) }, blobs := blobs.setCurrent b } := by
  have hunbound : ¬blobs.default.isSome := by simp [default, hnone]
  have hone : Stake.references { k.stake with blob := some (.shared b) } = 1 :=
    Stake.references_eq_one rfl
  refine { counts := ?_, backed := ⟨?_, ?_⟩, default := default.trans hb.default
           sticky := fun hn => (kept hn).trans (hb.sticky hn), frees := frees.trans hb.frees
           references := ?_, ready := fun hd => absurd hd hunbound }
  · rw [hone]
    exact counts.publish sticky
  · intro handle hblob
    cases hblob
    exact .inl ⟨b, rfl, sticky⟩
  · exact fun hd => absurd hd hunbound
  · rw [hone]
    refine Nat.le_trans hb.references ?_
    unfold Stake.references
    split <;> omega

theorem meets_setUpBlob_booting {m : Nat} {fromSnapshot : Bool} :
    Meets (fun h => Booting n r m h.holding) (setUpBlob fromSnapshot)
      (fun _ h => Booting n r m h.holding)
      fun e h => Booting n r m h.holding ∧ Proper e := by
  refine meets_setUpBlob ?_ ?_ ?_
  · exact fun h hb _ => ⟨hb, fun misuse hm => by cases hm; rfl⟩
  · intro h handle hb hblob _
    obtain ⟨b, rfl, hs⟩ | ⟨b, rfl, hd⟩ := hb.backed.blob handle hblob
    · exact { hb with counts := hb.counts.publish hs, backed := hb.backed.congr rfl rfl }
    · exact { hb with counts := hb.counts.publish_binary hd, backed := hb.backed.congr rfl rfl }
  · intro h hb hforeign
    have hnone : h.platform.blobs.default = none := by
      by_contra hd
      obtain ⟨b, hblob⟩ := hb.ready (Option.ne_none_iff_isSome.mp hd)
      exact hforeign _ hblob rfl
    have hcounts : h.platform.blobs.Counts (n + h.isolate.stake.references) := hb.counts
    rintro _ rfl
    cases hblob : h.isolate.blob with
    | none =>
      rw [Stake.references_eq_zero (by rw [Isolate.stake, hblob]; rfl)] at hcounts
      -- Without a sticky blob nobody has a reference, so a new blob can be made.
      cases hs : h.platform.blobs.sticky with
      | none =>
        have hn : n = 0 := by
          have hsticky := hcounts.sticky
          rw [hs] at hsticky
          simpa using hsticky
        subst hn
        rw [BlobRegistry.createAndSet_new hs rfl hcounts.refs]
        exact hb.get hnone (hcounts.next hnone) rfl rfl rfl fun h => absurd h (by omega)
      | some b =>
        rw [BlobRegistry.createAndSet_join hs rfl]
        exact hb.get hnone (hcounts.join hs) hs rfl rfl fun _ => rfl
    | some handle =>
      obtain ⟨b, rfl, hs⟩ | ⟨b, rfl, -⟩ := hb.backed.blob handle hblob
      · have hs : h.platform.blobs.sticky = some b := hs
        rw [Stake.references_eq_one hblob] at hcounts
        rw [BlobRegistry.createAndSet_keep hs rfl]
        exact hb.get hnone (hcounts.publish hs) hs rfl rfl fun _ => rfl
      · exact absurd rfl (hforeign _ hblob)

theorem setUpPhases_booting {m : Nat} :
    Meets (fun h => Booting n r m h.holding) (setUpPhases t refusal snapshots)
      (fun _ h => Booting n r m h.holding) fun e h => Booting n r m h.holding ∧ Proper e :=
  meets_setUpPhases
    (fun _ _ _ hb _ => { hb with backed := ⟨hb.backed.blob, hb.backed.start⟩ })
    meets_setUpBlob_booting
    (fun _ hb => ⟨hb, fun _ h => by cases h⟩) (fun _ _ hb _ => ⟨hb, fun _ h => by cases h⟩)
    (fun _ _ hb => ⟨hb, fun _ h => by cases h⟩) fun _ hb _ _ => ⟨hb, fun _ h => by cases h⟩

/-- What an operation on an isolate does to the references, while others hold `n`. -/
structure Counted (n : Nat) (k : Holding) (result : Except Failure Unit) (k' : Holding) : Prop where
  shares : k'.Shares n k.blobs
  frees : k'.blobs.frees = k.blobs.frees + fell k.blobs.refs k'.blobs.refs
  proper : ∀ e, result = .error e → Proper e

theorem Counted.unchanged {k : Holding} (hk : k.Shares n k.blobs)
    (proper : ∀ e, result = .error e → Proper e) : Counted n k result k :=
  ⟨hk, by rw [fell_of_le (Nat.le_refl _)]; rfl, proper⟩

theorem SetsUp.counted (hs : SetsUp t h result h') (hh : h.holding.Shares n h.holding.blobs) :
    Counted n h.holding result h'.holding := by
  cases hs with
  | mismatched => exact .unchanged hh fun e he misuse hm => by cases he; cases hm
  | late => exact .unchanged hh fun e he misuse hm => by cases he; cases hm
  | unable => exact .unchanged hh fun e he misuse hm => by cases he; cases hm
  | @ran reached _ _ _ state deserializer phases =>
    have hstart : Booting n h.holding.blobs h.holding.stake.references
        (h.inState .initializing).holding :=
      { hh with
        backed := ⟨hh.backed.blob, fun _ hs => by cases hs⟩
        frees := rfl
        references := Nat.le_refl _
        ready := fun hd => hh.backed.start hd state }
    have hend : Booting n h.holding.blobs h.holding.stake.references reached.holding ∧
        ∀ e, result = .error e → Proper e := by
      cases result with
      | ok u => exact ⟨setUpPhases_booting.ok hstart phases, fun e he => by cases he⟩
      | error e =>
        have hfailed := setUpPhases_booting.error hstart phases
        exact ⟨hfailed.1, fun e' he => by cases he; exact hfailed.2⟩
    obtain ⟨hb, hproper⟩ := hend
    have hrefs : h.holding.blobs.refs ≤ reached.holding.blobs.refs := by
      rw [hh.counts.refs, hb.counts.refs]
      exact Nat.add_le_add_left hb.references n
    have hcounted : ∀ k : Holding, k.blobs = reached.holding.blobs →
        k.stake.blob = reached.holding.stake.blob → Counted n h.holding result k := by
      rintro k hblobs hblob
      have hrefs' : k.stake.references = reached.holding.stake.references := by
        unfold Stake.references Stake.isSharer
        rw [hblob]
      refine ⟨⟨?_, ⟨?_, fun hd _ => ?_⟩, ?_, fun hn => ?_⟩, ?_, hproper⟩
      · rw [hblobs, hrefs']
        exact hb.counts
      · rw [hblobs, hblob]
        exact hb.backed.blob
      · rw [hblob]
        exact hb.ready (hblobs ▸ hd)
      · rw [hblobs]
        exact hb.default
      · rw [hblobs]
        exact hb.sticky hn
      · rw [hblobs, fell_of_le hrefs]
        exact hb.frees
    obtain (e | e) | u := result
    · exact hcounted _ rfl rfl
    · exact hcounted _ rfl rfl
    · exact hcounted _ rfl rfl

end Hosted

/-- The registry once a blob that was held has come back. -/
def BlobRegistry.without (r : BlobRegistry) (held : Option BlobHandle) : BlobRegistry :=
  if (held.bind (·.shared?)).isSome then r.withReturned else r

theorem Holding.Shares.released {n : Nat} {r : BlobRegistry} {k : Holding} (hk : k.Shares n r)
    {handle : BlobHandle} (hblob : k.stake.blob = some handle) :
    (BlobRegistry.release handle).outcome k.blobs = (.ok (), k.blobs.without k.stake.blob) := by
  rw [hblob]
  obtain ⟨b, rfl, hs⟩ | ⟨b, rfl, -⟩ := hk.backed.blob handle hblob
  · have hrefs : k.blobs.refs ≠ 0 := by
      rw [hk.counts.refs, Stake.references_eq_one hblob]
      exact Nat.succ_ne_zero n
    exact BlobRegistry.release_sticky hs rfl hrefs
  · rfl

namespace Hosted

variable {h h' : Hosted} {n : Nat} {result : Except Failure Unit}

/-- The isolate has given back what it held. -/
theorem Counted.gaveBack {k k' : Holding} (hk : k.Shares n k.blobs)
    (blobs : k'.blobs = k.blobs.without k.stake.blob) (blob : k'.stake.blob = none)
    (state : k'.stake.state ≠ .allocated) : Counted n k (.ok ()) k' := by
  have hzero : k'.stake.references = 0 := Stake.references_eq_zero (by rw [blob]; rfl)
  have hbacked : k'.stake.Backed k'.blobs :=
    ⟨fun handle h => (by rw [blob] at h; cases h), fun _ h => absurd h state⟩
  have hproper : ∀ e, (.ok () : Except Failure Unit) = .error e → Proper e := nofun
  cases hshared : (k.stake.blob.bind (·.shared?)).isSome with
  | false =>
    have hsame : k'.blobs = k.blobs := by rw [blobs, BlobRegistry.without, hshared]; rfl
    have hcounts := hk.counts
    rw [Stake.references_eq_zero (by simpa using hshared)] at hcounts
    refine ⟨⟨?_, hbacked, by rw [hsame], fun _ => by rw [hsame]⟩, ?_, hproper⟩
    · rw [hzero, hsame]
      exact hcounts
    · rw [hsame, fell_of_le (Nat.le_refl _)]
      rfl
  | true =>
    have hreturned : k'.blobs = k.blobs.withReturned := by
      rw [blobs, BlobRegistry.without, hshared]; rfl
    have hone : k.stake.references = 1 := if_pos hshared
    have hcounts := hk.counts
    rw [hone] at hcounts
    obtain ⟨hcounts', hsticky, hdefault, hfrees⟩ := hcounts.returned
    rw [← hreturned] at hcounts' hsticky hdefault hfrees
    refine ⟨⟨?_, hbacked, hdefault, hsticky⟩, ?_, hproper⟩
    · rw [hzero]
      exact hcounts'
    · rw [hfrees, hcounts.refs, hcounts'.refs]

/-- An isolate that is taken apart gives its blob back; nothing that fails comes later. -/
theorem releaseAll_gives_back (hk : h.holding.Shares n h.holding.blobs) :
    Meets (fun h' => h'.holding.blobs = h.holding.blobs ∧
        h'.holding.stake.blob = h.holding.stake.blob ∧ h'.holding.stake.state = .deinitializing)
      releaseAll
      (fun _ h' => h'.holding.blobs = h.holding.blobs.without h.holding.stake.blob ∧
        h'.holding.stake.blob = none)
      fun e h' => (h'.holding.blobs = h.holding.blobs ∧
        h'.holding.stake.blob = h.holding.stake.blob ∧
        h'.holding.stake.state = .deinitializing) ∧ Proper e := by
  refine meets_releaseAll (P := fun k => k.blobs = h.holding.blobs ∧
      k.stake.blob = h.holding.stake.blob ∧ k.stake.state = .deinitializing)
    (Q := fun k => k.blobs = h.holding.blobs.without h.holding.stake.blob ∧ k.stake.blob = none)
    (fun _ _ _ hp => ⟨hp, fun _ h => by cases h⟩) (fun _ hp => hp) ?_
  refine meets_releaseBlob ?_ ?_
  · rintro h' ⟨hblobs, hblob, -⟩ hnone
    have hblob' : h.holding.stake.blob = none := hblob.symm.trans hnone
    refine ⟨?_, hnone⟩
    rw [hblobs, hblob']
    rfl
  · rintro h' handle ⟨hblobs, hblob, -⟩ hheld
    have hblobs' : h'.platform.blobs = h.holding.blobs := hblobs
    rw [hblobs']
    rintro _ rfl
    rw [hk.released (hblob.symm.trans hheld)]
    exact ⟨rfl, rfl⟩

/-- Tearing down does nothing, or fails before the blob is given back, or gives it back. -/
theorem TearsDown.blobs (hs : TearsDown h result h') (hk : h.holding.Shares n h.holding.blobs) :
    (h' = h ∧ ∀ e, result = .error e → Proper e) ∨
    (∃ e, result = .error e ∧ Proper e ∧ h'.holding.blobs = h.holding.blobs ∧
      h'.holding.stake.blob = h.holding.stake.blob ∧ h'.holding.stake.state = .deinitializing) ∨
    (result = .ok () ∧ h'.isolate.liveSubsystems = [] ∧
      h'.holding.blobs = h.holding.blobs.without h.holding.stake.blob ∧
      h'.holding.stake.blob = none ∧ h'.holding.stake.state = .deinitialized) := by
  have hgives := releaseAll_gives_back hk
  have hstart : (h.inState .deinitializing).holding.blobs = h.holding.blobs ∧
      (h.inState .deinitializing).holding.stake.blob = h.holding.stake.blob ∧
      (h.inState .deinitializing).holding.stake.state = .deinitializing := ⟨rfl, rfl, rfl⟩
  cases hs with
  | before => exact .inl ⟨rfl, fun e he => by cases he⟩
  | busy => exact .inl ⟨rfl, fun e he misuse hm => by cases he; cases hm⟩
  | done state released =>
    obtain ⟨hblobs, hblob⟩ := hgives.ok hstart released
    have hlive := releaseAll_leaves_nothing.ok trivial released
    exact .inr (.inr ⟨rfl, hlive, hblobs, hblob, rfl⟩)
  | died state released =>
    obtain ⟨⟨hblobs, hblob, hstate⟩, hproper⟩ := hgives.error hstart released
    exact .inr (.inl ⟨_, rfl, hproper, hblobs, hblob, hstate⟩)

theorem TearsDown.counted (hs : TearsDown h result h') (hk : h.holding.Shares n h.holding.blobs) :
    Counted n h.holding result h'.holding := by
  obtain ⟨rfl, hproper⟩ | ⟨e, rfl, hproper, hblobs, hblob, hstate⟩ |
    ⟨rfl, -, hblobs, hblob, hstate⟩ := hs.blobs hk
  · exact .unchanged hk hproper
  · have hopen : h'.holding.stake.state ≠ .allocated := by rw [hstate]; decide
    have hsame : h'.holding.stake.references = h.holding.stake.references := by
      unfold Stake.references Stake.isSharer
      rw [hblob]
    refine ⟨⟨?_, ⟨?_, fun _ h => absurd h hopen⟩, ?_, fun _ => by rw [hblobs]⟩, ?_, ?_⟩
    · rw [hblobs, hsame]
      exact hk.counts
    · rw [hblobs, hblob]
      exact hk.backed.blob
    · rw [hblobs]
    · rw [hblobs, fell_of_le (Nat.le_refl _)]
      rfl
    · exact fun e' he => by cases he; exact hproper
  · exact .gaveBack hk hblobs hblob (by rw [hstate]; decide)

theorem Disposes.counted (hs : Disposes h result h') (hk : h.holding.Shares n h.holding.blobs) :
    Counted n h.holding result h'.holding := by
  cases hs with
  | entered => exact .unchanged hk fun e he misuse hm => by cases he; cases hm
  | ended tearsDown =>
    exact { tearsDown.counted hk with proper := fun e he => by cases he }
  | died tearsDown => exact tearsDown.counted hk

theorem Task.counted (hs : Task h result h') (hk : h.holding.Shares n h.holding.blobs) :
    Counted n h.holding result h'.holding := by
  cases hs with
  | setUp t setsUp => exact setsUp.counted hk
  | tearDown tearsDown => exact tearsDown.counted hk
  | dispose disposes => exact disposes.counted hk

theorem settled_shares {r : BlobRegistry} (hk : h.holding.Shares n r) :
    h.settled.holding.Shares n r := by
  unfold settled
  split
  · exact { hk with backed := ⟨hk.backed.blob, fun _ hs => by cases hs⟩ }
  · exact hk

/-- The end of an isolate that has given back its reference, or has been stopped before by a fatal
error. -/
theorem Destroys.counted (hs : Destroys h result h') (hk : h.holding.Shares n h.holding.blobs) :
    (result = .ok () ∧ h'.platform.blobs.Counts n ∧
      h'.platform.blobs.default = h.platform.blobs.default ∧
      (0 < n → h'.platform.blobs.sticky = h.platform.blobs.sticky) ∧
      h'.platform.blobs.frees =
        h.platform.blobs.frees + fell h.platform.blobs.refs h'.platform.blobs.refs) ∨
    ∃ e, result = .error (.fatal e) ∧ Proper (.fatal e) ∧ h'.platform.blobs = h.platform.blobs := by
  have hsettled : h.settled.holding.blobs = h.holding.blobs :=
    congrArg Platform.blobs settled_platform
  have hk' : h.settled.holding.Shares n h.settled.holding.blobs := by
    rw [hsettled]
    exact settled_shares hk
  cases hs with
  | entered => exact .inr ⟨_, rfl, fun misuse hm => (by cases hm), rfl⟩
  | died tearsDown =>
    obtain ⟨rfl, hproper⟩ | ⟨e, he, hproper, hblobs, -⟩ | ⟨he, -⟩ := tearsDown.blobs hk'
    · exact .inr ⟨_, rfl, hproper _ rfl, hsettled⟩
    · cases he
      exact .inr ⟨_, rfl, hproper, hblobs.trans hsettled⟩
    · cases he
  | alive tearsDown survives live =>
    refine .inr ⟨_, rfl, fun misuse hm => (by cases hm), ?_⟩
    obtain ⟨rfl, -⟩ | ⟨-, -, -, hblobs, -⟩ | ⟨-, hnone, -⟩ := tearsDown.blobs hk'
    · exact hsettled
    · exact hblobs.trans hsettled
    · exact absurd hnone live
  | @gone reached _ tearsDown survives live =>
    -- Nothing lives on, so the reference is among those that were given back.
    have hcounted := tearsDown.counted hk'
    have hcounts := hcounted.shares.counts
    have hblob := (Isolate.stake_of_nothing_lives live).2
    rw [Stake.references_eq_zero (show reached.holding.stake.blob.bind _ = none by
      rw [show reached.holding.stake.blob = none from hblob]; rfl)] at hcounts
    have hregion : reached.withoutRegion.platform.blobs = reached.holding.blobs := by
      unfold withoutRegion
      cases reached.isolate.region <;> rfl
    rw [hregion]
    have hdefault := hcounted.shares.default
    have hsticky := hcounted.shares.sticky
    have hfrees := hcounted.frees
    rw [hsettled] at hdefault hsticky hfrees
    exact .inl ⟨rfl, hcounts, hdefault, hsticky, hfrees⟩

end Hosted

end ScriptEngine

import ScriptEngine.Proofs.Hosts
import ScriptEngine.Proofs.SharedReferences

namespace ScriptEngine

/-- How many isolates hold the sticky blob. -/
def sharers (stakes : List Stake) : Nat := stakes.countP (·.isSharer)

theorem sharers_append {before after : List Stake} :
    sharers (before ++ after) = sharers before + sharers after := List.countP_append

theorem sharers_split {before after : List Stake} {s : Stake} :
    sharers (before ++ s :: after) = sharers before + sharers after + s.references := by
  simp only [sharers, List.countP_append, List.countP_cons, Stake.references]
  omega

theorem sharers_pos {stakes : List Stake} {s : Stake} (h : s ∈ stakes) (hs : s.isSharer) :
    0 < sharers stakes := List.countP_pos_iff.mpr ⟨s, h, hs⟩

/-- The isolates with the sticky blob among the first that are not among the second. -/
def lostBetween (stakes stakes' : List Stake) : Nat :=
  stakes.countP fun s => s.isSharer && !stakes'.any (·.id == s.id)

theorem lostBetween_eq_zero {stakes stakes' : List Stake}
    (h : ∀ s ∈ stakes, ∃ s' ∈ stakes', s'.id = s.id) : lostBetween stakes stakes' = 0 := by
  refine List.countP_eq_zero.mpr fun s hs => ?_
  obtain ⟨s', hs', hid⟩ := h s hs
  have hany : stakes'.any (·.id == s.id) = true := List.any_eq_true.mpr ⟨s', hs', by simp [hid]⟩
  simp [hany]

theorem lostBetween_without {before after : List Stake} {s : Stake}
    (others : ∀ s' ∈ before ++ after, s'.id ≠ s.id) :
    lostBetween (before ++ s :: after) (before ++ after) = s.references := by
  have hkept : lostBetween before (before ++ after) = 0 ∧ lostBetween after (before ++ after) = 0 :=
    ⟨lostBetween_eq_zero fun s hs => ⟨s, List.mem_append_left _ hs, rfl⟩,
      lostBetween_eq_zero fun s hs => ⟨s, List.mem_append_right _ hs, rfl⟩⟩
  have hgone : (before ++ after).any (·.id == s.id) = false := by
    rw [List.any_eq_false]
    exact fun s' hs' => by simpa using others s' hs'
  unfold lostBetween at hkept ⊢
  rw [List.countP_append, List.countP_cons, hkept.1, hkept.2, hgone]
  simp [Stake.references]

namespace Host

variable {host host' : Host} {lost : Nat} {result : Except Failure Unit}

/-- The registry of the platform counts the isolates that hold the sticky blob, and so many that
were lost. -/
structure Counted (lost : Nat) (host : Host) : Prop where
  counts : host.platform.blobs.Counts (sharers host.stakes + lost)
  backed : ∀ s ∈ host.stakes, s.Backed host.platform.blobs
  binary : host.platform.blobs.default.isSome = host.platform.options.binaryBlob

theorem counted_create (n : Nat) (o : ProcessOptions) : Counted 0 ⟨.create n o, []⟩ where
  counts :=
    { counting := rfl
      refs := rfl
      sticky := by simp [Platform.create, sharers]
      binary := fun _ => ⟨rfl, rfl⟩
      current := fun _ => rfl
      placed := fun b hb => by cases hb
      nextAddress := Nat.lt_add_right _ (by decide) }
  backed s hs := by cases hs
  binary := by cases h : o.binaryBlob <;> simp [Platform.create, h]

theorem Counted.shares {before after : List Stake} {i : Isolate} {platform : Platform}
    (h : Counted lost ⟨platform, before ++ i.stake :: after⟩) :
    (Hosted.holding ⟨i, platform⟩).Shares (sharers before + sharers after + lost)
      platform.blobs where
  counts := by
    have hcounts := h.counts
    rw [sharers_split] at hcounts
    have hsum : sharers before + sharers after + i.stake.references + lost =
        sharers before + sharers after + lost + i.stake.references := by omega
    exact hsum ▸ hcounts
  backed := h.backed i.stake (List.mem_append_right _ List.mem_cons_self)
  default := rfl
  sticky _ := rfl

/-- The other isolates do not notice: while one of them has the sticky blob it stays. -/
theorem Counted.others {before after : List Stake} {s : Stake} {platform : Platform}
    {r : BlobRegistry} (h : Counted lost ⟨platform, before ++ s :: after⟩)
    (hd : r.default = platform.blobs.default)
    (hs : 0 < sharers before + sharers after + lost → r.sticky = platform.blobs.sticky) :
    ∀ s ∈ before ++ after, s.Backed r := by
  intro other hother
  have hmem : other ∈ before ++ s :: after :=
    List.perm_middle.mem_iff.mpr (List.mem_cons_of_mem _ hother)
  refine (h.backed other hmem).carry hd fun hsharer => hs ?_
  have hpos := sharers_pos hother hsharer
  rw [sharers_append] at hpos
  omega

theorem Counted.act {before after : List Stake} {i : Isolate} {platform : Platform} {h : Hosted}
    (hc : Counted lost ⟨platform, before ++ i.stake :: after⟩)
    (task : Hosted.Task ⟨i, platform⟩ result h) :
    Counted lost ⟨h.platform, before ++ h.isolate.stake :: after⟩ := by
  have hcounted := task.counted hc.shares
  have hdefault := hcounted.shares.default
  refine ⟨?_, ?_, ?_⟩
  · have hcounts := hcounted.shares.counts
    have hsum : sharers before + sharers after + h.isolate.stake.references + lost =
        sharers before + sharers after + lost + h.isolate.stake.references := by omega
    rw [sharers_split, hsum]
    exact hcounts
  · intro s hs
    rcases List.mem_cons.mp (List.perm_middle.mem_iff.mp hs) with rfl | hs
    · exact hcounted.shares.backed
    · exact hc.others hdefault hcounted.shares.sticky s hs
  · have hoptions : h.platform.options = platform.options :=
      congrArg (fun g => g.2.2) task.ground
    have hdefault : h.platform.blobs.default = platform.blobs.default := hdefault
    show h.platform.blobs.default.isSome = h.platform.options.binaryBlob
    rw [hdefault, hoptions]
    exact hc.binary

theorem reserve_blobs {host reserved : Platform} {size : Nat} {region : Reservation}
    (h : host.reserve size = some (region, reserved)) :
    reserved.blobs = host.blobs ∧ reserved.options = host.options := by
  obtain ⟨⟨r, pages⟩, -, hr⟩ := Option.map_eq_some_iff.mp h
  cases hr
  exact ⟨rfl, rfl⟩

theorem Counted.append {stakes : List Stake} {platform grown : Platform} {s : Stake}
    (hc : Counted lost ⟨platform, stakes⟩)
    (counts : grown.blobs.Counts (sharers stakes + lost + s.references))
    (backed : s.Backed grown.blobs) (default : grown.blobs.default = platform.blobs.default)
    (sticky : grown.blobs.sticky = platform.blobs.sticky)
    (options : grown.options = platform.options) :
    Counted lost ⟨grown, stakes ++ [s]⟩ where
  counts := by
    have hsum : sharers (stakes ++ [s]) + lost = sharers stakes + lost + s.references := by
      rw [sharers_split]
      simp only [sharers, List.countP_nil]
      omega
    exact hsum ▸ counts
  backed other hother := by
    rcases List.mem_append.mp hother with hother | hother
    · exact (hc.backed other hother).congr sticky default
    · rw [List.mem_singleton.mp hother]
      exact backed
  binary := by
    show grown.blobs.default.isSome = grown.options.binaryBlob
    rw [default, options]
    exact hc.binary

theorem Counted.allocate {host reserved : Platform} {stakes : List Stake} {id : IsolateId}
    {o : IsolateOptions} {region : Reservation} (hc : Counted lost ⟨host, stakes⟩)
    (reserve : host.reserve o.regionSize = some (region, reserved)) :
    Counted lost ⟨{ reserved with blobs := reserved.blobs.acquire.2 },
      stakes ++ [⟨id, o, .allocated, [], some region, none, reserved.blobs.acquire.1⟩]⟩ ∧
      reserved.blobs.acquire.2.frees = host.blobs.frees ∧
      host.blobs.refs ≤ reserved.blobs.acquire.2.refs := by
  obtain ⟨hblobs, hoptions⟩ := reserve_blobs reserve
  have hcounts : reserved.blobs.Counts (sharers stakes + lost) := by
    rw [hblobs]
    exact hc.counts
  have hdefault : reserved.blobs.default = host.blobs.default := congrArg (·.default) hblobs
  have hsticky : reserved.blobs.sticky = host.blobs.sticky := congrArg (·.sticky) hblobs
  rw [← hblobs]
  obtain ⟨b, hs, ha⟩ | ⟨b, hs, hd, ha⟩ | ⟨hs, hd, ha⟩ := reserved.blobs.acquire_cases
  all_goals rw [ha]
  · refine ⟨hc.append (hcounts.join hs) ⟨?_, ?_⟩ hdefault hsticky hoptions, rfl, Nat.le_succ _⟩
    · exact fun handle hblob => by cases hblob; exact .inl ⟨b, rfl, hs⟩
    · exact fun hd => absurd hd (by simp [BlobRegistry.setCurrent, hcounts.default_none hs])
  · have hsome : reserved.blobs.default.isSome := by rw [hd]; rfl
    refine ⟨hc.append (hcounts.publish_binary hsome) ⟨?_, ?_⟩ hdefault hsticky hoptions, rfl,
      Nat.le_refl _⟩
    · exact fun handle hblob => by cases hblob; exact .inr ⟨b, rfl, hsome⟩
    · exact fun _ _ => ⟨b, rfl⟩
  · refine ⟨hc.append hcounts ⟨?_, ?_⟩ hdefault hsticky hoptions, rfl, Nat.le_refl _⟩
    · exact fun handle hblob => by cases hblob
    · exact fun hsome => by rw [hd] at hsome; cases hsome

/-- With an isolate its reference goes, given back or lost. -/
theorem Counted.destroy {before after : List Stake} {i : Isolate} {platform : Platform} {h : Hosted}
    (hc : Counted lost ⟨platform, before ++ i.stake :: after⟩)
    (destroys : Hosted.Destroys ⟨i, platform⟩ result h) :
    Counted (lost + if endsFatally result then i.stake.references else 0)
      ⟨h.platform, before ++ after⟩ ∧
      h.platform.blobs.frees =
        platform.blobs.frees + fell platform.blobs.refs h.platform.blobs.refs := by
  have hoptions : h.platform.options = platform.options := congrArg (fun g => g.2.2) destroys.ground
  have hbinary : h.platform.blobs.default = platform.blobs.default →
      h.platform.blobs.default.isSome = h.platform.options.binaryBlob := fun hdefault => by
    rw [hdefault, hoptions]
    exact hc.binary
  obtain ⟨rfl, hcounts, hdefault, hsticky, hfrees⟩ | ⟨e, rfl, -, hblobs⟩ :=
    destroys.counted hc.shares
  · have hsum : sharers (before ++ after) + lost = sharers before + sharers after + lost := by
      rw [sharers_append]
    exact ⟨⟨hsum ▸ hcounts, hc.others hdefault hsticky, hbinary hdefault⟩, hfrees⟩
  -- The registry is as it was: one isolate less holds a reference, and one more is lost.
  · have hsum : sharers (before ++ i.stake :: after) + lost =
        sharers (before ++ after) + (lost + i.stake.references) := by
      rw [sharers_split, sharers_append]
      omega
    refine ⟨⟨?_, ?_, hbinary (congrArg (·.default) hblobs)⟩, ?_⟩
    · rw [hblobs]
      exact hsum ▸ hc.counts
    · exact hc.others (congrArg (·.default) hblobs) fun _ => congrArg (·.sticky) hblobs
    · rw [hblobs, fell_of_le (Nat.le_refl _)]
      rfl

/-- How many references an operation loses. -/
def lostIn (host : Host) (result : Except Failure Unit) (host' : Host) : Nat :=
  if endsFatally result then lostBetween host.stakes host'.stakes else 0

theorem lostIn_eq_zero (h : ∀ s ∈ host.stakes, ∃ s' ∈ host'.stakes, s'.id = s.id) :
    host.lostIn result host' = 0 := by
  rw [lostIn, lostBetween_eq_zero h]
  exact ite_self 0

theorem Step.counted (h : host.Step result host') (hc : host.Counted lost) :
    host'.Counted (lost + host.lostIn result host') ∧
      host'.platform.blobs.frees = host.platform.blobs.frees +
        fell host.platform.blobs.refs host'.platform.blobs.refs := by
  cases h with
  | same =>
    rw [lostIn_eq_zero fun s hs => ⟨s, hs, rfl⟩, fell_of_le (Nat.le_refl _)]
    exact ⟨hc, rfl⟩
  | allocate reserve =>
    obtain ⟨hcounted, hfrees, hrefs⟩ := hc.allocate reserve
    rw [lostIn_eq_zero fun s hs => ⟨s, List.mem_append_left _ hs, rfl⟩, fell_of_le hrefs]
    exact ⟨hcounted, hfrees⟩
  | @act before after i platform _ hosted task =>
    have hid : hosted.isolate.stake.id = i.stake.id := congrArg Prod.fst task.ground
    rw [lostIn_eq_zero fun s hs => ?_]
    · exact ⟨hc.act task, (task.counted hc.shares).frees⟩
    · rcases List.mem_append.mp hs with hs | hs
      · exact ⟨s, List.mem_append_left _ hs, rfl⟩
      rcases List.mem_cons.mp hs with rfl | hs
      · exact ⟨_, List.mem_append_right _ List.mem_cons_self, hid⟩
      · exact ⟨s, List.mem_append_right _ (List.mem_cons_of_mem _ hs), rfl⟩
  | destroy others destroys =>
    rw [lostIn, lostBetween_without others]
    exact hc.destroy destroys

end Host

namespace Engine

variable {p p' : Engine} {k : PlatformId} {result : Except Failure Unit}

/-- Only an isolate that finds no blob makes an operation end in misuse of a blob. -/
theorem Step.proper (h : p.Step result p')
    (counted : ∀ k host, p.host? k = some host → ∃ lost, host.Counted lost) :
    ∀ e, result = .error e → Hosted.Proper e := by
  cases h with
  | quiet quietly plain => exact fun e he m hm => absurd (hm ▸ he) (plain m)
  | found => exact fun e he => by cases he
  | allocate => exact fun e he => by cases he
  | act lodges housed task =>
    obtain ⟨lost, hc⟩ := counted _ _ (lodges.host? housed)
    exact (task.counted hc.shares).proper
  | destroy quietly lodges housed destroys =>
    obtain ⟨lost, hc⟩ := counted _ _ ((quietly.host?_eq _).symm.trans (lodges.host? housed))
    obtain ⟨rfl, -⟩ | ⟨e, rfl, hproper, -⟩ := destroys.counted hc.shares
    · exact fun e he => by cases he
    · exact fun e' he => by cases he; exact hproper

/-- Platforms stay. -/
theorem Step.platforms_le (h : p.Step result p') : p.platforms.length ≤ p'.platforms.length := by
  cases h with
  | quiet quietly => exact Nat.le_of_eq (congrArg List.length quietly.platforms.symm)
  | found o platforms => simp [platforms]
  | allocate platform reserve platforms => simp [platforms]
  | act => simp [withHosted]
  | destroy quietly => simp [withoutResident, quietly.platforms]

def refsOn (p : Engine) (k : PlatformId) : Nat := ((p.host? k).map (·.platform.blobs.refs)).getD 0

/-- How many references of a platform are lost when an operation comes to `result`. -/
def lostOn (p : Engine) (result : Except Failure Unit) (p' : Engine) (k : PlatformId) : Nat :=
  if endsFatally result then lostBetween (p.stakesOn k) (p'.stakesOn k) else 0

end Engine

/-- A process, with how often the count of each platform fell to zero, and how many references went
with isolates whose end a fatal error stopped. -/
structure BlobLedger where
  engine : Engine := {}
  falls : PlatformId → Nat := fun _ => 0
  lost : PlatformId → Nat := fun _ => 0

namespace BlobLedger

variable {l : BlobLedger} {k : PlatformId}

def note (l : BlobLedger) (result : Except Failure Unit) (p : Engine) : BlobLedger where
  engine := p
  falls k := l.falls k + fell (l.engine.refsOn k) (p.refsOn k)
  lost k := l.lost k + l.engine.lostOn result p k

def perform (l : BlobLedger) (op : LifecycleOperation) : BlobLedger :=
  l.note (op.perform.outcome l.engine).1 (op.perform.outcome l.engine).2

def after (ops : List LifecycleOperation) : BlobLedger := ops.foldl perform {}

/-- The registries agree with the ledger. -/
structure Balanced (l : BlobLedger) : Prop where
  sound : l.engine.Sound
  counted : ∀ k host, l.engine.host? k = some host →
    host.Counted (l.lost k) ∧ host.platform.blobs.frees = l.falls k
  unopened : ∀ k, l.engine.host? k = none → l.falls k = 0 ∧ l.lost k = 0

theorem Balanced.note {result : Except Failure Unit} {p : Engine} (hl : l.Balanced)
    (h : l.engine.Step result p) : (l.note result p).Balanced where
  sound := h.sound hl.sound
  counted k host' hk := by
    obtain ⟨hnone, n, o, rfl⟩ | ⟨host, hhost, hstep⟩ := h.host hl.sound hk
    · obtain ⟨hfalls, hlost⟩ := hl.unopened k hnone
      have hstakes : l.engine.stakesOn k = [] :=
        hl.sound.stakesOn_of_none (Option.map_eq_none_iff.mp hnone)
      have hlost' : (l.note result p).lost k = 0 := by
        simp [BlobLedger.note, hlost, Engine.lostOn, hstakes, lostBetween]
      have hfalls' : (l.note result p).falls k = 0 := by
        simp [BlobLedger.note, hfalls, Engine.refsOn, hnone, fell]
      rw [hlost', hfalls']
      exact ⟨Host.counted_create n o, rfl⟩
    · obtain ⟨hcounted, hfrees⟩ := hl.counted k host hhost
      obtain ⟨hcounted', hfrees'⟩ := hstep.counted hcounted
      have hrefs : l.engine.refsOn k = host.platform.blobs.refs ∧
          p.refsOn k = host'.platform.blobs.refs := by
        have hk : p.host? k = some host' := hk
        rw [Engine.refsOn, Engine.refsOn, hhost, hk]
        exact ⟨rfl, rfl⟩
      have hlost : l.engine.lostOn result p k = host.lostIn result host' := by
        obtain ⟨platform, -, rfl⟩ := Option.map_eq_some_iff.mp hhost
        obtain ⟨platform', -, rfl⟩ := Option.map_eq_some_iff.mp hk
        rfl
      refine ⟨?_, ?_⟩
      · show host'.Counted (l.lost k + l.engine.lostOn result p k)
        rw [hlost]
        exact hcounted'
      · show _ = l.falls k + fell (l.engine.refsOn k) (p.refsOn k)
        rw [hfrees', hfrees, hrefs.1, hrefs.2]
  unopened k hk := by
    have hnone : p.platform? k = none := Option.map_eq_none_iff.mp hk
    have hlength : p.platforms.length ≤ k := List.getElem?_eq_none_iff.mp hnone
    have hnone' : l.engine.platform? k = none :=
      List.getElem?_eq_none_iff.mpr (Nat.le_trans h.platforms_le hlength)
    have hhost : l.engine.host? k = none := Option.map_eq_none_iff.mpr hnone'
    obtain ⟨hfalls, hlost⟩ := hl.unopened k hhost
    have hstakes : l.engine.stakesOn k = [] := hl.sound.stakesOn_of_none hnone'
    refine ⟨?_, ?_⟩
    · simp [BlobLedger.note, hfalls, Engine.refsOn, hhost, fell]
    · simp [BlobLedger.note, hlost, Engine.lostOn, hstakes, lostBetween]

theorem balanced_after (ops : List LifecycleOperation) : (after ops).Balanced := by
  have hrun : ∀ l : BlobLedger, l.Balanced → (ops.foldl perform l).Balanced := by
    induction ops with
    | nil => exact fun l hl => hl
    | cons op rest ih => exact fun l hl => ih _ (hl.note (op.step hl.sound))
  have hempty : Balanced {} :=
    { sound := Engine.sound_empty
      counted := fun k host hk => by cases hk
      unopened := fun _ _ => ⟨rfl, rfl⟩ }
  exact hrun {} hempty

/-- The references that a platform counts are those of its isolates that hold the sticky blob, and
those that were lost. The blob is there, and current, as long as there are any. With a blob in the
binary nothing is counted. No operation comes upon a registry that is wrong. -/
theorem references_exact (ops : List LifecycleOperation) :
    (∀ k platform, (after ops).engine.platform? k = some platform →
      (platform.options.binaryBlob = false →
        platform.blobs.refs = sharers ((after ops).engine.stakesOn k) + (after ops).lost k ∧
        (platform.blobs.sticky.isSome ↔ 0 < platform.blobs.refs) ∧
        (∀ r ∈ (after ops).engine.residents, r.platform = k →
          ∀ handle, r.isolate.blob = some handle →
            ∃ b, handle = .shared b ∧ platform.blobs.sticky = some b) ∧
        (∀ b, platform.blobs.sticky = some b → platform.blobs.current = b.view) ∧
        (platform.blobs.current.isNull ↔ platform.blobs.refs = 0) ∧
        platform.blobs.frees = (after ops).falls k) ∧
      (platform.options.binaryBlob = true → platform.blobs.refs = 0 ∧ platform.blobs.frees = 0)) ∧
    ∀ op misuse, ((LifecycleOperation.perform op).outcome (after ops).engine).1 =
      .error (.fatal (.blobMismatch misuse)) → misuse = .missing := by
  have hl := balanced_after ops
  refine ⟨fun k platform hk => ?_, fun op misuse hmisuse => ?_⟩
  · have hhost : (after ops).engine.host? k = some ⟨platform, (after ops).engine.stakesOn k⟩ := by
      rw [Engine.host?, hk]
      rfl
    obtain ⟨hcounted, hfrees⟩ := hl.counted k _ hhost
    obtain ⟨hcounts, hbacked, hbinary⟩ := hcounted
    refine ⟨fun hoption => ?_, fun hoption => ?_⟩
    · have hdefault : platform.blobs.default = none := by
        rw [hoption] at hbinary
        simpa using hbinary
      have hcurrent := hcounts.current hdefault
      refine ⟨hcounts.refs, hcounts.refs ▸ hcounts.sticky, ?_, ?_, ?_, hfrees⟩
      · rintro r hr rfl handle hblob
        have hstake : r.isolate.stake ∈ (after ops).engine.stakesOn r.platform :=
          List.mem_map_of_mem (List.mem_filter.mpr ⟨hr, beq_self_eq_true _⟩)
        obtain ⟨b, rfl, hs⟩ | ⟨b, -, hsome⟩ := (hbacked _ hstake).blob handle hblob
        · exact ⟨b, rfl, hs⟩
        · exact absurd hsome (by simp [hdefault])
      · intro b hs
        rw [hcurrent, hs]
        rfl
      · rw [hcounts.refs]
        exact hcounts.isNull_current hdefault
    · obtain ⟨hrefs, hfrees⟩ := hcounts.binary (hbinary.trans hoption)
      exact ⟨hcounts.refs.trans hrefs, hfrees⟩
  · have hproper := (op.step hl.sound).proper fun k host hk => ⟨_, (hl.counted k host hk).1⟩
    exact hproper _ hmisuse misuse rfl

/-- Two isolates share a blob and a shared space; a third one is set up half way and gets no blob.
The owner of the space ends first, which is fatal as it has a client, and comes before the blob is
given back. -/
def ownerEndsFirst : List LifecycleOperation :=
  [.addPlatform { binaryBlob := false },
   .allocateIn 0 { sharedSpace := true }, .allocateIn 0 { sharedSpace := true }, .allocateIn 0 {},
   .setUp "main" 1 none none none false, .setUp "main" 2 none none none false,
   .setUp "main" 3 none none none false (some "no more threads"), .dropHandle 1]

theorem references_exact_ownerEndsFirst :
    ∃ platform, (after ownerEndsFirst).engine.platform? 0 = some platform ∧
      platform.blobs.refs = 2 ∧ sharers ((after ownerEndsFirst).engine.stakesOn 0) = 1 ∧
      (after ownerEndsFirst).lost 0 = 1 ∧ platform.blobs.sticky.isSome ∧ platform.blobs.frees = 0 ∧
      ∀ op misuse, ((LifecycleOperation.perform op).outcome (after ownerEndsFirst).engine).1 =
        .error (.fatal (.blobMismatch misuse)) → misuse = .missing := by
  obtain ⟨hplatforms, hmisuse⟩ := references_exact ownerEndsFirst
  have hsome : ((after ownerEndsFirst).engine.platform? 0).isSome := rfl
  obtain ⟨platform, hk⟩ := Option.isSome_iff_exists.mp hsome
  have hbinary : platform.options.binaryBlob = false := by
    have hoption : ((after ownerEndsFirst).engine.platform? 0).map (·.options.binaryBlob) =
        some false := rfl
    simpa [hk] using hoption
  have hsharers : sharers ((after ownerEndsFirst).engine.stakesOn 0) = 1 := rfl
  have hlost : (after ownerEndsFirst).lost 0 = 1 := rfl
  have hfalls : (after ownerEndsFirst).falls 0 = 0 := rfl
  obtain ⟨hrefs, hsticky, -, -, -, hfrees⟩ := (hplatforms 0 platform hk).1 hbinary
  rw [hsharers, hlost] at hrefs
  exact ⟨platform, hk, hrefs, hsharers, hlost, hsticky.mpr (by rw [hrefs]; decide),
    hfrees.trans hfalls, hmisuse⟩

/-- The reference that is lost is counted on, though nobody holds it. -/
theorem not_references_exact_of_lost :
    ¬∀ ops k platform, (after ops).engine.platform? k = some platform →
      platform.options.binaryBlob = false →
        platform.blobs.refs = sharers ((after ops).engine.stakesOn k) := by
  intro h
  have hcounted : ((after ownerEndsFirst).engine.platform? 0).map (fun platform =>
      (platform.options.binaryBlob, platform.blobs.refs)) = some (false, 2) := rfl
  obtain ⟨platform, hk, hfields⟩ := Option.map_eq_some_iff.mp hcounted
  obtain ⟨hbinary, hrefs⟩ := Prod.mk.inj hfields
  have hexact : platform.blobs.refs = 1 := h ownerEndsFirst 0 platform hk hbinary
  exact absurd (hrefs.symm.trans hexact) (by decide)

end BlobLedger

end ScriptEngine

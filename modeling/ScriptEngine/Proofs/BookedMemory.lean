import ScriptEngine.Proofs.Budgets
import ScriptEngine.Proofs.Hosts

namespace ScriptEngine

open ScriptEngine.Action

namespace PageAllocator

variable {a a' : PageAllocator} {size : Nat} {r : Reservation}

/-- The bytes in use, budget by budget. -/
def booked (a : PageAllocator) : List Nat := a.budgets.map (·.used)

theorem reserve_booked (h : a.reserve size = some (r, a')) :
    r.size = size ∧ a'.booked = a.booked.map (· + size) := by
  obtain ⟨hr, -, -, hbudgets⟩ | ⟨hr, -⟩ := attempt_cases (reserve_eq_some.mp h)
  · cases hr
    rw [booked, hbudgets, booked, List.map_map, List.map_map]
    exact ⟨rfl, rfl⟩
  · cases hr

theorem release_booked : (a.release r).booked = a.booked.map (· - r.size) := by
  simp [booked, release, Budget.unbook, Function.comp_def]

end PageAllocator

/-- The bytes that an isolate has of its platform: its region, and its code range if there is
one. -/
def Stake.footprint (s : Stake) : Nat :=
  s.options.regionSize + if s.range.isSome then s.options.codeRangeSize else 0

/-- What the isolate has is as large as its options say. There is no code range before it is set
up. -/
structure Stake.Sized (s : Stake) : Prop where
  region : ∃ r, s.region = some r ∧ r.size = s.options.regionSize
  range : ∀ r, s.range = some r → r.size = s.options.codeRangeSize
  fresh : s.state = .allocated → s.range = none

/-- Budgets book what the isolate has, and `n` bytes for others. -/
structure Holding.Charged (n : Nat) (k : Holding) : Prop where
  sized : k.stake.Sized
  booked : k.pages.booked = k.process.memoryBudget.toList.map fun _ => n + k.stake.footprint

theorem Holding.Charged.withRange {n : Nat} {k : Holding} {r : Reservation} {pages : PageAllocator}
    (hk : k.Charged n) (hs : k.stake.state ≠ .allocated) (hnone : k.stake.range = none)
    (reserve : k.pages.reserve k.stake.options.codeRangeSize = some (r, pages)) :
    Holding.Charged n { k with stake := { k.stake with range := some r }, pages } := by
  obtain ⟨hsize, hbooked⟩ := PageAllocator.reserve_booked reserve
  refine ⟨⟨hk.sized.region, ?_, fun h => absurd h hs⟩, ?_⟩
  · exact fun r' hr => Option.some.inj hr ▸ hsize
  · show pages.booked = _
    rw [hbooked, hk.booked, List.map_map]
    simp [Stake.footprint, hnone, Function.comp_def, Nat.add_assoc]

theorem Holding.Charged.withoutRange {n : Nat} {k : Holding} (hk : k.Charged n) :
    k.withoutRange.Charged n := by
  refine ⟨⟨hk.sized.region, fun r hr => (by cases hr), fun _ => rfl⟩, ?_⟩
  show ((k.stake.range.map k.pages.release).getD k.pages).booked = _
  cases hrange : k.stake.range with
  | none =>
    rw [Option.map_none, Option.getD_none, hk.booked]
    simp [Holding.withoutRange, Stake.footprint, hrange]
  | some r =>
    have hsize := hk.sized.range r hrange
    rw [Option.map_some, Option.getD_some, PageAllocator.release_booked, hk.booked, hsize,
      List.map_map]
    simp [Holding.withoutRange, Stake.footprint, hrange, Function.comp_def, ← Nat.add_assoc]

namespace Hosted

variable {h h' : Hosted} {n : Nat} {t : ThreadId} {refusal : Option String}
  {snapshots : Option SnapshotSet} {result : Except Failure Unit}

theorem Charged.inState {s : LifecycleState} (hk : h.holding.Charged n)
    (hs : s = .allocated → h.isolate.stake.range = none) : (h.inState s).holding.Charged n :=
  ⟨⟨hk.sized.region, hk.sized.range, hs⟩, hk.booked⟩

theorem setUpPhases_charged :
    Meets (fun h => h.holding.Charged n ∧ h.holding.stake.state = .initializing ∧
        h.holding.stake.range = none)
      (setUpPhases t refusal snapshots) (fun _ h => h.holding.Charged n)
      fun _ h => h.holding.Charged n := by
  refine meets_setUpPhases
    (P := fun k => k.Charged n ∧ k.stake.state = .initializing ∧ k.stake.range = none)
    (R := fun k => k.Charged n) ?_ ?_ (fun _ hp => hp.1) (fun _ _ hk _ => hk) (fun _ _ hk => hk)
    fun _ hk _ _ => hk
  · rintro k r pages ⟨hk, hs, hnone⟩ hr
    exact hk.withRange (by rw [hs]; decide) hnone hr
  · refine meets_setUpBlob (fun _ hk _ => hk) (fun h handle hk _ _ => ?_) fun h hk _ => ?_
    · exact ⟨hk.sized, hk.booked⟩
    · refine meets_any (fun handle blobs => ?_) fun _ blobs => ⟨hk.sized, hk.booked⟩
      exact ⟨⟨hk.sized.region, hk.sized.range, hk.sized.fresh⟩, hk.booked⟩

theorem SetsUp.charged (hs : SetsUp t h result h') (hk : h.holding.Charged n) :
    h'.holding.Charged n := by
  cases hs with
  | mismatched => exact hk
  | late => exact hk
  | unable => exact hk
  | ran state deserializer phases =>
    -- An allocated isolate has no code range yet, so the one that it gets replaces none.
    have hstart : (h.inState .initializing).holding.Charged n :=
      Charged.inState hk fun hs => by cases hs
    have hend := setUpPhases_charged.outcome ⟨hstart, rfl, hk.sized.fresh state⟩ phases
    obtain (e | e) | u := result
    · exact Charged.inState hend fun hs => by cases hs
    · exact hend
    · exact Charged.inState hend fun hs => by cases hs

theorem releaseAll_charged :
    Meets (fun h => h.holding.Charged n) releaseAll (fun _ h => h.holding.Charged n)
      fun _ h => h.holding.Charged n := by
  refine meets_releaseAll (P := fun k => k.Charged n) (Q := fun k => k.Charged n)
    (fun _ _ _ hk => hk) (fun _ hk => hk.withoutRange) ?_
  refine meets_releaseBlob (fun _ hk _ => hk) fun h _ hk _ => ?_
  have hreleased : ∀ blobs : BlobRegistry, (Hosted.holding
      ⟨{ h.isolate with blob := none }, { h.platform with blobs }⟩).Charged n := fun _ =>
    ⟨⟨hk.sized.region, hk.sized.range, hk.sized.fresh⟩, hk.booked⟩
  exact meets_any (fun _ blobs => hreleased blobs) fun _ blobs => hreleased blobs

theorem TearsDown.charged (hs : TearsDown h result h') (hk : h.holding.Charged n) :
    h'.holding.Charged n := by
  have hstart : (h.inState .deinitializing).holding.Charged n :=
    Charged.inState hk fun hs => by cases hs
  cases hs with
  | before => exact hk
  | busy => exact hk
  | done state released =>
    have hend := releaseAll_charged.ok hstart released
    exact ⟨⟨hend.sized.region, hend.sized.range, fun hs => by cases hs⟩, hend.booked⟩
  | died state released => exact releaseAll_charged.error hstart released

theorem Task.charged (hs : Task h result h') (hk : h.holding.Charged n) : h'.holding.Charged n := by
  cases hs with
  | setUp t setsUp => exact setsUp.charged hk
  | tearDown tearsDown => exact tearsDown.charged hk
  | dispose disposes =>
    cases disposes with
    | entered => exact hk
    | ended tearsDown => exact tearsDown.charged hk
    | died tearsDown => exact tearsDown.charged hk

/-- An isolate that ends has given back everything. -/
theorem Destroys.charged (hs : Destroys h result h') (hk : h.holding.Charged n)
    (calm : endsFatally result = false) :
    h'.platform.pages.booked = h'.platform.options.memoryBudget.toList.map fun _ => n := by
  have hsettled : h.settled.holding.Charged n := by
    unfold settled
    split
    · exact Charged.inState hk fun hs => by cases hs
    · exact hk
  cases hs with
  | entered => cases calm
  | died => cases calm
  | alive => cases calm
  | @gone reached _ tearsDown survives live =>
    have hend := tearsDown.charged hsettled
    obtain ⟨r, hr, hsize⟩ := hend.sized.region
    have hregion : reached.isolate.region = some r := hr
    have hrange : reached.holding.stake.range = none := (Isolate.stake_of_nothing_lives live).1
    have hfootprint : reached.holding.stake.footprint = r.size := by
      simp [Stake.footprint, hrange, hsize]
    have hbooked := hend.booked
    rw [hfootprint] at hbooked
    unfold withoutRegion
    rw [hregion]
    show (reached.holding.pages.release r).booked =
      reached.holding.process.memoryBudget.toList.map _
    rw [PageAllocator.release_booked, hbooked, List.map_map]
    simp [Function.comp_def]

end Hosted

/-- The bytes that isolates have. -/
def footprint (stakes : List Stake) : Nat := stakes.foldr (fun s n => s.footprint + n) 0

theorem footprint_split {before after : List Stake} {s : Stake} :
    footprint (before ++ s :: after) = footprint (before ++ after) + s.footprint := by
  induction before with
  | nil => exact Nat.add_comm _ _
  | cons b rest ih =>
    have hcons : ∀ l : List Stake, footprint (b :: l) = b.footprint + footprint l := fun _ => rfl
    rw [List.cons_append, List.cons_append, hcons, hcons, ih, Nat.add_assoc]

namespace Host

variable {host host' : Host} {result : Except Failure Unit}

/-- The budget of the platform books what its isolates have. -/
structure Charged (host : Host) : Prop where
  sized : ∀ s ∈ host.stakes, s.Sized
  booked : host.platform.pages.booked =
    host.platform.options.memoryBudget.toList.map fun _ => footprint host.stakes

theorem charged_create (n : Nat) (o : ProcessOptions) : Charged ⟨.create n o, []⟩ where
  sized s hs := by cases hs
  booked := by
    simp only [Platform.create, PageAllocator.booked]
    cases o.memoryBudget <;> rfl

theorem Charged.holding {before after : List Stake} {i : Isolate} {platform : Platform}
    (hc : Charged ⟨platform, before ++ i.stake :: after⟩) :
    (Hosted.holding ⟨i, platform⟩).Charged (footprint (before ++ after)) where
  sized := hc.sized _ (List.mem_append_right _ List.mem_cons_self)
  booked := by
    have hbooked := hc.booked
    rw [footprint_split] at hbooked
    exact hbooked

theorem Charged.others {before after : List Stake} {s : Stake} {platform : Platform}
    (hc : Charged ⟨platform, before ++ s :: after⟩) : ∀ s ∈ before ++ after, s.Sized :=
  fun other hother => hc.sized other (List.perm_middle.mem_iff.mpr (List.mem_cons_of_mem _ hother))

theorem Charged.allocate {platform reserved : Platform} {stakes : List Stake} {id : IsolateId}
    {o : IsolateOptions} {region : Reservation} {blob : Option BlobHandle} {blobs : BlobRegistry}
    (hc : Charged ⟨platform, stakes⟩)
    (reserve : platform.reserve o.regionSize = some (region, reserved)) :
    Charged ⟨{ reserved with blobs },
      stakes ++ [⟨id, o, .allocated, [], some region, none, blob⟩]⟩ := by
  obtain ⟨⟨r, pages⟩, hpages, htaken⟩ := Option.map_eq_some_iff.mp reserve
  cases htaken
  obtain ⟨hsize, hbooked⟩ := PageAllocator.reserve_booked hpages
  refine ⟨fun s hs => ?_, ?_⟩
  · rcases List.mem_append.mp hs with hs | hs
    · exact hc.sized s hs
    · rw [List.mem_singleton.mp hs]
      exact ⟨⟨region, rfl, hsize⟩, fun r hr => (by cases hr), fun _ => rfl⟩
  · show pages.booked = _
    rw [hbooked, hc.booked, List.map_map, footprint_split, List.append_nil]
    simp [Stake.footprint, Function.comp_def]

theorem Step.charged (h : host.Step result host') (hc : host.Charged)
    (calm : endsFatally result = false) : host'.Charged := by
  cases h with
  | same => exact hc
  | allocate reserve => exact hc.allocate reserve
  | @act before after i platform _ hosted task =>
    have hend := task.charged hc.holding
    refine ⟨fun s hs => ?_, ?_⟩
    · rcases List.mem_cons.mp (List.perm_middle.mem_iff.mp hs) with rfl | hs
      · exact hend.sized
      · exact hc.others s hs
    · rw [footprint_split]
      exact hend.booked
  | destroy others destroys => exact ⟨hc.others, destroys.charged hc.holding calm⟩

/-- What a budget of the process has in use. -/
theorem Charged.used (hc : host.Charged) {limit : Nat}
    (budget : host.platform.options.memoryBudget = some limit) :
    host.platform.pages.used = footprint host.stakes := by
  have hbooked := hc.booked
  rw [budget] at hbooked
  have hhead : host.platform.pages.used = host.platform.pages.booked.head?.getD 0 := by
    unfold PageAllocator.used PageAllocator.booked
    rw [List.head?_map]
  rw [hhead, hbooked]
  rfl

end Host

end ScriptEngine

import Mathlib.Data.List.Forall2
import Mathlib.Data.List.Nodup
import ScriptEngine.Engine
import ScriptEngine.Isolate.Interrupt
import ScriptEngine.Proofs.LifecycleCases

namespace ScriptEngine

open ScriptEngine.Action

namespace Engine

/-- Tears an isolate down. A callback that waits tears it down again, so many times, when it is
dropped; what that comes to is the result. -/
def tearDown (id : IsolateId) (again : InterruptCallback → Nat) :
    Action Engine (List (List Hosted.InnerCall)) :=
  onHosted id (Hosted.tearDownWith fun c => Hosted.tearDownAgain (again c))

/-- Disposes of a reference to an isolate that is not the last one. -/
def dispose (id : IsolateId) (again : InterruptCallback → Nat) :
    Action Engine (List (List Hosted.InnerCall)) :=
  onHosted id (Hosted.disposeWith fun c => Hosted.tearDownAgain (again c))

end Engine

/-- What an embedder does with platforms and isolates. -/
inductive LifecycleOperation
  | addPlatform (o : ProcessOptions)
  | initializeOnce (o : ProcessOptions)
  | allocate (o : IsolateOptions)
  | allocateIn (platform : PlatformId) (o : IsolateOptions)
  | cloneHandle (id : IsolateId)
  | installDeserializer (id : IsolateId) (d : Deserializer)
  | requestInterrupt (id : IsolateId) (callback : InterruptCallback)
  /-- The system can refuse to start the compile thread. -/
  | setUp (t : ThreadId) (id : IsolateId) (startup readOnly shared : Option (List UInt8))
      (canRehash : Bool) (refusal : Option String := none)
  | enter (t : ThreadId) (id : IsolateId)
  | exit (t : ThreadId) (id : IsolateId)
  | tearDown (id : IsolateId) (again : InterruptCallback → Nat)
  /-- Disposing of the last reference is this, and then dropping it. -/
  | dispose (id : IsolateId) (again : InterruptCallback → Nat)
  | dropHandle (id : IsolateId)

namespace LifecycleOperation

/-- What the operation does to the process. -/
def perform : LifecycleOperation → Action Engine Unit
  | addPlatform o => ignore (Engine.addPlatform o)
  | initializeOnce o => ignore (Engine.initializeOnce o)
  | allocate o => ignore (Engine.allocate o)
  | allocateIn platform o => ignore (Engine.allocateIn platform o)
  | cloneHandle id =>
    modify fun p =>
      { p with
        residents := p.residents.map fun r =>
          if r.isolate.id = id then { r with handles := r.handles + 1 } else r }
  | installDeserializer id d =>
    Engine.onIsolate id (modify fun i => { i with deserializer := some d })
  | requestInterrupt id callback => Engine.onHosted id (Hosted.requestInterrupt callback)
  | setUp t id startup readOnly shared canRehash refusal =>
    Engine.onHosted id (Hosted.setUp t startup readOnly shared canRehash refusal)
  | enter t id => Engine.enter t id
  | exit t id => Engine.exit t id
  | tearDown id again => ignore (Engine.tearDown id again)
  | dispose id again => ignore (Engine.dispose id again)
  | dropHandle id => Engine.dropHandle id

end LifecycleOperation

/-- Whether an operation ended in a fatal error. -/
def endsFatally : Except Failure Unit → Bool
  | .error (.fatal _) => true
  | _ => false

/-- Nothing that counts has changed: the isolate holds what it held, has its part in the shared
space and its combinator functions, and one that lets nobody in has nothing come alive. -/
structure Isolate.Quiet (i i' : Isolate) : Prop where
  stake : i'.stake = i.stake
  role : i'.spaceRole = i.spaceRole
  intrinsics : i'.intrinsics = i.intrinsics
  live : i.state.refusesEntry → i'.liveSubsystems = i.liveSubsystems

theorem Isolate.Quiet.refl (i : Isolate) : i.Quiet i := ⟨rfl, rfl, rfl, fun _ => rfl⟩

theorem Isolate.Quiet.trans {i i' i'' : Isolate} (h : i.Quiet i') (h' : i'.Quiet i'') :
    i.Quiet i'' where
  stake := h'.stake.trans h.stake
  role := h'.role.trans h.role
  intrinsics := h'.intrinsics.trans h.intrinsics
  live hs := by
    have hstate : i'.state = i.state := congrArg Stake.state h.stake
    rw [h'.live (hstate ▸ hs), h.live hs]

theorem Isolate.quiet_attach {i : Isolate} (hs : i.state.refusesEntry = false) :
    i.Quiet (i.attach t) where
  stake := by
    unfold Isolate.attach
    split <;> rfl
  role := by
    unfold Isolate.attach
    split <;> rfl
  intrinsics := by
    unfold Isolate.attach
    split <;> rfl
  live h := by
    rw [hs] at h
    cases h

theorem Isolate.quiet_entries (i : Isolate) (n : Nat) : i.Quiet { i with entries := n } :=
  ⟨rfl, rfl, rfl, fun _ => rfl⟩

theorem Isolate.quiet_deserializer (i : Isolate) (d : Option Deserializer) :
    i.Quiet { i with deserializer := d } := ⟨rfl, rfl, rfl, fun _ => rfl⟩

theorem Isolate.quiet_interrupts (i : Isolate) (interrupts : List InterruptCallback)
    (guard : StackGuard) : i.Quiet { i with interrupts, guard } :=
  ⟨rfl, rfl, rfl, fun _ => rfl⟩

/-- An operation on one isolate and its platform. -/
inductive Hosted.Task (h : Hosted) (result : Except Failure Unit) (h' : Hosted) : Prop
  | setUp (t : ThreadId) (setsUp : SetsUp t h result h')
  | tearDown (tearsDown : TearsDown h result h')
  | dispose (disposes : Disposes h result h')

theorem Hosted.Task.ground {h h' : Hosted} {result : Except Failure Unit}
    (task : Task h result h') : h'.holding.ground = h.holding.ground := by
  cases task with
  | setUp t setsUp => exact setsUp.ground
  | tearDown tearsDown => exact tearsDown.ground
  | dispose disposes => exact disposes.ground

namespace Engine

variable {p q p' : Engine} {id : IsolateId} {r : Resident} {t : ThreadId}
  {before after : List Resident} {T : Hosted → Except Failure Unit → Hosted → Prop}

/-- Isolates have numbers of their own, and live on platforms that exist. -/
structure Sound (p : Engine) : Prop where
  distinct : (p.residents.map (·.isolate.id)).Nodup
  numbered : ∀ r ∈ p.residents, r.isolate.id < p.nextIsolate
  housed : ∀ r ∈ p.residents, r.platform < p.platforms.length

theorem sound_empty : Sound {} where
  distinct := List.nodup_nil
  numbered _ h := by cases h
  housed _ h := by cases h

/-- A resident in its place; no other one has its number. -/
structure Lodges (before : List Resident) (r : Resident) (after : List Resident) (p : Engine) :
    Prop where
  residents : p.residents = before ++ r :: after
  others : ∀ s ∈ before ++ after, s.isolate.id ≠ r.isolate.id

theorem Lodges.mem (h : Lodges before r after p) : r ∈ p.residents :=
  h.residents ▸ List.mem_append_right _ List.mem_cons_self

theorem Lodges.mem_of_around (h : Lodges before r after p) {s : Resident}
    (hs : s ∈ before ++ after) :
    s ∈ p.residents :=
  h.residents ▸ List.perm_middle.mem_iff.mpr (List.mem_cons_of_mem _ hs)

theorem Sound.lodges (hp : p.Sound) (h : p.resident? id = some r) :
    ∃ before after, Lodges before r after p ∧ r.isolate.id = id := by
  obtain ⟨hid, before, after, hsplit, -⟩ := List.find?_eq_some_iff_append.mp h
  refine ⟨before, after, ⟨hsplit, ?_⟩, by simpa using hid⟩
  have hdistinct := hp.distinct
  rw [hsplit, List.map_append, List.map_cons, List.nodup_middle, List.nodup_cons,
    ← List.map_append] at hdistinct
  intro s hs hsame
  exact hdistinct.1 (List.mem_map.mpr ⟨s, hs, hsame⟩)

theorem Sound.resident?_of_mem (hp : p.Sound) (hr : r ∈ p.residents) :
    p.resident? r.isolate.id = some r := by
  obtain ⟨s, hs⟩ : ∃ s, p.resident? r.isolate.id = some s :=
    Option.isSome_iff_exists.mp (List.find?_isSome.mpr ⟨r, hr, beq_self_eq_true _⟩)
  have hid : s.isolate.id = r.isolate.id := by simpa using List.find?_some hs
  rw [hs, List.inj_on_of_nodup_map hp.distinct (List.mem_of_find?_eq_some hs) hr hid]

/-- What is done to the resident with a number is done to that one only. -/
theorem Lodges.map (h : Lodges before r after p) (f : Resident → Resident) :
    p.residents.map (fun s => if s.isolate.id = r.isolate.id then f s else s) =
      before ++ f r :: after := by
  have haway : ∀ l : List Resident, (∀ s ∈ l, s.isolate.id ≠ r.isolate.id) →
      l.map (fun s => if s.isolate.id = r.isolate.id then f s else s) = l := by
    intro l hl
    exact (List.map_congr_left fun s hs => if_neg (hl s hs)).trans (List.map_id' l)
  rw [h.residents, List.map_append, List.map_cons, if_pos rfl,
    haway before fun s hs => h.others s (List.mem_append_left _ hs),
    haway after fun s hs => h.others s (List.mem_append_right _ hs)]

theorem Lodges.filter (h : Lodges before r after p) {i : Isolate} (hi : i.id = r.isolate.id) :
    (before ++ { r with isolate := i } :: after).filter (·.isolate.id != r.isolate.id) =
      before ++ after := by
  have hkept : ∀ l : List Resident, (∀ s ∈ l, s.isolate.id ≠ r.isolate.id) →
      l.filter (·.isolate.id != r.isolate.id) = l := by
    intro l hl
    exact List.filter_eq_self.mpr fun s hs => by simpa using hl s hs
  rw [List.filter_append, List.filter_cons_of_neg (by simp [hi]),
    hkept before fun s hs => h.others s (List.mem_append_left _ hs),
    hkept after fun s hs => h.others s (List.mem_append_right _ hs)]

/-- The process with an isolate and its platform changed. -/
def withHosted (p : Engine) (before : List Resident) (r : Resident) (after : List Resident)
    (h : Hosted) : Engine :=
  { p with
    platforms := p.platforms.set r.platform h.platform
    residents := before ++ { r with isolate := h.isolate } :: after }

theorem Lodges.putHosted (h : Lodges before r after p) (hr : p.resident? r.isolate.id = some r)
    (hosted : Hosted) : p.putHosted r.isolate.id hosted = p.withHosted before r after hosted := by
  unfold Engine.putHosted withHosted
  rw [hr]
  dsimp only
  rw [h.map]

theorem Sound.outcome_onHosted {α : Type} (hp : p.Sound) (id : IsolateId) (act : Action Hosted α) :
    (p.resident? id = none ∧ (onHosted id act).outcome p = (.error (.refused .notEntered), p)) ∨
    ∃ before r after platform, Lodges before r after p ∧ r.isolate.id = id ∧
      p.resident? id = some r ∧ p.platform? r.platform = some platform ∧
      (onHosted id act).outcome p =
        ((act.outcome ⟨r.isolate, platform⟩).1,
          p.withHosted before r after (act.outcome ⟨r.isolate, platform⟩).2) := by
  unfold onHosted
  rw [outcome_get_bind]
  cases hr : p.resident? id with
  | none =>
    refine .inl ⟨rfl, ?_⟩
    have hnone : p.hosted? id = none := by simp [hosted?, hr]
    rw [hnone]
    rfl
  | some r =>
    obtain ⟨before, after, hlodges, rfl⟩ := hp.lodges hr
    have hhoused : r.platform < p.platforms.length := hp.housed r hlodges.mem
    have hplatform : p.platform? r.platform = some p.platforms[r.platform] :=
      List.getElem?_eq_getElem hhoused
    have hhosted : p.hosted? r.isolate.id = some ⟨r.isolate, p.platforms[r.platform]⟩ := by
      simp [hosted?, hr, hplatform]
    refine .inr ⟨before, r, after, p.platforms[r.platform], hlodges, rfl, rfl, hplatform, ?_⟩
    rw [hhosted]
    dsimp only
    cases ho : act.outcome ⟨r.isolate, p.platforms[r.platform]⟩ with
    | mk result h =>
      have hput :
          (modify fun q : Engine => q.putHosted r.isolate.id h : Action Engine Unit).outcome p =
            (.ok (), p.withHosted before r after h) := by
        rw [← hlodges.putHosted hr]
        rfl
      dsimp only
      rw [outcome_bind_ok hput]
      cases result <;> rfl

/-- It does not matter where the result is left aside. -/
theorem outcome_ignore_onHosted {α : Type} (id : IsolateId) (act : Action Hosted α) :
    (ignore (onHosted id act)).outcome p = (onHosted id (ignore act)).outcome p := by
  rw [outcome_ignore]
  unfold onHosted
  rw [outcome_get_bind, outcome_get_bind]
  cases p.hosted? id with
  | none => rfl
  | some h =>
    dsimp only
    rw [outcome_ignore]
    obtain ⟨e | a, h'⟩ := act.outcome h <;> rfl

theorem Sound.outcome_onHosted_of {α : Type} {i : Isolate} (hp : p.Sound)
    (hi : p.isolate? id = some i) (act : Action Hosted α) :
    ∃ before r after platform, Lodges before r after p ∧ r.isolate = i ∧
      p.platform? r.platform = some platform ∧
      (onHosted id act).outcome p =
        ((act.outcome ⟨i, platform⟩).1,
          p.withHosted before r after (act.outcome ⟨i, platform⟩).2) := by
  obtain ⟨hnone, -⟩ | ⟨before, r, after, platform, hlodges, -, hr, hplatform, ho⟩ :=
    hp.outcome_onHosted id act
  · rw [isolate?, hnone] at hi
    cases hi
  · rw [isolate?, hr] at hi
    cases hi
    exact ⟨before, r, after, platform, hlodges, rfl, hplatform, ho⟩

/-- Nothing has changed for an isolate that is put back as it was. -/
theorem Lodges.withHosted_self {platform : Platform} (h : Lodges before r after p)
    (hk : p.platform? r.platform = some platform) :
    p.withHosted before r after ⟨r.isolate, platform⟩ = p := by
  obtain ⟨hlt, hplatform⟩ := List.getElem?_eq_some_iff.mp hk
  have hplatforms : p.platforms.set r.platform platform = p.platforms :=
    hplatform ▸ List.set_getElem_self hlt
  unfold withHosted
  rw [hplatforms]
  show { p with residents := before ++ r :: after } = p
  rw [← h.residents]

/-- Only what does not count has changed. -/
structure Quietly (p p' : Engine) : Prop where
  platforms : p'.platforms = p.platforms
  next : p'.nextIsolate = p.nextIsolate
  residents : List.Forall₂ (fun r r' => r'.platform = r.platform ∧ r.isolate.Quiet r'.isolate)
    p.residents p'.residents

theorem Quietly.refl (p : Engine) : p.Quietly p :=
  ⟨rfl, rfl, List.forall₂_same.mpr fun r _ => ⟨rfl, .refl r.isolate⟩⟩

theorem Quietly.trans (h : p.Quietly q) (h' : q.Quietly p') : p.Quietly p' where
  platforms := h'.platforms.trans h.platforms
  next := h'.next.trans h.next
  residents := by
    have hrs := h.residents
    have hrs' := h'.residents
    generalize p.residents = rs, q.residents = rs', p'.residents = rs'' at *
    induction hrs generalizing rs'' with
    | nil => cases hrs'; exact .nil
    | cons hr _ ih =>
      cases hrs' with
      | cons hr' hrest => exact .cons ⟨hr'.1.trans hr.1, hr.2.trans hr'.2⟩ (ih _ hrest)

theorem Quietly.map_eq {β : Type} (h : p.Quietly p') {f : Resident → β}
    (hf : ∀ r r' : Resident, r'.platform = r.platform → r.isolate.Quiet r'.isolate → f r' = f r) :
    p'.residents.map f = p.residents.map f := by
  have hrs := h.residents
  generalize p.residents = rs, p'.residents = rs' at hrs
  induction hrs with
  | nil => rfl
  | cons hr _ ih => rw [List.map_cons, List.map_cons, ih, hf _ _ hr.1 hr.2]

theorem Quietly.mem (h : p.Quietly p') {r' : Resident} (hr : r' ∈ p'.residents) :
    ∃ r ∈ p.residents, r'.platform = r.platform ∧ r.isolate.Quiet r'.isolate := by
  have hrs := h.residents
  generalize p.residents = rs, p'.residents = rs' at hrs hr
  induction hrs with
  | nil => cases hr
  | @cons r _ _ _ hhead _ ih =>
    rcases List.mem_cons.mp hr with rfl | hr
    · exact ⟨r, List.mem_cons_self, hhead⟩
    · obtain ⟨s, hs, hrest⟩ := ih hr
      exact ⟨s, List.mem_cons_of_mem _ hs, hrest⟩

theorem Quietly.sound (h : p.Quietly p') (hp : p.Sound) : p'.Sound where
  distinct := by
    have hids : p'.residents.map (·.isolate.id) = p.residents.map (·.isolate.id) :=
      h.map_eq fun r r' _ hquiet => congrArg Stake.id hquiet.stake
    rw [hids]
    exact hp.distinct
  numbered r' hr' := by
    obtain ⟨r, hr, -, hquiet⟩ := h.mem hr'
    have hid : r'.isolate.id = r.isolate.id := congrArg Stake.id hquiet.stake
    rw [h.next, hid]
    exact hp.numbered r hr
  housed r' hr' := by
    obtain ⟨r, hr, hplatform, -⟩ := h.mem hr'
    rw [h.platforms, hplatform]
    exact hp.housed r hr

theorem Lodges.quietly (h : Lodges before r after p) {platform : Platform} {i : Isolate}
    (hplatform : p.platform? r.platform = some platform) (hi : r.isolate.Quiet i) :
    p.Quietly (p.withHosted before r after ⟨i, platform⟩) where
  platforms := congrArg (·.platforms) (h.withHosted_self hplatform)
  next := rfl
  residents := by
    have hsame : ∀ l : List Resident, List.Forall₂ (fun r r' : Resident =>
        r'.platform = r.platform ∧ r.isolate.Quiet r'.isolate) l l :=
      fun l => List.forall₂_same.mpr fun r _ => ⟨rfl, .refl r.isolate⟩
    rw [h.residents]
    exact List.rel_append (hsame before) (.cons ⟨rfl, hi⟩ (hsame after))

/-- The process without an isolate, whose platform has changed. -/
def withoutResident (p : Engine) (before : List Resident) (r : Resident) (after : List Resident)
    (platform : Platform) : Engine :=
  { p with
    platforms := p.platforms.set r.platform platform
    residents := before ++ after }

/-- What an operation that came to `result` did to the process; of what it can do to an isolate at
once, `T` tells. -/
inductive StepBy (T : Hosted → Except Failure Unit → Hosted → Prop) (p : Engine) :
    Except Failure Unit → Engine → Prop
  | quiet {result : Except Failure Unit} {p' : Engine} (quietly : p.Quietly p')
      (plain : ∀ m, result ≠ .error (.fatal (.blobMismatch m))) : StepBy T p result p'
  | found {p' : Engine} (o : ProcessOptions)
      (platforms : p'.platforms = p.platforms ++ [.create p.platforms.length o])
      (residents : p'.residents = p.residents) (next : p'.nextIsolate = p.nextIsolate) :
      StepBy T p (.ok ()) p'
  | allocate {p' : Engine} {k : PlatformId} {o : IsolateOptions} {host reserved : Platform}
      {region : Reservation} (platform : p.platform? k = some host)
      (reserve : host.reserve o.regionSize = some (region, reserved))
      (platforms : p'.platforms =
        p.platforms.set k { reserved with blobs := reserved.blobs.acquire.2 })
      (residents : p'.residents = p.residents ++
        [⟨k, 1, { id := p.nextIsolate, options := o, region := some region,
                  blob := reserved.blobs.acquire.1 }⟩])
      (next : p'.nextIsolate = p.nextIsolate + 1) : StepBy T p (.ok ()) p'
  | act {before after : List Resident} {r : Resident} {platform : Platform}
      {result : Except Failure Unit} {h : Hosted} (lodges : Lodges before r after p)
      (housed : p.platform? r.platform = some platform)
      (task : T ⟨r.isolate, platform⟩ result h) :
      StepBy T p result (p.withHosted before r after h)
  | destroy {q : Engine} {before after : List Resident} {r : Resident} {platform : Platform}
      {result : Except Failure Unit} {h : Hosted} (quietly : p.Quietly q)
      (lodges : Lodges before r after q) (housed : q.platform? r.platform = some platform)
      (destroys : Hosted.Destroys ⟨r.isolate, platform⟩ result h) :
      StepBy T p result (q.withoutResident before r after h.platform)

/-- What an operation did to the process. -/
abbrev Step (p : Engine) : Except Failure Unit → Engine → Prop := p.StepBy Hosted.Task

theorem StepBy.weaken {T T' : Hosted → Except Failure Unit → Hosted → Prop}
    {result : Except Failure Unit} (h : p.StepBy T result p')
    (hT : ∀ h result h', T h result h' → T' h result h') : p.StepBy T' result p' := by
  cases h with
  | quiet quietly plain => exact .quiet quietly plain
  | found o platforms residents next => exact .found o platforms residents next
  | allocate platform reserve platforms residents next =>
    exact .allocate platform reserve platforms residents next
  | act lodges housed task => exact .act lodges housed (hT _ _ _ task)
  | destroy quietly lodges housed destroys => exact .destroy quietly lodges housed destroys

/-- An action changes nothing that counts, and fails with refusals only. -/
def Quiets (p : Engine) (act : Action Engine Unit) : Prop :=
  Meets (· = p) act (fun _ q => p.Quietly q) fun e q => p.Quietly q ∧ ∃ e', e = .refused e'

theorem Quiets.step {act : Action Engine Unit} (h : p.Quiets act) :
    p.StepBy T (act.outcome p).1 (act.outcome p).2 := by
  cases ho : act.outcome p with
  | mk result q =>
    cases result with
    | ok u => exact .quiet (h.ok rfl ho) fun _ h => by cases h
    | error e =>
      obtain ⟨hquiet, _, rfl⟩ := h.error rfl ho
      exact .quiet hquiet fun _ h => by cases h

/-- One quiet action after another. -/
theorem Quiets.trans {act : Action Engine Unit} (h : p.Quietly q) (hq : q.Quiets act) :
    Meets (· = q) act (fun _ q => p.Quietly q) fun e q => p.Quietly q ∧ ∃ e', e = .refused e' :=
  hq.weaken (fun _ h => h) (fun _ _ h' => h.trans h') fun _ _ h' => ⟨h.trans h'.1, h'.2⟩

theorem Sound.quiets_onHosted {act : Action Hosted Unit} (hp : p.Sound)
    (hact : ∀ r platform, p.resident? id = some r →
      ∃ i, act.outcome ⟨r.isolate, platform⟩ = (.ok (), ⟨i, platform⟩) ∧ r.isolate.Quiet i) :
    p.Quiets (onHosted id act) := by
  rintro _ rfl
  obtain ⟨-, ho⟩ | ⟨before, r, after, platform, hlodges, rfl, hr, hplatform, ho⟩ :=
    hp.outcome_onHosted id act
  · rw [ho]
    exact ⟨.refl _, _, rfl⟩
  · obtain ⟨i, hi, hquiet⟩ := hact r platform hr
    rw [ho, hi]
    exact hlodges.quietly hplatform hquiet

theorem Sound.quiets_onIsolate {f : Isolate → Isolate} (hp : p.Sound)
    (hf : ∀ r, p.resident? id = some r → r.isolate.Quiet (f r.isolate)) :
    p.Quiets (onIsolate id (modify f)) :=
  hp.quiets_onHosted fun r _ hr => ⟨f r.isolate, rfl, hf r hr⟩

theorem quietly_mapResidents {f : Resident → Resident}
    (hf : ∀ r, (f r).platform = r.platform ∧ (f r).isolate = r.isolate) :
    p.Quietly { p with residents := p.residents.map f } where
  platforms := rfl
  next := rfl
  residents := by
    rw [List.forall₂_map_right_iff, List.forall₂_same]
    exact fun r _ => ⟨(hf r).1, (hf r).2 ▸ .refl r.isolate⟩

theorem quietly_setEntryStack (items : List EntryItem) : p.Quietly (p.setEntryStack t items) :=
  ⟨rfl, rfl, (Quietly.refl p).residents⟩

theorem Sound.quiets_enter (hp : p.Sound) : p.Quiets (enter t id) := by
  refine meets_get_bind_at ?_
  cases hi : p.isolate? id with
  | none => exact meets_pure fun _ h => h ▸ .refl p
  | some i =>
    dsimp only
    split
    · refine meets_refuse ?_
      rintro _ rfl
      exact ⟨.refl _, _, rfl⟩
    rename_i hopen
    have hcount : ∀ _ : Unit, Meets p.Quietly
        (onIsolate id (modify fun i => { i with entries := i.entries + 1 }))
        (fun _ q => p.Quietly q) fun e q => p.Quietly q ∧ ∃ e', e = .refused e' := fun _ =>
      meets_of_forall fun q hq =>
        ((hq.sound hp).quiets_onIsolate fun r _ => r.isolate.quiet_entries _).trans hq
    -- A first entry attaches the thread, which only an open isolate allows.
    have hattach : ∀ items, Meets (· = p.setEntryStack t items) (onIsolate id (modify (·.attach t)))
        (fun _ q => p.Quietly q) fun e q => p.Quietly q ∧ ∃ e', e = .refused e' := by
      intro items
      have hset : p.Quietly (p.setEntryStack t items) := quietly_setEntryStack items
      refine ((hset.sound hp).quiets_onIsolate fun r hr => ?_).trans hset
      have hresident : p.resident? id = some r := hr
      have hisolate : p.isolate? id = some r.isolate := by rw [Engine.isolate?, hresident]; rfl
      cases hi.symm.trans hisolate
      exact Isolate.quiet_attach (by simpa using hopen)
    split
    · split
      · refine Meets.bind (Q := fun _ => p.Quietly) ?_ hcount
        exact meets_set (quietly_setEntryStack _)
      · refine Meets.bind (Q := fun _ q => q = p.setEntryStack t _) (meets_set rfl) fun _ => ?_
        exact (hattach _).bind hcount
    · refine Meets.bind (Q := fun _ q => q = p.setEntryStack t _) (meets_set rfl) fun _ => ?_
      exact (hattach _).bind hcount

/-- What is collected is an isolate that ends; it is gone even if that is fatal. Whatever something
refers to stays. -/
theorem Sound.collect_cases (hp : p.Sound) (id : IsolateId) :
    ((collect id).outcome p = (.ok (), p) ∧
      ∀ r ∈ p.residents, r.isolate.id = id → r.handles ≠ 0 ∨ p.isEntered id = true) ∨
    ∃ before r after platform result h, Lodges before r after p ∧ r.isolate.id = id ∧
      r.handles = 0 ∧ p.isEntered id = false ∧ p.platform? r.platform = some platform ∧
      Hosted.Destroys ⟨r.isolate, platform⟩ result h ∧
      (collect id).outcome p = (result, p.withoutResident before r after h.platform) := by
  have hfound : ∀ r ∈ p.residents, r.isolate.id = id → p.resident? id = some r := by
    rintro r hr rfl
    exact hp.resident?_of_mem hr
  unfold collect
  rw [outcome_get_bind]
  obtain ⟨hnone, -⟩ | ⟨before, r, after, platform, hlodges, rfl, hr, hplatform, ho⟩ :=
    hp.outcome_onHosted id Hosted.destroy
  · rw [hnone]
    exact .inl ⟨rfl, fun r hr hid => by cases hnone.symm.trans (hfound r hr hid)⟩
  rw [hr]
  dsimp only
  split
  swap
  · rename_i hused
    refine .inl ⟨rfl, fun s hs hid => ?_⟩
    cases hr.symm.trans (hfound s hs hid)
    by_contra hfree
    obtain ⟨hzero, hout⟩ := not_or.mp hfree
    exact hused (by simp [not_not.mp hzero, hout])
  rename_i hunused
  rw [Bool.and_eq_true, decide_eq_true_eq, Bool.not_eq_true'] at hunused
  -- The isolate is put back as it ended, and taken out at once.
  have hattempt : (attempt (onHosted r.isolate.id Hosted.destroy)).outcome p =
      (.ok (Hosted.destroy.outcome ⟨r.isolate, platform⟩).1,
        p.withHosted before r after (Hosted.destroy.outcome ⟨r.isolate, platform⟩).2) := by
    rw [outcome_attempt, ho]
  have hdestroys := Hosted.destroys ⟨r.isolate, platform⟩
  have hground := congrArg Prod.fst hdestroys.ground
  rw [outcome_bind_ok hattempt]
  generalize Hosted.destroy.outcome ⟨r.isolate, platform⟩ = ended at hdestroys hground
  obtain ⟨result, ended⟩ := ended
  have hgone : ((modify fun p : Engine =>
      { p with residents := p.residents.filter (·.isolate.id != r.isolate.id) }) :
      Action Engine Unit).outcome (p.withHosted before r after ended) =
      (.ok (), p.withoutResident before r after ended.platform) := by
    have hfilter := hlodges.filter hground
    show ((Except.ok () : Except Failure Unit), ({ p with
      platforms := p.platforms.set r.platform ended.platform
      residents := (before ++ { r with isolate := ended.isolate } :: after).filter
        (·.isolate.id != r.isolate.id) } : Engine)) = _
    rw [hfilter]
    rfl
  rw [outcome_bind_ok hgone]
  refine .inr ⟨before, r, after, platform, result, ended, hlodges, rfl, hunused.1, hunused.2,
    hplatform, hdestroys, ?_⟩
  obtain e | u := result <;> rfl

theorem Quietly.collect_step (h : p.Quietly q) (hq : q.Sound) :
    p.StepBy T ((collect id).outcome q).1 ((collect id).outcome q).2 := by
  obtain ⟨ho, -⟩ | ⟨before, r, after, platform, result, ended, hlodges, -, -, -, hplatform,
    hdestroys, ho⟩ := hq.collect_cases id
  · rw [ho]
    exact .quiet h fun _ h => by cases h
  · rw [ho]
    exact .destroy h hlodges hplatform hdestroys

theorem Sound.dropHandle_step (hp : p.Sound) :
    p.StepBy T ((dropHandle id).outcome p).1 ((dropHandle id).outcome p).2 := by
  let q : Engine := { p with
    residents := p.residents.map fun r =>
      if r.isolate.id = id then { r with handles := r.handles - 1 } else r }
  have hquiet : p.Quietly q := quietly_mapResidents fun r => by split <;> exact ⟨rfl, rfl⟩
  have hmodify : (modify fun p : Engine =>
      { p with
        residents := p.residents.map fun r =>
          if r.isolate.id = id then { r with handles := r.handles - 1 } else r } :
      Action Engine Unit).outcome p = (.ok (), q) := rfl
  unfold dropHandle
  rw [outcome_bind_ok hmodify]
  exact hquiet.collect_step (hquiet.sound hp)

theorem Sound.exit_step (hp : p.Sound) :
    p.StepBy T ((exit t id).outcome p).1 ((exit t id).outcome p).2 := by
  have hrefused : p.StepBy T (.error (.refused .notEntered)) p :=
    .quiet (.refl p) fun _ h => by cases h
  unfold exit
  rw [outcome_get_bind]
  cases hentered : p.entryStack t with
  | nil => exact hrefused
  | cons item rest =>
    dsimp only
    split
    · exact hrefused
    rw [outcome_bind_ok (outcome_set _ _)]
    have hset := quietly_setEntryStack (p := p) (t := t)
      (if item.count ≤ 1 then rest else { item with count := item.count - 1 } :: rest)
    generalize p.setEntryStack t _ = q at hset
    have hcount : q.Quiets
        (onIsolate id (modify fun i => { i with entries := i.entries - 1 })) :=
      (hset.sound hp).quiets_onIsolate fun r _ => r.isolate.quiet_entries _
    cases ho : (onIsolate id (modify fun i => { i with entries := i.entries - 1 })).outcome q with
    | mk result q' =>
      cases result with
      | error e =>
        obtain ⟨hquiet, _, rfl⟩ := hcount.error rfl ho
        rw [outcome_bind_error ho]
        exact .quiet (hset.trans hquiet) fun _ h => by cases h
      | ok u =>
        have hquiet : p.Quietly q' := hset.trans (hcount.ok rfl ho)
        rw [outcome_bind_ok ho]
        exact hquiet.collect_step (hquiet.sound hp)

theorem Sound.task_step {act : Action Hosted Unit} (hp : p.Sound)
    (htask : ∀ h, T h (act.outcome h).1 (act.outcome h).2) :
    p.StepBy T ((onHosted id act).outcome p).1 ((onHosted id act).outcome p).2 := by
  obtain ⟨-, ho⟩ | ⟨before, r, after, platform, hlodges, -, -, hplatform, ho⟩ :=
    hp.outcome_onHosted id act
  · rw [ho]
    exact .quiet (.refl p) fun _ h => by cases h
  · rw [ho]
    exact .act hlodges hplatform (htask _)

theorem allocateIn_step {k : PlatformId} {o : IsolateOptions} :
    p.StepBy T (((allocateIn k o).outcome p).1.map fun _ => ()) ((allocateIn k o).outcome p).2 := by
  unfold allocateIn
  rw [outcome_get_bind]
  cases hk : p.platform? k with
  | none => exact .quiet (.refl p) fun _ h => by cases h
  | some host =>
    cases hr : host.reserve o.regionSize with
    | none =>
      rw [Option.bind_some, hr]
      exact .quiet (.refl p) fun _ h => by cases h
    | some taken =>
      rw [Option.bind_some, hr]
      exact .allocate hk hr rfl rfl rfl

theorem addPlatform_step {o : ProcessOptions} :
    p.StepBy T (((addPlatform o).outcome p).1.map fun _ => ()) ((addPlatform o).outcome p).2 :=
  .found o rfl rfl rfl

theorem allocate_step {o : IsolateOptions} :
    p.StepBy T (((allocate o).outcome p).1.map fun _ => ()) ((allocate o).outcome p).2 := by
  unfold allocate
  rw [outcome_get_bind]
  cases p.globalPlatform with
  | none => exact .quiet (.refl p) fun _ h => by cases h
  | some k => exact allocateIn_step

theorem initializeOnce_step {o : ProcessOptions} :
    p.StepBy T (((initializeOnce o).outcome p).1.map fun _ => ())
      ((initializeOnce o).outcome p).2 := by
  unfold initializeOnce
  rw [outcome_get_bind]
  cases p.globalPlatform with
  | none => exact .found o rfl rfl rfl
  | some k => exact .quiet (.refl p) fun _ h => by cases h

end Engine

theorem LifecycleOperation.outcome_tearDown {p : Engine} (id : IsolateId)
    (again : InterruptCallback → Nat) : (tearDown id again).perform.outcome p = (Engine.onHosted id
      (ignore (Hosted.tearDownWith fun c => Hosted.tearDownAgain (again c)))).outcome p :=
  Engine.outcome_ignore_onHosted id _

theorem LifecycleOperation.outcome_dispose {p : Engine} (id : IsolateId)
    (again : InterruptCallback → Nat) : (dispose id again).perform.outcome p = (Engine.onHosted id
      (ignore (Hosted.disposeWith fun c => Hosted.tearDownAgain (again c)))).outcome p :=
  Engine.outcome_ignore_onHosted id _

/-- What the operation does to an isolate at once. -/
def LifecycleOperation.Does : LifecycleOperation → Hosted → Except Failure Unit → Hosted → Prop
  | setUp t _ _ _ _ _ _ => Hosted.SetsUp t
  | tearDown _ _ => Hosted.TearsDown
  | dispose _ _ => Hosted.Disposes
  | _ => fun _ _ _ => False

open Engine in
theorem LifecycleOperation.step_by {p : Engine} (hp : p.Sound) (op : LifecycleOperation) :
    p.StepBy op.Does (op.perform.outcome p).1 (op.perform.outcome p).2 := by
  cases op with
  | addPlatform o => rw [perform, outcome_ignore]; exact addPlatform_step
  | initializeOnce o =>
    rw [perform, outcome_ignore]
    exact initializeOnce_step
  | allocate o =>
    rw [perform, outcome_ignore]
    exact allocate_step
  | allocateIn k o => rw [perform, outcome_ignore]; exact allocateIn_step
  | cloneHandle id =>
    refine .quiet ?_ fun _ h => by cases h
    exact quietly_mapResidents fun r => by split <;> exact ⟨rfl, rfl⟩
  | installDeserializer id d =>
    exact (hp.quiets_onIsolate fun r _ => r.isolate.quiet_deserializer _).step
  | requestInterrupt id callback =>
    have hquiets : p.Quiets (onHosted id (Hosted.requestInterrupt callback)) :=
      hp.quiets_onHosted fun r _ _ => ⟨_, rfl, r.isolate.quiet_interrupts _ _⟩
    exact hquiets.step
  | setUp t id startup readOnly shared canRehash refusal =>
    exact hp.task_step (Hosted.setsUp t startup readOnly shared canRehash refusal)
  | enter t id => exact hp.quiets_enter.step
  | exit t id => exact hp.exit_step
  | tearDown id again =>
    rw [outcome_tearDown]
    exact hp.task_step (Hosted.harmless_tearDownAgain again).tearsDown
  | dispose id again =>
    rw [outcome_dispose]
    exact hp.task_step (Hosted.harmless_tearDownAgain again).disposes
  | dropHandle id => exact hp.dropHandle_step

theorem LifecycleOperation.Does.task {op : LifecycleOperation} {h h' : Hosted}
    {result : Except Failure Unit} (hd : op.Does h result h') : Hosted.Task h result h' := by
  cases op with
  | setUp t => exact .setUp t hd
  | tearDown => exact .tearDown hd
  | dispose => exact .dispose hd
  | _ => exact hd.elim

/-- Every operation is a step. -/
theorem LifecycleOperation.step {p : Engine} (hp : p.Sound) (op : LifecycleOperation) :
    p.Step (op.perform.outcome p).1 (op.perform.outcome p).2 :=
  (op.step_by hp).weaken fun _ _ _ hd => hd.task

namespace Engine

variable {p p' : Engine} {r : Resident} {before after : List Resident}

theorem Lodges.sound_withHosted (h : Lodges before r after p) (hp : p.Sound) {hosted : Hosted}
    (hid : hosted.isolate.id = r.isolate.id) : (p.withHosted before r after hosted).Sound where
  distinct := by
    have hdistinct := hp.distinct
    rw [h.residents] at hdistinct
    simpa [withHosted, hid] using hdistinct
  numbered s hs := by
    rcases List.mem_cons.mp (List.perm_middle.mem_iff.mp hs) with rfl | hs
    · show hosted.isolate.id < p.nextIsolate
      rw [hid]
      exact hp.numbered r h.mem
    · exact hp.numbered s (h.mem_of_around hs)
  housed s hs := by
    show s.platform < (p.platforms.set r.platform hosted.platform).length
    rw [List.length_set]
    rcases List.mem_cons.mp (List.perm_middle.mem_iff.mp hs) with rfl | hs
    · exact hp.housed r h.mem
    · exact hp.housed s (h.mem_of_around hs)

theorem Lodges.sound_withoutResident (h : Lodges before r after p) (hp : p.Sound)
    (platform : Platform) : (p.withoutResident before r after platform).Sound := by
  refine ⟨?_, fun s hs => hp.numbered s (h.mem_of_around hs), fun s hs => ?_⟩
  · have hdistinct := hp.distinct
    rw [h.residents, List.map_append, List.map_cons, List.nodup_middle, List.nodup_cons,
      ← List.map_append] at hdistinct
    exact hdistinct.2
  · show s.platform < (p.platforms.set r.platform platform).length
    rw [List.length_set]
    exact hp.housed s (h.mem_of_around hs)

theorem Step.sound {result : Except Failure Unit} (h : p.Step result p') (hp : p.Sound) :
    p'.Sound := by
  cases h with
  | quiet quietly => exact quietly.sound hp
  | found o platforms residents next =>
    refine ⟨residents ▸ hp.distinct, fun r hr => ?_, fun r hr => ?_⟩
    · exact next ▸ hp.numbered r (residents ▸ hr)
    · rw [platforms, List.length_append]
      exact Nat.lt_add_right _ (hp.housed r (residents ▸ hr))
  | @allocate _ k o host reserved region platform reserve platforms residents next =>
    have hk : k < p.platforms.length := (List.getElem?_eq_some_iff.mp platform).1
    refine ⟨?_, fun r hr => ?_, fun r hr => ?_⟩
    · rw [residents, List.map_append, List.nodup_append]
      refine ⟨hp.distinct, List.nodup_singleton _, ?_⟩
      intro a ha b hb
      obtain ⟨r, hr, rfl⟩ := List.mem_map.mp ha
      rw [List.mem_singleton.mp hb]
      exact Nat.ne_of_lt (hp.numbered r hr)
    · rw [residents] at hr
      rw [next]
      rcases List.mem_append.mp hr with hr | hr
      · exact Nat.lt_succ_of_lt (hp.numbered r hr)
      · rw [List.mem_singleton.mp hr]
        exact Nat.lt_succ_self _
    · rw [residents] at hr
      rw [platforms, List.length_set]
      rcases List.mem_append.mp hr with hr | hr
      · exact hp.housed r hr
      · rw [List.mem_singleton.mp hr]
        exact hk
  | act lodges housed task => exact lodges.sound_withHosted hp (congrArg Prod.fst task.ground)
  | destroy quietly lodges => exact lodges.sound_withoutResident (quietly.sound hp) _

end Engine

end ScriptEngine

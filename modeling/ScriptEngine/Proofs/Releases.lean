import ScriptEngine.Proofs.ReferenceCounts

namespace ScriptEngine

open ScriptEngine.Action

/-- Between operations, an isolate that has not ended can be torn down. -/
theorem Isolate.Orderly.open {i : Isolate} (hi : i.Orderly) (hs : i.state ≠ .deinitialized) :
    i.state = .allocated ∨ i.state = .initialized ∨ i.state = .failed := by
  cases hstate : i.state with
  | allocated => exact .inl rfl
  | initialized => exact .inr (.inl rfl)
  | failed => exact .inr (.inr rfl)
  | initializing => exact absurd hstate hi.settled.1
  | deinitializing => exact absurd hstate hi.settled.2
  | deinitialized => exact absurd hstate hs

namespace Hosted

variable {h h' : Hosted} {result : Except Failure Unit} {α : Type}
  {A : InterruptCallback → α → Prop} {onDrop : InterruptCallback → Action Hosted α}

/-- Tearing down is refused only in the middle of setting up or of tearing down. -/
theorem TearsDown.not_refused (hs : TearsDown h result h') (hi : h.isolate.Orderly)
    (e : IsolateError) : result ≠ .error (.refused e) := by
  rintro rfl
  generalize hr : (.error (.refused e) : Except Failure Unit) = result at hs
  cases hs with
  | before => cases hr
  | busy state busy =>
    obtain rfl | rfl := busy
    · exact hi.settled.1 state
    · exact hi.settled.2 state
  | done => cases hr
  | died state released =>
    obtain ⟨_, rfl⟩ := releaseAll_dies.error trivial released
    cases hr

/-- Nor does disposing have a refusal to pass over. -/
theorem Disposes.deinitialized (hs : Disposes h (.ok ()) h') (hi : h.isolate.Orderly) :
    h'.isolate.state = .deinitialized := by
  cases hs with
  | @ended _ result tearsDown survives =>
    obtain (e | e) | u := result
    · exact absurd rfl (tearsDown.not_refused hi e)
    · exact absurd rfl (survives e)
    · exact tearsDown.ended

/-- Disposing that succeeds has dropped every callback that waited. -/
theorem Harmless.dropped_by_dispose (hdrop : Harmless A onDrop) {dropped : List α}
    (hi : h.isolate.Orderly) (hs : h.isolate.state ≠ .deinitialized)
    (ho : (disposeWith onDrop).outcome h = (.ok dropped, h')) :
    List.Forall₂ A h.isolate.interrupts dropped := by
  unfold disposeWith at ho
  rw [outcome_get_bind] at ho
  by_cases hentries : h.isolate.entries = 0
  · rw [checkNoEntries, if_pos hentries] at ho
    have hpass : (ofWalk (.ok ()) : Action Hosted Unit).outcome h = (.ok (), h) := rfl
    rw [outcome_bind_ok hpass, outcome_bind, outcome_attempt] at ho
    have htears := hdrop.tearsDown h
    rw [outcome_ignore] at htears
    cases htorn : (tearDownWith onDrop).outcome h with
    | mk result reached =>
      rw [htorn] at ho htears
      obtain (e | e) | answers := result
      · exact absurd rfl (htears.not_refused hi e)
      · cases ho
      · cases ho
        exact hdrop.dropped (hi.open hs) htorn
  · rw [checkNoEntries, if_neg hentries] at ho
    cases ho

end Hosted

namespace Engine

variable {p q : Engine} {r : Resident} {before after : List Resident} {id : IsolateId}
  {i : Isolate} {again : InterruptCallback → Nat}

theorem Tidy.orderly_of (hp : p.Tidy) (hi : p.isolate? id = some i) : i.Orderly := by
  obtain ⟨r, hr, rfl, -⟩ := mem_of_isolate? hi
  exact hp.orderly r hr

theorem Sound.unchanged_onHosted {act : Action Hosted Unit} {e : Failure} (hp : p.Sound)
    (hact : ∀ h, (act.outcome h).1 = .error e → (act.outcome h).2 = h)
    (he : ((onHosted id act).outcome p).1 = .error e) : ((onHosted id act).outcome p).2 = p := by
  obtain ⟨-, ho⟩ | ⟨before, r, after, platform, hlodges, -, -, hplatform, ho⟩ :=
    hp.outcome_onHosted id act
  · rw [ho]
  · rw [ho] at he ⊢
    rw [hact _ he]
    exact hlodges.withHosted_self hplatform

theorem Sound.setUp_rejected (hp : p.Sound) {t : ThreadId}
    {startup readOnly shared : Option (List UInt8)} {canRehash : Bool} {refusal : Option String}
    {e : IsolateError}
    (he : e = .noDeserializer ∨ ∃ operation state, e = .invalidState operation state)
    (hr : ((LifecycleOperation.setUp t id startup readOnly shared canRehash
      refusal).perform.outcome p).1 = .error (.refused e)) :
    ((LifecycleOperation.setUp t id startup readOnly shared canRehash
      refusal).perform.outcome p).2 = p := by
  unfold LifecycleOperation.perform at hr ⊢
  refine hp.unchanged_onHosted (fun h hh => ?_) hr
  have hsetsUp := Hosted.setsUp t startup readOnly shared canRehash refusal h
  rw [hh] at hsetsUp
  exact hsetsUp.rejected he

theorem Sound.tearDown_rejected (hp : p.Sound) {e : IsolateError}
    (hr : ((LifecycleOperation.tearDown id again).perform.outcome p).1 = .error (.refused e)) :
    ((LifecycleOperation.tearDown id again).perform.outcome p).2 = p := by
  rw [LifecycleOperation.outcome_tearDown] at hr ⊢
  refine hp.unchanged_onHosted (fun h hh => ?_) hr
  have htearsDown := (Hosted.harmless_tearDownAgain again).tearsDown h
  rw [hh] at htearsDown
  exact htearsDown.rejected

/-- An isolate that is there is torn down, unless that is fatal. -/
theorem Tidy.tearDown_proceeds (hp : p.Tidy) (hi : p.isolate? id = some i) (e : IsolateError) :
    ((LifecycleOperation.tearDown id again).perform.outcome p).1 ≠ .error (.refused e) := by
  rw [LifecycleOperation.outcome_tearDown]
  obtain ⟨before, r, after, platform, -, rfl, -, ho⟩ := hp.sound.outcome_onHosted_of hi
    (ignore (Hosted.tearDownWith fun c => Hosted.tearDownAgain (again c)))
  rw [ho]
  exact ((Hosted.harmless_tearDownAgain again).tearsDown _).not_refused (hp.orderly_of hi) e

/-- What succeeds for an isolate of the process has succeeded for it on its platform. -/
theorem Sound.hosted_ok {α : Type} {act : Action Hosted α} {a : α} (hp : p.Sound)
    (hi : p.isolate? id = some i) (ho : (onHosted id act).outcome p = (.ok a, q)) :
    ∃ platform reached, act.outcome ⟨i, platform⟩ = (.ok a, reached) := by
  obtain ⟨before, r, after, platform, -, rfl, -, houtcome⟩ := hp.outcome_onHosted_of hi act
  have hresult : (act.outcome ⟨r.isolate, platform⟩).1 = .ok a :=
    congrArg Prod.fst (houtcome.symm.trans ho)
  exact ⟨platform, _, Prod.ext hresult rfl⟩

theorem Tidy.innerCalls_tearDown {calls : List (List Hosted.InnerCall)} (hp : p.Tidy)
    (hi : p.isolate? id = some i) (hs : i.state ≠ .deinitialized)
    (ho : (tearDown id again).outcome p = (.ok calls, q)) :
    List.Forall₂ (Hosted.RefusedAgain again) i.interrupts calls := by
  obtain ⟨_, _, htorn⟩ := hp.sound.hosted_ok hi ho
  exact (Hosted.harmless_tearDownAgain again).dropped ((hp.orderly_of hi).open hs) htorn

theorem Tidy.innerCalls_dispose {calls : List (List Hosted.InnerCall)} (hp : p.Tidy)
    (hi : p.isolate? id = some i) (hs : i.state ≠ .deinitialized)
    (ho : (dispose id again).outcome p = (.ok calls, q)) :
    List.Forall₂ (Hosted.RefusedAgain again) i.interrupts calls := by
  obtain ⟨_, _, hdisposed⟩ := hp.sound.hosted_ok hi ho
  exact (Hosted.harmless_tearDownAgain again).dropped_by_dispose (hp.orderly_of hi) hs hdisposed

theorem Tidy.tearDown_again (hp : p.Tidy) (hi : p.isolate? id = some i)
    (hs : i.state = .deinitialized) (again : InterruptCallback → Nat) :
    (LifecycleOperation.tearDown id again).perform.outcome p = (.ok (), p) := by
  rw [LifecycleOperation.outcome_tearDown]
  obtain ⟨before, r, after, platform, hlodges, rfl, hplatform, ho⟩ :=
    hp.sound.outcome_onHosted_of hi
      (ignore (Hosted.tearDownWith fun c => Hosted.tearDownAgain (again c)))
  rw [ho, outcome_ignore, Hosted.outcome_tearDownWith_deinitialized hs]
  exact congrArg (Prod.mk _) (hlodges.withHosted_self hplatform)

theorem Tidy.setUp_refused (hp : p.Tidy) (hi : p.isolate? id = some i)
    (hs : i.state = .deinitialized) (t : ThreadId) (startup readOnly shared : Option (List UInt8))
    (canRehash : Bool) (refusal : Option String) :
    ∃ e, ((LifecycleOperation.setUp t id startup readOnly shared canRehash
      refusal).perform.outcome p).1 = .error e := by
  unfold LifecycleOperation.perform
  obtain ⟨before, r, after, platform, -, rfl, -, ho⟩ :=
    hp.sound.outcome_onHosted_of hi (Hosted.setUp t startup readOnly shared canRehash refusal)
  have hlate : r.isolate.state ≠ .allocated := by rw [hs]; decide
  have hsetsUp := Hosted.setsUp t startup readOnly shared canRehash refusal ⟨r.isolate, platform⟩
  rw [ho]
  exact hsetsUp.late_error hlate

theorem enter_refused (hi : p.isolate? id = some i) (hs : i.state = .deinitialized) (t : ThreadId) :
    (LifecycleOperation.enter t id).perform.outcome p =
      (.error (.refused (.invalidState .enter .deinitialized)), p) := by
  unfold LifecycleOperation.perform enter
  rw [outcome_get_bind, hi]
  dsimp only
  rw [hs]
  rfl

/-- The isolate has ended: nothing of it lives, and nothing can be done with it any more. -/
structure Retired (p : Engine) (id : IsolateId) : Prop where
  resident : ∃ i, p.isolate? id = some i
  forever : ∀ ops q i, p.run ops = some q → q.isolate? id = some i →
    i.state = .deinitialized ∧ i.liveSubsystems = [] ∧
    (∀ again, (LifecycleOperation.tearDown id again).perform.outcome q = (.ok (), q)) ∧
    (∀ t startup readOnly shared canRehash refusal, ∃ e,
      ((LifecycleOperation.setUp t id startup readOnly shared canRehash
        refusal).perform.outcome q).1 = .error e) ∧
    ∀ t, ∃ e, ((LifecycleOperation.enter t id).perform.outcome q).1 = .error e

theorem Tidy.retired (hp : p.Tidy) (hi : p.isolate? id = some i) (hs : i.state = .deinitialized) :
    p.Retired id where
  resident := ⟨i, hi⟩
  forever ops q j hq hj := by
    have htidy := hp.run hq
    have horderly := htidy.orderly_of hj
    have hended : j.state = .deinitialized := horderly.lived.of_ended (hp.outlives hq hi hj) hs
    exact ⟨hended, horderly.emptied hended, htidy.tearDown_again hj hended,
      htidy.setUp_refused hj hended, fun t => ⟨_, congrArg Prod.fst (enter_refused hj hended t)⟩⟩

/-- Whatever takes an isolate to its end, it is retired then. -/
theorem Tidy.retires {act : Action Hosted Unit} (hp : p.Tidy)
    (hq : ((onHosted id act).outcome p).2.Tidy)
    (hact : ∀ h, h.isolate.Orderly → (act.outcome h).1 = .ok () →
      (act.outcome h).2.isolate.id = h.isolate.id ∧
        (act.outcome h).2.isolate.state = .deinitialized)
    (hr : ((onHosted id act).outcome p).1 = .ok ()) :
    ((onHosted id act).outcome p).2.Retired id := by
  obtain ⟨-, ho⟩ | ⟨before, r, after, platform, lodges, rfl, -, -, ho⟩ :=
    hp.sound.outcome_onHosted id act
  · rw [ho] at hr
    cases hr
  rw [ho] at hr hq ⊢
  obtain ⟨hid, hended⟩ := hact _ (hp.orderly r lodges.mem) hr
  have hsome := hq.sound.isolate?_of_mem (List.mem_append_right _ List.mem_cons_self)
  dsimp only at hsome
  rw [hid] at hsome
  exact hq.retired hsome hended

theorem Tidy.tearDown_retires (hp : p.Tidy)
    (hr : ((LifecycleOperation.tearDown id again).perform.outcome p).1 = .ok ()) :
    ((LifecycleOperation.tearDown id again).perform.outcome p).2.Retired id := by
  have hq := hp.step ((LifecycleOperation.tearDown id again).step hp.sound) (by rw [hr]; rfl)
  rw [LifecycleOperation.outcome_tearDown] at hr hq ⊢
  refine hp.retires hq (fun h _ hok => ?_) hr
  have htears := (Hosted.harmless_tearDownAgain again).tearsDown h
  rw [hok] at htears
  exact ⟨congrArg Prod.fst htears.ground, htears.ended⟩

theorem Tidy.dispose_retires (hp : p.Tidy)
    (hr : ((LifecycleOperation.dispose id again).perform.outcome p).1 = .ok ()) :
    ((LifecycleOperation.dispose id again).perform.outcome p).2.Retired id := by
  have hq := hp.step ((LifecycleOperation.dispose id again).step hp.sound) (by rw [hr]; rfl)
  rw [LifecycleOperation.outcome_dispose] at hr hq ⊢
  refine hp.retires hq (fun h hi hok => ?_) hr
  have hdisposes := (Hosted.harmless_tearDownAgain again).disposes h
  rw [hok] at hdisposes
  exact ⟨congrArg Prod.fst hdisposes.ground, hdisposes.deinitialized hi⟩

/-- As long as nothing fatal happens, budgets book the regions of the isolates that something still
refers to, and the code ranges that are attached; every life goes one way, move by move; setting up
and tearing down that cannot begin change nothing, also in the middle of tearing down; and tearing
down leaves nothing alive, once and for all. -/
theorem released_once {ops : List LifecycleOperation} (h : run {} ops = some p) :
    (∀ k platform limit, p.platform? k = some platform →
      platform.options.memoryBudget = some limit →
        platform.pages.used = footprint (p.stakesOn k)) ∧
    (∀ id, (p.resident? id).map (fun r => (r.handles, r.isolate.entries)) =
      if (referencesAfter ops).Refers id then
        some ((referencesAfter ops).handles id, (referencesAfter ops).entries id)
      else none) ∧
    (∀ r ∈ p.residents, r.isolate.Lived ∧
      r.isolate.state ≠ .initializing ∧ r.isolate.state ≠ .deinitializing) ∧
    (∀ more q id i j, p.run more = some q → p.isolate? id = some i → q.isolate? id = some j →
      j.Outlives i) ∧
    (∀ t id startup readOnly shared canRehash refusal e,
      (e = .noDeserializer ∨ ∃ operation state, e = .invalidState operation state) →
      ((LifecycleOperation.setUp t id startup readOnly shared canRehash
        refusal).perform.outcome p).1 = .error (.refused e) →
      ((LifecycleOperation.setUp t id startup readOnly shared canRehash
        refusal).perform.outcome p).2 = p) ∧
    (∀ id again e,
      ((LifecycleOperation.tearDown id again).perform.outcome p).1 = .error (.refused e) →
      ((LifecycleOperation.tearDown id again).perform.outcome p).2 = p) ∧
    (∀ id i again e, p.isolate? id = some i →
      ((LifecycleOperation.tearDown id again).perform.outcome p).1 ≠ .error (.refused e)) ∧
    (∀ id i again calls q, p.isolate? id = some i → i.state ≠ .deinitialized →
      (tearDown id again).outcome p = (.ok calls, q) ∨
        (dispose id again).outcome p = (.ok calls, q) →
      List.Forall₂ (Hosted.RefusedAgain again) i.interrupts calls) ∧
    (∀ id again, ((LifecycleOperation.tearDown id again).perform.outcome p).1 = .ok () →
      ((LifecycleOperation.tearDown id again).perform.outcome p).2.Retired id) ∧
    ∀ id again, ((LifecycleOperation.dispose id again).perform.outcome p).1 = .ok () →
      ((LifecycleOperation.dispose id again).perform.outcome p).2.Retired id := by
  have hp : p.Tidy := tidy_empty.run h
  have hreferenced : p.Referenced (referencesAfter ops) := referenced_empty.run h
  refine ⟨fun k platform limit hk hlimit => ?_, hreferenced.resident?_eq, fun r hr => ?_,
    fun more q id i j => hp.outlives,
    fun t id startup readOnly shared canRehash refusal e he => hp.sound.setUp_rejected he,
    fun id again e => hp.sound.tearDown_rejected,
    fun id i again e hi => hp.tearDown_proceeds hi e, fun id i again calls q hi hs ho => ?_,
    fun id again => hp.tearDown_retires, fun id again => hp.dispose_retires⟩
  · have hhost : p.host? k = some ⟨platform, p.stakesOn k⟩ := by
      rw [host?, hk]
      rfl
    exact (hp.charged k _ hhost).used hlimit
  · exact ⟨(hp.orderly r hr).lived, (hp.orderly r hr).settled⟩
  · obtain ho | ho := ho
    · exact hp.innerCalls_tearDown hi hs ho
    · exact hp.innerCalls_dispose hi hs ho

/-- One isolate is set up, has been entered, and a callback waits for it. One cannot be set up for
want of a deserializer. The compile thread of the third one is not started. -/
def threeLives : List LifecycleOperation :=
  [.addPlatform { memoryBudget := some 0x100000 },
   .allocateIn 0 {}, .allocateIn 0 {}, .allocateIn 0 {},
   .setUp "main" 1 none none none false, .enter "main" 1, .exit "main" 1,
   .requestInterrupt 1 [], .setUp "main" 2 (some []) (some []) (some []) false,
   .setUp "main" 3 none none none false (some "no more threads")]

theorem released_once_threeLives : ∃ p platform, run {} threeLives = some p ∧
    p.platform? 0 = some platform ∧ platform.pages.used = 3 * 65536 + 2 * 262144 ∧
    (p.resident? 3).map (fun r => (r.handles, r.isolate.entries)) = some (1, 0) ∧
    (∃ calls q, (tearDown 1 fun _ => 2).outcome p = (.ok [calls], q) ∧ calls.length = 2 ∧
      ∀ call ∈ calls, call.Refused) ∧
    ((LifecycleOperation.tearDown 1 fun _ => 2).perform.outcome p).2.Retired 1 := by
  have hsome : (run {} threeLives).isSome := by decide +kernel
  obtain ⟨p, hp⟩ := Option.isSome_iff_exists.mp hsome
  obtain ⟨hused, hresidents, -, -, -, -, -, hinner, hretired, -⟩ := released_once hp
  have hplatform : (run {} threeLives).bind (fun p => (p.platform? 0).map fun platform =>
      (platform.options.memoryBudget, footprint (p.stakesOn 0))) =
      some (some 0x100000, 3 * 65536 + 2 * 262144) := by decide +kernel
  have hwaits : (run {} threeLives).bind (fun p => (p.isolate? 1).map fun i =>
      (i.state, i.interrupts.length)) = some (.initialized, 1) := by decide +kernel
  have hok : (run {} threeLives).map (fun p => ((tearDown 1 fun _ => 2).outcome p).1.isOk) =
      some true := by decide +kernel
  have hrefers : (referencesAfter threeLives).Refers 3 ∧
      ((referencesAfter threeLives).handles 3, (referencesAfter threeLives).entries 3) =
        (1, 0) := by
    decide +kernel
  rw [hp, Option.bind_some] at hplatform hwaits
  rw [hp, Option.map_some, Option.some_inj] at hok
  obtain ⟨platform, hk, hfields⟩ := Option.map_eq_some_iff.mp hplatform
  obtain ⟨hlimit, hfootprint⟩ := Prod.mk.inj hfields
  obtain ⟨i, hi, hwaiting⟩ := Option.map_eq_some_iff.mp hwaits
  obtain ⟨hstate, hone⟩ := Prod.mk.inj hwaiting
  obtain ⟨waiting, hwaiting⟩ := List.length_eq_one_iff.mp hone
  have hthird := (hresidents 3).trans ((if_pos hrefers.1).trans (congrArg some hrefers.2))
  cases ho : (tearDown 1 fun _ => 2).outcome p with
  | mk result q =>
    rw [ho] at hok
    obtain e | calls := result
    · cases hok
    have hcalls := hinner 1 i _ calls q hi (by rw [hstate]; decide) (.inl ho)
    rw [hwaiting] at hcalls
    obtain ⟨answers, others, hanswers, hothers, rfl⟩ := List.forall₂_cons_left_iff.mp hcalls
    obtain rfl := List.forall₂_nil_left_iff.mp hothers
    have hdone : ((LifecycleOperation.tearDown 1 fun _ => 2).perform.outcome p).1 = .ok () := by
      unfold LifecycleOperation.perform
      rw [outcome_ignore, ho]
      rfl
    exact ⟨p, platform, hp, hk, (hused 0 platform _ hk hlimit).trans hfootprint, hthird,
      ⟨answers, q, ho, hanswers.1, hanswers.2⟩, hretired 1 _ hdone⟩

end Engine

end ScriptEngine

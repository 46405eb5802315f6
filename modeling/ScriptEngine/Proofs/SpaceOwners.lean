import ScriptEngine.Proofs.SharedSpaces

namespace ScriptEngine

open ScriptEngine.Action

namespace Hosted

variable {h h' : Hosted} {t : ThreadId} {roles : IsolateId → Option SpaceRole}
  {result : Except Failure Unit} {α : Type} {A : InterruptCallback → α → Prop}
  {onDrop : InterruptCallback → Action Hosted α}

/-- Apart from an owner that has clients, nothing stops an isolate from being taken apart. -/
theorem releaseAll_succeeds {n : Nat} {r : BlobRegistry}
    (hd : detachSharedSpace.outcome h.stopped = (.ok (), h.stopped.parted))
    (hk : h.holding.Shares n r) : (releaseAll.outcome h).1 = .ok () := by
  have hparted : h.stopped.parted.holding.blobs = h.holding.blobs ∧
      h.stopped.parted.holding.stake.blob = h.holding.stake.blob := by
    refine ⟨?_, rfl⟩
    show h.stopped.parted.platform.blobs = h.platform.blobs
    unfold parted
    cases h.stopped.isolate.spaceRole with
    | none => rfl
    | some role =>
      cases role with
      | client k => rfl
      | owner k =>
        dsimp only
        unfold withoutSpace
        split <;> rfl
  have hmeets : Meets (· = h) releaseAll (fun _ _ => True) fun _ _ => False := by
    refine meets_releaseAll_leaving (S := (· = h.stopped))
      (P := fun k => k.blobs = h.holding.blobs ∧ k.stake.blob = h.holding.stake.blob)
      (Q := fun _ => True) ?_ ?_ (fun _ hp => hp) ?_
    · rintro _ rfl
      rfl
    · rintro _ rfl
      rw [hd]
      exact hparted
    · refine meets_releaseBlob (fun _ _ _ => trivial) ?_
      rintro h' handle ⟨hblobs, hblob⟩ hheld
      have hblobs' : h'.platform.blobs = h.holding.blobs := hblobs
      rw [hblobs']
      rintro _ rfl
      rw [hk.released (hblob.symm.trans hheld)]
      trivial
  cases ho : releaseAll.outcome h with
  | mk result h' =>
    cases result with
    | ok u => rfl
    | error e => exact (hmeets.error rfl ho).elim

/-- An owner can be torn down once it has no clients. -/
theorem outcome_tearDown_owner {n : Nat} {r : BlobRegistry} {k : SpaceId} {s : HeldSpace}
    (hdrop : Harmless A onDrop)
    (hstate : h.isolate.state = .initialized ∨ h.isolate.state = .failed)
    (hrole : h.isolate.spaceRole = some (.owner k)) (hs : h.platform.space? k = some s)
    (hk : h.holding.Shares n r) : ((ignore (tearDownWith onDrop)).outcome h).1 =
      if s.space.clients = [] then .ok ()
      else .error (.fatal (.sharedSpaceClientsAlive s.space.owner s.space.clients.length)) := by
  have hopen : h.isolate.state = .allocated ∨ h.isolate.state = .initialized ∨
      h.isolate.state = .failed := .inr hstate
  have hleave := outcome_detachSharedSpace_owner (h := (h.inState .deinitializing).stopped) hrole hs
  rw [outcome_ignore]
  split
  · rename_i hclients
    rw [if_pos hclients] at hleave
    have hk' : (h.inState .deinitializing).holding.Shares n r :=
      { hk with backed := ⟨hk.backed.blob, fun _ hs => by cases hs⟩ }
    have hreleased := releaseAll_succeeds hleave hk'
    cases ho : releaseAll.outcome (h.inState .deinitializing) with
    | mk result h' =>
      rw [ho] at hreleased
      obtain rfl : result = .ok () := hreleased
      obtain ⟨dropped, hend, -⟩ := hdrop.outcome_tearDownWith hopen ho
      rw [hend]
      rfl
  · rename_i hclients
    rw [if_neg hclients] at hleave
    rw [outcome_tearDownWith_stuck hopen (outcome_releaseAll_stuck hleave)]
    rfl

/-- Whoever is set up has the part that is free. -/
theorem SetsUp.role (hs : SetsUp t h result h') (hran : hasRun result)
    (hshared : h.isolate.options.sharedSpace) : h'.isolate.spaceRole =
      some (match h.platform.sharedSpace? with
        | none => .owner h.platform.nextSpace
        | some s => .client s.id) := by
  have calm : endsFatally result = false := by
    obtain rfl | ⟨e, rfl, -⟩ := hran <;> rfl
  obtain ⟨-, hnot⟩ | ⟨-, hstanding, -⟩ := hs.standing calm
  · exact absurd hran hnot
  · have hrole : h'.isolate.spaceRole =
        (if h.isolate.options.sharedSpace then h.joined else h).isolate.spaceRole :=
      congrArg (fun s => s.part.role) hstanding
    rw [hrole, if_pos hshared]
    unfold joined
    cases h.platform.sharedSpace? <;> rfl

/-- Only setting up gives an isolate a part. -/
theorem leaves_or_keeps {op : LifecycleOperation} (hd : op.Does h result h')
    (hop : ∀ t id startup readOnly shared canRehash refusal,
      op ≠ .setUp t id startup readOnly shared canRehash refusal)
    (hh : h.Sharing roles) (calm : endsFatally result = false) :
    h'.isolate.spaceRole = h.isolate.spaceRole ∨ h'.isolate.spaceRole = none := by
  have htorn : ∀ {result}, TearsDown h result h' → endsFatally result = false →
      h'.isolate.spaceRole = h.isolate.spaceRole ∨ h'.isolate.spaceRole = none := by
    intro result tearsDown calm
    obtain rfl | ⟨-, hstanding, -⟩ := tearsDown.standing hh.ownsAlive calm
    · exact .inl rfl
    · exact .inr (congrArg (fun s => s.part.role) hstanding)
  cases op with
  | setUp t id startup readOnly shared canRehash refusal => exact absurd rfl (hop t id _ _ _ _ _)
  | tearDown => exact htorn hd calm
  | dispose =>
    have disposes : Disposes h result h' := hd
    cases disposes with
    | entered => cases calm
    | ended tearsDown survives => exact htorn tearsDown (endsFatally_eq_false survives)
    | died => cases calm
  | _ => exact hd.elim

end Hosted

namespace BlobLedger

variable {l : BlobLedger} {p : Engine} {ops : List LifecycleOperation}

/-- The ledger goes along with the run. -/
theorem engine_foldl (h : l.engine.run ops = some p) : (ops.foldl perform l).engine = p := by
  induction ops generalizing l with
  | nil => cases h; rfl
  | cons op rest ih =>
    rw [Engine.run] at h
    split at h
    · cases h
    · exact ih h

end BlobLedger

namespace Engine

variable {p q p' : Engine} {r : Resident} {before after residents : List Resident} {k : PlatformId}
  {id : IsolateId} {result : Except Failure Unit} {platform : Platform}
  {ops : List LifecycleOperation}

/-- Every platform of a process counts its references right. -/
theorem counted_of_run (h : run {} ops = some p) {host : Host} (hk : p.host? k = some host) :
    ∃ lost, host.Counted lost := by
  have hp : (BlobLedger.after ops).engine = p := BlobLedger.engine_foldl h
  subst hp
  exact ⟨_, ((BlobLedger.balanced_after ops).counted k host hk).1⟩

/-- Nobody on the platform is in a space. -/
def Vacant (p : Engine) (k : PlatformId) : Prop := ∀ id, p.roleOn k id = none

theorem Vacant.update (hv : p.Vacant k) (id : IsolateId) :
    Function.update (p.roleOn k) id none = p.roleOn k :=
  Function.update_eq_self_iff.mpr (hv id).symm

theorem Sharing.vacant_iff (hp : p.Sharing) (hk : p.platform? k = some platform) :
    p.Vacant k ↔ platform.sharedSpace? = none := by
  have hshares := hp.shares k platform hk
  refine ⟨fun hvacant => ?_, fun hnone id => ?_⟩
  · by_contra hsome
    obtain ⟨s, hs⟩ := Option.ne_none_iff_exists'.mp hsome
    have howner := hvacant s.space.owner
    rw [hshares.roles, hs, Option.bind_some, HeldSpace.roleOf, if_pos rfl] at howner
    cases howner
  · rw [hshares.roles, hnone]
    rfl

/-- Without setting up, a platform where nobody is in a space stays so. -/
theorem Sharing.vacant_step {op : LifecycleOperation} (hp : p.Sharing) (hv : p.Vacant k)
    (h : p.StepBy op.Does result p')
    (hop : ∀ t id startup readOnly shared canRehash refusal,
      op ≠ .setUp t id startup readOnly shared canRehash refusal)
    (calm : endsFatally result = false) : p'.Vacant k := by
  cases h with
  | quiet quietly => exact fun id => quietly.roleOn ▸ hv id
  | found o platforms residents =>
    intro id
    unfold roleOn
    rw [residents]
    exact hv id
  | allocate platform reserve platforms residents =>
    intro id
    rw [hp.sound.roleOn_allocate rfl rfl residents]
    exact hv id
  | @act before after r platform _ hosted lodges housed does =>
    have hid : hosted.isolate.id = r.isolate.id := congrArg Prod.fst does.task.ground
    have hrole := Hosted.leaves_or_keeps does hop (hp.hosted lodges housed) calm
    intro id
    rw [lodges.roleOn_withHosted hid]
    split
    · have hself := lodges.roleOn_self
      rename_i hk
      rw [hk, hv] at hself
      have hnone : hosted.isolate.spaceRole = none :=
        hrole.elim (fun h => h.trans hself.symm) fun h => h
      rw [hnone, hv.update]
      exact hv id
    · exact hv id
  | destroy quietly lodges housed destroys =>
    intro id
    rw [lodges.roleOn_withoutResident, quietly.roleOn]
    split
    · rw [hv.update]
      exact hv id
    · exact hv id

/-- What setting up does on a platform where nobody is in a space: if it does anything, the isolate
opens one. -/
theorem Sharing.vacant_setUp {t : ThreadId} {startup readOnly shared : Option (List UInt8)}
    {canRehash : Bool} {refusal : Option String} (hp : p.Sharing) (hv : p.Vacant k)
    (calm : endsFatally ((LifecycleOperation.setUp t id startup readOnly shared
      canRehash refusal).perform.outcome p).1 = false) :
    ((LifecycleOperation.setUp t id startup readOnly shared canRehash
      refusal).perform.outcome p).2.Vacant k ∨
      ∃ s, ((LifecycleOperation.setUp t id startup readOnly shared
        canRehash refusal).perform.outcome p).2.roleOn k id = some (.owner s) := by
  unfold LifecycleOperation.perform at calm ⊢
  obtain ⟨-, ho⟩ | ⟨before, r, after, platform, lodges, rfl, -, housed, ho⟩ :=
    hp.sound.outcome_onHosted id (Hosted.setUp t startup readOnly shared canRehash refusal)
  · rw [ho]
    exact .inl hv
  rw [ho] at calm ⊢
  have hsetsUp := Hosted.setsUp t startup readOnly shared canRehash refusal ⟨r.isolate, platform⟩
  generalize (Hosted.setUp t startup readOnly shared canRehash refusal).outcome
    ⟨r.isolate, platform⟩ = ended
    at hsetsUp calm
  obtain ⟨result, hosted⟩ := ended
  dsimp only at hsetsUp calm ⊢
  have hid : hosted.isolate.id = r.isolate.id := congrArg Prod.fst hsetsUp.ground
  by_cases hk : r.platform = k
  · subst hk
    have hnone := (hp.vacant_iff housed).mp hv
    have hrole : hosted.isolate.spaceRole = none ∨
        hosted.isolate.spaceRole = some (.owner platform.nextSpace) := by
      have hself : r.isolate.spaceRole = none := lodges.roleOn_self.symm.trans (hv _)
      obtain ⟨rfl, -⟩ | ⟨-, hstanding, -⟩ := hsetsUp.standing calm
      · exact .inl hself
      · have hrole := congrArg (fun s => s.part.role) hstanding
        have hrole : hosted.isolate.spaceRole =
            (if r.isolate.options.sharedSpace then (Hosted.joined ⟨r.isolate, platform⟩)
              else ⟨r.isolate, platform⟩).isolate.spaceRole := hrole
        rw [hrole]
        split
        · refine .inr ?_
          unfold Hosted.joined
          dsimp only
          rw [hnone]
          rfl
        · exact .inl hself
    obtain hrole | hrole := hrole
    · refine .inl fun id => ?_
      rw [lodges.roleOn_withHosted hid, if_pos rfl, hrole, hv.update]
      exact hv id
    · refine .inr ⟨platform.nextSpace, ?_⟩
      rw [lodges.roleOn_withHosted hid, if_pos rfl, hrole, Function.update_self]
  · refine .inl fun id => ?_
    rw [lodges.roleOn_withHosted hid, if_neg hk]
    exact hv id

/-- Nobody comes to be in a space before setting up has made an isolate its owner. -/
theorem Sharing.next_owner (hp : p.Sharing) (hv : p.Vacant k) (h : p.run ops = some q) :
    q.Vacant k ∨ ∃ first t id startup readOnly shared canRehash refusal rest q',
      ops = first ++ .setUp t id startup readOnly shared canRehash refusal :: rest ∧
      p.run first = some q' ∧ q'.Vacant k ∧
      ∃ s, ((LifecycleOperation.setUp t id startup readOnly shared
        canRehash refusal).perform.outcome q').2.roleOn k id = some (.owner s) := by
  induction ops generalizing p with
  | nil =>
    cases h
    exact .inl hv
  | cons op rest ih =>
    rw [Engine.run] at h
    split at h
    · cases h
    rename_i hcalm
    have calm : endsFatally (op.perform.outcome p).1 = false := by simpa using hcalm
    have hnext := (op.step hp.sound).sharing hp calm
    have hlater : (op.perform.outcome p).2.Vacant k → q.Vacant k ∨
        ∃ first t id startup readOnly shared canRehash refusal rest' q',
          op :: rest = first ++ .setUp t id startup readOnly shared canRehash refusal :: rest' ∧
          p.run first = some q' ∧ q'.Vacant k ∧
          ∃ s, ((LifecycleOperation.setUp t id startup readOnly shared
            canRehash refusal).perform.outcome q').2.roleOn k id = some (.owner s) := by
      intro hv'
      obtain hvacant | ⟨first, t, id, a, b, c, d, e, rest', q', rfl, hfirst, howner⟩ :=
        ih hnext hv' h
      · exact .inl hvacant
      · refine .inr ⟨op :: first, t, id, a, b, c, d, e, rest', q', rfl, ?_, howner⟩
        rw [Engine.run, if_neg hcalm]
        exact hfirst
    by_cases hop : ∃ t id startup readOnly shared canRehash refusal,
        op = .setUp t id startup readOnly shared canRehash refusal
    · obtain ⟨t, id, a, b, c, d, e, rfl⟩ := hop
      obtain hv' | howner := hp.vacant_setUp hv calm
      · exact hlater hv'
      · exact .inr ⟨[], t, id, a, b, c, d, e, rest, p, rfl, rfl, hv, howner⟩
    · exact hlater (hp.vacant_step hv (op.step_by hp.sound)
        (fun t id a b c d e hsame => hop ⟨t, id, a, b, c, d, e, hsame⟩) calm)

/-- Tearing down the owner comes to what its list of clients says, and leaves nobody in a space. -/
theorem Sharing.tearDown_owner {s : HeldSpace} (hp : p.Sharing) (h : Engine.run {} ops = some p)
    (hk : p.platform? k = some platform) (hs : platform.sharedSpace? = some s)
    (again : InterruptCallback → Nat) :
    ((LifecycleOperation.tearDown s.space.owner again).perform.outcome p).1 =
      (if s.space.clients = [] then .ok ()
      else .error (.fatal (.sharedSpaceClientsAlive s.space.owner s.space.clients.length))) ∧
    (s.space.clients = [] →
      ((LifecycleOperation.tearDown s.space.owner again).perform.outcome p).2.Vacant k) := by
  have hroles := (hp.shares k platform hk).roles
  have howner : p.roleOn k s.space.owner = some (.owner s.id) := by
    rw [hroles, hs, Option.bind_some, HeldSpace.roleOf, if_pos rfl]
  obtain ⟨r, hr, hrole⟩ := Option.bind_eq_some_iff.mp howner
  split at hrole
  swap
  · cases hrole
  rename_i hplatform
  subst hplatform
  rw [LifecycleOperation.outcome_tearDown]
  obtain ⟨hnone, -⟩ | ⟨before, r', after, platform', lodges, hid, hr', housed, ho⟩ :=
    hp.sound.outcome_onHosted s.space.owner
      (ignore (Hosted.tearDownWith fun c => Hosted.tearDownAgain (again c)))
  · cases hnone.symm.trans hr
  cases hr'.symm.trans hr
  cases housed.symm.trans hk
  obtain ⟨lost, hcounted⟩ := counted_of_run h (lodges.host? housed)
  have hstate := ((hp.joined r lodges.mem).mp (by rw [hrole]; rfl)).2
  have hdrop := Hosted.harmless_tearDownAgain again
  have hresult := Hosted.outcome_tearDown_owner hdrop hstate hrole
    (Platform.sharedSpace?_eq_some hs).2 hcounted.shares
  rw [ho]
  refine ⟨hresult, fun hclients id => ?_⟩
  rw [if_pos hclients] at hresult
  have htears := hdrop.tearsDown ⟨r.isolate, platform⟩
  rw [hresult] at htears
  generalize ((ignore (Hosted.tearDownWith fun c => Hosted.tearDownAgain (again c))).outcome
    ⟨r.isolate, platform⟩).2 = hosted at htears
  have hsame : hosted.isolate.id = r.isolate.id := congrArg Prod.fst htears.ground
  have hleft : hosted.isolate.spaceRole = none := by
    have hjoined := (htears.sharing (hp.hosted lodges housed) rfl).2 (hp.joined r lodges.mem)
    unfold Isolate.Joined at hjoined
    rw [htears.ended] at hjoined
    simpa using hjoined
  dsimp only
  rw [lodges.roleOn_withHosted hsame, if_pos rfl, hleft, hid]
  by_cases howns : id = s.space.owner
  · rw [howns, Function.update_self]
  · rw [Function.update_of_ne howns, hroles, hs]
    simp [HeldSpace.roleOf, howns, hclients]

/-- An isolate that is to be in the space and is set up, even in vain, gets the part that is
free. -/
theorem Sharing.setUp_role {t : ThreadId} {startup readOnly shared : Option (List UInt8)}
    {canRehash : Bool} {refusal : Option String} (hp : p.Sharing) (hr : r ∈ p.residents)
    (hk : p.platform? r.platform = some platform) (hshared : r.isolate.options.sharedSpace)
    (hran : Hosted.hasRun ((LifecycleOperation.setUp t r.isolate.id startup readOnly shared
      canRehash refusal).perform.outcome p).1) :
    ((LifecycleOperation.setUp t r.isolate.id startup readOnly shared
      canRehash refusal).perform.outcome p).2.roleOn r.platform r.isolate.id =
      some (match platform.sharedSpace? with
        | none => .owner platform.nextSpace
        | some s => .client s.id) := by
  have hi := hp.sound.isolate?_of_mem hr
  unfold LifecycleOperation.perform at hran ⊢
  obtain ⟨hnone, -⟩ | ⟨before, r', after, platform', lodges, hid, hr', housed, ho⟩ :=
    hp.sound.outcome_onHosted r.isolate.id
      (Hosted.setUp t startup readOnly shared canRehash refusal)
  · rw [isolate?, hnone] at hi
    cases hi
  have hself : r' = r := List.inj_on_of_nodup_map hp.sound.distinct lodges.mem hr hid
  subst hself
  cases housed.symm.trans hk
  rw [ho] at hran ⊢
  have hsetsUp := Hosted.setsUp t startup readOnly shared canRehash refusal ⟨r'.isolate, platform⟩
  have hsame := congrArg Prod.fst hsetsUp.ground
  dsimp only at hran ⊢
  rw [lodges.roleOn_withHosted hsame, if_pos rfl, Function.update_self]
  exact hsetsUp.role hran hshared

/-- As long as nothing fatal happens, a platform has one space at most. Its owner and its clients
are those isolates that were to be in a space and were set up, even in vain, and not torn down. The
owner can be torn down exactly when it is alone, and the next isolate that is set up is the next
owner. -/
theorem shared_space_exact (h : run {} ops = some p) (hk : p.platform? k = some platform) :
    (∀ r ∈ p.residents, r.platform = k → p.roleOn k r.isolate.id = r.isolate.spaceRole ∧
      (r.isolate.spaceRole.isSome ↔ r.isolate.options.sharedSpace ∧
        (r.isolate.state = .initialized ∨ r.isolate.state = .failed))) ∧
    (∀ id id' s s', p.roleOn k id = some (.owner s) → p.roleOn k id' = some (.owner s') →
      id = id') ∧
    (∀ id k', p.roleOn k id = some (.owner k') ↔
      ∃ s, platform.sharedSpace? = some s ∧ s.id = k' ∧ s.space.owner = id) ∧
    (∀ id role, p.roleOn k id = some role → (∀ k', role ≠ .owner k') →
      ∃ s, platform.sharedSpace? = some s ∧ role = .client s.id) ∧
    (∀ s, platform.sharedSpace? = some s → s.space.clients.Nodup ∧ s.space.owner ∉ s.space.clients ∧
      ∀ id, id ∈ s.space.clients ↔ p.roleOn k id = some (.client s.id)) ∧
    (∀ s again, platform.sharedSpace? = some s →
      ((LifecycleOperation.tearDown s.space.owner again).perform.outcome p).1 =
        if s.space.clients = [] then .ok ()
        else .error (.fatal (.sharedSpaceClientsAlive s.space.owner s.space.clients.length))) ∧
    (∀ s again, platform.sharedSpace? = some s → s.space.clients = [] →
      ((LifecycleOperation.tearDown s.space.owner again).perform.outcome p).2.Vacant k ∧
      ∀ more q, ((LifecycleOperation.tearDown s.space.owner again).perform.outcome p).2.run more =
          some q →
        q.Vacant k ∨ ∃ first t id startup readOnly shared canRehash refusal rest q',
          more = first ++ .setUp t id startup readOnly shared canRehash refusal :: rest ∧
          ((LifecycleOperation.tearDown s.space.owner again).perform.outcome p).2.run first =
            some q' ∧
          q'.Vacant k ∧ ∃ k', ((LifecycleOperation.setUp t id startup readOnly shared
            canRehash refusal).perform.outcome q').2.roleOn k id = some (.owner k')) ∧
    ∀ r ∈ p.residents, r.platform = k → r.isolate.options.sharedSpace →
      ∀ t startup readOnly shared canRehash refusal,
        Hosted.hasRun ((LifecycleOperation.setUp t r.isolate.id startup readOnly shared
          canRehash refusal).perform.outcome p).1 →
        ((LifecycleOperation.setUp t r.isolate.id startup readOnly shared
          canRehash refusal).perform.outcome p).2.roleOn k r.isolate.id =
          some (match platform.sharedSpace? with
            | none => .owner platform.nextSpace
            | some s => .client s.id) := by
  have hp : p.Sharing := sharing_empty.run h
  have hshares := hp.shares k platform hk
  refine ⟨fun r hr hrk => ⟨?_, hp.joined r hr⟩, fun id id' s s' hrole hrole' => ?_,
    fun id k' => ⟨fun hrole => ?_, ?_⟩, fun id role hrole hnot => ?_, fun s hs => ?_,
    fun s again hs => (hp.tearDown_owner h hk hs again).1, fun s again hs hclients => ?_, ?_⟩
  · exact hrk ▸ hp.sound.roleOn_of_mem hr
  · obtain ⟨s, hs, rfl, -⟩ := hshares.owned hrole
    obtain ⟨s', hs', rfl, -⟩ := hshares.owned hrole'
    cases hs.symm.trans hs'
    rfl
  · obtain ⟨s, hs, howner, hid⟩ := hshares.owned hrole
    exact ⟨s, hs, hid, howner⟩
  · rintro ⟨s, hs, rfl, rfl⟩
    rw [hshares.roles, hs, Option.bind_some, HeldSpace.roleOf, if_pos rfl]
  · cases role with
    | owner k' => exact absurd rfl (hnot k')
    | client k' =>
      obtain ⟨s, hs, -, -, rfl⟩ := hshares.served hrole
      exact ⟨s, hs, rfl⟩
  · have hsole := List.nodup_cons.mp (hshares.sole s hs)
    refine ⟨hsole.2, hsole.1, fun id => ⟨fun hclient => ?_, fun hrole => ?_⟩⟩
    · have hne : id ≠ s.space.owner := fun hid => hsole.1 (hid ▸ hclient)
      rw [hshares.roles, hs, Option.bind_some, HeldSpace.roleOf, if_neg hne, if_pos hclient]
    · obtain ⟨s', hs', -, hclient, -⟩ := hshares.served hrole
      cases hs.symm.trans hs'
      exact hclient
  · obtain ⟨hresult, hvacant⟩ := hp.tearDown_owner h hk hs again
    rw [if_pos hclients] at hresult
    have hnext := (LifecycleOperation.step hp.sound (.tearDown s.space.owner again)).sharing hp
      (by rw [hresult]; rfl)
    exact ⟨hvacant hclients, fun more q => hnext.next_owner (hvacant hclients)⟩
  · rintro r hr rfl hshared t startup readOnly shared canRehash refusal
    exact hp.setUp_role hr hk hshared

/-- One isolate owns a space. Two others are its clients, though neither could be set up: one for
the deserializer, the other one for want of a compile thread. -/
def ownerAndClients : List LifecycleOperation :=
  [.addPlatform {}, .allocateIn 0 { sharedSpace := true }, .allocateIn 0 { sharedSpace := true },
   .allocateIn 0 { sharedSpace := true }, .setUp "main" 1 none none none false,
   .installDeserializer 2 { rejection := some "stale" },
   .setUp "main" 2 (some []) (some []) (some []) false,
   .setUp "main" 3 none none none false (some "no more threads")]

theorem shared_space_exact_ownerAndClients : ∃ p, run {} ownerAndClients = some p ∧
    p.roleOn 0 1 = some (.owner 0) ∧ p.roleOn 0 2 = some (.client 0) ∧
    p.roleOn 0 3 = some (.client 0) ∧ (∀ id s, p.roleOn 0 id = some (.owner s) → id = 1) ∧
    ∀ again, ((LifecycleOperation.tearDown 1 again).perform.outcome p).1 =
      .error (.fatal (.sharedSpaceClientsAlive 1 2)) := by
  have hsome : (run {} ownerAndClients).isSome := by decide +kernel
  obtain ⟨p, hp⟩ := Option.isSome_iff_exists.mp hsome
  have hspace : (run {} ownerAndClients).bind (fun p => (p.platform? 0).bind (·.sharedSpace?)) =
      some ⟨0, ⟨1, [2, 3]⟩, 1⟩ := by decide +kernel
  rw [hp, Option.bind_some] at hspace
  obtain ⟨platform, hk, hs⟩ := Option.bind_eq_some_iff.mp hspace
  obtain ⟨-, hunique, howner, -, hlist, htearDown, -⟩ := shared_space_exact hp hk
  have hfirst : p.roleOn 0 1 = some (.owner 0) := (howner 1 0).mpr ⟨_, hs, rfl, rfl⟩
  obtain ⟨-, -, hclient⟩ := hlist _ hs
  have hsecond : p.roleOn 0 2 = some (.client 0) := (hclient 2).mp (by decide)
  have hthird : p.roleOn 0 3 = some (.client 0) := (hclient 3).mp (by decide)
  exact ⟨p, hp, hfirst, hsecond, hthird, fun id s hid => hunique id 1 s 0 hid hfirst,
    fun again => (htearDown _ again hs).trans (if_neg (List.cons_ne_nil _ _))⟩

end Engine

end ScriptEngine

import Mathlib.Logic.Function.Basic
import ScriptEngine.Proofs.BlobLedger
import ScriptEngine.Proofs.Standings

namespace ScriptEngine

/-- The part of an isolate in a space, by what the space knows. -/
def HeldSpace.roleOf (s : HeldSpace) (id : IsolateId) : Option SpaceRole :=
  if id = s.space.owner then some (.owner s.id)
  else if id ∈ s.space.clients then some (.client s.id)
  else none

namespace HeldSpace

variable {s : HeldSpace} {id : IsolateId} {k : SpaceId}

theorem roleOf_eq_owner (h : s.roleOf id = some (.owner k)) : s.space.owner = id ∧ s.id = k := by
  unfold roleOf at h
  split at h
  · cases h
    exact ⟨Eq.symm ‹_›, rfl⟩
  · split at h <;> cases h

theorem roleOf_eq_client (h : s.roleOf id = some (.client k)) :
    id ≠ s.space.owner ∧ id ∈ s.space.clients ∧ s.id = k := by
  unfold roleOf at h
  split at h
  · cases h
  split at h
  · cases h
    exact ⟨‹_›, ‹_›, rfl⟩
  · cases h

theorem roleOf_eq_none : s.roleOf id = none ↔ id ≠ s.space.owner ∧ id ∉ s.space.clients := by
  unfold roleOf
  split
  · simp [*]
  · split <;> simp [*]

end HeldSpace

namespace Platform

variable {p p' : Platform} {s : HeldSpace} {id owner : IsolateId} {k : SpaceId}
  {roles : IsolateId → Option SpaceRole}

theorem sharedSpace?_eq_some (h : p.sharedSpace? = some s) :
    p.slot = some s.id ∧ p.space? s.id = some s := by
  obtain ⟨k, hslot, hs⟩ := Option.bind_eq_some_iff.mp h
  have hid : s.id = k := by simpa using List.find?_some hs
  rw [hid]
  exact ⟨hslot, hs⟩

theorem sharedSpace?_modifySpace (h : p.sharedSpace? = some s) (f : SharedSpace → SharedSpace) :
    (p.modifySpace s.id f).sharedSpace? = some { s with space := f s.space } := by
  obtain ⟨hslot, hs⟩ := sharedSpace?_eq_some h
  have hsame : ((fun t : HeldSpace => t.id == s.id) ∘ fun t : HeldSpace =>
      if t.id = s.id then { t with space := f t.space } else t) = fun t => t.id == s.id := by
    funext t
    dsimp only [Function.comp]
    split <;> rfl
  have hslot' : (p.modifySpace s.id f).slot = some s.id := hslot
  rw [sharedSpace?, hslot', Option.bind_some, space?, modifySpace, List.find?_map, hsame]
  unfold space? at hs
  rw [hs, Option.map_some, if_pos rfl]

theorem sharedSpace?_openSpace (h : ∀ s ∈ p.spaces, s.id < p.nextSpace) (owner : IsolateId) :
    (p.openSpace owner).2.sharedSpace? = some ⟨p.nextSpace, { owner }, 1⟩ := by
  have hnew : p.spaces.find? (·.id == p.nextSpace) = none := by
    refine List.find?_eq_none.mpr fun s hs => ?_
    simpa using Nat.ne_of_lt (h s hs)
  show (p.spaces ++ [(⟨p.nextSpace, { owner }, 1⟩ : HeldSpace)]).find? (·.id == p.nextSpace) = _
  rw [List.find?_append, hnew]
  simp

/-- The isolates have the parts that the space of the platform has on its list. -/
structure Shares (p : Platform) (roles : IsolateId → Option SpaceRole) : Prop where
  numbered : ∀ s ∈ p.spaces, s.id < p.nextSpace
  sole : ∀ s, p.sharedSpace? = some s → (s.space.owner :: s.space.clients).Nodup
  roles : ∀ id, roles id = p.sharedSpace?.bind (·.roleOf id)

theorem shares_create (n : Nat) (o : ProcessOptions) : (create n o).Shares fun _ => none where
  numbered s hs := by cases hs
  sole s hs := by cases hs
  roles _ := rfl

theorem Shares.congr (h : p.Shares roles) (spaces : p'.spaces = p.spaces) (slot : p'.slot = p.slot)
    (next : p'.nextSpace = p.nextSpace) : p'.Shares roles := by
  have hspace : p'.sharedSpace? = p.sharedSpace? := by
    unfold sharedSpace? space?
    rw [slot, spaces]
  refine ⟨?_, ?_, ?_⟩
  · rw [spaces, next]
    exact h.numbered
  · rw [hspace]
    exact h.sole
  · rw [hspace]
    exact h.roles

theorem Shares.reserve {size : Nat} {region : Reservation} (h : p.Shares roles)
    (hr : p.reserve size = some (region, p')) : p'.Shares roles := by
  obtain ⟨⟨_, pages⟩, -, hreserved⟩ := Option.map_eq_some_iff.mp hr
  cases hreserved
  exact h.congr rfl rfl rfl

theorem Shares.owned (h : p.Shares roles) (hr : roles id = some (.owner k)) :
    ∃ s, p.sharedSpace? = some s ∧ s.space.owner = id ∧ s.id = k := by
  rw [h.roles] at hr
  obtain ⟨s, hs, hrole⟩ := Option.bind_eq_some_iff.mp hr
  exact ⟨s, hs, HeldSpace.roleOf_eq_owner hrole⟩

theorem Shares.served (h : p.Shares roles) (hr : roles id = some (.client k)) :
    ∃ s, p.sharedSpace? = some s ∧ id ≠ s.space.owner ∧ id ∈ s.space.clients ∧ s.id = k := by
  rw [h.roles] at hr
  obtain ⟨s, hs, hrole⟩ := Option.bind_eq_some_iff.mp hr
  exact ⟨s, hs, HeldSpace.roleOf_eq_client hrole⟩

theorem Shares.modify {f : SharedSpace → SharedSpace} {roles' : IsolateId → Option SpaceRole}
    (h : p.Shares roles) (hs : p.sharedSpace? = some s)
    (sole : ((f s.space).owner :: (f s.space).clients).Nodup)
    (hroles : ∀ id, roles' id = HeldSpace.roleOf { s with space := f s.space } id) :
    (p.modifySpace s.id f).Shares roles' := by
  have hspace := sharedSpace?_modifySpace hs f
  refine ⟨fun t ht => ?_, fun t ht => ?_, fun id => ?_⟩
  · obtain ⟨t', ht', rfl⟩ := List.mem_map.mp ht
    have hlt := h.numbered t' ht'
    split <;> exact hlt
  · rw [hspace] at ht
    cases ht
    exact sole
  · rw [hspace]
    exact hroles id

/-- Whoever is new becomes a client. -/
theorem Shares.attach (h : p.Shares roles) (hs : p.sharedSpace? = some s) (hnew : roles id = none) :
    (p.modifySpace s.id (·.attach id)).Shares (Function.update roles id (some (.client s.id))) := by
  have hfree : id ≠ s.space.owner ∧ id ∉ s.space.clients := by
    rw [h.roles, hs] at hnew
    exact HeldSpace.roleOf_eq_none.mp hnew
  have hattach : s.space.attach id = { s.space with clients := s.space.clients ++ [id] } := by
    rw [SharedSpace.attach, if_neg (by simpa using hfree.2)]
  have hsole := h.sole s hs
  refine h.modify hs ?_ fun id' => ?_
  · rw [hattach, List.nodup_cons, List.nodup_append, List.mem_append]
    rw [List.nodup_cons] at hsole
    have hlast : s.space.owner ∉ [id] := by simpa using Ne.symm hfree.1
    refine ⟨not_or.mpr ⟨hsole.1, hlast⟩, hsole.2, List.nodup_singleton id, ?_⟩
    rintro a ha b hb rfl
    exact hfree.2 (List.mem_singleton.mp hb ▸ ha)
  · rw [hattach]
    by_cases hid : id' = id
    · subst hid
      simp [HeldSpace.roleOf, hfree.1]
    · rw [Function.update_of_ne hid, h.roles, hs]
      simp [HeldSpace.roleOf, hid]

/-- Whoever comes when there is no space owns one. -/
theorem Shares.openSpace (h : p.Shares roles) (hs : p.sharedSpace? = none) (id : IsolateId) :
    (p.openSpace id).2.Shares (Function.update roles id (some (.owner p.nextSpace))) := by
  have hspace := sharedSpace?_openSpace h.numbered id
  refine ⟨fun t ht => ?_, fun t ht => ?_, fun id' => ?_⟩
  · show t.id < p.nextSpace + 1
    rcases List.mem_append.mp ht with ht | ht
    · exact Nat.lt_succ_of_lt (h.numbered t ht)
    · rw [List.mem_singleton.mp ht]
      exact Nat.lt_succ_self _
  · rw [hspace] at ht
    cases ht
    exact List.nodup_singleton id
  · rw [hspace]
    by_cases hid : id' = id
    · subst hid
      simp [HeldSpace.roleOf]
    · rw [Function.update_of_ne hid, h.roles, hs]
      simp [HeldSpace.roleOf, hid]

theorem Shares.detach (h : p.Shares roles) (hr : roles id = some (.client k)) :
    (p.modifySpace k fun s => (s.detach id).2).Shares (Function.update roles id none) := by
  obtain ⟨s, hs, howner, -, rfl⟩ := h.served hr
  have hsole := List.nodup_cons.mp (h.sole s hs)
  have herase : ∀ id', id' ∈ s.space.clients.erase id ↔ id' ≠ id ∧ id' ∈ s.space.clients :=
    fun _ => hsole.2.mem_erase_iff
  refine h.modify hs ?_ fun id' => ?_
  · refine List.nodup_cons.mpr ⟨fun hmem => hsole.1 ?_, hsole.2.erase id⟩
    exact ((herase _).mp hmem).2
  · by_cases hid : id' = id
    · subst hid
      simp [HeldSpace.roleOf, SharedSpace.detach, herase, howner]
    · rw [Function.update_of_ne hid, h.roles, hs]
      simp [HeldSpace.roleOf, SharedSpace.detach, herase, hid]

/-- With its owner the space is closed. -/
theorem Shares.close (h : p.Shares roles) (hr : roles id = some (.owner k))
    (halone : ∀ s, p.space? k = some s → s.space.clients = []) :
    (Hosted.withoutSpace p k).Shares (Function.update roles id none) ∧
      (Hosted.withoutSpace p k).sharedSpace? = none := by
  obtain ⟨s, hs, rfl, rfl⟩ := h.owned hr
  obtain ⟨hslot, hspace⟩ := sharedSpace?_eq_some hs
  have hclients := halone s hspace
  have hclosed : Hosted.withoutSpace p s.id = { p.unholdSpace s.id with slot := none } :=
    if_pos hslot
  have hnone : (Hosted.withoutSpace p s.id).sharedSpace? = none := by
    rw [hclosed]
    rfl
  refine ⟨⟨fun t ht => ?_, fun t ht => ?_, fun id' => ?_⟩, hnone⟩
  · rw [hclosed] at ht ⊢
    obtain ⟨t', ht', hkept⟩ := List.mem_filterMap.mp ht
    have hid : t.id = t'.id := by
      split at hkept
      · split at hkept
        · cases hkept
        · cases hkept
          rfl
      · cases hkept
        rfl
    exact hid ▸ h.numbered t' ht'
  · rw [hnone] at ht
    cases ht
  · rw [hnone]
    by_cases hid : id' = s.space.owner
    · subst hid
      simp
    · rw [Function.update_of_ne hid, h.roles, hs]
      simp [HeldSpace.roleOf, hid, hclients]

end Platform

/-- Isolates with a part in a space are those that were to have one and that were set up, even in
vain, and not torn down. -/
def Isolate.Joined (i : Isolate) : Prop :=
  i.spaceRole.isSome ↔ i.options.sharedSpace ∧ (i.state = .initialized ∨ i.state = .failed)

theorem Isolate.Quiet.joined {i i' : Isolate} (h : i.Quiet i') (hi : i.Joined) : i'.Joined := by
  have hstate : i'.state = i.state := congrArg Stake.state h.stake
  have hoptions : i'.options = i.options := congrArg Stake.options h.stake
  unfold Isolate.Joined
  rw [h.role, hstate, hoptions]
  exact hi

theorem Isolate.Joined.none_of_allocated {i : Isolate} (h : i.Joined) (hs : i.state = .allocated) :
    i.spaceRole = none := by
  unfold Isolate.Joined at h
  rw [hs] at h
  simpa using h

namespace Hosted

variable {h h' : Hosted} {t : ThreadId} {roles : IsolateId → Option SpaceRole}
  {result : Except Failure Unit}

/-- The isolate has the part that its platform has on the list. -/
structure Sharing (roles : IsolateId → Option SpaceRole) (h : Hosted) : Prop where
  shares : h.platform.Shares roles
  role : roles h.isolate.id = h.isolate.spaceRole

theorem Sharing.ownsAlive (hs : h.Sharing roles) : h.OwnsAlive := by
  intro k hrole
  obtain ⟨s, hspace, -, rfl⟩ := hs.shares.owned (hs.role.trans hrole)
  exact ⟨s, (Platform.sharedSpace?_eq_some hspace).2⟩

theorem shares_of_standing (hs : h'.standing = h.standing) (hshares : h.platform.Shares roles) :
    h'.platform.Shares roles :=
  hshares.congr (congrArg Standing.spaces hs) (congrArg Standing.slot hs)
    (congrArg Standing.nextSpace hs)

theorem shares_joined (hs : h.platform.Shares roles) (hnew : roles h.isolate.id = none) :
    h.joined.platform.Shares
      (Function.update roles h.isolate.id h.joined.isolate.spaceRole) := by
  unfold joined
  cases hspace : h.platform.sharedSpace? with
  | none => exact hs.openSpace hspace _
  | some s => exact hs.attach hspace hnew

theorem shares_parted (hs : h.Sharing roles)
    (halone : ∀ k s, h.isolate.spaceRole = some (.owner k) → h.platform.space? k = some s →
      s.space.clients = []) :
    h.parted.platform.Shares (Function.update roles h.isolate.id none) := by
  have hrole := hs.role
  unfold parted
  match hr : h.isolate.spaceRole with
  | none =>
    rw [hr] at hrole
    rw [Function.update_eq_self_iff.mpr hrole.symm]
    exact hs.shares
  | some (.client k) => exact hs.shares.detach (hrole.trans hr)
  | some (.owner k) => exact (hs.shares.close (hrole.trans hr) fun s => halone k s hr).1

/-- Only setting up an allocated isolate gives it a part. -/
theorem SetsUp.sharing (hs : SetsUp t h result h') (hh : h.Sharing roles) (hj : h.isolate.Joined)
    (calm : endsFatally result = false) :
    h'.Sharing (Function.update roles h.isolate.id h'.isolate.spaceRole) ∧ h'.isolate.Joined := by
  obtain ⟨rfl, -⟩ | ⟨hstate, hstanding, hsettled⟩ := hs.standing calm
  · rw [Function.update_eq_self_iff.mpr hh.role.symm]
    exact ⟨hh, hj⟩
  have hground := hs.ground
  have hid : h'.isolate.id = h.isolate.id := congrArg Prod.fst hground
  have hoptions : h'.isolate.options = h.isolate.options := congrArg (fun g => g.2.1) hground
  have hrole : h'.isolate.spaceRole =
      (if h.isolate.options.sharedSpace then h.joined else h).isolate.spaceRole :=
    congrArg (fun s => s.part.role) hstanding
  have hnew : h.isolate.spaceRole = none := hj.none_of_allocated hstate
  refine ⟨⟨shares_of_standing hstanding ?_, ?_⟩, ?_⟩
  · rw [hrole]
    split
    · exact shares_joined hh.shares (hh.role.trans hnew)
    · rw [Function.update_eq_self_iff.mpr hh.role.symm]
      exact hh.shares
  · rw [hid, Function.update_self]
  · unfold Isolate.Joined
    rw [hrole, hoptions]
    split
    · have hsome : h.joined.isolate.spaceRole.isSome := by
        unfold Hosted.joined
        cases h.platform.sharedSpace? <;> rfl
      exact ⟨fun _ => ⟨‹_›, hsettled⟩, fun _ => hsome⟩
    · rename_i hshared
      refine ⟨fun hsome => ?_, fun hopt => absurd hopt.1 hshared⟩
      rw [hnew] at hsome
      cases hsome

/-- Tearing down takes the part of an isolate from it. -/
theorem TearsDown.sharing (hs : TearsDown h result h') (hh : h.Sharing roles)
    (calm : endsFatally result = false) :
    h'.Sharing (Function.update roles h.isolate.id h'.isolate.spaceRole) ∧
      (h.isolate.Joined → h'.isolate.Joined) := by
  obtain rfl | ⟨halone, hstanding, hended⟩ := hs.standing hh.ownsAlive calm
  · rw [Function.update_eq_self_iff.mpr hh.role.symm]
    exact ⟨hh, fun hj => hj⟩
  have hid : h'.isolate.id = h.isolate.id := congrArg Prod.fst hs.ground
  have hrole : h'.isolate.spaceRole = none := congrArg (fun s => s.part.role) hstanding
  refine ⟨⟨shares_of_standing hstanding ?_, ?_⟩, fun _ => ?_⟩
  · rw [hrole]
    exact shares_parted hh halone
  · rw [hid, Function.update_self]
  · unfold Isolate.Joined
    rw [hrole, hended]
    simp

theorem Task.sharing (task : Task h result h') (hh : h.Sharing roles) (hj : h.isolate.Joined)
    (calm : endsFatally result = false) :
    h'.Sharing (Function.update roles h.isolate.id h'.isolate.spaceRole) ∧ h'.isolate.Joined := by
  have htorn : ∀ {result}, TearsDown h result h' → endsFatally result = false →
      h'.Sharing (Function.update roles h.isolate.id h'.isolate.spaceRole) ∧ h'.isolate.Joined :=
    fun tearsDown calm => (tearsDown.sharing hh calm).imp_right fun hjoined => hjoined hj
  cases task with
  | setUp t setsUp => exact setsUp.sharing hh hj calm
  | tearDown tearsDown => exact htorn tearsDown calm
  | dispose disposes =>
    cases disposes with
    | entered => cases calm
    | ended tearsDown survives => exact htorn tearsDown (endsFatally_eq_false survives)
    | died => cases calm

/-- An isolate that ends has no part any more. -/
theorem Destroys.shares (hs : Destroys h result h') (hh : h.Sharing roles)
    (calm : endsFatally result = false) :
    h'.platform.Shares (Function.update roles h.isolate.id none) := by
  cases hs with
  | entered => cases calm
  | died => cases calm
  | alive => cases calm
  | @gone reached _ tearsDown survives live =>
    have hsettled : h.settled.Sharing roles := by
      unfold settled
      split
      · exact ⟨hh.shares, hh.role⟩
      · exact hh
    have hid : h.settled.isolate.id = h.isolate.id := congrArg Prod.fst settled_ground
    have hshares := (tearsDown.sharing hsettled (endsFatally_eq_false survives)).1.shares
    have hnone : reached.isolate.spaceRole = none := by
      have hlive := live
      unfold Isolate.liveSubsystems at hlive
      simp only [List.append_eq_nil_iff] at hlive
      simpa using hlive.1.2
    rw [hnone, hid] at hshares
    unfold withoutRegion
    refine hshares.congr ?_ ?_ ?_ <;> cases reached.isolate.region <;> rfl

end Hosted

namespace Engine

variable {p q p' : Engine} {r : Resident} {before after residents : List Resident} {k : PlatformId}
  {id : IsolateId} {result : Except Failure Unit}

/-- The part that an isolate of a platform has in a space. -/
def roleAmong (k : PlatformId) (residents : List Resident) (id : IsolateId) : Option SpaceRole :=
  (residents.find? (·.isolate.id == id)).bind fun r =>
    if r.platform = k then r.isolate.spaceRole else none

def roleOn (p : Engine) (k : PlatformId) (id : IsolateId) : Option SpaceRole :=
  roleAmong k p.residents id

theorem roleAmong_eq_none (h : ∀ r ∈ residents, r.platform = k → r.isolate.id ≠ id) :
    roleAmong k residents id = none := by
  unfold roleAmong
  cases hr : residents.find? (·.isolate.id == id) with
  | none => rfl
  | some r =>
    have hid : r.isolate.id = id := by simpa using List.find?_some hr
    rw [Option.bind_some, if_neg fun hk => h r (List.mem_of_find?_eq_some hr) hk hid]

/-- An isolate with a number of its own has its part whatever the others have. -/
theorem roleAmong_middle (others : ∀ s ∈ before ++ after, s.isolate.id ≠ r.isolate.id) :
    roleAmong k (before ++ r :: after) =
      if r.platform = k then
        Function.update (roleAmong k (before ++ after)) r.isolate.id r.isolate.spaceRole
      else roleAmong k (before ++ after) := by
  have hself : (before ++ r :: after).find? (·.isolate.id == r.isolate.id) = some r := by
    have hnone : before.find? (·.isolate.id == r.isolate.id) = none :=
      List.find?_eq_none.mpr fun s hs => by simpa using others s (List.mem_append_left _ hs)
    rw [List.find?_append, hnone]
    simp
  have habsent : roleAmong k (before ++ after) r.isolate.id = none :=
    roleAmong_eq_none fun s hs _ => others s hs
  funext id
  by_cases hid : id = r.isolate.id
  · subst hid
    have hrole : roleAmong k (before ++ r :: after) r.isolate.id =
        if r.platform = k then r.isolate.spaceRole else none := by
      rw [roleAmong, hself]
      rfl
    rw [hrole]
    split
    · rw [Function.update_self]
    · exact habsent.symm
  · have hrest : roleAmong k (before ++ r :: after) id = roleAmong k (before ++ after) id := by
      have hne : (r.isolate.id == id) = false := by simpa using Ne.symm hid
      simp [roleAmong, List.find?_append, hne]
    rw [hrest]
    split
    · rw [Function.update_of_ne hid]
    · rfl

theorem Quietly.roleOn (h : p.Quietly q) : q.roleOn k = p.roleOn k := by
  have hrs := h.residents
  funext id
  unfold Engine.roleOn
  generalize p.residents = rs, q.residents = rs' at hrs
  induction hrs with
  | nil => rfl
  | @cons r r' rest rest' hr _ ih =>
    have hid : r'.isolate.id = r.isolate.id := congrArg Stake.id hr.2.stake
    unfold roleAmong at ih ⊢
    rw [List.find?_cons, List.find?_cons, hid]
    split
    · simp [hr.1, hr.2.role]
    · exact ih

theorem Lodges.roleOn_self (h : Lodges before r after p) :
    p.roleOn r.platform r.isolate.id = r.isolate.spaceRole := by
  unfold Engine.roleOn
  rw [h.residents, roleAmong_middle h.others, if_pos rfl, Function.update_self]

theorem Sound.roleOn_of_mem (hp : p.Sound) (hr : r ∈ p.residents) :
    p.roleOn r.platform r.isolate.id = r.isolate.spaceRole := by
  obtain ⟨s, hs, -⟩ := Option.map_eq_some_iff.mp (hp.isolate?_of_mem hr)
  obtain ⟨before, after, lodges, hid⟩ := hp.lodges hs
  have hself : s = r := List.inj_on_of_nodup_map hp.distinct lodges.mem hr hid
  exact hself ▸ lodges.roleOn_self

theorem Lodges.roleOn_withHosted (h : Lodges before r after p) {hosted : Hosted}
    (hid : hosted.isolate.id = r.isolate.id) : (p.withHosted before r after hosted).roleOn k =
      if r.platform = k then Function.update (p.roleOn k) r.isolate.id hosted.isolate.spaceRole
      else p.roleOn k := by
  have others : ∀ s ∈ before ++ after,
      s.isolate.id ≠ ({ r with isolate := hosted.isolate } : Resident).isolate.id :=
    fun s hs => hid ▸ h.others s hs
  have hnew := roleAmong_middle (k := k) others
  have hold := roleAmong_middle (k := k) h.others
  show roleAmong k (before ++ { r with isolate := hosted.isolate } :: after) = _
  unfold Engine.roleOn
  rw [hnew, h.residents, hold]
  dsimp only
  rw [hid]
  split
  · rw [Function.update_idem]
  · rfl

theorem Lodges.roleOn_withoutResident (h : Lodges before r after p) (platform : Platform) :
    (p.withoutResident before r after platform).roleOn k =
      if r.platform = k then Function.update (p.roleOn k) r.isolate.id none else p.roleOn k := by
  have hold := roleAmong_middle (k := k) h.others
  have habsent : roleAmong k (before ++ after) r.isolate.id = none :=
    roleAmong_eq_none fun s hs _ => h.others s hs
  show roleAmong k (before ++ after) = _
  unfold Engine.roleOn
  rw [h.residents, hold]
  split
  · rw [Function.update_idem, ← habsent, Function.update_eq_self]
  · rfl

/-- A new isolate has no part yet. -/
theorem Sound.roleOn_allocate {j : PlatformId} {i : Isolate} (hp : p.Sound)
    (hid : i.id = p.nextIsolate) (hrole : i.spaceRole = none)
    (residents : p'.residents = p.residents ++ [⟨j, 1, i⟩]) : p'.roleOn k = p.roleOn k := by
  have hothers : ∀ s ∈ p.residents ++ [], s.isolate.id ≠ i.id := by
    rw [List.append_nil, hid]
    exact fun s hs => Nat.ne_of_lt (hp.numbered s hs)
  have hmiddle := roleAmong_middle (k := k) (r := ⟨j, 1, i⟩) hothers
  have hnone : roleAmong k (p.residents ++ []) i.id = none :=
    roleAmong_eq_none fun s hs _ => hothers s hs
  show roleAmong k p'.residents = roleAmong k p.residents
  rw [residents, hmiddle]
  dsimp only
  rw [hrole, ← hnone, Function.update_eq_self, ite_self, List.append_nil]

/-- All isolates have the parts that their platforms have on their lists. -/
structure Sharing (p : Engine) : Prop where
  sound : p.Sound
  shares : ∀ k platform, p.platform? k = some platform → platform.Shares (p.roleOn k)
  joined : ∀ r ∈ p.residents, r.isolate.Joined

theorem sharing_empty : Sharing {} where
  sound := sound_empty
  shares k platform hk := by cases hk
  joined r hr := by cases hr

theorem Sharing.hosted {platform : Platform} (hp : p.Sharing) (lodges : Lodges before r after p)
    (housed : p.platform? r.platform = some platform) :
    Hosted.Sharing (p.roleOn r.platform) ⟨r.isolate, platform⟩ where
  shares := hp.shares _ _ housed
  role := lodges.roleOn_self

theorem Quietly.sharing (h : p.Quietly q) (hp : p.Sharing) : q.Sharing where
  sound := h.sound hp.sound
  shares k platform hk := by
    rw [platform?, h.platforms] at hk
    rw [h.roleOn]
    exact hp.shares k platform hk
  joined r' hr' := by
    obtain ⟨r, hr, -, hquiet⟩ := h.mem hr'
    exact hquiet.joined (hp.joined r hr)

/-- One platform may be changed together with the parts of its isolates. -/
theorem Sharing.set {platform : Platform} {j : PlatformId} {new : IsolateId → Option SpaceRole}
    (hp : p.Sharing) (sound : p'.Sound) (platforms : p'.platforms = p.platforms.set j platform)
    (shares : platform.Shares new)
    (roles : ∀ k, p'.roleOn k = if j = k then new else p.roleOn k)
    (joined : ∀ r ∈ p'.residents, r.isolate.Joined) : p'.Sharing where
  sound := sound
  shares k platform' hk := by
    rw [platform?, platforms, platform?_set] at hk
    rw [roles]
    split at hk
    · obtain ⟨_, -, rfl⟩ := Option.map_eq_some_iff.mp hk
      rw [if_pos ‹_›]
      exact shares
    · rw [if_neg ‹_›]
      exact hp.shares k platform' hk
  joined := joined

/-- Every step that is not fatal keeps the lists exact. -/
theorem Step.sharing (h : p.Step result p') (hp : p.Sharing) (calm : endsFatally result = false) :
    p'.Sharing := by
  have hsound := h.sound hp.sound
  cases h with
  | quiet quietly => exact quietly.sharing hp
  | found o platforms residents =>
    have hroles : ∀ k, p'.roleOn k = p.roleOn k := fun k => congrArg (roleAmong k) residents
    refine ⟨hsound, fun k platform hk => ?_, residents ▸ hp.joined⟩
    rw [hroles]
    rw [platform?, platforms, List.getElem?_append] at hk
    split at hk
    · exact hp.shares k platform hk
    · rename_i hlt
      have hcreate : platform = .create p.platforms.length o := by
        simpa using List.mem_of_getElem? hk
      have hnobody : p.roleOn k = fun _ => none := by
        funext id
        exact roleAmong_eq_none fun r hr hrk => absurd (hrk ▸ hp.sound.housed r hr) hlt
      rw [hcreate, hnobody]
      exact Platform.shares_create _ o
  | @allocate _ j o host reserved region platform reserve platforms residents next =>
    have hshares : Platform.Shares { reserved with blobs := reserved.blobs.acquire.2 }
        (p.roleOn j) := ((hp.shares j host platform).reserve reserve).congr rfl rfl rfl
    refine hp.set hsound platforms hshares (fun k => ?_) fun r hr => ?_
    · rw [hp.sound.roleOn_allocate rfl rfl residents]
      split
      · subst_vars
        rfl
      · rfl
    · rw [residents] at hr
      rcases List.mem_append.mp hr with hr | hr
      · exact hp.joined r hr
      · rw [List.mem_singleton.mp hr]
        simp [Isolate.Joined]
  | @act before after r platform _ hosted lodges housed task =>
    obtain ⟨hsharing, hjoined⟩ :=
      task.sharing (hp.hosted lodges housed) (hp.joined r lodges.mem) calm
    have hid : hosted.isolate.id = r.isolate.id := congrArg Prod.fst task.ground
    refine hp.set hsound rfl hsharing.shares (fun k => ?_) fun s hs => ?_
    · rw [lodges.roleOn_withHosted hid]
      split
      · subst_vars
        rfl
      · rfl
    · rcases List.mem_cons.mp (List.perm_middle.mem_iff.mp hs) with rfl | hs
      · exact hjoined
      · exact hp.joined s (lodges.mem_of_around hs)
  | @destroy q before after r platform _ hosted quietly lodges housed destroys =>
    have hq := quietly.sharing hp
    have hshares := destroys.shares (hq.hosted lodges housed) calm
    refine hq.set hsound rfl hshares (fun k => ?_) fun s hs => hq.joined s (lodges.mem_of_around hs)
    rw [lodges.roleOn_withoutResident]
    split
    · subst_vars
      rfl
    · rfl

theorem Sharing.run {ops : List LifecycleOperation} (hp : p.Sharing) (h : p.run ops = some q) :
    q.Sharing :=
  run_induction hp (fun _ op hp calm => (op.step hp.sound).sharing hp calm) h

end Engine

end ScriptEngine

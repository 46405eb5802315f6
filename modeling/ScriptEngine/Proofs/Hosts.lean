import ScriptEngine.Proofs.Residents

namespace ScriptEngine

/-- A platform with the stakes of its isolates, in the order in which they were allocated. -/
structure Host where
  platform : Platform
  stakes : List Stake

/-- What an operation that came to `result` does to a platform and its isolates. -/
inductive Host.Step : Host → Except Failure Unit → Host → Prop
  | same (host : Host) (result : Except Failure Unit) : Step host result host
  | allocate {host reserved : Platform} {stakes : List Stake} {id : IsolateId} {o : IsolateOptions}
      {region : Reservation} (reserve : host.reserve o.regionSize = some (region, reserved)) :
      Step ⟨host, stakes⟩ (.ok ())
        ⟨{ reserved with blobs := reserved.blobs.acquire.2 },
          stakes ++ [⟨id, o, .allocated, [], some region, none, reserved.blobs.acquire.1⟩]⟩
  | act {before after : List Stake} {i : Isolate} {platform : Platform}
      {result : Except Failure Unit} {h : Hosted} (task : Hosted.Task ⟨i, platform⟩ result h) :
      Step ⟨platform, before ++ i.stake :: after⟩ result
        ⟨h.platform, before ++ h.isolate.stake :: after⟩
  | destroy {before after : List Stake} {i : Isolate} {platform : Platform}
      {result : Except Failure Unit} {h : Hosted}
      (others : ∀ s ∈ before ++ after, s.id ≠ i.id)
      (destroys : Hosted.Destroys ⟨i, platform⟩ result h) :
      Step ⟨platform, before ++ i.stake :: after⟩ result ⟨h.platform, before ++ after⟩

namespace Engine

variable {p q p' : Engine} {r : Resident} {before after residents : List Resident} {k : PlatformId}

/-- The stakes of the residents of a platform. -/
def stakesAmong (k : PlatformId) (residents : List Resident) : List Stake :=
  (residents.filter (·.platform == k)).map (·.isolate.stake)

@[simp]
theorem stakesAmong_append : stakesAmong k (before ++ after) =
    stakesAmong k before ++ stakesAmong k after := by
  simp [stakesAmong]

theorem stakesAmong_cons_self (h : r.platform = k) :
    stakesAmong k (r :: residents) = r.isolate.stake :: stakesAmong k residents := by
  simp [stakesAmong, h]

theorem stakesAmong_cons_of_ne (h : r.platform ≠ k) :
    stakesAmong k (r :: residents) = stakesAmong k residents := by
  simp [stakesAmong, h]

def stakesOn (p : Engine) (k : PlatformId) : List Stake := stakesAmong k p.residents

def host? (p : Engine) (k : PlatformId) : Option Host :=
  (p.platform? k).map fun platform => ⟨platform, p.stakesOn k⟩

theorem mem_stakesAmong {s : Stake} (h : s ∈ stakesAmong k residents) :
    ∃ r ∈ residents, r.platform = k ∧ r.isolate.stake = s := by
  obtain ⟨r, hr, rfl⟩ := List.mem_map.mp h
  obtain ⟨hr, hk⟩ := List.mem_filter.mp hr
  exact ⟨r, hr, by simpa using hk, rfl⟩

theorem Sound.stakesOn_of_none (hp : p.Sound) (h : p.platform? k = none) : p.stakesOn k = [] := by
  refine List.eq_nil_iff_forall_not_mem.mpr fun s hs => ?_
  obtain ⟨r, hr, rfl, -⟩ := mem_stakesAmong hs
  exact Nat.not_lt.mpr (List.getElem?_eq_none_iff.mp h) (hp.housed r hr)

theorem Quietly.host?_eq (h : p.Quietly q) (k : PlatformId) : q.host? k = p.host? k := by
  have hstakes : q.stakesOn k = p.stakesOn k := by
    have hrs := h.residents
    unfold stakesOn
    generalize p.residents = rs, q.residents = rs' at hrs
    induction hrs with
    | nil => rfl
    | @cons r r' _ _ hr _ ih =>
      by_cases hk : r.platform = k
      · rw [stakesAmong_cons_self hk, stakesAmong_cons_self (hr.1.trans hk), ih, hr.2.stake]
      · rw [stakesAmong_cons_of_ne hk, stakesAmong_cons_of_ne (hr.1 ▸ hk), ih]
  rw [host?, host?, platform?, h.platforms, hstakes]
  rfl

theorem platform?_set {platforms : List Platform} {platform : Platform} {j : PlatformId} :
    (platforms.set j platform)[k]? =
      if j = k then (platforms[k]?).map fun _ => platform else platforms[k]? := by
  rw [List.getElem?_set]
  by_cases hjk : j = k
  · subst hjk
    rw [if_pos rfl, if_pos rfl]
    cases h : platforms[j]? with
    | none => rw [if_neg (by simpa using h)]; rfl
    | some _ => rw [if_pos (List.getElem?_eq_some_iff.mp h).1]; rfl
  · rw [if_neg hjk, if_neg hjk]

/-- Where an isolate lives, its stake is among the others. -/
theorem Lodges.host? {platform : Platform} (h : Lodges before r after p)
    (hk : p.platform? r.platform = some platform) : p.host? r.platform =
      some ⟨platform, stakesAmong r.platform before ++
        r.isolate.stake :: stakesAmong r.platform after⟩ := by
  rw [Engine.host?, hk, stakesOn, h.residents, stakesAmong_append, stakesAmong_cons_self rfl]
  rfl

theorem platform?_set_self {platform new : Platform} (h : p.platform? k = some platform) :
    (p.platforms.set k new)[k]? = some new := by
  rw [platform?_set, if_pos rfl]
  exact congrArg (Option.map _) h

theorem host?_withHosted {platform : Platform} (hk : p.platform? r.platform = some platform)
    (hosted : Hosted) :
    (p.withHosted before r after hosted).host? r.platform =
      some ⟨hosted.platform, stakesAmong r.platform before ++
        hosted.isolate.stake :: stakesAmong r.platform after⟩ := by
  have hplatform : (p.withHosted before r after hosted).platform? r.platform =
      some hosted.platform := platform?_set_self hk
  rw [host?, hplatform, stakesOn, withHosted, stakesAmong_append,
    stakesAmong_cons_self (r := { r with isolate := hosted.isolate }) rfl]
  rfl

theorem host?_withoutResident {platform : Platform} (hk : p.platform? r.platform = some platform)
    (new : Platform) :
    (p.withoutResident before r after new).host? r.platform =
      some ⟨new, stakesAmong r.platform before ++ stakesAmong r.platform after⟩ := by
  have hplatform : (p.withoutResident before r after new).platform? r.platform = some new :=
    platform?_set_self hk
  rw [host?, hplatform, stakesOn, withoutResident, stakesAmong_append]
  rfl

/-- Away from where an isolate lives, it does not matter that it changes or goes. -/
theorem Lodges.host?_of_ne (h : Lodges before r after p) {platform : Platform}
    {residents : List Resident} (hk : r.platform ≠ k)
    (hsame : stakesAmong k residents = stakesAmong k (before ++ after)) :
    ({ p with platforms := p.platforms.set r.platform platform, residents } : Engine).host? k =
      p.host? k := by
  have hstakes : p.stakesOn k = stakesAmong k (before ++ after) := by
    rw [stakesOn, h.residents, stakesAmong_append, stakesAmong_cons_of_ne hk, stakesAmong_append]
  have hplatform : ({ p with platforms := p.platforms.set r.platform platform, residents } :
      Engine).platform? k = p.platform? k := by
    unfold platform?
    rw [platform?_set, if_neg hk]
  rw [Engine.host?, Engine.host?, hplatform, hstakes, ← hsame]
  rfl

theorem Lodges.host?_withHosted_of_ne (h : Lodges before r after p) (hk : r.platform ≠ k)
    (hosted : Hosted) : (p.withHosted before r after hosted).host? k = p.host? k := by
  refine h.host?_of_ne hk ?_
  rw [stakesAmong_append, stakesAmong_append,
    stakesAmong_cons_of_ne (r := { r with isolate := hosted.isolate }) hk]

variable {host' : Host}

/-- A platform that is added has no isolates yet. -/
theorem Sound.host?_found {o : ProcessOptions} (hp : p.Sound)
    (platforms : p'.platforms = p.platforms ++ [.create p.platforms.length o])
    (residents : p'.residents = p.residents) (hk : p'.host? k = some host') :
    (p.host? k = none ∧ host' = ⟨.create p.platforms.length o, []⟩) ∨ p.host? k = some host' := by
  have hstakes : p'.stakesOn k = p.stakesOn k := congrArg (stakesAmong k) residents
  rw [host?, platform?, platforms, hstakes] at hk
  by_cases hold : k < p.platforms.length
  · rw [List.getElem?_append_left hold] at hk
    exact .inr hk
  · have hnone : p.platform? k = none := List.getElem?_eq_none_iff.mpr (Nat.not_lt.mp hold)
    rw [hp.stakesOn_of_none hnone, List.getElem?_append_right (Nat.not_lt.mp hold)] at hk
    obtain ⟨platform, hplatform, rfl⟩ := Option.map_eq_some_iff.mp hk
    rw [List.mem_singleton.mp (List.mem_of_getElem? hplatform)]
    exact .inl ⟨by rw [host?, hnone]; rfl, rfl⟩

/-- A new isolate comes last on its platform. -/
theorem host?_allocate {j : PlatformId} {platform new : Platform} {i : Isolate}
    (housed : p.platform? j = some platform) (platforms : p'.platforms = p.platforms.set j new)
    (residents : p'.residents = p.residents ++ [⟨j, 1, i⟩]) :
    p'.host? k = if j = k then some ⟨new, p.stakesOn k ++ [i.stake]⟩ else p.host? k := by
  rw [host?, platform?, platforms, stakesOn, residents, stakesAmong_append]
  by_cases hj : j = k
  · subst hj
    rw [if_pos rfl, platform?_set_self housed, stakesAmong_cons_self (r := ⟨j, 1, i⟩) rfl]
    rfl
  · rw [if_neg hj, platform?_set, if_neg hj, stakesAmong_cons_of_ne hj, host?, stakesOn]
    simp [stakesAmong, platform?]

/-- Every step acts on one host at most; a platform that was not there before has no isolates. -/
theorem Step.host {result : Except Failure Unit} (h : p.Step result p') (hp : p.Sound)
    (hk : p'.host? k = some host') :
    (p.host? k = none ∧ ∃ n o, host' = ⟨.create n o, []⟩) ∨
      ∃ host, p.host? k = some host ∧ host.Step result host' := by
  cases h with
  | quiet quietly =>
    rw [quietly.host?_eq] at hk
    exact .inr ⟨host', hk, .same host' result⟩
  | found o platforms residents =>
    obtain ⟨hnone, rfl⟩ | hsame := hp.host?_found platforms residents hk
    · exact .inl ⟨hnone, _, o, rfl⟩
    · exact .inr ⟨host', hsame, .same host' _⟩
  | @allocate _ j o host reserved region platform reserve platforms residents =>
    rw [host?_allocate platform platforms residents] at hk
    by_cases hj : j = k
    · subst hj
      rw [if_pos rfl] at hk
      cases hk
      exact .inr ⟨⟨host, p.stakesOn j⟩, by rw [host?, platform]; rfl, .allocate reserve⟩
    · rw [if_neg hj] at hk
      exact .inr ⟨host', hk, .same host' _⟩
  | @act before after r platform result hosted lodges housed task =>
    by_cases hr : r.platform = k
    · subst hr
      rw [host?_withHosted housed] at hk
      cases hk
      exact .inr ⟨_, lodges.host? housed, .act task⟩
    · rw [lodges.host?_withHosted_of_ne hr] at hk
      exact .inr ⟨host', hk, .same host' result⟩
  | @destroy q before after r platform result hosted quietly lodges housed destroys =>
    rw [← quietly.host?_eq]
    by_cases hr : r.platform = k
    · subst hr
      rw [host?_withoutResident housed] at hk
      cases hk
      refine .inr ⟨_, lodges.host? housed, .destroy (fun s hs => ?_) destroys⟩
      rw [← stakesAmong_append] at hs
      obtain ⟨resident, hresident, -, rfl⟩ := mem_stakesAmong hs
      exact lodges.others resident hresident
    · have hsame : (q.withoutResident before r after hosted.platform).host? k = q.host? k :=
        lodges.host?_of_ne hr rfl
      exact .inr ⟨host', hsame ▸ hk, .same host' result⟩

end Engine

end ScriptEngine

import Mathlib.Logic.Relation
import ScriptEngine.Platform
import ScriptEngine.Proofs.BlobReferences

namespace ScriptEngine

/-- A registry, the handles taken from it, and its blobs that were freed, the latest first. -/
structure BlobCirculation where
  registry : BlobRegistry
  held : List BlobHandle
  freed : List PlacedBlob

/-- What users of a registry ask it for. -/
inductive BlobRequest
  | acquire
  /-- A blob to boot from, where a handle may count as held before. -/
  | create (shown : Option BlobHandle)
  | setCurrent (handle : BlobHandle)
  | release (handle : BlobHandle)
  | disableCounting
  | free

namespace BlobRequest

/-- It can free the sticky blob. -/
def GivesBack : BlobRequest → Prop
  | release _ | free => True
  | _ => False

end BlobRequest

/-- The address that all shared blobs are above. -/
def BlobRegistry.floor (r : BlobRegistry) : Address := (r.default.map (·.codeAddress)).getD 0

namespace BlobCirculation

open ScriptEngine.Action ScriptEngine.BlobRegistry

variable {u v w : BlobCirculation} {q : BlobRequest} {b c : PlacedBlob} {r : BlobRegistry}

/-- A registry that nobody has used yet. -/
def new (default : Option PlacedBlob) (nextAddress : Address) : BlobCirculation :=
  ⟨{ default, nextAddress }, [], []⟩

/-- The registry has changed. What was sticky and is no longer was freed. -/
def moveTo (u : BlobCirculation) (r : BlobRegistry) (held : List BlobHandle) : BlobCirculation :=
  ⟨r, held, if r.sticky.isSome then u.freed else u.registry.sticky.toList ++ u.freed⟩

/-- One request that does not end the process. -/
inductive Step (u : BlobCirculation) : BlobRequest → BlobCirculation → Prop
  | acquire :
      Step u .acquire (u.moveTo u.registry.acquire.2 (u.registry.acquire.1.toList ++ u.held))
  | create {shown : Option BlobHandle} {handle : BlobHandle} {r : BlobRegistry}
      (made : (createAndSet shown).outcome u.registry = (.ok handle, r)) :
      Step u (.create shown) (u.moveTo r (handle :: u.held))
  | setCurrent {handle : BlobHandle} (held : handle ∈ u.held) :
      Step u (.setCurrent handle) (u.moveTo (u.registry.setCurrent handle.placed) u.held)
  /-- A handle is given back once: it is held no longer. -/
  | release {before after : List BlobHandle} {handle : BlobHandle} {r : BlobRegistry}
      (held : u.held = before ++ handle :: after)
      (released : (BlobRegistry.release handle).outcome u.registry = (.ok (), r)) :
      Step u (.release handle) (u.moveTo r (before ++ after))
  | disableCounting : Step u .disableCounting (u.moveTo u.registry.disableCounting u.held)
  | free {r : BlobRegistry} (freed : freeCurrent.outcome u.registry = (.ok (), r)) :
      Step u .free (u.moveTo r u.held)

/-- It does not make a freed blob current. -/
def IsCareful (u : BlobCirculation) (q : BlobRequest) : Prop :=
  ∀ handle, q = .setCurrent handle → handle.placed ∉ u.freed

/-- Requests one after the other. -/
abbrev Run : BlobCirculation → BlobCirculation → Prop :=
  Relation.ReflTransGen fun u v => ∃ q, Step u q v

/-- Requests none of which makes a freed blob current. -/
abbrev CarefulRun : BlobCirculation → BlobCirculation → Prop :=
  Relation.ReflTransGen fun u v => ∃ q, u.IsCareful q ∧ Step u q v

theorem CarefulRun.run (h : CarefulRun u v) : Run u v := by
  induction h with
  | refl => exact .refl
  | tail _ step ih =>
    obtain ⟨q, -, step⟩ := step
    exact ih.tail ⟨q, step⟩

/-- The default blob or the sticky one. -/
def Offers (u : BlobCirculation) (b : PlacedBlob) : Prop :=
  u.registry.default = some b ∨ u.registry.sticky = some b

/-- Nothing changes but the current blob, the count, and who holds what. -/
structure Kept (u v : BlobCirculation) : Prop where
  default : v.registry.default = u.registry.default
  nextAddress : v.registry.nextAddress = u.registry.nextAddress
  sticky : v.registry.sticky = u.registry.sticky
  freed : v.freed = u.freed
  held : ∀ handle ∈ v.held, handle ∈ u.held ∨ u.Offers handle.placed

/-- A new blob is the sticky one and the current one. -/
structure Grown (u v : BlobCirculation) : Prop where
  bare : u.registry.sticky = none
  registry : v.registry = u.registry.withNextBlob
  freed : v.freed = u.freed
  held : v.held = .shared u.registry.nextBlob :: u.held

/-- The sticky blob is freed, and the slot of the current one is cleared. -/
structure Freed (b : PlacedBlob) (u v : BlobCirculation) : Prop where
  sticky : u.registry.sticky = some b
  default : v.registry.default = u.registry.default
  nextAddress : v.registry.nextAddress = u.registry.nextAddress
  gone : v.registry.sticky = none
  frees : v.registry.frees = u.registry.frees + 1
  freed : v.freed = b :: u.freed
  current : v.registry.current = {}
  held : ∀ handle ∈ v.held, handle ∈ u.held

/-- All that a request can do. -/
inductive Effect (u : BlobCirculation) (q : BlobRequest) (v : BlobCirculation) : Prop
  | stays (kept : Kept u v) (current : v.registry.current = u.registry.current)
  | shows (b : PlacedBlob) (kept : Kept u v) (current : v.registry.current = b.view)
      (keeps : ¬ q.GivesBack)
      (offered : u.Offers b ∨ ∃ handle ∈ u.held, handle.placed = b ∧ q = .setCurrent handle)
  | grows (grown : Grown u v) (keeps : ¬ q.GivesBack)
  | frees (b : PlacedBlob) (freed : Freed b u v) (gives : q.GivesBack)
      (byHand : q = .free → u.registry.current.code = b.codeAddress)

/-- Nothing is freed while what is sticky stays. -/
theorem freed_moveTo {held : List BlobHandle} (h : r.sticky = u.registry.sticky) :
    (u.moveTo r held).freed = u.freed := by
  cases hs : u.registry.sticky <;> simp [moveTo, h, hs]

theorem Kept.moveTo {held : List BlobHandle} (hr : r.default = u.registry.default ∧
      r.nextAddress = u.registry.nextAddress ∧ r.sticky = u.registry.sticky)
    (hheld : ∀ handle ∈ held, handle ∈ u.held ∨ u.Offers handle.placed) :
    Kept u (u.moveTo r held) :=
  ⟨hr.1, hr.2.1, hr.2.2, freed_moveTo hr.2.2, hheld⟩

/-- One more handle to a blob that is there for the asking. -/
theorem Kept.take {handle : BlobHandle} (hr : r.default = u.registry.default ∧
      r.nextAddress = u.registry.nextAddress ∧ r.sticky = u.registry.sticky)
    (offered : u.Offers handle.placed) : Kept u (u.moveTo r (handle :: u.held)) := by
  refine .moveTo hr ?_
  intro other hother
  rcases List.mem_cons.1 hother with rfl | hother
  · exact .inr offered
  · exact .inl hother

/-- The same handles as before. -/
theorem Kept.hold (hr : r.default = u.registry.default ∧
      r.nextAddress = u.registry.nextAddress ∧ r.sticky = u.registry.sticky) :
    Kept u (u.moveTo r u.held) := by
  refine .moveTo hr ?_
  intro handle hheld
  exact .inl hheld

theorem Freed.moveTo {held : List BlobHandle} (hs : u.registry.sticky = some b)
    (hheld : ∀ handle ∈ held, handle ∈ u.held) (hr : r.default = u.registry.default ∧
      r.nextAddress = u.registry.nextAddress ∧ r.frees = u.registry.frees) :
    Freed b u (u.moveTo r.free held) where
  sticky := hs
  default := hr.1
  nextAddress := hr.2.1
  gone := rfl
  frees := congrArg (· + 1) hr.2.2
  freed := by simp [BlobCirculation.moveTo, hs]
  current := rfl
  held := hheld

theorem effect_acquire (u : BlobCirculation) :
    Effect u .acquire
      (u.moveTo u.registry.acquire.2 (u.registry.acquire.1.toList ++ u.held)) := by
  obtain ⟨b, hs, ho⟩ | ⟨b, hs, hd, ho⟩ | ⟨hs, hd, ho⟩ := acquire_cases u.registry
  · rw [ho]
    have offered : u.Offers b := .inr hs
    exact .shows b (.take ⟨rfl, rfl, rfl⟩ offered) rfl (fun h => h) (.inl offered)
  · rw [ho]
    have offered : u.Offers b := .inl hd
    exact .shows b (.take ⟨rfl, rfl, rfl⟩ offered) rfl (fun h => h) (.inl offered)
  · rw [ho]
    exact .stays (.hold ⟨rfl, rfl, rfl⟩) rfl

theorem effect_create {shown : Option BlobHandle} {handle : BlobHandle}
    (made : (createAndSet shown).outcome u.registry = (.ok handle, r)) :
    Effect u (.create shown) (u.moveTo r (handle :: u.held)) := by
  obtain ⟨b, own, hs, -, -, rfl, rfl⟩ | ⟨b, hs, -, rfl, rfl⟩ | ⟨hs, -, -, rfl, rfl⟩ :=
    createAndSet_ok made
  · have offered : u.Offers b := .inr hs
    exact .shows b (.take ⟨rfl, rfl, rfl⟩ offered) rfl (fun h => h) (.inl offered)
  · have offered : u.Offers b := .inr hs
    exact .shows b (.take ⟨rfl, rfl, rfl⟩ offered) rfl (fun h => h) (.inl offered)
  · exact .grows ⟨hs, rfl, rfl, rfl⟩ fun h => h

theorem effect_release {before after : List BlobHandle} {handle : BlobHandle}
    (held : u.held = before ++ handle :: after)
    (released : (BlobRegistry.release handle).outcome u.registry = (.ok (), r)) :
    Effect u (.release handle) (u.moveTo r (before ++ after)) := by
  have hheld : ∀ other ∈ before ++ after, other ∈ u.held := by
    intro other hother
    rw [held]
    exact List.perm_middle.mem_iff.2 (List.mem_cons_of_mem _ hother)
  have hkept : ∀ other ∈ before ++ after, other ∈ u.held ∨ u.Offers other.placed :=
    fun other hother => .inl (hheld other hother)
  cases handle with
  | binary b =>
    cases released
    exact .stays (.moveTo ⟨rfl, rfl, rfl⟩ hkept) rfl
  | shared own =>
    obtain ⟨hs, rfl⟩ | ⟨b, hs, -, -, rfl⟩ := release_ok released
    · exact .stays (.moveTo ⟨rfl, rfl, rfl⟩ hkept) rfl
    · unfold withReturned
      split
      · exact .frees b (.moveTo hs hheld ⟨rfl, rfl, rfl⟩) trivial nofun
      · exact .stays (.moveTo ⟨rfl, rfl, rfl⟩ hkept) rfl

theorem effect_free (freed : freeCurrent.outcome u.registry = (.ok (), r)) :
    Effect u .free (u.moveTo r u.held) := by
  obtain ⟨hc, ⟨hs, rfl⟩ | ⟨b, hs, rfl⟩⟩ := freeCurrent_ok freed
  · exact .stays (.hold ⟨rfl, rfl, rfl⟩) rfl
  · refine .frees b (.moveTo hs (fun handle hheld => hheld) ⟨rfl, rfl, rfl⟩) trivial fun _ => ?_
    apply Decidable.byContradiction
    intro hcur
    -- Freeing another one than the current blob is fatal.
    rw [freeCurrent_foreign hc hs hcur] at freed
    cases freed

theorem Step.effect (h : Step u q v) : Effect u q v := by
  cases h with
  | acquire => exact effect_acquire u
  | create made => exact effect_create made
  | setCurrent held =>
    exact .shows _ (.hold ⟨rfl, rfl, rfl⟩) rfl (fun h => h) (.inr ⟨_, held, rfl, rfl⟩)
  | release held released => exact effect_release held released
  | disableCounting => exact .stays (.hold ⟨rfl, rfl, rfl⟩) rfl
  | free freed => exact effect_free freed

/-- The shared blobs that were ever placed, the latest first. -/
def shared (u : BlobCirculation) : List PlacedBlob := u.registry.sticky.toList ++ u.freed

/-- The default blob, or a shared one. -/
def Knows (u : BlobCirculation) (b : PlacedBlob) : Prop :=
  u.registry.default = some b ∨ b ∈ u.shared

/-- Blobs have addresses of their own, and all that is held or current is among them. -/
structure Tracked (u : BlobCirculation) : Prop where
  descending : (u.registry.nextAddress ::
    (u.shared.map (·.codeAddress) ++ [u.registry.floor])).Pairwise (· > ·)
  held : ∀ handle ∈ u.held, u.Knows handle.placed
  current : u.registry.current = {} ∨ ∃ b, u.Knows b ∧ u.registry.current = b.view

theorem Offers.knows (h : u.Offers b) : u.Knows b := by
  rcases h with hd | hs
  · exact .inl hd
  · exact .inr (by simp [shared, hs])

theorem Knows.offered_or_freed (h : u.Knows b) : u.Offers b ∨ b ∈ u.freed := by
  rcases h with hd | hs
  · exact .inl (.inl hd)
  · rcases List.mem_append.1 hs with hs | hf
    · exact .inl (.inr (Option.mem_toList.1 hs))
    · exact .inr hf

theorem Kept.shared (h : Kept u v) : v.shared = u.shared := by
  rw [BlobCirculation.shared, BlobCirculation.shared, h.sticky, h.freed]

theorem Kept.knows (h : Kept u v) : v.Knows b ↔ u.Knows b := by
  rw [Knows, Knows, h.shared, h.default]

theorem Kept.offers (h : Kept u v) : v.Offers b ↔ u.Offers b := by
  rw [Offers, Offers, h.default, h.sticky]

theorem Freed.shared (h : Freed b u v) : v.shared = u.shared := by
  simp [BlobCirculation.shared, h.gone, h.freed, h.sticky]

theorem Freed.knows (h : Freed b u v) : v.Knows c ↔ u.Knows c := by
  rw [Knows, Knows, h.shared, h.default]

theorem Grown.shared (h : Grown u v) : v.shared = u.registry.nextBlob :: u.shared := by
  simp [BlobCirculation.shared, h.bare, h.freed, h.registry]

theorem Grown.knows (h : Grown u v) (hb : u.Knows b) : v.Knows b := by
  rw [Knows, h.shared, h.registry]
  exact hb.imp_right (List.mem_cons_of_mem _)

theorem Grown.offers (h : Grown u v) : v.Offers u.registry.nextBlob := by
  right
  rw [h.registry]
  rfl

theorem floor_eq (h : v.registry.default = u.registry.default) :
    v.registry.floor = u.registry.floor := by
  rw [BlobRegistry.floor, h, BlobRegistry.floor]

theorem Tracked.kept (hu : u.Tracked) (h : Kept u v)
    (hcur : v.registry.current = {} ∨ ∃ b, u.Knows b ∧ v.registry.current = b.view) :
    v.Tracked where
  descending := by
    rw [h.nextAddress, h.shared, floor_eq h.default]
    exact hu.descending
  held handle hheld := by
    rw [h.knows]
    rcases h.held handle hheld with hheld | hoffered
    · exact hu.held handle hheld
    · exact hoffered.knows
  current := by
    simpa only [h.knows] using hcur

theorem Tracked.freed (hu : u.Tracked) (h : Freed b u v) : v.Tracked where
  descending := by
    rw [h.nextAddress, h.shared, floor_eq h.default]
    exact hu.descending
  held handle hheld := h.knows.2 (hu.held handle (h.held handle hheld))
  current := .inl h.current

theorem Tracked.grown (hu : u.Tracked) (h : Grown u v) : v.Tracked where
  descending := by
    have hnext : v.registry.nextAddress = u.registry.nextAddress + Blob.span := by
      rw [h.registry]
      rfl
    have hspan : u.registry.nextAddress < u.registry.nextAddress + Blob.span :=
      Nat.lt_add_of_pos_right (by decide)
    have hfloor : v.registry.floor = u.registry.floor := floor_eq (by rw [h.registry]; rfl)
    rw [hnext, h.shared, hfloor]
    have hdescending := hu.descending
    refine List.pairwise_cons.2 ⟨?_, hdescending⟩
    intro address haddress
    rcases List.mem_cons.1 haddress with rfl | haddress
    · exact hspan
    · exact Nat.lt_trans (List.rel_of_pairwise_cons hdescending haddress) hspan
  held handle hheld := by
    rw [h.held] at hheld
    rcases List.mem_cons.1 hheld with rfl | hheld
    · exact h.offers.knows
    · exact h.knows (hu.held handle hheld)
  current := by
    right
    refine ⟨u.registry.nextBlob, h.offers.knows, ?_⟩
    rw [h.registry]
    rfl

theorem Step.tracked (h : Step u q v) (hu : u.Tracked) : v.Tracked := by
  cases h.effect with
  | stays kept current =>
    apply hu.kept kept
    rw [current]
    exact hu.current
  | shows b kept current keeps offered =>
    apply hu.kept kept
    refine .inr ⟨b, ?_, current⟩
    rcases offered with hoffered | ⟨handle, hheld, rfl, -⟩
    · exact hoffered.knows
    · exact hu.held handle hheld
  | grows grown => exact hu.grown grown
  | frees b freed => exact hu.freed freed

theorem Run.tracked (h : Run u v) (hu : u.Tracked) : v.Tracked := by
  induction h with
  | refl => exact hu
  | tail _ step ih =>
    obtain ⟨q, step⟩ := step
    exact step.tracked ih

theorem tracked_new {default : Option PlacedBlob} {nextAddress : Address}
    (h : (new default nextAddress).registry.floor < nextAddress) :
    (new default nextAddress).Tracked where
  descending := by
    simp only [shared, new, Option.toList_none, List.nil_append, List.map_nil]
    exact List.pairwise_pair.2 h
  held handle hheld := by
    simp [new] at hheld
  current := .inl rfl

theorem Tracked.floor_lt (hu : u.Tracked) (hb : b ∈ u.shared) :
    u.registry.floor < b.codeAddress := by
  have hdescending := (List.pairwise_append.1 (List.pairwise_cons.1 hu.descending).2).2.2
  exact hdescending _ (List.mem_map_of_mem hb) _ (List.mem_singleton_self _)

theorem view_ne_empty (hu : u.Tracked) (hb : b ∈ u.shared) : b.view ≠ {} := by
  intro h
  have hcode : b.codeAddress = 0 := congrArg BlobView.code h
  have hfloor := hu.floor_lt hb
  rw [hcode] at hfloor
  exact Nat.not_lt_zero _ hfloor

/-- A freed blob is neither the default one nor the one that is sticky now. -/
theorem Tracked.offered_ne_freed (hu : u.Tracked) (hb : u.Offers b) (hc : c ∈ u.freed) :
    b.codeAddress ≠ c.codeAddress := by
  rcases hb with hd | hs
  · have hfloor := hu.floor_lt (List.mem_append_right _ hc)
    rw [BlobRegistry.floor, hd] at hfloor
    exact Nat.ne_of_lt hfloor
  · have hdescending := (List.pairwise_append.1 (List.pairwise_cons.1 hu.descending).2).1
    rw [shared, hs, Option.toList_some, List.singleton_append, List.map_cons] at hdescending
    exact Nat.ne_of_gt (List.rel_of_pairwise_cons hdescending (List.mem_map_of_mem hc))

theorem Tracked.default_ne_sticky (hu : u.Tracked) (hb : u.registry.default = some b)
    (hc : u.registry.sticky = some c) : b.codeAddress ≠ c.codeAddress := by
  have hfloor := hu.floor_lt (b := c) (by simp [shared, hc])
  rw [BlobRegistry.floor, hb] at hfloor
  exact Nat.ne_of_lt hfloor

/-- The slot tells by the code address alone that the sticky blob is in it. -/
theorem Tracked.current_eq_view (hu : u.Tracked) (hs : u.registry.sticky = some b)
    (hcode : u.registry.current.code = b.codeAddress) : u.registry.current = b.view := by
  have hb : b ∈ u.shared := by simp [shared, hs]
  rcases hu.current with hcur | ⟨c, hc, hcur⟩
  · have hfloor := hu.floor_lt hb
    rw [← hcode, hcur] at hfloor
    exact absurd hfloor (Nat.not_lt_zero _)
  · rw [hcur] at hcode
    rcases hc.offered_or_freed with (hd | hs') | hf
    · exact absurd hcode (hu.default_ne_sticky hd hs)
    · cases hs.symm.trans hs'
      exact hcur
    · exact absurd hcode.symm (hu.offered_ne_freed (.inr hs) hf)

/-- The current blob is one that the registry offers. There is one while one is sticky. -/
def IsLive (u : BlobCirculation) : Prop :=
  u.registry.current = {} ∧ u.registry.sticky = none ∨
  ∃ b, u.Offers b ∧ u.registry.current = b.view

theorem Step.isLive (h : Step u q v) (hq : u.IsCareful q) (hu : u.Tracked) (live : u.IsLive) :
    v.IsLive := by
  cases h.effect with
  | stays kept current =>
    simpa only [IsLive, current, kept.sticky, kept.offers] using live
  | shows b kept current keeps offered =>
    refine .inr ⟨b, kept.offers.2 ?_, current⟩
    rcases offered with hoffered | ⟨handle, hheld, rfl, rfl⟩
    · exact hoffered
    · exact (hu.held handle hheld).offered_or_freed.resolve_right (hq handle rfl)
  | grows grown =>
    refine .inr ⟨u.registry.nextBlob, grown.offers, ?_⟩
    rw [grown.registry]
    rfl
  | frees b freed => exact .inl ⟨freed.current, freed.gone⟩

theorem CarefulRun.isLive (h : CarefulRun u v) (hu : u.Tracked) (live : u.IsLive) : v.IsLive := by
  induction h with
  | refl => exact live
  | tail before step ih =>
    obtain ⟨q, hq, step⟩ := step
    exact step.isLive hq ((CarefulRun.run before).tracked hu) ih

theorem IsLive.current_ne (live : u.IsLive) (hu : u.Tracked) (hb : b ∈ u.freed) :
    u.registry.current ≠ b.view := by
  rcases live with ⟨hcur, -⟩ | ⟨c, hc, hcur⟩
  · rw [hcur]
    exact (view_ne_empty hu (List.mem_append_right _ hb)).symm
  · rw [hcur]
    intro h
    exact hu.offered_ne_freed hc hb (congrArg BlobView.code h)

/-- While a blob is sticky, it is current or the default one is. -/
theorem IsLive.current_eq (live : u.IsLive) (hs : u.registry.sticky = some b) :
    u.registry.current = b.view ∨
      ∃ c, u.registry.default = some c ∧ u.registry.current = c.view := by
  rcases live with ⟨-, hnone⟩ | ⟨c, hd | hs', hcur⟩
  · cases hs.symm.trans hnone
  · exact .inr ⟨c, hd, hcur⟩
  · cases hs.symm.trans hs'
    exact .inl hcur

/-- Giving something back changes the slot only by freeing the sticky blob. -/
theorem Step.current_of_givesBack (h : Step u q v) (hu : u.Tracked) (hq : q.GivesBack) :
    v.registry.current = u.registry.current ∧ v.freed = u.freed ∨
    ∃ b, Freed b u v ∧ (q = .free → u.registry.current = b.view) := by
  cases h.effect with
  | stays kept current => exact .inl ⟨current, kept.freed⟩
  | shows b kept current keeps => exact absurd hq keeps
  | grows grown keeps => exact absurd hq keeps
  | frees b freed gives byHand =>
    refine .inr ⟨b, freed, ?_⟩
    intro hfree
    exact hu.current_eq_view freed.sticky (byHand hfree)

theorem Step.default_eq (h : Step u q v) : v.registry.default = u.registry.default := by
  cases h.effect with
  | stays kept => exact kept.default
  | shows b kept => exact kept.default
  | grows grown =>
    rw [grown.registry]
    rfl
  | frees b freed => exact freed.default

theorem Run.default_eq (h : Run u v) : v.registry.default = u.registry.default := by
  induction h with
  | refl => rfl
  | tail _ step ih =>
    obtain ⟨q, step⟩ := step
    exact step.default_eq.trans ih

/-- A blob that is freed by hand is the current one. One that is freed with its last reference is
the current one, or the default one was, and has lost the slot. No freed blob is current again,
unless somebody makes it so. -/
theorem Run.current_upon_free {default : Option PlacedBlob} {nextAddress : Address}
    (h : (new default nextAddress).registry.floor < nextAddress)
    (run : Run (new default nextAddress) u) :
    (∀ q v, Step u q v → q.GivesBack →
      v.registry.current = u.registry.current ∧ v.freed = u.freed ∨
      ∃ b, Freed b u v ∧ (q = .free → u.registry.current = b.view)) ∧
    (CarefulRun (new default nextAddress) u →
      (∀ b ∈ u.freed, u.registry.current ≠ b.view) ∧
      ∀ q v b, Step u q v → Freed b u v →
        u.registry.current = b.view ∨ ∃ c, default = some c ∧ u.registry.current = c.view) := by
  have hu : u.Tracked := run.tracked (tracked_new h)
  constructor
  · intro q v step hq
    exact step.current_of_givesBack hu hq
  · intro careful
    have live : u.IsLive := careful.isLive (tracked_new h) (.inl ⟨rfl, rfl⟩)
    constructor
    · intro b hb
      exact live.current_ne hu hb
    · intro q v b step freed
      have hcur := live.current_eq freed.sticky
      rw [run.default_eq] at hcur
      exact hcur

section Example

/-- A process with a blob in its binary. -/
def unused : BlobCirculation := new (some Blob.ofBinary) Platform.blobsBase

/-- Somebody has the blob of the binary, somebody else a shared one. -/
def mixed : BlobCirculation where
  registry := (unused.registry.setCurrent Blob.ofBinary).withNextBlob
  held := [.shared unused.registry.nextBlob, .binary Blob.ofBinary]
  freed := []

/-- The blob of the binary is current again. -/
def shownAgain : BlobCirculation :=
  mixed.moveTo (mixed.registry.setCurrent Blob.ofBinary) mixed.held

/-- The shared blob has come back. -/
def returned : BlobCirculation :=
  shownAgain.moveTo shownAgain.registry.withReturned [.binary Blob.ofBinary]

theorem shownAgain_careful : CarefulRun unused shownAgain := by
  have hacquire : Step unused .acquire
      ⟨unused.registry.setCurrent Blob.ofBinary, [.binary Blob.ofBinary], []⟩ := .acquire
  have hcreate : Step ⟨unused.registry.setCurrent Blob.ofBinary, [.binary Blob.ofBinary], []⟩
      (.create none) mixed := .create (createAndSet_new rfl rfl rfl)
  have hshow : Step mixed (.setCurrent (.binary Blob.ofBinary)) shownAgain :=
    .setCurrent (List.mem_cons_of_mem _ List.mem_cons_self)
  refine .tail (.tail (.tail .refl ⟨_, ?_, hacquire⟩) ⟨_, ?_, hcreate⟩) ⟨_, ?_, hshow⟩
  · nofun
  · nofun
  · intro handle _
    exact List.not_mem_nil

theorem step_returned :
    Step shownAgain (.release (.shared unused.registry.nextBlob)) returned :=
  @Step.release shownAgain [] _ _ _ rfl (release_sticky rfl rfl (Nat.succ_ne_zero 0))

theorem freed_returned : Freed unused.registry.nextBlob shownAgain returned :=
  .moveTo rfl (fun _ hheld => List.mem_cons_of_mem _ hheld) ⟨rfl, rfl, rfl⟩

theorem current_upon_free_shownAgain :
    unused.registry.floor < Platform.blobsBase ∧
    (shownAgain.registry.current = unused.registry.nextBlob.view ∨
      ∃ c, some Blob.ofBinary = some c ∧ shownAgain.registry.current = c.view) := by
  have hfloor : unused.registry.floor < Platform.blobsBase := by decide
  have hmain := Run.current_upon_free hfloor shownAgain_careful.run
  exact ⟨hfloor, (hmain.2 shownAgain_careful).2 _ _ _ step_returned freed_returned⟩

/-- With its last reference the shared blob goes, and takes the slot from the one of the binary. -/
theorem binary_unpublished :
    ¬ ∀ u q v, Run unused u → Step u q v → q.GivesBack →
      v.registry.current ≠ u.registry.current →
      ∃ b, u.registry.sticky = some b ∧ v.registry.sticky = none ∧
        u.registry.current = b.view := by
  intro hall
  have hchanged : returned.registry.current ≠ shownAgain.registry.current := by
    intro h
    have hcode : (0 : Address) = Blob.binaryAddress := congrArg BlobView.code h
    revert hcode
    decide
  obtain ⟨b, hs, -, hcur⟩ :=
    hall _ _ _ shownAgain_careful.run step_returned trivial hchanged
  cases hs
  have hcode : Blob.binaryAddress = Platform.blobsBase := congrArg BlobView.code hcur
  revert hcode
  decide

end Example

end BlobCirculation

end ScriptEngine

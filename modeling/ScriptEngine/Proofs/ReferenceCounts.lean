import ScriptEngine.Proofs.NestedEntries

namespace ScriptEngine

open ScriptEngine.Action EntryItem

namespace Table

variable {κ α : Type} [BEq κ] [LawfulBEq κ] {t : Table κ α}

theorem nodup_put (h : (t.map (·.1)).Nodup) (key : κ) (a : α) :
    ((t.put key a).map (·.1)).Nodup := by
  rw [put, List.map_cons, List.nodup_cons]
  refine ⟨fun hmem => ?_, h.sublist (List.filter_sublist.map _)⟩
  obtain ⟨entry, hentry, hkey⟩ := List.mem_map.mp hmem
  exact absurd hkey (by simpa using (List.mem_filter.mp hentry).2)

theorem lookup_of_mem (h : (t.map (·.1)).Nodup) {key : κ} {a : α} (hmem : (key, a) ∈ t) :
    t.lookup key = some a := by
  induction t with
  | nil => cases hmem
  | cons entry rest ih =>
    rw [List.map_cons, List.nodup_cons] at h
    rcases List.mem_cons.mp hmem with rfl | hmem
    · exact List.lookup_cons_self
    · have hne : key ≠ entry.1 := fun hsame =>
        h.1 (List.mem_map.mpr ⟨(key, a), hmem, hsame⟩)
      rw [lookup_cons_of_ne hne]
      exact ih h.2 hmem

end Table

/-- References to isolates, as they are counted by whoever sees nothing but which operations
succeed: those that the embedder holds, and the entries that threads have not taken back. -/
structure ReferenceCounts where
  next : IsolateId := 1
  handles : IsolateId → Nat := fun _ => 0
  entries : IsolateId → Nat := fun _ => 0

namespace ReferenceCounts

/-- Something refers to the isolate. -/
def Refers (c : ReferenceCounts) (id : IsolateId) : Prop := 0 < c.handles id ∨ 0 < c.entries id

instance (c : ReferenceCounts) (id : IsolateId) : Decidable (c.Refers id) :=
  inferInstanceAs (Decidable (_ ∨ _))

/-- The embedder gets the first reference to a new isolate. -/
def allocated (c : ReferenceCounts) : ReferenceCounts :=
  { c with next := c.next + 1, handles := Function.update c.handles c.next 1 }

def withHandles (c : ReferenceCounts) (id : IsolateId) (n : Nat) : ReferenceCounts :=
  { c with handles := Function.update c.handles id n }

def withEntries (c : ReferenceCounts) (id : IsolateId) (n : Nat) : ReferenceCounts :=
  { c with entries := Function.update c.entries id n }

/-- The counts after an operation that succeeds. An isolate that nothing refers to is gone, and
there is nothing to be cloned or entered. -/
def after (c : ReferenceCounts) : LifecycleOperation → ReferenceCounts
  | .allocate _ | .allocateIn _ _ => c.allocated
  | .cloneHandle id => if c.Refers id then c.withHandles id (c.handles id + 1) else c
  | .dropHandle id => c.withHandles id (c.handles id - 1)
  | .enter _ id => if c.Refers id then c.withEntries id (c.entries id + 1) else c
  | .exit _ id => c.withEntries id (c.entries id - 1)
  | _ => c

variable {c : ReferenceCounts} {id id' : IsolateId} {n : Nat}

@[simp]
theorem handles_withHandles : (c.withHandles id n).handles id' =
    if id' = id then n else c.handles id' := Function.update_apply _ _ _ _

@[simp]
theorem entries_withHandles : (c.withHandles id n).entries = c.entries := rfl

@[simp]
theorem handles_withEntries : (c.withEntries id n).handles = c.handles := rfl

@[simp]
theorem entries_withEntries : (c.withEntries id n).entries id' =
    if id' = id then n else c.entries id' := Function.update_apply _ _ _ _

@[simp]
theorem handles_allocated : c.allocated.handles id' = if id' = c.next then 1 else c.handles id' :=
  Function.update_apply _ _ _ _

@[simp]
theorem entries_allocated : c.allocated.entries = c.entries := rfl

theorem refers_withHandles_of_ne (h : id' ≠ id) :
    (c.withHandles id n).Refers id' ↔ c.Refers id' := by
  simp [Refers, h]

theorem refers_withHandles_self : (c.withHandles id n).Refers id ↔ 0 < n ∨ 0 < c.entries id := by
  simp [Refers]

theorem refers_withEntries_of_ne (h : id' ≠ id) :
    (c.withEntries id n).Refers id' ↔ c.Refers id' := by
  simp [Refers, h]

theorem refers_withEntries_self : (c.withEntries id n).Refers id ↔ 0 < c.handles id ∨ 0 < n := by
  simp [Refers]

theorem after_of_keepsReferences {op : LifecycleOperation} (h : Engine.keepsReferences op = true)
    (c : ReferenceCounts) : c.after op = c := by
  cases op with
  | addPlatform | initializeOnce | installDeserializer | requestInterrupt | setUp | tearDown
  | dispose => rfl
  | _ => cases h

end ReferenceCounts

namespace Engine

variable {p q : Engine} {c c' : ReferenceCounts} {t : ThreadId} {id : IsolateId} {r : Resident}
  {op : LifecycleOperation} {ops : List LifecycleOperation}

/-- Those of the operations that succeed, done in a row. -/
def succeeding (p : Engine) : List LifecycleOperation → List LifecycleOperation
  | [] => []
  | op :: rest =>
    if (op.perform.outcome p).1.isOk then op :: succeeding (op.perform.outcome p).2 rest
    else succeeding (op.perform.outcome p).2 rest

/-- The references after operations in a row, from the start. -/
def referencesAfter (ops : List LifecycleOperation) : ReferenceCounts :=
  (succeeding {} ops).foldl ReferenceCounts.after {}

/-- Every isolate has as many references as are counted, and is there if it has any. -/
structure CountedBy (p : Engine) (c : ReferenceCounts) : Prop where
  next : p.nextIsolate = c.next
  counts : ∀ r ∈ p.residents,
    r.handles = c.handles r.isolate.id ∧ r.isolate.entries = c.entries r.isolate.id
  present : ∀ id, c.Refers id → ∃ r ∈ p.residents, r.isolate.id = id

theorem countedBy_empty : CountedBy {} {} where
  next := rfl
  counts r hr := by cases hr
  present id h := by obtain h | h := h <;> cases h

theorem Kept.countedBy (hk : p.Kept q) (h : p.CountedBy c) : q.CountedBy c where
  next := hk.next.trans h.next
  counts r' hr' := by
    obtain ⟨r, hr, hid, hhandles, hentries⟩ := hk.mem hr'
    rw [← hid, ← hhandles, ← hentries]
    exact h.counts r hr
  present id hrefers := by
    obtain ⟨r, hr, rfl⟩ := h.present id hrefers
    obtain ⟨r', hr', hid, -⟩ := hk.symm.mem hr
    exact ⟨r', hr', hid⟩

/-- The residents change one by one, and the counts with them. -/
theorem CountedBy.map {f : Resident → Resident} (h : p.CountedBy c)
    (residents : q.residents = p.residents.map f) (next : q.nextIsolate = c'.next)
    (hf : ∀ r ∈ p.residents, (f r).isolate.id = r.isolate.id ∧
      (f r).handles = c'.handles r.isolate.id ∧ (f r).isolate.entries = c'.entries r.isolate.id)
    (hc : ∀ id, c'.Refers id → c.Refers id) : q.CountedBy c' where
  next := next
  counts r' hr' := by
    rw [residents] at hr'
    obtain ⟨r, hr, rfl⟩ := List.mem_map.mp hr'
    obtain ⟨hid, hcounts⟩ := hf r hr
    rw [hid]
    exact hcounts
  present id hrefers := by
    obtain ⟨r, hr, rfl⟩ := h.present id (hc id hrefers)
    exact ⟨f r, residents ▸ List.mem_map_of_mem hr, (hf r hr).1⟩

/-- No thread has two stacks. -/
def Keyed (p : Engine) : Prop := (p.entryStacks.map (·.1)).Nodup

theorem Keyed.setEntryStack (h : p.Keyed) (items : List EntryItem) :
    (p.setEntryStack t items).Keyed := Table.nodup_put h t items

theorem Tallied.entries_of_free (ht : p.Tallied) (hr : r ∈ p.residents)
    (hfree : p.isEntered r.isolate.id = false) : r.isolate.entries = 0 := by
  obtain ⟨threads, nodup, covers⟩ := p.exists_covers
  rw [ht.tallied r hr threads nodup covers]
  refine entriesOver_eq_zero fun t => tally_eq_zero fun item hitem hid => ?_
  have hentered := isEntered_of_mem hitem
  rw [hid, hfree] at hentered
  cases hentered

theorem Tallied.entries_of_entered (ht : p.Tallied) (hk : p.Keyed) (hr : r ∈ p.residents)
    (hentered : p.isEntered r.isolate.id = true) : 0 < r.isolate.entries := by
  obtain ⟨⟨t, items⟩, hstack, hany⟩ := List.any_eq_true.mp hentered
  obtain ⟨item, hitem, hid⟩ := List.any_eq_true.mp hany
  have hitems : p.entryStack t = items := by
    rw [entryStack, Table.lookup_of_mem hk hstack]
    rfl
  have hid : item.isolate = r.isolate.id := by simpa using hid
  have hpos := tally_pos hitem ((ht.nests t).counted item (hitems ▸ hitem))
  rw [hid, ← hitems] at hpos
  exact Nat.lt_of_lt_of_le hpos (ht.entriesOn_le hr t)

/-- Nobody is there without a reference. -/
def Referred (p : Engine) (c : ReferenceCounts) : Prop := ∀ r ∈ p.residents, c.Refers r.isolate.id

/-- Nobody is there without a reference, unless it is the given isolate. -/
def ReferredBut (p : Engine) (c : ReferenceCounts) (id : IsolateId) : Prop :=
  ∀ r ∈ p.residents, r.isolate.id ≠ id → c.Refers r.isolate.id

theorem ReferredBut.referred (h : p.ReferredBut c id) (hc : c.Refers id) : p.Referred c := by
  intro r hr
  by_cases hid : r.isolate.id = id
  · exact hid ▸ hc
  · exact h r hr hid

/-- Whatever happens to one isolate, everybody else keeps its references. -/
theorem Referred.but {f : Resident → Resident} (h : p.Referred c)
    (residents : q.residents = p.residents.map f)
    (hf : ∀ r, (f r).isolate.id = r.isolate.id)
    (hc : ∀ {id'}, id' ≠ id → c.Refers id' → c'.Refers id') : q.ReferredBut c' id := by
  intro r hr hid
  rw [residents] at hr
  obtain ⟨old, hold, rfl⟩ := List.mem_map.mp hr
  rw [hf] at hid ⊢
  exact hc hid (h old hold)

/-- An isolate that may have lost its last reference is collected if it has. -/
theorem CountedBy.collect (h : p.CountedBy c) (hp : p.Sound) (ht : p.Tallied) (hk : p.Keyed)
    (hothers : p.ReferredBut c id) :
    ((collect id).outcome p).2.CountedBy c ∧ ((collect id).outcome p).2.Referred c ∧
      ((collect id).outcome p).2.Keyed := by
  obtain ⟨ho, hkept⟩ | ⟨before, r, after, platform, result, hosted, lodges, rfl, hzero, hfree, -, -,
    ho⟩ := hp.collect_cases id
  · rw [ho]
    refine ⟨h, fun r hr => ?_, hk⟩
    by_cases hid : r.isolate.id = id
    · obtain hheld | hentered := hkept r hr hid
      · exact .inl ((h.counts r hr).1 ▸ Nat.pos_of_ne_zero hheld)
      · subst hid
        exact .inr ((h.counts r hr).2 ▸ ht.entries_of_entered hk hr hentered)
    · exact hothers r hr hid
  · rw [ho]
    have hout := ht.entries_of_free lodges.mem hfree
    refine ⟨⟨h.next, fun s hs => h.counts s (lodges.mem_of_around hs), fun id hrefers => ?_⟩,
      fun s hs => hothers s (lodges.mem_of_around hs) (lodges.others s hs), hk⟩
    obtain ⟨s, hs, rfl⟩ := h.present id hrefers
    rw [lodges.residents] at hs
    rcases List.mem_cons.mp (List.perm_middle.mem_iff.mp hs) with rfl | hs
    · obtain ⟨hhandles, hentries⟩ := h.counts s lodges.mem
      unfold ReferenceCounts.Refers at hrefers
      omega
    · exact ⟨s, hs, rfl⟩

/-- Everything that is known of references between operations. -/
structure Referenced (p : Engine) (c : ReferenceCounts) : Prop where
  sharing : p.Sharing
  tallied : p.Tallied
  keyed : p.Keyed
  counted : p.CountedBy c
  referred : p.Referred c

theorem referenced_empty : Referenced {} {} :=
  ⟨sharing_empty, tallied_empty, List.nodup_nil, countedBy_empty, fun r hr => by cases hr⟩

theorem Referenced.refers_of_isolate? {i : Isolate} (h : p.Referenced c)
    (hi : p.isolate? id = some i) : c.Refers id := by
  obtain ⟨r, hr, rfl, rfl⟩ := mem_of_isolate? hi
  exact h.referred r hr

theorem Referenced.isolate?_of_refers (h : p.Referenced c) (hrefers : c.Refers id) :
    ∃ i, p.isolate? id = some i := by
  obtain ⟨r, hr, rfl⟩ := h.counted.present id hrefers
  exact ⟨_, h.sharing.sound.isolate?_of_mem hr⟩

/-- A new isolate has one reference. Nothing has referred to its number before. -/
theorem Referenced.found {i : Isolate} {k : PlatformId} (h : p.Referenced c)
    (residents : q.residents = p.residents ++ [⟨k, 1, i⟩])
    (next : q.nextIsolate = p.nextIsolate + 1) (hid : i.id = p.nextIsolate)
    (hentries : i.entries = 0) :
    q.CountedBy c.allocated ∧ q.Referred c.allocated := by
  have hnumber : i.id = c.next := hid.trans h.counted.next
  have hold : ∀ r ∈ p.residents, r.isolate.id ≠ c.next := fun r hr =>
    h.counted.next ▸ Nat.ne_of_lt (h.sharing.sound.numbered r hr)
  have hnone : ¬c.Refers c.next := fun hrefers => by
    obtain ⟨r, hr, hsame⟩ := h.counted.present _ hrefers
    exact hold r hr hsame
  have hother : ∀ {id}, id ≠ c.next → c.allocated.handles id = c.handles id := fun hne => by
    simp [hne]
  have hself : c.allocated.handles i.id = 1 := by simp [hnumber]
  refine ⟨⟨next.trans (congrArg (· + 1) h.counted.next), fun r hr => ?_, fun id hrefers => ?_⟩,
    fun r hr => ?_⟩
  · rw [residents] at hr
    rcases List.mem_append.mp hr with hr | hr
    · rw [hother (hold r hr)]
      exact h.counted.counts r hr
    · rw [List.mem_singleton.mp hr]
      refine ⟨hself.symm, hentries.trans ?_⟩
      show 0 = c.entries i.id
      rw [hnumber]
      unfold ReferenceCounts.Refers at hnone
      omega
  · rw [residents]
    by_cases hne : id = c.next
    · exact ⟨_, List.mem_append_right _ (List.mem_singleton_self _), hnumber.trans hne.symm⟩
    · have hrefers : c.Refers id := hrefers.imp_left fun hpos => hother hne ▸ hpos
      obtain ⟨r, hr, hid⟩ := h.counted.present id hrefers
      exact ⟨r, List.mem_append_left _ hr, hid⟩
  · rw [residents] at hr
    rcases List.mem_append.mp hr with hr | hr
    · exact (h.referred r hr).imp_left fun hpos => hother (hold r hr) ▸ hpos
    · rw [List.mem_singleton.mp hr]
      exact .inl (hself ▸ Nat.one_pos)

theorem Referenced.allocateIn {k : PlatformId} {o : IsolateOptions} (h : p.Referenced c)
    (calm : endsFatally ((ignore (Engine.allocateIn k o)).outcome p).1 = false) :
    ((Engine.allocateIn k o).outcome p).2.CountedBy c.allocated ∧
      ((Engine.allocateIn k o).outcome p).2.Referred c.allocated ∧
      ((ignore (Engine.allocateIn k o)).outcome p).1.isOk = true := by
  rw [outcome_ignore] at calm ⊢
  unfold Engine.allocateIn at calm ⊢
  rw [outcome_get_bind] at calm ⊢
  cases hr : (p.platform? k).bind (·.reserve o.regionSize) with
  | none =>
    rw [hr] at calm
    cases calm
  | some taken =>
    let i : Isolate :=
      { id := p.nextIsolate, options := o, region := some taken.1, blob := taken.2.blobs.acquire.1 }
    have hfound : ∀ q : Engine, q.residents = p.residents ++ [⟨k, 1, i⟩] →
        q.nextIsolate = p.nextIsolate + 1 → q.CountedBy c.allocated ∧ q.Referred c.allocated :=
      fun q residents next => h.found residents next rfl rfl
    exact ⟨(hfound _ rfl rfl).1, (hfound _ rfl rfl).2, rfl⟩

/-- The embedder has other references to an isolate. -/
theorem CountedBy.rehandle (h : p.CountedBy c) (g : Nat → Nat) (id : IsolateId)
    (hg : 0 < g (c.handles id) → c.Refers id) :
    CountedBy { p with residents := p.residents.map fun r =>
        if r.isolate.id = id then { r with handles := g r.handles } else r }
      (c.withHandles id (g (c.handles id))) := by
  refine h.map rfl h.next (fun r hr => ?_) fun id' hrefers => ?_
  · obtain ⟨hhandles, hentries⟩ := h.counts r hr
    split
    · rename_i hid
      subst hid
      exact ⟨rfl, by simp [hhandles], hentries⟩
    · rename_i hid
      exact ⟨rfl, by simp [hhandles, hid], hentries⟩
  · by_cases hid : id' = id
    · subst hid
      obtain hpos | hpos := ReferenceCounts.refers_withHandles_self.mp hrefers
      · exact hg hpos
      · exact .inr hpos
    · exact (ReferenceCounts.refers_withHandles_of_ne hid).mp hrefers

/-- An isolate counts other entries. -/
theorem CountedBy.reenter {f : Isolate → Isolate} (h : p.CountedBy c) (g : Nat → Nat)
    (id : IsolateId) (hf : ∀ i, (f i).id = i.id ∧ (f i).entries = g i.entries)
    (hg : 0 < g (c.entries id) → c.Refers id) (items : List EntryItem) :
    ((p.setEntryStack t items).withIsolate id f).CountedBy
      (c.withEntries id (g (c.entries id))) := by
  refine h.map rfl h.next (fun r hr => ?_) fun id' hrefers => ?_
  · obtain ⟨hhandles, hentries⟩ := h.counts r hr
    split
    · rename_i hid
      subst hid
      exact ⟨(hf _).1, hhandles, by simp [hf, hentries]⟩
    · rename_i hid
      exact ⟨rfl, hhandles, by simp [hentries, hid]⟩
  · by_cases hid : id' = id
    · subst hid
      obtain hpos | hpos := ReferenceCounts.refers_withEntries_self.mp hrefers
      · exact .inl hpos
      · exact hg hpos
    · exact (ReferenceCounts.refers_withEntries_of_ne hid).mp hrefers

/-- An operation keeps the account if it succeeds, and leaves it alone if it is refused. -/
def KeepsAccount (p : Engine) (c : ReferenceCounts) (op : LifecycleOperation) : Prop :=
  (op.perform.outcome p).2.Keyed ∧
    (op.perform.outcome p).2.CountedBy
      (if (op.perform.outcome p).1.isOk then c.after op else c) ∧
    (op.perform.outcome p).2.Referred (if (op.perform.outcome p).1.isOk then c.after op else c)

/-- What is refused, and what succeeds in vain, changes nothing. -/
theorem Referenced.keepsAccount_of_same (h : p.Referenced c) (hsame : (op.perform.outcome p).2 = p)
    (hc : (op.perform.outcome p).1.isOk → c.after op = c) : p.KeepsAccount c op := by
  unfold KeepsAccount
  rw [hsame]
  split
  · rename_i hok
    rw [hc hok]
    exact ⟨h.keyed, h.counted, h.referred⟩
  · exact ⟨h.keyed, h.counted, h.referred⟩

theorem Referenced.cloneHandle (h : p.Referenced c) (id : IsolateId) :
    p.KeepsAccount c (.cloneHandle id) := by
  by_cases hrefers : c.Refers id
  · have hafter : c.after (.cloneHandle id) = c.withHandles id (c.handles id + 1) := if_pos hrefers
    unfold KeepsAccount
    show _ ∧ CountedBy _ (c.after (.cloneHandle id)) ∧ Referred _ (c.after (.cloneHandle id))
    rw [hafter]
    refine ⟨h.keyed, h.counted.rehandle (· + 1) id fun _ => hrefers, ?_⟩
    refine (h.referred.but rfl (fun r => by split <;> rfl) fun hne =>
      (ReferenceCounts.refers_withHandles_of_ne hne).mpr).referred ?_
    exact ReferenceCounts.refers_withHandles_self.mpr (.inl (Nat.succ_pos _))
  · refine h.keepsAccount_of_same ?_ fun _ => if_neg hrefers
    have hnone : ∀ r ∈ p.residents, r.isolate.id ≠ id := fun r hr hid =>
      hrefers (hid ▸ h.referred r hr)
    have hkept : p.residents.map (fun r =>
        if r.isolate.id = id then { r with handles := r.handles + 1 } else r) = p.residents :=
      (List.map_congr_left fun r hr => if_neg (hnone r hr)).trans (List.map_id' _)
    show { p with residents := _ } = p
    rw [hkept]

/-- Only a fatal error stops an isolate from being collected. -/
theorem Sound.collect_ok (hp : p.Sound) (calm : endsFatally ((collect id).outcome p).1 = false) :
    ((collect id).outcome p).1 = .ok () := by
  obtain ⟨ho, -⟩ | ⟨_, _, _, _, result, _, -, -, -, -, -, destroys, ho⟩ := hp.collect_cases id
  · rw [ho]
  · rw [ho] at calm ⊢
    cases destroys with
    | gone => rfl
    | _ => cases calm

theorem Referenced.dropHandle (h : p.Referenced c)
    (calm : endsFatally ((LifecycleOperation.dropHandle id).perform.outcome p).1 = false) :
    p.KeepsAccount c (.dropHandle id) := by
  let q : Engine := { p with
    residents := p.residents.map fun r =>
      if r.isolate.id = id then { r with handles := r.handles - 1 } else r }
  have hquietly : p.Quietly q := quietly_mapResidents fun r => by split <;> exact ⟨rfl, rfl⟩
  have hq : q.Sound := hquietly.sound h.sharing.sound
  have htallied : q.Tallied :=
    h.tallied.aside (aside_of_map rfl rfl fun r => by split <;> exact ⟨rfl, rfl⟩)
  have hcounted : q.CountedBy (c.after (.dropHandle id)) :=
    h.counted.rehandle (· - 1) id fun hpos => .inl (Nat.lt_of_lt_of_le hpos (Nat.sub_le _ _))
  have hothers : q.ReferredBut (c.after (.dropHandle id)) id :=
    h.referred.but rfl (fun r => by split <;> rfl) fun hne =>
      (ReferenceCounts.refers_withHandles_of_ne hne).mpr
  have hcalm : endsFatally ((collect id).outcome q).1 = false := calm
  have hok : ((LifecycleOperation.dropHandle id).perform.outcome p).1.isOk = true := by
    show ((collect id).outcome q).1.isOk = true
    rw [hq.collect_ok hcalm]
    rfl
  obtain ⟨hends, hreferred, hkeyed⟩ := hcounted.collect hq htallied h.keyed hothers
  exact ⟨hkeyed, by rw [if_pos hok]; exact hends, by rw [if_pos hok]; exact hreferred⟩

theorem Referenced.enter (h : p.Referenced c) (t : ThreadId) (id : IsolateId) :
    p.KeepsAccount c (.enter t id) := by
  by_cases hopen : ∃ i, p.isolate? id = some i ∧ i.state.refusesEntry = false
  · obtain ⟨i, hi, hopen⟩ := hopen
    obtain ⟨f, hf, ho⟩ := h.sharing.sound.outcome_enter hi hopen t
    have hrefers : c.Refers id := h.refers_of_isolate? hi
    have hafter : c.after (.enter t id) = c.withEntries id (c.entries id + 1) := if_pos hrefers
    have ho : (LifecycleOperation.enter t id).perform.outcome p = _ := ho
    unfold KeepsAccount
    rw [ho]
    show _ ∧ CountedBy _ (c.after (.enter t id)) ∧ Referred _ (c.after (.enter t id))
    rw [hafter]
    refine ⟨h.keyed.setEntryStack _, h.counted.reenter (· + 1) id hf (fun _ => hrefers) _, ?_⟩
    refine (h.referred.but rfl (fun r => ?_) fun hne =>
      (ReferenceCounts.refers_withEntries_of_ne hne).mpr).referred ?_
    · split
      · exact (hf r.isolate).1
      · rfl
    · exact ReferenceCounts.refers_withEntries_self.mpr (.inr (Nat.succ_pos _))
  · have hclosed : ∀ i, p.isolate? id = some i → i.state.refusesEntry = true := fun i hi => by
      by_contra hrefuses
      exact hopen ⟨i, hi, by simpa using hrefuses⟩
    refine h.keepsAccount_of_same (enter_closed hclosed) fun hok => if_neg fun hrefers => ?_
    -- An isolate that is there refuses, so nothing has succeeded.
    obtain ⟨i, hi⟩ := h.isolate?_of_refers hrefers
    unfold LifecycleOperation.perform Engine.enter at hok
    rw [outcome_get_bind, hi] at hok
    dsimp only at hok
    rw [hclosed i hi] at hok
    cases hok

theorem Referenced.exit (h : p.Referenced c)
    (calm : endsFatally ((LifecycleOperation.exit t id).perform.outcome p).1 = false) :
    p.KeepsAccount c (.exit t id) := by
  by_cases hcurrent : p.current t = some id
  · obtain ⟨r, hr, rfl⟩ := h.tallied.known_current hcurrent
    have ho : (LifecycleOperation.exit t r.isolate.id).perform.outcome p = _ :=
      h.sharing.sound.outcome_exit (h.sharing.sound.isolate?_of_mem hr) hcurrent
    have hq : (p.afterExit t r.isolate.id).Sound := h.sharing.sound.afterExit
    have hcounted : (p.afterExit t r.isolate.id).CountedBy (c.after (.exit t r.isolate.id)) :=
      h.counted.reenter (f := fun i => { i with entries := i.entries - 1 }) (· - 1) r.isolate.id
        (fun _ => ⟨rfl, rfl⟩) (fun hpos => .inr (Nat.lt_of_lt_of_le hpos (Nat.sub_le _ _))) _
    have hothers : (p.afterExit t r.isolate.id).ReferredBut (c.after (.exit t r.isolate.id))
        r.isolate.id :=
      h.referred.but rfl (fun r => by split <;> rfl) fun hne =>
        (ReferenceCounts.refers_withEntries_of_ne hne).mpr
    unfold KeepsAccount
    rw [ho] at calm ⊢
    obtain ⟨hends, hreferred, hkeyed⟩ := hcounted.collect hq (h.tallied.afterExit hcurrent)
      (h.keyed.setEntryStack _) hothers
    rw [hq.collect_ok calm]
    exact ⟨hkeyed, hends, hreferred⟩
  · have ho : (LifecycleOperation.exit t id).perform.outcome p =
        (.error (.refused .notEntered), p) := exit_refused hcurrent
    refine h.keepsAccount_of_same (congrArg Prod.snd ho) fun hok => ?_
    rw [ho] at hok
    cases hok

/-- Every operation that is not fatal keeps the account. -/
theorem Referenced.keepsAccount (h : p.Referenced c)
    (calm : endsFatally (op.perform.outcome p).1 = false) : p.KeepsAccount c op := by
  have hallocated : ∀ {k o}, op.perform.outcome p = (ignore (Engine.allocateIn k o)).outcome p →
      c.after op = c.allocated → p.KeepsAccount c op := by
    intro k o ho hafter
    unfold KeepsAccount
    rw [ho] at calm ⊢
    obtain ⟨hcounted, hreferred, hok⟩ := h.allocateIn calm
    rw [if_pos hok, hafter, outcome_ignore]
    refine ⟨?_, hcounted, hreferred⟩
    have hunmoved := (h.sharing.sound.aside_allocateIn (k := k) (o := o)).unmoved
    unfold Keyed
    rw [hunmoved]
    exact h.keyed
  by_cases hkeeps : keepsReferences op = true
  · have hkept := h.sharing.kept hkeeps calm
    unfold KeepsAccount
    rw [ReferenceCounts.after_of_keepsReferences hkeeps, ite_self]
    refine ⟨?_, hkept.countedBy h.counted, fun r hr => ?_⟩
    · unfold Keyed
      rw [hkept.unmoved]
      exact h.keyed
    · obtain ⟨s, hs, hid, -⟩ := hkept.mem hr
      exact hid ▸ h.referred s hs
  cases op with
  | allocateIn k o => exact hallocated rfl rfl
  | allocate o =>
    cases hk : p.globalPlatform with
    | none =>
      unfold LifecycleOperation.perform at calm
      rw [outcome_ignore] at calm
      unfold Engine.allocate at calm
      rw [outcome_get_bind, hk] at calm
      cases calm
    | some k =>
      refine hallocated (k := k) (o := o) ?_ rfl
      unfold LifecycleOperation.perform Engine.allocate
      rw [outcome_ignore, outcome_get_bind, hk, outcome_ignore]
  | cloneHandle id => exact h.cloneHandle id
  | dropHandle id => exact h.dropHandle calm
  | enter t id => exact h.enter t id
  | exit t id => exact h.exit calm
  | _ => exact absurd rfl hkeeps

theorem Referenced.step (h : p.Referenced c) (calm : endsFatally (op.perform.outcome p).1 = false) :
    (op.perform.outcome p).2.Referenced
      (if (op.perform.outcome p).1.isOk then c.after op else c) := by
  obtain ⟨hkeyed, hcounted, hreferred⟩ := h.keepsAccount calm
  exact ⟨(op.step h.sharing.sound).sharing h.sharing calm, (h.tallied.perform h.sharing op calm).1,
    hkeyed, hcounted, hreferred⟩

theorem Referenced.run (h : p.Referenced c) (hrun : p.run ops = some q) :
    q.Referenced ((p.succeeding ops).foldl ReferenceCounts.after c) := by
  induction ops generalizing p c with
  | nil =>
    cases hrun
    exact h
  | cons op rest ih =>
    obtain ⟨calm, hrest⟩ := run_cons hrun
    have hnext := h.step calm
    rw [succeeding]
    split
    · rename_i hok
      rw [if_pos hok] at hnext
      exact ih hnext hrest
    · rename_i hrefused
      rw [if_neg hrefused] at hnext
      exact ih hnext hrest

/-- Isolates are there exactly as long as something refers to them, and have the references that are
counted. -/
theorem Referenced.resident?_eq (h : p.Referenced c) (id : IsolateId) :
    (p.resident? id).map (fun r => (r.handles, r.isolate.entries)) =
      if c.Refers id then some (c.handles id, c.entries id) else none := by
  split
  · rename_i hrefers
    obtain ⟨r, hr, rfl⟩ := h.counted.present id hrefers
    obtain ⟨hhandles, hentries⟩ := h.counted.counts r hr
    rw [h.sharing.sound.resident?_of_mem hr, ← hhandles, ← hentries]
    rfl
  · rename_i hnone
    rw [Option.map_eq_none_iff]
    by_contra hsome
    obtain ⟨r, hr⟩ := Option.ne_none_iff_exists'.mp hsome
    have hid : r.isolate.id = id := by simpa using List.find?_some hr
    exact hnone (hid ▸ h.referred r (List.mem_of_find?_eq_some hr))

end Engine

end ScriptEngine

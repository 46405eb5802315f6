import Mathlib.Data.List.Chain
import Mathlib.Data.List.Dedup
import ScriptEngine.Proofs.SharedSpaces

namespace ScriptEngine

open ScriptEngine.Action

namespace EntryItem

variable {items rest : List EntryItem} {item : EntryItem} {id id' : IsolateId}

/-- The stack after an entry. -/
def pushed (id : IsolateId) : List EntryItem → List EntryItem
  | item :: rest =>
    if item.isolate = id then { item with count := item.count + 1 } :: rest
    else ⟨id, 1⟩ :: item :: rest
  | [] => [⟨id, 1⟩]

/-- The stack after an exit. -/
def popped : List EntryItem → List EntryItem
  | item :: rest => if item.count ≤ 1 then rest else { item with count := item.count - 1 } :: rest
  | [] => []

/-- How many entries into an isolate there are. -/
def tally (id : IsolateId) (items : List EntryItem) : Nat :=
  (items.filter (·.isolate == id)).foldr (fun item n => item.count + n) 0

theorem tally_cons : tally id (item :: rest) =
    (if item.isolate = id then item.count else 0) + tally id rest := by
  unfold tally
  by_cases h : item.isolate = id <;> simp [h]

/-- Every item stands for an entry, and neighbouring items are of different isolates. -/
structure Nests (items : List EntryItem) : Prop where
  counted : ∀ item ∈ items, 1 ≤ item.count
  apart : items.IsChain fun a b => a.isolate ≠ b.isolate

theorem nests_nil : Nests [] := ⟨fun _ h => (by cases h), .nil⟩

theorem Nests.tail (h : Nests (item :: rest)) : Nests rest :=
  ⟨fun _ hi => h.counted _ (List.mem_cons_of_mem _ hi), h.apart.tail⟩

/-- The count of the item on top does not matter as long as there is an entry. -/
theorem Nests.recount (h : Nests (item :: rest)) {n : Nat} (hn : 1 ≤ n) :
    Nests ({ item with count := n } :: rest) where
  counted i hi := by
    rcases List.mem_cons.mp hi with rfl | hi
    · exact hn
    · exact h.counted i (List.mem_cons_of_mem _ hi)
  apart := List.isChain_cons.mpr (List.isChain_cons.mp h.apart :)

theorem Nests.pushed (h : Nests items) (id : IsolateId) : Nests (pushed id items) := by
  unfold EntryItem.pushed
  split
  · rename_i item rest
    split
    · exact h.recount (Nat.succ_pos _)
    · rename_i hne
      refine ⟨fun i hi => ?_, List.isChain_cons_cons.mpr ⟨Ne.symm hne, h.apart⟩⟩
      rcases List.mem_cons.mp hi with rfl | hi
      · exact Nat.le_refl 1
      · exact h.counted i hi
  · refine ⟨fun i hi => ?_, .singleton _⟩
    rw [List.mem_singleton.mp hi]

theorem Nests.popped (h : Nests items) : Nests (popped items) := by
  unfold EntryItem.popped
  split
  · split
    · exact h.tail
    · exact h.recount (by omega)
  · exact nests_nil

/-- An exit takes back an entry. -/
theorem popped_pushed (h : Nests items) (id : IsolateId) : popped (pushed id items) = items := by
  unfold EntryItem.pushed
  split
  · rename_i item rest
    have hcount : 1 ≤ item.count := h.counted item List.mem_cons_self
    split
    · rw [EntryItem.popped, if_neg (by dsimp only; omega)]
      rfl
    · rw [EntryItem.popped, if_pos (Nat.le_refl 1)]
  · rfl

theorem head?_pushed (id : IsolateId) (items : List EntryItem) :
    (pushed id items).head?.map (·.isolate) = some id := by
  unfold EntryItem.pushed
  split
  · split
    · rename_i h
      simp [h]
    · rfl
  · rfl

theorem tally_pushed (id' : IsolateId) (items : List EntryItem) :
    tally id' (pushed id items) = tally id' items + if id = id' then 1 else 0 := by
  unfold EntryItem.pushed
  split
  · rename_i item rest
    by_cases h : item.isolate = id
    · subst h
      rw [if_pos rfl, tally_cons, tally_cons]
      by_cases h' : item.isolate = id'
      · simp only [h', if_true]
        omega
      · simp only [h', if_false]
        omega
    · rw [if_neg h, tally_cons]
      dsimp only
      omega
  · rw [tally_cons]
    dsimp only
    omega

theorem tally_popped (hcount : 1 ≤ item.count) (id : IsolateId) :
    tally id (item :: rest) =
      tally id (popped (item :: rest)) + if item.isolate = id then 1 else 0 := by
  by_cases hlast : item.count ≤ 1
  · rw [EntryItem.popped, if_pos hlast, tally_cons]
    by_cases h : item.isolate = id
    · simp only [h, if_true]
      omega
    · simp only [h, if_false]
      omega
  · rw [EntryItem.popped, if_neg hlast, tally_cons, tally_cons]
    by_cases h : item.isolate = id
    · simp only [h, if_true]
      omega
    · simp only [h, if_false]
      omega

theorem tally_eq_zero (h : ∀ item ∈ items, item.isolate ≠ id) : tally id items = 0 := by
  induction items with
  | nil => rfl
  | cons item rest ih =>
    rw [tally_cons, if_neg (h item List.mem_cons_self),
      ih fun i hi => h i (List.mem_cons_of_mem _ hi)]

theorem tally_pos (hmem : item ∈ items) (hcount : 1 ≤ item.count) :
    0 < tally item.isolate items := by
  induction items with
  | nil => cases hmem
  | cons first rest ih =>
    rw [tally_cons]
    rcases List.mem_cons.mp hmem with rfl | hmem
    · rw [if_pos rfl]
      omega
    · have hrest := ih hmem
      omega

theorem mem_pushed (h : item ∈ pushed id items) :
    item.isolate = id ∨ ∃ old ∈ items, old.isolate = item.isolate := by
  unfold EntryItem.pushed at h
  split at h
  · split at h
    · rcases List.mem_cons.mp h with rfl | h
      · exact .inl ‹_›
      · exact .inr ⟨item, List.mem_cons_of_mem _ h, rfl⟩
    · rcases List.mem_cons.mp h with rfl | h
      · exact .inl rfl
      · exact .inr ⟨item, h, rfl⟩
  · rw [List.mem_singleton.mp h]
    exact .inl rfl

theorem mem_popped (h : item ∈ popped items) : ∃ old ∈ items, old.isolate = item.isolate := by
  unfold EntryItem.popped at h
  split at h
  · split at h
    · exact ⟨item, List.mem_cons_of_mem _ h, rfl⟩
    · rcases List.mem_cons.mp h with rfl | h
      · exact ⟨_, List.mem_cons_self, rfl⟩
      · exact ⟨item, List.mem_cons_of_mem _ h, rfl⟩
  · cases h

end EntryItem

namespace Engine

open EntryItem

variable {p q p' : Engine} {t t' : ThreadId} {id : IsolateId} {i : Isolate} {r : Resident}
  {f : Isolate → Isolate} {threads : List ThreadId}

theorem entryStack_set (items : List EntryItem) (t' : ThreadId) :
    (p.setEntryStack t items).entryStack t' = if t' = t then items else p.entryStack t' := by
  unfold entryStack setEntryStack
  dsimp only
  by_cases ht : t' = t
  · rw [ht, if_pos rfl, Table.lookup_put_self]
    rfl
  · rw [if_neg ht, Table.lookup_put_of_ne ht]

/-- Who has been entered is on the stack of some thread. -/
theorem isEntered_of_mem {item : EntryItem} (h : item ∈ p.entryStack t) :
    p.isEntered item.isolate = true := by
  unfold entryStack at h
  cases hl : p.entryStacks.lookup t with
  | none =>
    rw [hl] at h
    cases h
  | some items =>
    rw [hl] at h
    have hmem : (t, items) ∈ p.entryStacks := by
      obtain ⟨before, after, hsplit, -⟩ := List.lookup_eq_some_iff.mp hl
      rw [hsplit]
      exact List.mem_append_right _ List.mem_cons_self
    exact List.any_eq_true.mpr ⟨_, hmem, List.any_eq_true.mpr ⟨item, h, beq_self_eq_true _⟩⟩

/-- The process with one isolate changed. -/
def withIsolate (p : Engine) (id : IsolateId) (f : Isolate → Isolate) : Engine :=
  { p with
    residents := p.residents.map fun r =>
      if r.isolate.id = id then { r with isolate := f r.isolate } else r }

theorem entryStack_withIsolate : (p.withIsolate id f).entryStack t = p.entryStack t := rfl

theorem isolate?_withIsolate (hf : ∀ i, (f i).id = i.id) (hi : p.isolate? id = some i) :
    (p.withIsolate id f).isolate? id = some (f i) := by
  obtain ⟨r, hr, rfl⟩ := Option.map_eq_some_iff.mp hi
  have hid : r.isolate.id = id := by simpa using List.find?_some hr
  have hsame : ((fun r : Resident => r.isolate.id == id) ∘ fun r : Resident =>
      if r.isolate.id = id then { r with isolate := f r.isolate } else r) =
      fun r => r.isolate.id == id := by
    funext r
    dsimp only [Function.comp]
    split
    · rw [hf]
    · rfl
  unfold isolate? resident? withIsolate
  rw [List.find?_map, hsame]
  unfold resident? at hr
  rw [hr, Option.map_some, if_pos hid]
  rfl

theorem Sound.withIsolate (hp : p.Sound) (hf : ∀ i, (f i).id = i.id) (id : IsolateId) :
    (p.withIsolate id f).Sound := by
  have hid : ∀ r : Resident,
      (if r.isolate.id = id then { r with isolate := f r.isolate } else r).isolate.id =
        r.isolate.id := by
    intro r
    split
    · exact hf r.isolate
    · rfl
  have hplatform : ∀ r : Resident,
      (if r.isolate.id = id then { r with isolate := f r.isolate } else r).platform =
        r.platform := by
    intro r
    split <;> rfl
  refine ⟨?_, fun s hs => ?_, fun s hs => ?_⟩
  · have hids : (p.withIsolate id f).residents.map (·.isolate.id) =
        p.residents.map (·.isolate.id) := by
      unfold Engine.withIsolate
      rw [List.map_map]
      exact List.map_congr_left fun r _ => hid r
    rw [hids]
    exact hp.distinct
  · obtain ⟨r, hr, rfl⟩ := List.mem_map.mp hs
    rw [hid]
    exact hp.numbered r hr
  · obtain ⟨r, hr, rfl⟩ := List.mem_map.mp hs
    rw [hplatform]
    exact hp.housed r hr

theorem Sound.outcome_modify (hp : p.Sound) (hi : p.isolate? id = some i) :
    (onIsolate id (modify f)).outcome p = (.ok (), p.withIsolate id f) := by
  obtain ⟨-, -, -, hid⟩ := mem_of_isolate? hi
  obtain ⟨before, r, after, platform, lodges, rfl, hplatform, ho⟩ :=
    hp.outcome_onHosted_of hi (Hosted.onIsolate (modify f))
  have hplatforms : p.platforms.set r.platform platform = p.platforms :=
    congrArg (·.platforms) (lodges.withHosted_self hplatform)
  have hresidents := lodges.map fun r => { r with isolate := f r.isolate }
  rw [hid] at hresidents
  unfold onIsolate
  rw [ho]
  unfold Engine.withIsolate
  rw [hresidents]
  show ((Except.ok () : Except Failure Unit),
    p.withHosted before r after ⟨f r.isolate, platform⟩) = _
  unfold withHosted
  rw [hplatforms]

theorem withIsolate_twice {g : Isolate → Isolate} (hg : ∀ i, (g i).id = i.id) :
    (p.withIsolate id g).withIsolate id f = p.withIsolate id fun i => f (g i) := by
  unfold withIsolate
  dsimp only
  rw [List.map_map]
  congr 1
  refine List.map_congr_left fun r _ => ?_
  by_cases hid : r.isolate.id = id <;> simp [hid, hg]

theorem attach_id (i : Isolate) : (i.attach t).id = i.id := by
  unfold Isolate.attach
  split <;> rfl

theorem attach_entries (i : Isolate) : (i.attach t).entries = i.entries := by
  unfold Isolate.attach
  split <;> rfl

/-- An isolate that lets threads in counts the entry, and is on top of the stack of the thread. -/
theorem Sound.outcome_enter (hp : p.Sound) (hi : p.isolate? id = some i)
    (hopen : i.state.refusesEntry = false) (t : ThreadId) :
    ∃ f : Isolate → Isolate, (∀ j, (f j).id = j.id ∧ (f j).entries = j.entries + 1) ∧
      (enter t id).outcome p =
        (.ok (), (p.setEntryStack t (pushed id (p.entryStack t))).withIsolate id f) := by
  have hset : ∀ items, (p.setEntryStack t items).Sound :=
    fun items => (quietly_setEntryStack items).sound hp
  have hcount : ∀ {q : Engine} {j : Isolate}, q.Sound → q.isolate? id = some j →
      (onIsolate id (modify fun i => { i with entries := i.entries + 1 })).outcome q =
        (.ok (), q.withIsolate id fun i => { i with entries := i.entries + 1 }) :=
    fun hq hj => hq.outcome_modify hj
  -- An entry that is not in a row with the one before attaches the thread.
  have hattach : ∀ items, ∃ f : Isolate → Isolate,
      (∀ j, (f j).id = j.id ∧ (f j).entries = j.entries + 1) ∧
      (onIsolate id (modify (·.attach t)) >>= fun _ =>
        onIsolate id (modify fun i => { i with entries := i.entries + 1 })).outcome
          (p.setEntryStack t items) = (.ok (), (p.setEntryStack t items).withIsolate id f) := by
    intro items
    refine ⟨fun j => { j.attach t with entries := (j.attach t).entries + 1 }, fun j => ?_, ?_⟩
    · exact ⟨attach_id j, congrArg (· + 1) (attach_entries j)⟩
    · rw [outcome_bind_ok ((hset items).outcome_modify hi),
        hcount ((hset items).withIsolate attach_id id) (isolate?_withIsolate attach_id hi),
        withIsolate_twice attach_id]
  unfold enter
  rw [outcome_get_bind, hi]
  dsimp only
  rw [hopen]
  cases hstack : p.entryStack t with
  | nil =>
    obtain ⟨f, hf, ho⟩ := hattach [⟨id, 1⟩]
    exact ⟨f, hf, ho⟩
  | cons item rest =>
    by_cases hrow : item.isolate = id
    · refine ⟨fun j => { j with entries := j.entries + 1 }, fun _ => ⟨rfl, rfl⟩, ?_⟩
      rw [EntryItem.pushed, if_pos hrow]
      simp only [if_pos hrow]
      exact hcount (hset _) hi
    · obtain ⟨f, hf, ho⟩ := hattach (⟨id, 1⟩ :: item :: rest)
      refine ⟨f, hf, ?_⟩
      rw [EntryItem.pushed, if_neg hrow]
      simp only [if_neg hrow]
      exact ho

theorem exit_refused (h : p.current t ≠ some id) :
    (exit t id).outcome p = (.error (.refused .notEntered), p) := by
  unfold exit
  rw [outcome_get_bind]
  unfold current at h
  cases hstack : p.entryStack t with
  | nil => rfl
  | cons item rest =>
    rw [hstack] at h
    have hne : item.isolate ≠ id := by simpa using h
    simp only [if_pos hne]
    rfl

/-- The thread has exited the isolate, which is still there. -/
def afterExit (p : Engine) (t : ThreadId) (id : IsolateId) : Engine :=
  (p.setEntryStack t (popped (p.entryStack t))).withIsolate id
    fun i => { i with entries := i.entries - 1 }

theorem Sound.afterExit (hp : p.Sound) : (p.afterExit t id).Sound :=
  ((quietly_setEntryStack _).sound hp).withIsolate
    (f := fun i => { i with entries := i.entries - 1 }) (fun _ => rfl) id

/-- The isolate takes back the entry, and goes if nothing refers to it any more. -/
theorem Sound.outcome_exit (hp : p.Sound) (hi : p.isolate? id = some i)
    (hcurrent : p.current t = some id) :
    (exit t id).outcome p = (collect id).outcome (p.afterExit t id) := by
  unfold Engine.afterExit
  unfold exit
  rw [outcome_get_bind]
  unfold current at hcurrent
  cases hstack : p.entryStack t with
  | nil =>
    rw [hstack] at hcurrent
    cases hcurrent
  | cons item rest =>
    rw [hstack] at hcurrent
    have htop : item.isolate = id := by simpa using hcurrent
    have hsound : (p.setEntryStack t (popped (item :: rest))).Sound :=
      (quietly_setEntryStack _).sound hp
    simp only [if_neg (not_not.mpr htop)]
    rw [outcome_bind_ok (outcome_set _ _)]
    exact outcome_bind_ok (hsound.outcome_modify hi)

/-- How many entries into an isolate these threads have. -/
def entriesOver (p : Engine) (threads : List ThreadId) (id : IsolateId) : Nat :=
  threads.foldr (fun t n => p.entriesOn t id + n) 0

/-- All threads that have entered something are among these. -/
def Covers (p : Engine) (threads : List ThreadId) : Prop := ∀ t, p.entryStack t ≠ [] → t ∈ threads

theorem covers_keys (p : Engine) : p.Covers (p.entryStacks.map (·.1)) := by
  intro t ht
  unfold entryStack at ht
  cases hl : p.entryStacks.lookup t with
  | none =>
    rw [hl] at ht
    exact absurd rfl ht
  | some items =>
    obtain ⟨before, after, hsplit, -⟩ := List.lookup_eq_some_iff.mp hl
    rw [hsplit]
    simp

theorem exists_covers (p : Engine) : ∃ threads : List ThreadId, threads.Nodup ∧ p.Covers threads :=
  ⟨(p.entryStacks.map (·.1)).dedup, List.nodup_dedup _,
    fun t ht => List.mem_dedup.mpr (p.covers_keys t ht)⟩

theorem entriesOver_congr (h : ∀ t ∈ threads, q.entriesOn t id = p.entriesOn t id) :
    q.entriesOver threads id = p.entriesOver threads id := by
  unfold entriesOver
  induction threads with
  | nil => rfl
  | cons t rest ih =>
    rw [List.foldr_cons, List.foldr_cons, h t List.mem_cons_self,
      ih fun t' ht' => h t' (List.mem_cons_of_mem _ ht')]

theorem entriesOver_eq_zero (h : ∀ t, p.entriesOn t id = 0) : p.entriesOver threads id = 0 := by
  unfold entriesOver
  induction threads with
  | nil => rfl
  | cons t rest ih => rw [List.foldr_cons, ih, h]

/-- If the count of one thread changes, the sum changes as much. -/
theorem entriesOver_change (nodup : threads.Nodup) (ht : t ∈ threads)
    (h : ∀ t' ≠ t, q.entriesOn t' id = p.entriesOn t' id) :
    q.entriesOver threads id + p.entriesOn t id = p.entriesOver threads id + q.entriesOn t id := by
  induction threads with
  | nil => cases ht
  | cons first rest ih =>
    rw [List.nodup_cons] at nodup
    have hcons : ∀ p : Engine,
        p.entriesOver (first :: rest) id = p.entriesOn first id + p.entriesOver rest id :=
      fun _ => rfl
    rw [hcons, hcons]
    rcases List.mem_cons.mp ht with rfl | ht
    · have hrest : q.entriesOver rest id = p.entriesOver rest id :=
        entriesOver_congr fun t' ht' => h t' fun hsame => nodup.1 (hsame ▸ ht')
      omega
    · have hfirst : q.entriesOn first id = p.entriesOn first id :=
        h first fun hsame => nodup.1 (hsame ▸ ht)
      have hrest := ih nodup.2 ht
      omega

/-- The stacks nest, and every isolate counts its entries over all threads. -/
structure Tallied (p : Engine) : Prop where
  nests : ∀ t, Nests (p.entryStack t)
  known : ∀ t, ∀ item ∈ p.entryStack t, ∃ r ∈ p.residents, r.isolate.id = item.isolate
  tallied : ∀ r ∈ p.residents, ∀ threads : List ThreadId, threads.Nodup → p.Covers threads →
    r.isolate.entries = p.entriesOver threads r.isolate.id

theorem tallied_empty : Tallied {} where
  nests _ := nests_nil
  known t item h := by cases h
  tallied r hr := by cases hr

/-- Isolates keep the entries that they count, and those that are entered stay. -/
structure Aside (p p' : Engine) : Prop where
  unmoved : p'.entryStacks = p.entryStacks
  rows : ∀ r' ∈ p'.residents,
    (∃ r ∈ p.residents, r.isolate.id = r'.isolate.id ∧ r.isolate.entries = r'.isolate.entries) ∨
    r'.isolate.entries = 0 ∧ ∀ r ∈ p.residents, r.isolate.id ≠ r'.isolate.id
  stays : ∀ r ∈ p.residents, p.isEntered r.isolate.id = true →
    ∃ r' ∈ p'.residents, r'.isolate.id = r.isolate.id

theorem Aside.entryStack (h : p.Aside q) (t : ThreadId) : q.entryStack t = p.entryStack t := by
  unfold Engine.entryStack
  rw [h.unmoved]

theorem Tallied.aside (hp : p.Tallied) (h : p.Aside q) : q.Tallied where
  nests t := h.entryStack t ▸ hp.nests t
  known t item hitem := by
    rw [h.entryStack] at hitem
    obtain ⟨r, hr, hid⟩ := hp.known t item hitem
    obtain ⟨r', hr', hid'⟩ := h.stays r hr (hid ▸ isEntered_of_mem hitem)
    exact ⟨r', hr', hid'.trans hid⟩
  tallied r' hr' threads nodup covers := by
    have hcovers : p.Covers threads := fun t ht => covers t (h.entryStack t ▸ ht)
    have hover : ∀ id, q.entriesOver threads id = p.entriesOver threads id := by
      refine fun id => entriesOver_congr fun t _ => ?_
      unfold entriesOn
      rw [h.entryStack]
    rw [hover]
    obtain ⟨r, hr, hid, hentries⟩ | ⟨hzero, hnew⟩ := h.rows r' hr'
    · rw [← hid, ← hentries]
      exact hp.tallied r hr threads nodup hcovers
    · rw [hzero, entriesOver_eq_zero fun t => ?_]
      refine tally_eq_zero fun item hitem hid => ?_
      obtain ⟨r, hr, hknown⟩ := hp.known t item hitem
      exact hnew r hr (hknown.trans hid)

theorem aside_of_map {f : Resident → Resident} (unmoved : q.entryStacks = p.entryStacks)
    (residents : q.residents = p.residents.map f)
    (hf : ∀ r, (f r).isolate.id = r.isolate.id ∧ (f r).isolate.entries = r.isolate.entries) :
    p.Aside q where
  unmoved := unmoved
  rows r' hr' := by
    rw [residents] at hr'
    obtain ⟨r, hr, rfl⟩ := List.mem_map.mp hr'
    exact .inl ⟨r, hr, (hf r).1.symm, (hf r).2.symm⟩
  stays r hr _ := by
    rw [residents]
    exact ⟨f r, List.mem_map_of_mem hr, (hf r).1⟩

theorem aside_of_residents (unmoved : q.entryStacks = p.entryStacks)
    (residents : q.residents = p.residents) : p.Aside q :=
  aside_of_map unmoved (f := id) (by rw [residents, List.map_id]) fun _ => ⟨rfl, rfl⟩

/-- The references that are kept account of, isolate by isolate: those of the embedder, and
entries. -/
def rows (p : Engine) : List (IsolateId × Nat × Nat) :=
  p.residents.map fun r => (r.isolate.id, r.handles, r.isolate.entries)

/-- References stay as they are, and no isolate comes or goes. -/
structure Kept (p p' : Engine) : Prop where
  unmoved : p'.entryStacks = p.entryStacks
  rows : p'.rows = p.rows
  next : p'.nextIsolate = p.nextIsolate

theorem Kept.symm (h : p.Kept q) : q.Kept p := ⟨h.unmoved.symm, h.rows.symm, h.next.symm⟩

theorem Kept.mem (h : p.Kept q) {r' : Resident} (hr : r' ∈ q.residents) :
    ∃ r ∈ p.residents, r.isolate.id = r'.isolate.id ∧ r.handles = r'.handles ∧
      r.isolate.entries = r'.isolate.entries := by
  have hrow : (r'.isolate.id, r'.handles, r'.isolate.entries) ∈ p.rows :=
    h.rows ▸ List.mem_map_of_mem hr
  obtain ⟨r, hr, hsame⟩ := List.mem_map.mp hrow
  simp only [Prod.mk.injEq] at hsame
  exact ⟨r, hr, hsame⟩

theorem Kept.aside (h : p.Kept q) : p.Aside q where
  unmoved := h.unmoved
  rows r' hr' := by
    obtain ⟨r, hr, hid, -, hentries⟩ := h.mem hr'
    exact .inl ⟨r, hr, hid, hentries⟩
  stays r hr _ := by
    obtain ⟨r', hr', hid, -⟩ := h.symm.mem hr
    exact ⟨r', hr', hid⟩

theorem Sharing.kept_onHosted {act : Action Hosted Unit} (hp : p.Sharing)
    (hact : ∀ h roles, Hosted.Sharing roles h → endsFatally (act.outcome h).1 = false →
      (act.outcome h).2.isolate.id = h.isolate.id ∧
      (act.outcome h).2.isolate.entries = h.isolate.entries)
    (calm : endsFatally ((onHosted id act).outcome p).1 = false) :
    p.Kept ((onHosted id act).outcome p).2 := by
  obtain ⟨-, ho⟩ | ⟨before, r, after, platform, lodges, -, -, housed, ho⟩ :=
    hp.sound.outcome_onHosted id act
  · rw [ho]
    exact ⟨rfl, rfl, rfl⟩
  rw [ho] at calm ⊢
  obtain ⟨hid, hentries⟩ := hact _ _ (hp.hosted lodges housed) calm
  refine ⟨rfl, ?_, rfl⟩
  rw [rows, rows, lodges.residents, withHosted, List.map_append, List.map_append, List.map_cons,
    List.map_cons]
  dsimp only at hid hentries ⊢
  rw [hid, hentries]

/-- Only an isolate that no thread has entered is collected. -/
theorem Sound.aside_collect (hp : p.Sound) : p.Aside ((collect id).outcome p).2 := by
  obtain ⟨ho, -⟩ | ⟨before, r, after, platform, result, h, lodges, rfl, -, hfree, -, -, ho⟩ :=
    hp.collect_cases id
  · rw [ho]
    exact aside_of_residents rfl rfl
  · rw [ho]
    refine ⟨rfl, fun s hs => .inl ⟨s, lodges.mem_of_around hs, rfl, rfl⟩, fun s hs hentered => ?_⟩
    rw [lodges.residents] at hs
    rcases List.mem_cons.mp (List.perm_middle.mem_iff.mp hs) with rfl | hs
    · rw [hfree] at hentered
      cases hentered
    · exact ⟨s, hs, rfl⟩

theorem Sound.aside_allocateIn {k : PlatformId} {o : IsolateOptions} (hp : p.Sound) :
    p.Aside ((allocateIn k o).outcome p).2 := by
  unfold allocateIn
  rw [outcome_get_bind]
  cases hr : (p.platform? k).bind (·.reserve o.regionSize) with
  | none => exact aside_of_residents rfl rfl
  | some taken =>
    refine ⟨rfl, fun s hs => ?_, fun s hs _ => ⟨s, List.mem_append_left _ hs, rfl⟩⟩
    rcases List.mem_append.mp hs with hs | hs
    · exact .inl ⟨s, hs, rfl, rfl⟩
    · rw [List.mem_singleton.mp hs]
      exact .inr ⟨rfl, fun r hr => Nat.ne_of_lt (hp.numbered r hr)⟩

theorem aside_task {h h' : Hosted} {result : Except Failure Unit}
    {roles : IsolateId → Option SpaceRole}
    (task : Hosted.Task h result h') (hh : h.Sharing roles) (calm : endsFatally result = false) :
    h'.isolate.id = h.isolate.id ∧ h'.isolate.entries = h.isolate.entries := by
  refine ⟨congrArg Prod.fst task.ground, ?_⟩
  have hjoined : h.joined.isolate.entries = h.isolate.entries := by
    unfold Hosted.joined
    cases h.platform.sharedSpace? <;> rfl
  have htorn : ∀ {result}, Hosted.TearsDown h result h' → endsFatally result = false →
      h'.isolate.entries = h.isolate.entries := by
    intro result tearsDown calm
    obtain rfl | ⟨-, hstanding, -⟩ := tearsDown.standing hh.ownsAlive calm
    · rfl
    · exact congrArg (fun s => s.part.entries) hstanding
  cases task with
  | setUp t setsUp =>
    obtain ⟨rfl, -⟩ | ⟨-, hstanding, -⟩ := setsUp.standing calm
    · rfl
    · have hentries : h'.isolate.entries =
          (if h.isolate.options.sharedSpace then h.joined else h).isolate.entries :=
        congrArg (fun s => s.part.entries) hstanding
      rw [hentries]
      split
      · exact hjoined
      · rfl
  | tearDown tearsDown => exact htorn tearsDown calm
  | dispose disposes =>
    cases disposes with
    | entered => cases calm
    | ended tearsDown survives => exact htorn tearsDown (endsFatally_eq_false survives)
    | died => cases calm

/-- Operations that leave all references to isolates alone. -/
def keepsReferences : LifecycleOperation → Bool
  | .allocate _ | .allocateIn _ _ | .cloneHandle _ | .dropHandle _ | .enter _ _ | .exit _ _ => false
  | _ => true

theorem Sharing.kept {op : LifecycleOperation} (hp : p.Sharing) (hop : keepsReferences op = true)
    (calm : endsFatally (op.perform.outcome p).1 = false) : p.Kept (op.perform.outcome p).2 := by
  cases op with
  | addPlatform o => exact ⟨rfl, rfl, rfl⟩
  | initializeOnce o =>
    unfold LifecycleOperation.perform
    rw [outcome_ignore]
    unfold initializeOnce
    rw [outcome_get_bind]
    cases p.globalPlatform <;> exact ⟨rfl, rfl, rfl⟩
  | installDeserializer id d =>
    unfold LifecycleOperation.perform onIsolate at calm ⊢
    exact hp.kept_onHosted (fun h _ _ _ => ⟨rfl, rfl⟩) calm
  | requestInterrupt id callback =>
    unfold LifecycleOperation.perform at calm ⊢
    exact hp.kept_onHosted (fun h _ _ _ => ⟨rfl, rfl⟩) calm
  | setUp t id startup readOnly shared canRehash refusal =>
    refine hp.kept_onHosted (fun h roles hh calm => ?_) calm
    have hsetsUp := Hosted.setsUp t startup readOnly shared canRehash refusal h
    exact aside_task (.setUp t hsetsUp) hh calm
  | tearDown id again =>
    rw [LifecycleOperation.outcome_tearDown] at calm ⊢
    refine hp.kept_onHosted (fun h roles hh calm => ?_) calm
    exact aside_task (.tearDown ((Hosted.harmless_tearDownAgain again).tearsDown h)) hh calm
  | dispose id again =>
    rw [LifecycleOperation.outcome_dispose] at calm ⊢
    refine hp.kept_onHosted (fun h roles hh calm => ?_) calm
    exact aside_task (.dispose ((Hosted.harmless_tearDownAgain again).disposes h)) hh calm
  | _ => cases hop

/-- An operation that neither enters nor exits leaves all stacks and counts of entries alone. -/
theorem Sharing.aside {op : LifecycleOperation} (hp : p.Sharing)
    (hop : ∀ t id, op ≠ .enter t id ∧ op ≠ .exit t id)
    (calm : endsFatally (op.perform.outcome p).1 = false) (ht : p.Tallied) :
    (op.perform.outcome p).2.entryStacks = p.entryStacks ∧ (op.perform.outcome p).2.Tallied := by
  have hgoes : ∀ {q : Engine}, p.Aside q → q.entryStacks = p.entryStacks ∧ q.Tallied :=
    fun haside => ⟨haside.unmoved, ht.aside haside⟩
  by_cases hkeeps : keepsReferences op = true
  · exact hgoes (hp.kept hkeeps calm).aside
  cases op with
  | allocate o =>
    refine hgoes ?_
    unfold LifecycleOperation.perform
    rw [outcome_ignore]
    unfold allocate
    rw [outcome_get_bind]
    cases p.globalPlatform with
    | none => exact aside_of_residents rfl rfl
    | some k => exact hp.sound.aside_allocateIn
  | allocateIn k o =>
    refine hgoes ?_
    unfold LifecycleOperation.perform
    rw [outcome_ignore]
    exact hp.sound.aside_allocateIn
  | cloneHandle id =>
    refine hgoes (aside_of_map rfl rfl fun r => ?_)
    split <;> exact ⟨rfl, rfl⟩
  | enter t id => exact absurd rfl (hop t id).1
  | exit t id => exact absurd rfl (hop t id).2
  | dropHandle id =>
    let q : Engine := { p with
      residents := p.residents.map fun r =>
        if r.isolate.id = id then { r with handles := r.handles - 1 } else r }
    have hdrop : p.Aside q := aside_of_map rfl rfl fun r => by split <;> exact ⟨rfl, rfl⟩
    have hquiet : p.Quietly q := quietly_mapResidents fun r => by split <;> exact ⟨rfl, rfl⟩
    have hcollect : q.Aside ((collect id).outcome q).2 := (hquiet.sound hp.sound).aside_collect
    exact ⟨hcollect.unmoved, (ht.aside hdrop).aside hcollect⟩
  | _ => exact absurd rfl hkeeps

end Engine

end ScriptEngine

import ScriptEngine.Proofs.EntryStacks

namespace ScriptEngine

open ScriptEngine.Action EntryItem

namespace Engine

variable {p q : Engine} {t : ThreadId} {id : IsolateId} {i : Isolate} {r : Resident}
  {threads : List ThreadId} {ops more : List LifecycleOperation}

theorem entriesOn_le (ht : t ∈ threads) (p : Engine) (id : IsolateId) :
    p.entriesOn t id ≤ p.entriesOver threads id := by
  induction threads with
  | nil => cases ht
  | cons first rest ih =>
    have hcons : p.entriesOver (first :: rest) id =
        p.entriesOn first id + p.entriesOver rest id := rfl
    rcases List.mem_cons.mp ht with rfl | ht
    · omega
    · have hrest := ih ht
      omega

theorem Tallied.entriesOn_le (hp : p.Tallied) (hr : r ∈ p.residents) (t : ThreadId) :
    p.entriesOn t r.isolate.id ≤ r.isolate.entries := by
  obtain ⟨threads, nodup, covers⟩ := p.exists_covers
  rw [hp.tallied r hr threads nodup covers]
  by_cases ht : t ∈ threads
  · exact Engine.entriesOn_le ht p _
  · have hnone : p.entryStack t = [] := by
      by_contra hsome
      exact ht (covers t hsome)
    have hzero : p.entriesOn t r.isolate.id = 0 := by
      unfold entriesOn
      rw [hnone]
      rfl
    omega

/-- A thread can be added to those that are counted over. -/
theorem Covers.insert (hc : p.Covers threads) (nodup : threads.Nodup) (t : ThreadId) :
    ∃ threads' : List ThreadId, threads'.Nodup ∧ t ∈ threads' ∧ p.Covers threads' ∧
      ∀ id, p.entriesOver threads' id = p.entriesOver threads id := by
  by_cases ht : t ∈ threads
  · exact ⟨threads, nodup, ht, hc, fun _ => rfl⟩
  · have hnone : p.entryStack t = [] := by
      by_contra hsome
      exact ht (hc t hsome)
    refine ⟨t :: threads, List.nodup_cons.mpr ⟨ht, nodup⟩, List.mem_cons_self,
      fun t' h => List.mem_cons_of_mem _ (hc t' h), fun id => ?_⟩
    have hzero : p.entriesOn t id = 0 := by
      unfold entriesOn
      rw [hnone]
      rfl
    show p.entriesOn t id + p.entriesOver threads id = _
    omega

/-- A thread gets another stack, and an isolate counts the difference. -/
theorem Tallied.restack {items : List EntryItem} {f : Isolate → Isolate} (hp : p.Tallied)
    (nests : Nests items)
    (known : ∀ item ∈ items, ∃ r ∈ p.residents, r.isolate.id = item.isolate)
    (hf : ∀ i, (f i).id = i.id)
    (hentries : ∀ r ∈ p.residents,
      (if r.isolate.id = id then (f r.isolate).entries else r.isolate.entries) +
        p.entriesOn t r.isolate.id = r.isolate.entries + tally r.isolate.id items) :
    ((p.setEntryStack t items).withIsolate id f).Tallied where
  nests t' := by
    rw [entryStack_withIsolate, entryStack_set]
    split
    · exact nests
    · exact hp.nests t'
  known t' item hitem := by
    rw [entryStack_withIsolate, entryStack_set] at hitem
    have hold : ∃ r ∈ p.residents, r.isolate.id = item.isolate := by
      split at hitem
      · exact known item hitem
      · exact hp.known t' item hitem
    obtain ⟨r, hr, hid⟩ := hold
    refine ⟨_, List.mem_map_of_mem hr, ?_⟩
    split
    · exact (hf r.isolate).trans hid
    · exact hid
  tallied s hs threads nodup covers := by
    obtain ⟨r, hr, rfl⟩ := List.mem_map.mp hs
    obtain ⟨threads', nodup', ht, covers', hsame⟩ := covers.insert nodup t
    have hstack : ∀ t', ((p.setEntryStack t items).withIsolate id f).entryStack t' =
        if t' = t then items else p.entryStack t' := entryStack_set items
    have hcovers : p.Covers threads' := by
      intro t' h
      by_cases htt : t' = t
      · exact htt ▸ ht
      · refine covers' t' ?_
        rw [hstack, if_neg htt]
        exact h
    have hothers : ∀ t' ≠ t, ((p.setEntryStack t items).withIsolate id f).entriesOn t'
        r.isolate.id = p.entriesOn t' r.isolate.id := by
      intro t' htt
      unfold entriesOn
      rw [hstack, if_neg htt]
    have hnew : ((p.setEntryStack t items).withIsolate id f).entriesOn t r.isolate.id =
        tally r.isolate.id items := by
      unfold entriesOn
      rw [hstack, if_pos rfl]
      rfl
    have hchange := entriesOver_change nodup' ht hothers
    have htallied := hp.tallied r hr threads' nodup' hcovers
    have hdiff := hentries r hr
    have hid : (if r.isolate.id = id then { r with isolate := f r.isolate } else r).isolate.id =
        r.isolate.id := by
      split
      · exact hf r.isolate
      · rfl
    have hcount :
        (if r.isolate.id = id then { r with isolate := f r.isolate } else r).isolate.entries =
        if r.isolate.id = id then (f r.isolate).entries else r.isolate.entries := by
      split <;> rfl
    rw [hcount, hid, ← hsame]
    omega

theorem Tallied.outcome_enter (ht : p.Tallied) (hp : p.Sound) (hi : p.isolate? id = some i)
    (hopen : i.state.refusesEntry = false) (t : ThreadId) :
    ∃ q, (enter t id).outcome p = (.ok (), q) ∧ q.Tallied ∧
      ∀ t', q.entryStack t' = if t' = t then pushed id (p.entryStack t) else p.entryStack t' := by
  obtain ⟨f, hf, ho⟩ := hp.outcome_enter hi hopen t
  refine ⟨_, ho, ?_, entryStack_set _⟩
  refine ht.restack ((ht.nests t).pushed id) (fun item hitem => ?_) (fun j => (hf j).1)
    fun r hr => ?_
  · obtain hid | ⟨old, hold, hid⟩ := mem_pushed hitem
    · obtain ⟨r, hr, rfl, hid'⟩ := mem_of_isolate? hi
      exact ⟨r, hr, hid'.trans hid.symm⟩
    · rw [← hid]
      exact ht.known t old hold
  · rw [tally_pushed, (hf r.isolate).2]
    show _ + tally r.isolate.id (p.entryStack t) = _
    by_cases hid : r.isolate.id = id
    · simp only [hid, if_true]
      omega
    · simp only [hid, Ne.symm hid, if_false]
      omega

theorem Tallied.known_current (ht : p.Tallied) (hcurrent : p.current t = some id) :
    ∃ r ∈ p.residents, r.isolate.id = id := by
  obtain ⟨item, hitem, rfl⟩ := Option.map_eq_some_iff.mp hcurrent
  exact ht.known t item (List.mem_of_mem_head? hitem)

theorem Tallied.afterExit (ht : p.Tallied)
    (hcurrent : p.current t = some r.isolate.id) : (p.afterExit t r.isolate.id).Tallied := by
  unfold current at hcurrent
  cases hstack : p.entryStack t with
  | nil =>
    rw [hstack] at hcurrent
    cases hcurrent
  | cons item rest =>
    rw [hstack] at hcurrent
    have htop : item.isolate = r.isolate.id := by simpa using hcurrent
    have hcount : 1 ≤ item.count :=
      (ht.nests t).counted item (by rw [hstack]; exact List.mem_cons_self)
    refine ht.restack (ht.nests t).popped (fun item hitem => ?_) (fun _ => rfl) fun s hs => ?_
    · obtain ⟨old, hold, hid⟩ := mem_popped hitem
      rw [← hid]
      exact ht.known t old hold
    · have hle := ht.entriesOn_le hs t
      have htally : p.entriesOn t s.isolate.id =
          tally s.isolate.id (popped (p.entryStack t)) +
            if item.isolate = s.isolate.id then 1 else 0 := by
        unfold entriesOn
        rw [hstack]
        exact tally_popped hcount s.isolate.id
      rw [htop] at htally
      by_cases hid : s.isolate.id = r.isolate.id
      · simp only [hid, if_true] at htally hle ⊢
        omega
      · simp only [hid, Ne.symm hid, if_false] at htally ⊢
        omega

/-- An exit from the current isolate is not refused; that is the end of the isolate if nothing else
refers to it. -/
theorem Tallied.outcome_exit (ht : p.Tallied) (hp : p.Sound) (hcurrent : p.current t = some id) :
    ∃ result q, (exit t id).outcome p = (result, q) ∧ q.Tallied ∧
      (∀ t', q.entryStack t' = if t' = t then popped (p.entryStack t) else p.entryStack t') ∧
      (∀ e, result ≠ .error (.refused e)) ∧
      ∀ r ∈ p.residents, r.isolate.id = id → r.handles ≠ 0 → result = .ok () := by
  obtain ⟨r, hr, rfl⟩ := ht.known_current hcurrent
  have ho := hp.outcome_exit (hp.isolate?_of_mem hr) hcurrent
  have hleft := ht.afterExit hcurrent
  have hleave : (p.afterExit t r.isolate.id).Sound := hp.afterExit
  have hcollect : (p.afterExit t r.isolate.id).Aside
      ((collect r.isolate.id).outcome (p.afterExit t r.isolate.id)).2 := hleave.aside_collect
  have hcases := hleave.collect_cases r.isolate.id
  have hstacks : ∀ t', (p.afterExit t r.isolate.id).entryStack t' =
      if t' = t then popped (p.entryStack t) else p.entryStack t' := entryStack_set _
  rw [← ho] at hcollect hcases
  refine ⟨((exit t r.isolate.id).outcome p).1, ((exit t r.isolate.id).outcome p).2, rfl,
    hleft.aside hcollect, fun t' => ?_, ?_⟩
  · rw [hcollect.entryStack]
    exact hstacks t'
  obtain ⟨hkept, -⟩ | ⟨before, s, after, platform, result, h, lodges, hid, hfree, -, -, destroys,
    hgone⟩ := hcases
  · rw [hkept]
    exact ⟨fun e he => (by cases he), fun _ _ _ _ => rfl⟩
  · rw [hgone]
    refine ⟨fun e he => ?_, fun s' hs' hid' hheld => ?_⟩
    · have hresult : result = .error (.refused e) := he
      rw [hresult] at destroys
      cases destroys
    · obtain ⟨old, hold, rfl⟩ := List.mem_map.mp lodges.mem
      have hsame : old.isolate.id = r.isolate.id := by
        split at hid <;> exact hid
      have hself : old = s' :=
        List.inj_on_of_nodup_map hp.distinct hold hs' (hsame.trans hid'.symm)
      subst hself
      refine absurd ?_ hheld
      split at hfree <;> exact hfree

theorem enter_closed (h : ∀ i, p.isolate? id = some i → i.state.refusesEntry = true) :
    ((enter t id).outcome p).2 = p := by
  unfold enter
  rw [outcome_get_bind]
  cases hi : p.isolate? id with
  | none => rfl
  | some i =>
    dsimp only
    rw [h i hi]
    rfl

theorem Tallied.enter_keeps (ht : p.Tallied) (hp : p.Sound) (t : ThreadId) (id : IsolateId) :
    ((enter t id).outcome p).2.Tallied ∧
      ∀ t' ≠ t, ((enter t id).outcome p).2.entryStack t' = p.entryStack t' := by
  by_cases hopen : ∃ i, p.isolate? id = some i ∧ i.state.refusesEntry = false
  · obtain ⟨i, hi, hopen⟩ := hopen
    obtain ⟨q, ho, hq, hstack⟩ := ht.outcome_enter hp hi hopen t
    rw [ho]
    exact ⟨hq, fun t' hne => (hstack t').trans (if_neg hne)⟩
  · have hclosed : ((enter t id).outcome p).2 = p := enter_closed fun i hi => by
      by_contra hrefuses
      exact hopen ⟨i, hi, by simpa using hrefuses⟩
    rw [hclosed]
    exact ⟨ht, fun _ _ => rfl⟩

theorem Tallied.exit_keeps (ht : p.Tallied) (hp : p.Sound) (t : ThreadId) (id : IsolateId) :
    ((exit t id).outcome p).2.Tallied ∧
      ∀ t' ≠ t, ((exit t id).outcome p).2.entryStack t' = p.entryStack t' := by
  by_cases hcurrent : p.current t = some id
  · obtain ⟨result, q, ho, hq, hstack, -⟩ := ht.outcome_exit hp hcurrent
    rw [ho]
    exact ⟨hq, fun t' hne => (hstack t').trans (if_neg hne)⟩
  · rw [exit_refused hcurrent]
    exact ⟨ht, fun _ _ => rfl⟩

/-- Every operation that is not fatal keeps stacks and counts in order; of stacks, it can change
that of the thread that enters or exits. -/
theorem Tallied.perform (ht : p.Tallied) (hp : p.Sharing) (op : LifecycleOperation)
    (calm : endsFatally (op.perform.outcome p).1 = false) :
    (op.perform.outcome p).2.Tallied ∧
      ∀ t, (∀ id, op ≠ .enter t id ∧ op ≠ .exit t id) →
        (op.perform.outcome p).2.entryStack t = p.entryStack t := by
  by_cases hop : ∀ t id, op ≠ .enter t id ∧ op ≠ .exit t id
  · obtain ⟨hunmoved, htallied⟩ := hp.aside hop calm ht
    refine ⟨htallied, fun t _ => ?_⟩
    unfold entryStack
    rw [hunmoved]
  obtain ⟨t, id, rfl | rfl⟩ : ∃ t id, op = .enter t id ∨ op = .exit t id := by
    by_contra hnone
    exact hop fun t id => ⟨fun h => hnone ⟨t, id, .inl h⟩, fun h => hnone ⟨t, id, .inr h⟩⟩
  · obtain ⟨htallied, hothers⟩ := ht.enter_keeps hp.sound t id
    exact ⟨htallied, fun t' hother => hothers t' fun hsame => (hother id).1 (hsame ▸ rfl)⟩
  · obtain ⟨htallied, hothers⟩ := ht.exit_keeps hp.sound t id
    exact ⟨htallied, fun t' hother => hothers t' fun hsame => (hother id).2 (hsame ▸ rfl)⟩

/-- Calls that nest on a thread, with whatever else happens in between. -/
inductive NestedCalls (t : ThreadId) : List LifecycleOperation → Prop
  | nil : NestedCalls t []
  | aside {op : LifecycleOperation} {rest : List LifecycleOperation}
      (other : ∀ id, op ≠ .enter t id ∧ op ≠ .exit t id) (nested : NestedCalls t rest) :
      NestedCalls t (op :: rest)
  | nest {id : IsolateId} {inner rest : List LifecycleOperation} (within : NestedCalls t inner)
      (nested : NestedCalls t rest) :
      NestedCalls t (.enter t id :: (inner ++ .exit t id :: rest))

/-- The isolate is there, and lets threads in. -/
def letsIn (p : Engine) (id : IsolateId) : Bool :=
  (p.isolate? id).any fun i => !i.state.refusesEntry

theorem letsIn_iff :
    p.letsIn id = true ↔ ∃ i, p.isolate? id = some i ∧ i.state.refusesEntry = false := by
  unfold letsIn
  cases p.isolate? id <;> simp

/-- If the thread enters an isolate now, it is let in. -/
def admitsNow (t : ThreadId) (p : Engine) : LifecycleOperation → Bool
  | .enter t' id => t' != t || p.letsIn id
  | _ => true

/-- All isolates that the thread enters let it in. -/
def admits (t : ThreadId) : Engine → List LifecycleOperation → Bool
  | _, [] => true
  | p, op :: rest => admitsNow t p op && admits t (op.perform.outcome p).2 rest

theorem run_append : p.run (ops ++ more) = (p.run ops).bind (·.run more) := by
  induction ops generalizing p with
  | nil => rfl
  | cons op rest ih =>
    rw [List.cons_append, run, run]
    split
    · rfl
    · exact ih

theorem admits_append (h : admits t p (ops ++ more) = true) (hq : p.run ops = some q) :
    admits t p ops = true ∧ admits t q more = true := by
  induction ops generalizing p with
  | nil =>
    cases hq
    exact ⟨rfl, h⟩
  | cons op rest ih =>
    rw [run] at hq
    split at hq
    · cases hq
    · rw [List.cons_append, admits, Bool.and_eq_true] at h
      obtain ⟨hrest, hmore⟩ := ih h.2 hq
      rw [admits, Bool.and_eq_true]
      exact ⟨⟨h.1, hrest⟩, hmore⟩

theorem run_cons {op : LifecycleOperation} (h : p.run (op :: ops) = some q) :
    endsFatally (op.perform.outcome p).1 = false ∧ (op.perform.outcome p).2.run ops = some q := by
  rw [run] at h
  split at h
  · cases h
  · rename_i hcalm
    exact ⟨by simpa using hcalm, h⟩

/-- Calls that nest leave the stack of the thread as it was. -/
theorem NestedCalls.restores (hn : NestedCalls t ops) (hp : p.Sharing) (ht : p.Tallied)
    (hadmits : admits t p ops = true) (h : p.run ops = some q) :
    q.Sharing ∧ q.Tallied ∧ q.entryStack t = p.entryStack t := by
  induction hn generalizing p q with
  | nil =>
    cases h
    exact ⟨hp, ht, rfl⟩
  | @aside op rest other nested ih =>
    obtain ⟨calm, hrest⟩ := run_cons h
    obtain ⟨htallied, hstack⟩ := ht.perform hp op calm
    rw [admits, Bool.and_eq_true] at hadmits
    obtain ⟨hq, htq, hsame⟩ := ih ((op.step hp.sound).sharing hp calm) htallied hadmits.2 hrest
    exact ⟨hq, htq, hsame.trans (hstack t other)⟩
  | @nest id inner rest within nested ihWithin ihNested =>
    obtain ⟨calm, hrest⟩ := run_cons h
    rw [admits, Bool.and_eq_true] at hadmits
    obtain ⟨hlets, hadmits⟩ := hadmits
    obtain ⟨i, hi, hopen⟩ := letsIn_iff.mp (by simpa [admitsNow] using hlets)
    obtain ⟨entered, hoEnter, htEntered, hpushed⟩ := ht.outcome_enter hp.sound hi hopen t
    have hpEntered := (LifecycleOperation.step hp.sound (.enter t id)).sharing hp calm
    unfold LifecycleOperation.perform at hpEntered hrest hadmits
    rw [hoEnter] at hpEntered hrest hadmits
    dsimp only at hpEntered hrest hadmits
    rw [run_append] at hrest
    obtain ⟨reached, hinner, hexit⟩ := Option.bind_eq_some_iff.mp hrest
    obtain ⟨hadmitsInner, hadmitsExit⟩ := admits_append hadmits hinner
    rw [admits, Bool.and_eq_true] at hadmitsExit
    obtain ⟨hpReached, htReached, hreached⟩ := ihWithin hpEntered htEntered hadmitsInner hinner
    rw [hpushed, if_pos rfl] at hreached
    have hcurrent : reached.current t = some id := by
      unfold current
      rw [hreached]
      exact head?_pushed id _
    obtain ⟨calmExit, hlast⟩ := run_cons hexit
    obtain ⟨result, left, hoExit, htLeft, hpopped, -⟩ :=
      htReached.outcome_exit hpReached.sound hcurrent
    have hpLeft := (LifecycleOperation.step hpReached.sound (.exit t id)).sharing hpReached calmExit
    have hadmitsLast := hadmitsExit.2
    unfold LifecycleOperation.perform at hpLeft hlast hadmitsLast
    rw [hoExit] at hpLeft hlast hadmitsLast
    obtain ⟨hq, htq, hsame⟩ := ihNested hpLeft htLeft hadmitsLast hlast
    refine ⟨hq, htq, ?_⟩
    rw [hsame, hpopped, if_pos rfl, hreached, popped_pushed (ht.nests t)]

theorem Tallied.of_run (h : run {} ops = some p) : p.Sharing ∧ p.Tallied := by
  refine run_induction (P := fun p => p.Sharing ∧ p.Tallied) ⟨sharing_empty, tallied_empty⟩ ?_ h
  rintro p op ⟨hp, ht⟩ calm
  exact ⟨(op.step hp.sound).sharing hp calm, (ht.perform hp op calm).1⟩

/-- Entries and exits nest. Isolates count their entries over all threads, stacks merge entries in a
row only, and an exit is refused, with no effect, exactly when the isolate is not current on the
thread. No thread notices what others enter and exit, nor what it has entered and exited itself. -/
theorem entries_nest (h : run {} ops = some p) :
    ((∃ threads : List ThreadId, threads.Nodup ∧ p.Covers threads) ∧
      ∀ r ∈ p.residents, ∀ threads : List ThreadId, threads.Nodup → p.Covers threads →
        r.isolate.entries = p.entriesOver threads r.isolate.id) ∧
    (∀ t, (∀ item ∈ p.entryStack t, 1 ≤ item.count) ∧
      (p.entryStack t).IsChain fun a b => a.isolate ≠ b.isolate) ∧
    (∀ t id, (p.current t ≠ some id → (exit t id).outcome p = (.error (.refused .notEntered), p)) ∧
      (p.current t = some id → (∀ e, ((exit t id).outcome p).1 ≠ .error (.refused e)) ∧
        ∀ r ∈ p.residents, r.isolate.id = id → r.handles ≠ 0 →
          ((exit t id).outcome p).1 = .ok ())) ∧
    (∀ t id t', t' ≠ t →
      ((enter t id).outcome p).2.current t' = p.current t' ∧
      ((exit t id).outcome p).2.current t' = p.current t' ∧
      ∀ id', ((enter t id).outcome p).2.entriesOn t' id' = p.entriesOn t' id' ∧
        ((exit t id).outcome p).2.entriesOn t' id' = p.entriesOn t' id') ∧
    ∀ t more q, NestedCalls t more → admits t p more = true → p.run more = some q →
      q.current t = p.current t ∧ ∀ id, q.entriesOn t id = p.entriesOn t id := by
  obtain ⟨hp, ht⟩ := Tallied.of_run h
  refine ⟨⟨p.exists_covers, ht.tallied⟩, fun t => ⟨(ht.nests t).counted, (ht.nests t).apart⟩,
    fun t id => ⟨exit_refused, fun hcurrent => ?_⟩, fun t id t' hne => ?_,
    fun t more q hn hadmits hq => ?_⟩
  · obtain ⟨result, q, ho, -, -, hnot, hok⟩ := ht.outcome_exit hp.sound hcurrent
    rw [ho]
    exact ⟨hnot, hok⟩
  · have henter := (ht.enter_keeps hp.sound t id).2 t' hne
    have hexit := (ht.exit_keeps hp.sound t id).2 t' hne
    unfold current entriesOn
    rw [henter, hexit]
    exact ⟨rfl, rfl, fun _ => ⟨rfl, rfl⟩⟩
  · obtain ⟨-, -, hsame⟩ := hn.restores hp ht hadmits hq
    unfold current entriesOn
    rw [hsame]
    exact ⟨rfl, fun _ => rfl⟩

/-- Two threads are in the same isolate, one of them twice. -/
def crossEntries : List LifecycleOperation :=
  [.addPlatform {}, .allocateIn 0 {}, .allocateIn 0 {}, .setUp "main" 1 none none none false,
   .enter "main" 1, .enter "main" 1, .enter "worker" 1]

/-- Through another isolate back into the same one, while the other thread goes on. -/
def thereAndBack : List LifecycleOperation :=
  [.enter "main" 2, .enter "main" 1, .exit "worker" 1, .exit "main" 1, .enter "worker" 2,
   .exit "main" 2]

theorem entries_nest_thereAndBack : ∃ p q, run {} crossEntries = some p ∧
    p.run thereAndBack = some q ∧ q.current "main" = some 1 ∧ q.entriesOn "main" 1 = 2 ∧
    ∀ r ∈ p.residents, r.isolate.id = 1 → r.isolate.entries = 3 := by
  have hsome : (run {} crossEntries).isSome := by decide +kernel
  obtain ⟨p, hp⟩ := Option.isSome_iff_exists.mp hsome
  have hfacts : (run {} crossEntries).map (fun p => (p.current "main", p.entriesOn "main" 1,
      p.entryStacks.map (·.1), p.entriesOver ["worker", "main"] 1)) =
      some (some 1, 2, ["worker", "main"], 3) := by decide +kernel
  have hruns : (run {} crossEntries).map (fun p =>
      (admits "main" p thereAndBack, (p.run thereAndBack).isSome)) = some (true, true) := by
    decide +kernel
  rw [hp] at hfacts hruns
  simp only [Option.map_some, Option.some.injEq, Prod.mk.injEq] at hfacts hruns
  obtain ⟨hbefore, hcount, hkeys, hsum⟩ := hfacts
  obtain ⟨hadmits, hruns⟩ := hruns
  obtain ⟨q, hq⟩ := Option.isSome_iff_exists.mp hruns
  obtain ⟨⟨-, htallied⟩, -, -, -, hnested⟩ := entries_nest hp
  have hwithin : NestedCalls "main" [.exit "worker" 1] := .aside (by simp) .nil
  have hrest : NestedCalls "main" [.enter "worker" 2] := .aside (by simp) .nil
  have hcalls : NestedCalls "main" thereAndBack := .nest (.nest hwithin hrest) .nil
  obtain ⟨hcurrent, hcounts⟩ := hnested "main" thereAndBack q hcalls hadmits hq
  refine ⟨p, q, hp, hq, hcurrent.trans hbefore, (hcounts 1).trans hcount, fun r hr hid => ?_⟩
  have hentries := htallied r hr ["worker", "main"] (by decide) (hkeys ▸ p.covers_keys)
  rw [hentries, hid, hsum]

end Engine

end ScriptEngine

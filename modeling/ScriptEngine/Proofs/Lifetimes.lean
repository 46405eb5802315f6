import Mathlib.Data.List.Chain
import ScriptEngine.Proofs.BlobReferences
import ScriptEngine.Proofs.BookedMemory

namespace ScriptEngine

open ScriptEngine.Action

/-- How the life of an isolate goes on. -/
inductive LifecycleState.Moves : LifecycleState → LifecycleState → Prop
  | setUp : Moves .allocated .initializing
  | ready : Moves .initializing .initialized
  | fail : Moves .initializing .failed
  | tearDownFresh : Moves .allocated .deinitializing
  | tearDown : Moves .initialized .deinitializing
  | tearDownFailed : Moves .failed .deinitializing
  | done : Moves .deinitializing .deinitialized

/-- The states of a life are single moves apart, and it began with allocation. -/
structure Isolate.Lived (i : Isolate) : Prop where
  moves : i.life.IsChain fun later earlier => earlier.Moves later
  start : i.life.getLast? = some .allocated

/-- The life of an isolate goes on from what it has been so far. -/
def Isolate.Outlives (i' i : Isolate) : Prop := i.life <:+ i'.life

/-- Nothing comes after the end. -/
theorem Isolate.Lived.of_ended {i i' : Isolate} (hl : i'.Lived) (h : i'.Outlives i)
    (hs : i.state = .deinitialized) : i'.state = .deinitialized := by
  obtain ⟨passed, hpassed⟩ := h
  have hchain := hl.moves
  rw [← hpassed] at hchain
  cases passed.eq_nil_or_concat with
  | inl hnil =>
    rw [hnil] at hpassed
    exact (List.cons.inj hpassed).1.symm.trans hs
  | inr hlast =>
    obtain ⟨rest, next, rfl⟩ := hlast
    rw [List.concat_eq_append, List.append_assoc] at hchain
    have hmove := (List.isChain_cons_cons.mp (List.isChain_append.mp hchain).2.1).1
    rw [hs] at hmove
    cases hmove

theorem endsFatally_eq_false {result : Except Failure Unit}
    (h : ∀ e, result ≠ .error (.fatal e)) : endsFatally result = false := by
  obtain (e | e) | u := result
  · rfl
  · exact absurd rfl (h e)
  · rfl

namespace Hosted

variable {h h' : Hosted} {t : ThreadId} {refusal : Option String} {snapshots : Option SnapshotSet}
  {result : Except Failure Unit}

/-- Taking an isolate apart is never refused. -/
theorem releaseAll_dies : Meets (fun _ => True) releaseAll (fun _ _ => True)
    fun e _ => ∃ e', e = .fatal e' := by
  refine meets_releaseAll (P := fun _ => True) (Q := fun _ => True) (fun _ _ _ _ => ⟨_, rfl⟩)
    (fun _ _ => trivial) ?_
  refine meets_releaseBlob (fun _ _ _ => trivial) fun h handle _ _ r hr => ?_
  cases ho : (BlobRegistry.release handle).outcome r with
  | mk result r' =>
    cases result with
    | ok u => trivial
    | error e =>
      obtain ⟨misuse, rfl⟩ := BlobRegistry.release_error ho
      exact ⟨_, rfl⟩

/-- Once begun, setting up is refused by the system or by the deserializer only. -/
def RefusedFromOutside (e : IsolateError) : Prop :=
  (∃ text, e = .system text) ∨ ∃ e', e = .snapshot e'

/-- With a deserializer, or without snapshots, nothing else is refused. -/
theorem setUpPhases_refuses {d : Option Deserializer} (hd : snapshots.isSome → d ≠ none) :
    Meets (fun h => h.holding.deserializer = d) (setUpPhases t refusal snapshots) (fun _ _ => True)
      fun e _ => (∃ e', e = .fatal e') ∨ ∃ e', e = .refused e' ∧ RefusedFromOutside e' := by
  have hphases : Meets (fun h => h.holding.deserializer = d) (setUpPhases t refusal snapshots)
      (fun _ h => h.holding.deserializer = d)
      fun e _ => (∃ e', e = .fatal e') ∨ ∃ e', e = .refused e' ∧ RefusedFromOutside e' := by
    refine meets_setUpPhases (P := fun k => k.deserializer = d) (R := fun k => k.deserializer = d)
      (fun _ _ _ hk _ => hk) ?_ (fun _ _ => .inl ⟨_, rfl⟩)
      (fun _ text _ _ => .inr ⟨_, rfl, .inl ⟨text, rfl⟩⟩)
      (fun _ e _ => .inr ⟨_, rfl, .inr ⟨e, rfl⟩⟩) ?_
    · refine meets_setUpBlob (fun _ _ _ => .inl ⟨_, rfl⟩) (fun _ _ hk _ _ => hk)
        fun h hk _ r _ => ?_
      cases ho : (BlobRegistry.createAndSet h.isolate.blob).outcome r with
      | mk result r' =>
        cases result with
        | ok handle => exact hk
        | error e =>
          obtain ⟨misuse, rfl⟩ := BlobRegistry.createAndSet_error ho
          exact .inl ⟨_, rfl⟩
    · intro h hk hsome hnone
      exact absurd (hk.symm.trans hnone) (hd hsome)
  exact hphases.weaken (fun _ hk => hk) (fun _ _ _ => trivial) fun _ _ hf => hf

/-- Setting up that is refused for the state of the isolate, or for want of a deserializer, has not
begun. -/
theorem SetsUp.rejected {e : IsolateError} (hs : SetsUp t h (.error (.refused e)) h')
    (he : e = .noDeserializer ∨ ∃ operation state, e = .invalidState operation state) : h' = h := by
  generalize hr : (.error (.refused e) : Except Failure Unit) = result at hs
  cases hs with
  | mismatched => cases hr
  | late => rfl
  | unable => rfl
  | @ran reached _ _ _ state deserializer phases =>
    cases hr
    have hstart : (h.inState .initializing).holding.deserializer = h.isolate.deserializer := rfl
    obtain ⟨_, hfatal⟩ | ⟨_, hrefused, houtside⟩ :=
      (setUpPhases_refuses deserializer).error hstart phases
    · cases hfatal
    · cases hrefused
      obtain rfl | ⟨_, _, rfl⟩ := he
      · obtain ⟨_, h⟩ | ⟨_, h⟩ := houtside <;> cases h
      · obtain ⟨_, h⟩ | ⟨_, h⟩ := houtside <;> cases h

/-- Tearing down that is refused has not begun. -/
theorem TearsDown.rejected {e : IsolateError} (hs : TearsDown h (.error (.refused e)) h') :
    h' = h := by
  cases hs with
  | busy => rfl
  | died state released =>
    obtain ⟨_, hfatal⟩ := releaseAll_dies.error trivial released
    cases hfatal

theorem SetsUp.late_error (hs : SetsUp t h result h') (state : h.isolate.state ≠ .allocated) :
    ∃ e, result = .error e := by
  cases hs with
  | mismatched => exact ⟨_, rfl⟩
  | late => exact ⟨_, rfl⟩
  | unable => exact ⟨_, rfl⟩
  | ran allocated => exact absurd allocated state

theorem TearsDown.ended (hs : TearsDown h (.ok ()) h') : h'.isolate.state = .deinitialized := by
  cases hs with
  | before state => exact state
  | done => rfl

end Hosted

/-- What an operation makes of an isolate if it is not fatal. -/
inductive Isolate.Goes (i : Isolate) : Isolate → Prop
  | quiet {i' : Isolate} (quiet : i.Quiet i') : Goes i i'
  | setUp {i' : Isolate} (fresh : i.state = .allocated)
      (settled : i'.state = .initialized ∨ i'.state = .failed)
      (past : i'.past = .initializing :: i.life) : Goes i i'
  | tornDown {i' : Isolate}
      (state : i.state = .allocated ∨ i.state = .initialized ∨ i.state = .failed)
      (ended : i'.state = .deinitialized) (past : i'.past = .deinitializing :: i.life)
      (live : i'.liveSubsystems = []) : Goes i i'

theorem Isolate.Quiet.life {i i' : Isolate} (h : i.Quiet i') : i'.life = i.life :=
  congrArg Stake.life h.stake

/-- Between operations no isolate is in the middle of setting up or of tearing down, its life has
been one move after the other, and nothing of it lives on after its end. -/
structure Isolate.Orderly (i : Isolate) : Prop where
  lived : i.Lived
  settled : i.state ≠ .initializing ∧ i.state ≠ .deinitializing
  emptied : i.state = .deinitialized → i.liveSubsystems = []

theorem Isolate.orderly_fresh {i : Isolate} (hs : i.state = .allocated) (hp : i.past = []) :
    i.Orderly where
  lived := by
    have hlife : i.life = [.allocated] := by rw [life, hs, hp]
    exact ⟨hlife ▸ .singleton _, by rw [hlife]; rfl⟩
  settled := by rw [hs]; exact ⟨nofun, nofun⟩
  emptied h := by cases hs.symm.trans h

namespace Isolate.Goes

variable {i i' : Isolate}

theorem outlives (h : i.Goes i') : i'.Outlives i := by
  cases h with
  | quiet quiet => exact ⟨[], quiet.life.symm⟩
  | setUp _ _ past => exact ⟨[i'.state, .initializing], congrArg (i'.state :: ·) past.symm⟩
  | tornDown _ _ past => exact ⟨[i'.state, .deinitializing], congrArg (i'.state :: ·) past.symm⟩

theorem lived (h : i.Goes i') (hi : i.Lived) : i'.Lived := by
  -- Two moves at once, as setting up and tearing down make them.
  have htwo : ∀ s : LifecycleState, i.state.Moves s → s.Moves i'.state → i'.past = s :: i.life →
      i'.Lived := by
    intro s hfirst hsecond past
    have hlife : i'.life = i'.state :: s :: i.life := by rw [life, past]
    refine ⟨?_, ?_⟩
    · rw [hlife]
      exact .cons_cons hsecond (.cons_cons hfirst hi.moves)
    · rw [hlife, List.getLast?_cons_cons, Isolate.life, List.getLast?_cons_cons]
      exact hi.start
  cases h with
  | quiet quiet =>
    have hlife := quiet.life
    exact ⟨hlife ▸ hi.moves, hlife ▸ hi.start⟩
  | setUp fresh settled past =>
    refine htwo .initializing (by rw [fresh]; exact .setUp) ?_ past
    obtain hs | hs := settled
    · rw [hs]
      exact .ready
    · rw [hs]
      exact .fail
  | tornDown state ended past =>
    refine htwo .deinitializing ?_ (by rw [ended]; exact .done) past
    obtain hs | hs | hs := state
    · rw [hs]
      exact .tearDownFresh
    · rw [hs]
      exact .tearDown
    · rw [hs]
      exact .tearDownFailed

theorem orderly (h : i.Goes i') (hi : i.Orderly) : i'.Orderly where
  lived := h.lived hi.lived
  settled := by
    cases h with
    | quiet quiet =>
      have hstate : i'.state = i.state := congrArg Stake.state quiet.stake
      exact hstate ▸ hi.settled
    | setUp fresh settled => obtain hs | hs := settled <;> simp [hs]
    | tornDown state ended => simp [ended]
  emptied hs := by
    cases h with
    | quiet quiet =>
      have hstate : i.state = .deinitialized := (congrArg Stake.state quiet.stake).symm.trans hs
      rw [quiet.live (by rw [hstate]; rfl)]
      exact hi.emptied hstate
    | setUp fresh settled =>
      rw [hs] at settled
      obtain hs | hs := settled <;> cases hs
    | tornDown state ended past live => exact live

end Isolate.Goes

namespace Hosted

variable {h h' : Hosted} {t : ThreadId} {result : Except Failure Unit}

theorem SetsUp.goes (hs : SetsUp t h result h') (calm : endsFatally result = false) :
    h.isolate.Goes h'.isolate := by
  cases hs with
  | mismatched => cases calm
  | late => exact .quiet (.refl _)
  | unable => exact .quiet (.refl _)
  | ran state deserializer phases =>
    have hlife := (setUpPhases_keeps_life _).outcome rfl phases
    obtain (e | e) | u := result
    · exact .setUp state (.inr rfl) hlife
    · cases calm
    · exact .setUp state (.inl rfl) hlife

theorem TearsDown.goes (hs : TearsDown h result h') (calm : endsFatally result = false) :
    h.isolate.Goes h'.isolate := by
  cases hs with
  | before => exact .quiet (.refl _)
  | busy => exact .quiet (.refl _)
  | done state released =>
    have hlive := releaseAll_leaves_nothing.ok trivial released
    have hlife := (releaseAll_keeps_life _).ok rfl released
    exact .tornDown state rfl hlife hlive
  | died state released =>
    obtain ⟨_, rfl⟩ := releaseAll_dies.error trivial released
    cases calm

theorem Task.goes (task : Task h result h') (calm : endsFatally result = false) :
    h.isolate.Goes h'.isolate := by
  cases task with
  | setUp t setsUp => exact setsUp.goes calm
  | tearDown tearsDown => exact tearsDown.goes calm
  | dispose disposes =>
    cases disposes with
    | entered => cases calm
    | ended tearsDown survives => exact tearsDown.goes (endsFatally_eq_false survives)
    | died => cases calm

end Hosted

namespace Engine

variable {p q p' : Engine} {r r' : Resident} {before after : List Resident} {id : IsolateId}
  {i : Isolate} {result : Except Failure Unit}

/-- Whoever is there after a step was there before, or is new. -/
theorem Step.goes (h : p.Step result p') (calm : endsFatally result = false)
    (hr : r' ∈ p'.residents) :
    (∃ r ∈ p.residents, r.isolate.id = r'.isolate.id ∧ r.isolate.Goes r'.isolate) ∨
      (r'.isolate.id = p.nextIsolate ∧ r'.isolate.state = .allocated ∧ r'.isolate.past = []) := by
  cases h with
  | quiet quietly =>
    obtain ⟨r, hmem, -, hquiet⟩ := quietly.mem hr
    exact .inl ⟨r, hmem, (congrArg Stake.id hquiet.stake).symm, .quiet hquiet⟩
  | found o platforms residents =>
    rw [residents] at hr
    exact .inl ⟨r', hr, rfl, .quiet (.refl _)⟩
  | allocate platform reserve platforms residents =>
    rw [residents] at hr
    rcases List.mem_append.mp hr with hr | hr
    · exact .inl ⟨r', hr, rfl, .quiet (.refl _)⟩
    · rw [List.mem_singleton.mp hr]
      exact .inr ⟨rfl, rfl, rfl⟩
  | @act before after r _ _ _ lodges housed task =>
    rcases List.mem_cons.mp (List.perm_middle.mem_iff.mp hr) with rfl | hr
    · exact .inl ⟨r, lodges.mem, (congrArg Prod.fst task.ground).symm, task.goes calm⟩
    · exact .inl ⟨r', lodges.mem_of_around hr, rfl, .quiet (.refl _)⟩
  | @destroy q before after r _ _ _ quietly lodges housed destroys =>
    obtain ⟨s, hs, -, hquiet⟩ := quietly.mem (lodges.mem_of_around hr)
    exact .inl ⟨s, hs, (congrArg Stake.id hquiet.stake).symm, .quiet hquiet⟩

theorem Step.next_le (h : p.Step result p') : p.nextIsolate ≤ p'.nextIsolate := by
  cases h with
  | quiet quietly => exact Nat.le_of_eq quietly.next.symm
  | found o platforms residents next => exact Nat.le_of_eq next.symm
  | allocate platform reserve platforms residents next => exact next ▸ Nat.le_succ _
  | act => exact Nat.le_refl _
  | destroy quietly => exact Nat.le_of_eq quietly.next.symm

theorem mem_of_isolate? (h : p.isolate? id = some i) :
    ∃ r ∈ p.residents, r.isolate = i ∧ i.id = id := by
  obtain ⟨r, hr, rfl⟩ := Option.map_eq_some_iff.mp h
  exact ⟨r, List.mem_of_find?_eq_some hr, rfl, by simpa using List.find?_some hr⟩

theorem Sound.isolate?_of_mem (hp : p.Sound) (hr : r ∈ p.residents) :
    p.isolate? r.isolate.id = some r.isolate := by
  rw [isolate?, hp.resident?_of_mem hr]
  rfl

/-- Everything is in order: budgets book what there is, and so are all isolates. -/
structure Tidy (p : Engine) : Prop where
  sound : p.Sound
  charged : ∀ k host, p.host? k = some host → host.Charged
  orderly : ∀ r ∈ p.residents, r.isolate.Orderly

theorem tidy_empty : Tidy {} where
  sound := sound_empty
  charged k host hk := by cases hk
  orderly r hr := by cases hr

theorem Tidy.step (hp : p.Tidy) (h : p.Step result p') (calm : endsFatally result = false) :
    p'.Tidy where
  sound := h.sound hp.sound
  charged k host' hk := by
    obtain ⟨-, n, o, rfl⟩ | ⟨host, hhost, hstep⟩ := h.host hp.sound hk
    · exact Host.charged_create n o
    · exact hstep.charged (hp.charged k host hhost) calm
  orderly r' hr' := by
    obtain ⟨r, hr, -, hgoes⟩ | ⟨-, hstate, hpast⟩ := h.goes calm hr'
    · exact hgoes.orderly (hp.orderly r hr)
    · exact Isolate.orderly_fresh hstate hpast

/-- The process after operations in a row. There is nothing after a fatal error. -/
def run (p : Engine) : List LifecycleOperation → Option Engine
  | [] => some p
  | op :: rest =>
    if endsFatally (op.perform.outcome p).1 then none else run (op.perform.outcome p).2 rest

/-- What every step keeps that is not fatal, a run keeps. -/
theorem run_induction {P : Engine → Prop} {ops : List LifecycleOperation} (hp : P p)
    (step : ∀ p op, P p → endsFatally ((LifecycleOperation.perform op).outcome p).1 = false →
      P ((LifecycleOperation.perform op).outcome p).2) (h : p.run ops = some q) : P q := by
  induction ops generalizing p with
  | nil => cases h; exact hp
  | cons op rest ih =>
    rw [run] at h
    split at h
    · cases h
    · rename_i hcalm
      exact ih (step p op hp (by simpa using hcalm)) h

theorem Tidy.run {ops : List LifecycleOperation} (hp : p.Tidy) (h : p.run ops = some q) : q.Tidy :=
  run_induction hp (fun _ op hp calm => hp.step (op.step hp.sound) calm) h

/-- The life of an isolate goes on from what it has been so far, as long as it lasts. -/
theorem Tidy.outlives {ops : List LifecycleOperation} {j : Isolate} (hp : p.Tidy)
    (h : p.run ops = some q) (hi : p.isolate? id = some i) (hj : q.isolate? id = some j) :
    j.Outlives i := by
  -- Numbers below the next one are never given again: who has the number is who had it before.
  let Follows (q : Engine) : Prop := q.Tidy ∧ id < q.nextIsolate ∧
    ∀ r ∈ q.residents, r.isolate.id = id → r.isolate.Outlives i
  have hstart : Follows p := by
    obtain ⟨s, hs, rfl, hid⟩ := mem_of_isolate? hi
    refine ⟨hp, hid ▸ hp.sound.numbered s hs, fun r hr hsame => ?_⟩
    have hsome := hp.sound.isolate?_of_mem hr
    rw [hsame, hi] at hsome
    rw [Option.some.inj hsome]
    exact List.suffix_rfl
  have hend : Follows q := by
    refine run_induction hstart (fun p op hfollows calm => ?_) h
    obtain ⟨htidy, hnext, hlives⟩ := hfollows
    have hstep := op.step htidy.sound
    refine ⟨htidy.step hstep calm, Nat.lt_of_lt_of_le hnext hstep.next_le, fun r' hr' hid => ?_⟩
    obtain ⟨r, hr, hsame, hgoes⟩ | ⟨hnew, -⟩ := hstep.goes calm hr'
    · exact (hlives r hr (hsame.trans hid)).trans hgoes.outlives
    · exact absurd (hid.symm.trans hnew) (Nat.ne_of_lt hnext)
  obtain ⟨r, hr, rfl, hid⟩ := mem_of_isolate? hj
  exact hend.2.2 r hr hid

end Engine

end ScriptEngine

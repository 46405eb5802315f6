import Mathlib.Data.List.Forall2
import ScriptEngine.Proofs.Holdings

namespace ScriptEngine.Hosted

open ScriptEngine.Action

variable {h h' : Hosted} {t : ThreadId} {refusal : Option String} {snapshots : Option SnapshotSet}
  {α : Type}

/-- The isolate has reached a state of its life. -/
def inState (h : Hosted) (s : LifecycleState) : Hosted :=
  { h with isolate := h.isolate.inState s }

/-- The ways in which setting up goes, and the state that each one ends in. -/
inductive SetsUp (t : ThreadId) : Hosted → Except Failure Unit → Hosted → Prop
  | mismatched (h : Hosted) : SetsUp t h (.error (.fatal .snapshotArgumentMismatch)) h
  | late {h : Hosted} (state : h.isolate.state ≠ .allocated) :
      SetsUp t h (.error (.refused (.invalidState .setUp h.isolate.state))) h
  | unable {h : Hosted} (deserializer : h.isolate.deserializer = none) :
      SetsUp t h (.error (.refused .noDeserializer)) h
  | ran {h h' : Hosted} {refusal : Option String} {snapshots : Option SnapshotSet}
      {result : Except Failure Unit}
      (state : h.isolate.state = .allocated)
      (deserializer : snapshots.isSome → h.isolate.deserializer ≠ none)
      (phases :
        (setUpPhases t refusal snapshots).outcome (h.inState .initializing) = (result, h')) :
      SetsUp t h result
        (match result with
        | .ok () => h'.inState .initialized
        | .error (.refused _) => h'.inState .failed
        | .error (.fatal _) => h')

theorem setsUp_setUpFrom (t : ThreadId) (refusal : Option String) (snapshots : Option SnapshotSet)
    (h : Hosted) : SetsUp t h ((setUpFrom t refusal snapshots).outcome h).1
      ((setUpFrom t refusal snapshots).outcome h).2 := by
  unfold setUpFrom
  rw [outcome_get_bind]
  dsimp only
  split
  · exact .late ‹_›
  rename_i hstate
  split
  · rename_i hunable
    exact .unable (by simpa using (Bool.and_eq_true_iff.mp hunable).2)
  rename_i hable
  have hdeserializer : snapshots.isSome → h.isolate.deserializer ≠ none := by
    intro hsome hnone
    simp [hsome, hnone] at hable
  cases ho : (setUpPhases t refusal snapshots).outcome (h.inState .initializing) with
  | mk result h' =>
    have hran := SetsUp.ran (Decidable.of_not_not hstate) hdeserializer ho
    have hattempt : (attempt (setUpPhases t refusal snapshots)).outcome (h.inState .initializing) =
        (.ok result, h') := by
      rw [outcome_attempt, ho]
    have hset : (setState .initializing).outcome h = (.ok (), h.inState .initializing) := rfl
    rw [outcome_bind_ok hset, outcome_bind_ok hattempt]
    obtain (e | e) | u := result <;> exact hran

theorem setsUp (t : ThreadId) (startup readOnly shared : Option (List UInt8)) (canRehash : Bool)
    (refusal : Option String) (h : Hosted) :
    SetsUp t h ((setUp t startup readOnly shared canRehash refusal).outcome h).1
      ((setUp t startup readOnly shared canRehash refusal).outcome h).2 := by
  unfold setUp
  split
  · exact setsUp_setUpFrom t refusal none h
  · exact setsUp_setUpFrom t refusal (some _) h
  · exact .mismatched h

/-- What tearing down leaves of an isolate that was taken apart. -/
def tornDown (h : Hosted) : Hosted :=
  Hosted.inState { h with isolate := { h.isolate with interrupts := [], listeners := [] } }
    .deinitialized

/-- The ways in which tearing down goes. -/
inductive TearsDown : Hosted → Except Failure Unit → Hosted → Prop
  | before {h : Hosted} (state : h.isolate.state = .deinitialized) : TearsDown h (.ok ()) h
  | busy {h : Hosted} {s : LifecycleState} (state : h.isolate.state = s)
      (busy : s = .initializing ∨ s = .deinitializing) :
      TearsDown h (.error (.refused (.invalidState .tearDown s))) h
  | done {h h' : Hosted}
      (state : h.isolate.state = .allocated ∨ h.isolate.state = .initialized ∨
        h.isolate.state = .failed)
      (released : releaseAll.outcome (h.inState .deinitializing) = (.ok (), h')) :
      TearsDown h (.ok ()) h'.tornDown
  | died {h h' : Hosted} {e : Failure}
      (state : h.isolate.state = .allocated ∨ h.isolate.state = .initialized ∨
        h.isolate.state = .failed)
      (released : releaseAll.outcome (h.inState .deinitializing) = (.error e, h')) :
      TearsDown h (.error e) h'

theorem outcome_tearDownWith_deinitializing {onDrop : InterruptCallback → Action Hosted α}
    (hs : h.isolate.state = .deinitializing) : (tearDownWith onDrop).outcome h =
      (.error (.refused (.invalidState .tearDown .deinitializing)), h) := by
  unfold tearDownWith
  rw [outcome_get_bind, hs]
  rfl

theorem outcome_tearDownWith_initializing {onDrop : InterruptCallback → Action Hosted α}
    (hs : h.isolate.state = .initializing) : (tearDownWith onDrop).outcome h =
      (.error (.refused (.invalidState .tearDown .initializing)), h) := by
  unfold tearDownWith
  rw [outcome_get_bind, hs]
  rfl

theorem outcome_tearDownWith_deinitialized {onDrop : InterruptCallback → Action Hosted α}
    (hs : h.isolate.state = .deinitialized) : (tearDownWith onDrop).outcome h = (.ok [], h) := by
  unfold tearDownWith
  rw [outcome_get_bind, hs]
  rfl

/-- Dropping a callback while the isolate is torn down comes to what `A` says, and changes
nothing. -/
def Harmless (A : InterruptCallback → α → Prop) (onDrop : InterruptCallback → Action Hosted α) :
    Prop :=
  ∀ c h, h.isolate.state = .deinitializing → ∃ a, (onDrop c).outcome h = (.ok a, h) ∧ A c a

theorem harmless_nothing :
    Harmless (fun _ _ => True) fun _ => (return : Action Hosted Unit) :=
  fun _ _ _ => ⟨(), rfl, trivial⟩

/-- The call came in the middle of tearing down. It was refused, and left everything as it was. -/
structure InnerCall.Refused (call : InnerCall) : Prop where
  busy : call.before.isolate.state = .deinitializing
  result : call.result = .error (.refused (.invalidState .tearDown .deinitializing))
  unchanged : call.after = call.before

/-- The calls of a callback that tears down again: as many as it makes, and all refused. -/
def RefusedAgain (again : InterruptCallback → Nat) (c : InterruptCallback)
    (calls : List InnerCall) : Prop :=
  calls.length = again c ∧ ∀ call ∈ calls, call.Refused

/-- Tearing down is claimed before it starts: a callback that tears down again when it is dropped is
refused. -/
theorem harmless_tearDownAgain (again : InterruptCallback → Nat) :
    Harmless (RefusedAgain again) fun c => tearDownAgain (again c) := by
  intro c h hs
  have hcall : tearDown.outcome h =
      (.error (.refused (.invalidState .tearDown .deinitializing)), h) := by
    rw [tearDown, outcome_ignore, outcome_tearDownWith_deinitializing hs]
    rfl
  show ∃ calls, (tearDownAgain (again c)).outcome h = (.ok calls, h) ∧
    calls.length = again c ∧ ∀ call ∈ calls, call.Refused
  generalize again c = n
  induction n with
  | zero => exact ⟨[], rfl, rfl, fun _ hcall => by cases hcall⟩
  | succ n ih =>
    obtain ⟨calls, ho, hlength, hrefused⟩ := ih
    let first : InnerCall := ⟨h, (tearDown.outcome h).1, h⟩
    refine ⟨first :: calls, ?_, congrArg (· + 1) hlength, fun call hmem => ?_⟩
    · have hattempt : (attempt tearDown).outcome h = (.ok (tearDown.outcome h).1, h) := by
        rw [outcome_attempt, hcall]
      rw [tearDownAgain, outcome_get_bind, outcome_bind_ok hattempt, outcome_get_bind,
        outcome_bind_ok ho]
      rfl
    · rcases List.mem_cons.mp hmem with rfl | hmem
      · exact ⟨hs, congrArg Prod.fst hcall, rfl⟩
      · exact hrefused call hmem

variable {A : InterruptCallback → α → Prop} {onDrop : InterruptCallback → Action Hosted α}

theorem Harmless.outcome_dropCallbacks (hdrop : Harmless A onDrop)
    (callbacks : List InterruptCallback) (hc : h.isolate.interrupts = callbacks)
    (hs : h.isolate.state = .deinitializing) :
    ∃ dropped, (dropCallbacks onDrop callbacks).outcome h =
      (.ok dropped, { h with isolate := { h.isolate with interrupts := [] } }) ∧
      List.Forall₂ A callbacks dropped := by
  induction callbacks generalizing h with
  | nil =>
    obtain ⟨i, platform⟩ := h
    cases i
    cases hc
    exact ⟨[], rfl, .nil⟩
  | cons callback rest ih =>
    let next : Hosted := { h with isolate := { h.isolate with interrupts := rest } }
    have hmodify : (modifyIsolate fun i => { i with interrupts := rest }).outcome h =
        (.ok (), next) :=
      rfl
    obtain ⟨a, hfirst, ha⟩ := hdrop callback next hs
    obtain ⟨dropped, hrest, hdropped⟩ := ih (h := next) rfl hs
    refine ⟨a :: dropped, ?_, .cons ha hdropped⟩
    rw [dropCallbacks, outcome_bind_ok hmodify, outcome_bind_ok hfirst, outcome_bind_ok hrest]
    rfl

theorem outcome_tearDownWith_open
    (hs : h.isolate.state = .allocated ∨ h.isolate.state = .initialized ∨
      h.isolate.state = .failed) :
    (tearDownWith onDrop).outcome h = (do
      setState .deinitializing
      releaseAll
      let dropped ← dropCallbacks onDrop (← get).isolate.interrupts
      modifyIsolate fun i => { i with listeners := [] }
      setState .deinitialized
      return dropped : Action Hosted (List α)).outcome h := by
  unfold tearDownWith
  rw [outcome_get_bind]
  obtain hs | hs | hs := hs <;> rw [hs]

theorem releaseAll_keeps_state
    (released : releaseAll.outcome (h.inState .deinitializing) = (.ok (), h')) :
    h'.isolate.state = .deinitializing := by
  have hlife := (releaseAll_keeps_life _).ok rfl released
  exact (List.cons.inj hlife).1

theorem releaseAll_keeps_interrupts {result : Except Failure Unit}
    (released : releaseAll.outcome (h.inState .deinitializing) = (result, h')) :
    h'.isolate.interrupts = h.isolate.interrupts := by
  have hkept : (releaseAll.outcome (h.inState .deinitializing)).2.isolate.interrupts =
      h.isolate.interrupts := dormant_keepingInterrupts.releasingAll (h.inState .deinitializing)
  rw [released] at hkept
  exact hkept

/-- Once an isolate has been taken apart, the callbacks that wait are dropped, and that is all. -/
theorem Harmless.outcome_tearDownWith (hdrop : Harmless A onDrop)
    (hs : h.isolate.state = .allocated ∨ h.isolate.state = .initialized ∨
      h.isolate.state = .failed)
    (released : releaseAll.outcome (h.inState .deinitializing) = (.ok (), h')) :
    ∃ dropped, (tearDownWith onDrop).outcome h = (.ok dropped, h'.tornDown) ∧
      List.Forall₂ A h.isolate.interrupts dropped := by
  have hset : (setState .deinitializing).outcome h = (.ok (), h.inState .deinitializing) := rfl
  obtain ⟨dropped, ho, hdropped⟩ := hdrop.outcome_dropCallbacks h'.isolate.interrupts rfl
    (releaseAll_keeps_state released)
  refine ⟨dropped, ?_, releaseAll_keeps_interrupts released ▸ hdropped⟩
  rw [outcome_tearDownWith_open hs, outcome_bind_ok hset, outcome_bind_ok released,
    outcome_get_bind, outcome_bind_ok ho]
  rfl

theorem outcome_tearDownWith_stuck {e : Failure}
    (hs : h.isolate.state = .allocated ∨ h.isolate.state = .initialized ∨
      h.isolate.state = .failed)
    (released : releaseAll.outcome (h.inState .deinitializing) = (.error e, h')) :
    (tearDownWith onDrop).outcome h = (.error e, h') := by
  have hset : (setState .deinitializing).outcome h = (.ok (), h.inState .deinitializing) := rfl
  rw [outcome_tearDownWith_open hs, outcome_bind_ok hset, outcome_bind_error released]

/-- Where tearing down succeeds, every callback that waited was dropped. -/
theorem Harmless.dropped (hdrop : Harmless A onDrop) {dropped : List α}
    (hs : h.isolate.state = .allocated ∨ h.isolate.state = .initialized ∨
      h.isolate.state = .failed)
    (ho : (tearDownWith onDrop).outcome h = (.ok dropped, h')) :
    List.Forall₂ A h.isolate.interrupts dropped := by
  cases hreleased : releaseAll.outcome (h.inState .deinitializing) with
  | mk result reached =>
    cases result with
    | error e =>
      rw [outcome_tearDownWith_stuck hs hreleased] at ho
      cases ho
    | ok u =>
      obtain ⟨answers, hend, hanswers⟩ := hdrop.outcome_tearDownWith hs hreleased
      rw [hend] at ho
      cases ho
      exact hanswers

theorem Harmless.tearsDown_open (hdrop : Harmless A onDrop)
    (hs : h.isolate.state = .allocated ∨ h.isolate.state = .initialized ∨
      h.isolate.state = .failed) :
    TearsDown h ((ignore (tearDownWith onDrop)).outcome h).1
      ((ignore (tearDownWith onDrop)).outcome h).2 := by
  rw [outcome_ignore]
  cases ho : releaseAll.outcome (h.inState .deinitializing) with
  | mk result h' =>
    cases result with
    | error e =>
      rw [outcome_tearDownWith_stuck hs ho]
      exact .died hs ho
    | ok u =>
      obtain ⟨dropped, hend, -⟩ := hdrop.outcome_tearDownWith hs ho
      rw [hend]
      exact .done hs ho

theorem Harmless.tearsDown (hdrop : Harmless A onDrop) (h : Hosted) :
    TearsDown h ((ignore (tearDownWith onDrop)).outcome h).1
      ((ignore (tearDownWith onDrop)).outcome h).2 := by
  cases hs : h.isolate.state with
  | allocated => exact hdrop.tearsDown_open (.inl hs)
  | initialized => exact hdrop.tearsDown_open (.inr (.inl hs))
  | failed => exact hdrop.tearsDown_open (.inr (.inr hs))
  | deinitialized =>
    rw [outcome_ignore, outcome_tearDownWith_deinitialized hs]
    exact .before hs
  | initializing =>
    rw [outcome_ignore, outcome_tearDownWith_initializing hs]
    exact .busy hs (.inl rfl)
  | deinitializing =>
    rw [outcome_ignore, outcome_tearDownWith_deinitializing hs]
    exact .busy hs (.inr rfl)

/-- Disposing is tearing down, except that nobody hears of a refusal. -/
inductive Disposes : Hosted → Except Failure Unit → Hosted → Prop
  | entered {h : Hosted} (entries : h.isolate.entries ≠ 0) :
      Disposes h (.error (.fatal (.outstandingEntries h.isolate.id h.isolate.entries))) h
  | ended {h h' : Hosted} {result : Except Failure Unit} (tearsDown : TearsDown h result h')
      (survives : ∀ e, result ≠ .error (.fatal e)) : Disposes h (.ok ()) h'
  | died {h h' : Hosted} {e : FatalError} (tearsDown : TearsDown h (.error (.fatal e)) h') :
      Disposes h (.error (.fatal e)) h'

theorem Harmless.disposes (hdrop : Harmless A onDrop) (h : Hosted) :
    Disposes h ((ignore (disposeWith onDrop)).outcome h).1
      ((ignore (disposeWith onDrop)).outcome h).2 := by
  rw [outcome_ignore]
  unfold disposeWith
  rw [outcome_get_bind]
  unfold checkNoEntries
  split
  · have htears := hdrop.tearsDown h
    rw [outcome_ignore] at htears
    cases ho : (tearDownWith onDrop).outcome h with
    | mk result h' =>
      rw [ho] at htears
      have hattempt : (attempt (tearDownWith onDrop)).outcome h = (.ok result, h') := by
        rw [outcome_attempt, ho]
      have hentries : (ofWalk (.ok ()) : Action Hosted Unit).outcome h = (.ok (), h) := rfl
      rw [outcome_bind_ok hentries, outcome_bind_ok hattempt]
      obtain (e | e) | dropped := result
      · exact .ended htears (by simp [Except.map])
      · exact .died htears
      · exact .ended htears (by simp [Except.map])
  · exact .entered ‹_›

/-- A fatal error in the middle of setting up or of tearing down is as good as a failure. -/
def settled (h : Hosted) : Hosted :=
  if h.isolate.state = .initializing ∨ h.isolate.state = .deinitializing then h.inState .failed
  else h

@[simp]
theorem entries_settled : h.settled.isolate.entries = h.isolate.entries := by
  unfold settled
  split <;> rfl

theorem settled_platform : h.settled.platform = h.platform := by
  unfold settled
  split <;> rfl

/-- The memory of the isolate itself is back. -/
def withoutRegion (h : Hosted) : Hosted :=
  ⟨{ h.isolate with region := none },
    (h.isolate.region.map h.platform.release).getD h.platform⟩

/-- The ways in which an isolate ends. -/
inductive Destroys : Hosted → Except Failure Unit → Hosted → Prop
  | entered {h : Hosted} (entries : h.isolate.entries ≠ 0) :
      Destroys h (.error (.fatal (.outstandingEntries h.isolate.id h.isolate.entries))) h
  | died {h h' : Hosted} {e : FatalError} (tearsDown : TearsDown h.settled (.error (.fatal e)) h') :
      Destroys h (.error (.fatal e)) h'
  | alive {h h' : Hosted} {result : Except Failure Unit} (tearsDown : TearsDown h.settled result h')
      (survives : ∀ e, result ≠ .error (.fatal e)) (live : h'.isolate.liveSubsystems ≠ []) :
      Destroys h (.error (.fatal (.invariantViolation
        (.droppedAlive h'.isolate.id h'.isolate.liveSubsystems)))) h'
  | gone {h h' : Hosted} {result : Except Failure Unit} (tearsDown : TearsDown h.settled result h')
      (survives : ∀ e, result ≠ .error (.fatal e)) (live : h'.isolate.liveSubsystems = []) :
      Destroys h (.ok ()) h'.withoutRegion

theorem destroys (h : Hosted) : Destroys h (destroy.outcome h).1 (destroy.outcome h).2 := by
  unfold destroy
  rw [outcome_get_bind]
  dsimp only
  by_cases hentries : h.isolate.entries = 0
  · have hpass : (ofWalk (checkNoEntries h.isolate) : Action Hosted Unit).outcome h =
        (.ok (), h) := by
      rw [checkNoEntries, if_pos hentries]
      rfl
    rw [outcome_bind_ok hpass]
    have hsettle : ∀ rest : Action Hosted Unit,
        (if h.isolate.state = .initializing ∨ h.isolate.state = .deinitializing then
          setState .failed >>= fun _ => rest else rest).outcome h = rest.outcome h.settled := by
      intro rest
      unfold settled
      split
      · exact outcome_bind_ok rfl
      · rfl
    rw [hsettle]
    have hdisposes :
        Disposes h.settled (dispose.outcome h.settled).1 (dispose.outcome h.settled).2 :=
      harmless_nothing.disposes h.settled
    cases ho : dispose.outcome h.settled with
    | mk result h' =>
      rw [ho] at hdisposes
      cases hdisposes with
      | entered hne =>
        refine absurd hentries ?_
        rwa [entries_settled] at hne
      | died tearsDown =>
        rw [outcome_bind_error ho]
        exact .died tearsDown
      | ended tearsDown survives =>
        rw [outcome_bind_ok ho, outcome_get_bind]
        by_cases hlive : h'.isolate.liveSubsystems = []
        · have hgone := Destroys.gone tearsDown survives hlive
          rw [if_neg (by simp [hlive])]
          unfold withoutRegion at hgone
          cases hregion : h'.isolate.region with
          | none =>
            rw [hregion] at hgone
            exact hgone
          | some r =>
            rw [hregion] at hgone
            exact hgone
        · rw [if_pos (by simpa using hlive)]
          exact .alive tearsDown survives hlive
  · have hentered : (ofWalk (checkNoEntries h.isolate) : Action Hosted Unit).outcome h =
        (.error (.fatal (.outstandingEntries h.isolate.id h.isolate.entries)), h) := by
      rw [checkNoEntries, if_neg hentries]
      rfl
    rw [outcome_bind_error hentered]
    exact .entered hentries

variable {result : Except Failure Unit}

theorem inState_ground (s : LifecycleState) : (h.inState s).holding.ground = h.holding.ground := rfl

theorem SetsUp.ground (hs : SetsUp t h result h') : h'.holding.ground = h.holding.ground := by
  cases hs with
  | mismatched => rfl
  | late => rfl
  | unable => rfl
  | ran state deserializer phases =>
    have hg := (setUpPhases_keeps_ground _).outcome (inState_ground _) phases
    obtain (e | e) | u := result <;> exact hg

theorem TearsDown.ground (hs : TearsDown h result h') : h'.holding.ground = h.holding.ground := by
  cases hs with
  | before => rfl
  | busy => rfl
  | done state released =>
    have hg := (releaseAll_keeps_ground _).ok (inState_ground _) released
    exact hg
  | died state released => exact (releaseAll_keeps_ground _).error (inState_ground _) released

theorem Disposes.ground (hs : Disposes h result h') : h'.holding.ground = h.holding.ground := by
  cases hs with
  | entered => rfl
  | ended tearsDown => exact tearsDown.ground
  | died tearsDown => exact tearsDown.ground

theorem settled_ground : h.settled.holding.ground = h.holding.ground := by
  unfold settled
  split <;> rfl

theorem withoutRegion_ground : h.withoutRegion.holding.ground = h.holding.ground := by
  unfold withoutRegion
  cases h.isolate.region <;> rfl

theorem Destroys.ground (hs : Destroys h result h') : h'.holding.ground = h.holding.ground := by
  cases hs with
  | entered => rfl
  | died tearsDown => exact tearsDown.ground.trans settled_ground
  | alive tearsDown => exact tearsDown.ground.trans settled_ground
  | gone tearsDown => exact withoutRegion_ground.trans (tearsDown.ground.trans settled_ground)

end ScriptEngine.Hosted

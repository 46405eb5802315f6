import ScriptEngine.Proofs.Evolution

namespace ScriptEngine.Action

variable {σ τ α β : Type} {P P' : σ → Prop} {Q Q' : α → σ → Prop} {F F' : Failure → σ → Prop}
  {act : Action σ α} {s s' : σ}

/-- From a state with `P` the action ends with `Q` of its result or, where it fails, with `F` of
the failure. -/
def Meets (P : σ → Prop) (act : Action σ α) (Q : α → σ → Prop) (F : Failure → σ → Prop) : Prop :=
  ∀ s, P s →
    match act.outcome s with
    | (.ok a, s') => Q a s'
    | (.error e, s') => F e s'

theorem Meets.ok {a : α} (h : Meets P act Q F) (hs : P s) (ho : act.outcome s = (.ok a, s')) :
    Q a s' := by
  have hend := h s hs
  rw [ho] at hend
  exact hend

theorem Meets.error {e : Failure} (h : Meets P act Q F) (hs : P s)
    (ho : act.outcome s = (.error e, s')) : F e s' := by
  have hend := h s hs
  rw [ho] at hend
  exact hend

theorem Meets.outcome {R : σ → Prop} {result : Except Failure α}
    (h : Meets P act (fun _ => R) fun _ => R) (hs : P s) (ho : act.outcome s = (result, s')) :
    R s' := by
  cases result with
  | ok a => exact h.ok hs ho
  | error e => exact h.error hs ho

theorem Meets.weaken (h : Meets P act Q F) (hP : ∀ s, P' s → P s) (hQ : ∀ a s, Q a s → Q' a s)
    (hF : ∀ e s, F e s → F' e s) : Meets P' act Q' F' := by
  intro s hs
  cases ho : act.outcome s with
  | mk result s' =>
    cases result with
    | ok a => exact hQ a s' (h.ok (hP s hs) ho)
    | error e => exact hF e s' (h.error (hP s hs) ho)

theorem Meets.strengthen (h : Meets P act Q F) (hP : ∀ s, P' s → P s) : Meets P' act Q F :=
  h.weaken hP (fun _ _ hq => hq) fun _ _ hf => hf

/-- The contract is only about states of one kind. -/
theorem meets_of_forall (h : ∀ s, P s → Meets (· = s) act Q F) : Meets P act Q F :=
  fun s hs => h s hs s rfl

theorem meets_any (hQ : ∀ a s, Q a s) (hF : ∀ e s, F e s) : Meets P act Q F := by
  intro s _
  cases act.outcome s with
  | mk result s' =>
    cases result with
    | ok a => exact hQ a s'
    | error e => exact hF e s'

theorem meets_pure {a : α} (h : ∀ s, P s → Q a s) : Meets P (pure a) Q F := h

theorem meets_refuse {e : IsolateError} (h : ∀ s, P s → F (.refused e) s) :
    Meets P (refuse e) Q F := h

theorem meets_die {e : FatalError} (h : ∀ s, P s → F (.fatal e) s) : Meets P (die e) Q F := h

theorem meets_modify {f : σ → σ} {Q : PUnit → σ → Prop} (h : ∀ s, P s → Q ⟨⟩ (f s)) :
    Meets P (modify f) Q F := h

theorem meets_set {s : σ} {Q : PUnit → σ → Prop} (h : Q ⟨⟩ s) : Meets P (set s) Q F :=
  fun _ _ => h

/-- What follows a look at the state starts from the state that was seen. -/
theorem meets_get_bind {f : σ → Action σ α} (h : ∀ s, P s → Meets (· = s) (f s) Q F) :
    Meets P (get >>= f) Q F :=
  fun s hs => h s hs s rfl

theorem meets_get_bind_at {f : σ → Action σ α} (h : Meets (· = s) (f s) Q F) :
    Meets (· = s) (get >>= f) Q F := by
  rintro _ rfl
  exact h _ rfl

theorem Meets.bind {f : α → Action σ β} {R : β → σ → Prop} (h : Meets P act Q F)
    (hf : ∀ a, Meets (Q a) (f a) R F) : Meets P (act >>= f) R F := by
  intro s hs
  rw [outcome_bind]
  cases ho : act.outcome s with
  | mk result s' =>
    cases result with
    | ok a => exact hf a s' (h.ok hs ho)
    | error e => exact h.error hs ho

/-- From one state, what the action comes to is all there is to look at. -/
theorem meets_at (h : match act.outcome s with
    | (.ok a, s') => Q a s'
    | (.error e, s') => F e s') : Meets (· = s) act Q F := by
  rintro _ rfl
  exact h

/-- From one state, whose next one is known. -/
theorem meets_bind_ok {f : α → Action σ β} {R : β → σ → Prop} {a : α}
    (ho : act.outcome s = (.ok a, s')) (hf : Meets (· = s') (f a) R F) :
    Meets (· = s) (act >>= f) R F := by
  rintro _ rfl
  rw [outcome_bind_ok ho]
  exact hf s' rfl

/-- An action that may be left out keeps what is true before it. -/
theorem meets_when {c : Prop} [Decidable c] {first : Action σ Unit} {rest : Action σ α}
    (h : Meets P first (fun _ => P) F) (hrest : Meets P rest Q F) :
    Meets P (if c then first >>= fun _ => rest else rest) Q F := by
  split
  · exact h.bind fun _ => hrest
  · exact hrest

theorem meets_onPart {get : σ → τ} {put : τ → σ → σ} {act : Action τ α}
    (h : ∀ s, P s → Meets (· = get s) act (fun a part => Q a (put part s))
      (fun e part => F e (put part s))) :
    Meets P (onPart get put act) Q F := by
  intro s hs
  show match ((act.outcome (get s)).1, put (act.outcome (get s)).2 s) with
    | (.ok a, s') => Q a s'
    | (.error e, s') => F e s'
  cases ho : act.outcome (get s) with
  | mk result part =>
    cases result with
    | ok a => exact (h s hs).ok rfl ho
    | error e => exact (h s hs).error rfl ho

theorem outcome_set (s s' : σ) : (set s' : Action σ PUnit).outcome s = (.ok ⟨⟩, s') := rfl

theorem outcome_attempt (act : Action σ α) (s : σ) :
    (attempt act).outcome s = (.ok (act.outcome s).1, (act.outcome s).2) := rfl

end ScriptEngine.Action

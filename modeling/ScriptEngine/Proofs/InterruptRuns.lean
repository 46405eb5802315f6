import ScriptEngine.Proofs.InterruptMachine

namespace ScriptEngine

open ScriptEngine.Action

namespace InterruptService

open Hosted

variable {t : ThreadId} {s s' : InterruptService}

/-- What has been begun, followed by what waits, is what was requested. -/
def Ordered (s : InterruptService) : Prop := s.ran ++ s.queue = s.requested

/-- What a step does to callbacks and to what keeps them from being forgotten: the flag, a thread
that is about to set it, or a call that runs them. -/
structure Effect (s s' : InterruptService) : Prop where
  ordered : s.Ordered → s'.Ordered
  requested : s.requested <+: s'.requested
  ran : s.ran <+: s'.ran
  waiting : s'.queue ≠ [] → s.queue ≠ [] ∨ .ask ∈ s'.calls ∨ 0 < s'.owed
  owed : 0 < s.owed → 0 < s'.owed ∨ s'.isAsked
  asks : .ask ∈ s.calls → .ask ∈ s'.calls ∨ s'.isAsked
  flag : s.isAsked → s'.isAsked ∨ .drain ∈ s'.calls
  checks : s.isAsked → .calls ∈ s.calls → .calls ∈ s'.calls ∧ s'.isAsked ∨ .drain ∈ s'.calls
  drains : .drain ∈ s.calls → .drain ∈ s'.calls ∨ s'.queue = []

section Effects

variable {h h' : Hosted} {calls : List InterruptCall} {owed : Nat}
  {requested ran : List InterruptCallback}

/-- Nothing is forgotten where the callbacks stay as they are, and the calls on which they rest. -/
theorem effect_of_stays {calls' : List InterruptCall} (leaves : keepingCallbacks.rel h h')
    (stays : ∀ call : InterruptCall, call.attends → call ∈ calls → call ∈ calls') :
    Effect ⟨h, calls, owed, requested, ran⟩ ⟨h', calls', owed, requested, ran⟩ := by
  obtain ⟨hqueue, hflag⟩ := leaves
  exact
    { ordered := fun h => by rw [Ordered, queue, hqueue]; exact h
      requested := List.prefix_rfl
      ran := List.prefix_rfl
      waiting := fun h => .inl (by rw [queue, hqueue] at h; exact h)
      owed := .inl
      asks := fun h => .inl (stays _ rfl h)
      flag := fun h => .inl (by rw [isAsked, hflag]; exact h)
      checks := fun h hmem => .inl ⟨stays _ rfl hmem, by rw [isAsked, hflag]; exact h⟩
      drains := fun h => .inl (stays _ rfl h) }

/-- A call on which no callback rests makes way for others. -/
theorem effect_replace {call : InterruptCall} (hcall : call.attends = false)
    (others : List InterruptCall) (leaves : keepingCallbacks.rel h h') :
    Effect ⟨h, call :: calls, owed, requested, ran⟩
      ⟨h', others ++ calls, owed, requested, ran⟩ := by
  refine effect_of_stays leaves fun c hc hmem => ?_
  rcases List.mem_cons.mp hmem with rfl | hmem
  · rw [hcall] at hc
    cases hc
  · exact List.mem_append_right _ hmem

end Effects

theorem Advances.effect (h : Advances t s s') : Effect s s' := by
  cases h with
  | divert => exact effect_replace rfl [.terminate] ⟨rfl, rfl⟩
  | terminate outcome => exact effect_replace rfl [] (terminate_keepsCallbacks outcome)
  | pass => exact effect_replace rfl [.calls] ⟨rfl, rfl⟩
  | find => constructor <;> grind [Ordered, queue, isAsked]
  | miss clear => constructor <;> grind [Ordered, queue, isAsked]
  | take waiting => constructor <;> grind [Ordered, queue, isAsked]
  | drained empty => constructor <;> grind [Ordered, queue, isAsked]
  | finish => exact effect_replace rfl [] ⟨rfl, rfl⟩
  | perform plain outcome =>
    exact effect_replace rfl [.report, .actions _] ((meets_plain plain _).ok rfl outcome)
  | request => constructor <;> grind [Ordered, queue, isAsked]
  | handle => exact effect_replace rfl [.check, .report, .actions _] ⟨rfl, rfl⟩
  | invoke => exact effect_replace rfl [.drain, .report, .actions _] ⟨rfl, rfl⟩
  | ask => constructor <;> grind [Ordered, queue, isAsked]
  | report result => exact effect_replace rfl [] ⟨rfl, rfl⟩

/-- A check that finds a request for termination does nothing to callbacks until it ends. -/
theorem Advances.diverts (h : Advances t s s')
    (check : s.calls.head? = some .check ∨ s.calls.head? = some .terminate) :
    keepingCallbacks.rel s.host s'.host := by
  cases h with
  | divert => exact ⟨rfl, rfl⟩
  | pass => exact ⟨rfl, rfl⟩
  | terminate outcome => exact terminate_keepsCallbacks outcome
  | _ => simp at check

theorem Step.effect (h : Step t s s') : Effect s s' := by
  cases h with
  | handle => exact effect_of_stays ⟨rfl, rfl⟩ fun _ _ h => by cases h
  | invoke => exact effect_of_stays ⟨rfl, rfl⟩ fun _ _ h => by cases h
  | own advances => exact advances.effect
  | queue c => constructor <;> grind [Ordered, InterruptService.queue, isAsked]
  | ask => constructor <;> grind [Ordered, InterruptService.queue, isAsked]
  | elsewhere leaves => exact effect_of_stays leaves fun _ _ h => h

/-- Somebody looks after the callbacks that wait: the flag is set, or about to be, or they are being
run. -/
def Awake (s : InterruptService) : Prop :=
  s.queue ≠ [] → s.isAsked ∨ .drain ∈ s.calls ∨ .ask ∈ s.calls ∨ 0 < s.owed

/-- These callbacks have been begun, or will be found by the next check that gets to them. -/
def Waits (l : List InterruptCallback) (s : InterruptService) : Prop :=
  l <+: s.ran ∨ s.isAsked ∨ .drain ∈ s.calls ∨ .ask ∈ s.calls

/-- These callbacks have been begun, or will be before the calls in progress have ended. -/
def Sees (l : List InterruptCallback) (s : InterruptService) : Prop :=
  l <+: s.ran ∨ .drain ∈ s.calls ∨ .calls ∈ s.calls ∧ s.isAsked

/-- Nothing waits where everything was begun. -/
theorem Ordered.ran_of_empty (h : s.Ordered) (hq : s.queue = []) : s.ran = s.requested := by
  rw [Ordered, hq, List.append_nil] at h
  exact h

namespace Effect

variable {l : List InterruptCallback} (e : Effect s s')
include e

theorem awake (h : s.Awake) : s'.Awake := by
  intro hwaiting
  rcases e.waiting hwaiting with hq | hask | howed
  · rcases h hq with hflag | hdrain | hask | howed
    · rcases e.flag hflag with hflag | hdrain
      · exact .inl hflag
      · exact .inr (.inl hdrain)
    · exact .inr (.inl ((e.drains hdrain).resolve_right hwaiting))
    · rcases e.asks hask with hask | hflag
      · exact .inr (.inr (.inl hask))
      · exact .inl hflag
    · rcases e.owed howed with howed | hflag
      · exact .inr (.inr (.inr howed))
      · exact .inl hflag
  · exact .inr (.inr (.inl hask))
  · exact .inr (.inr (.inr howed))

/-- A call that runs callbacks ends when all that were requested have been begun. -/
theorem drains_or_ran (ho : s.Ordered) (hl : l <+: s.requested) (h : .drain ∈ s.calls) :
    .drain ∈ s'.calls ∨ l <+: s'.ran := by
  rcases e.drains h with hdrain | hempty
  · exact .inl hdrain
  · refine .inr ?_
    rw [(e.ordered ho).ran_of_empty hempty]
    exact hl.trans e.requested

theorem waits (ho : s.Ordered) (hl : l <+: s.requested) (h : s.Waits l) : s'.Waits l := by
  rcases h with hran | hflag | hdrain | hask
  · exact .inl (hran.trans e.ran)
  · rcases e.flag hflag with hflag | hdrain
    · exact .inr (.inl hflag)
    · exact .inr (.inr (.inl hdrain))
  · rcases e.drains_or_ran ho hl hdrain with hdrain | hran
    · exact .inr (.inr (.inl hdrain))
    · exact .inl hran
  · rcases e.asks hask with hask | hflag
    · exact .inr (.inr (.inr hask))
    · exact .inr (.inl hflag)

theorem sees (ho : s.Ordered) (hl : l <+: s.requested) (h : s.Sees l) : s'.Sees l := by
  rcases h with hran | hdrain | ⟨hcalls, hflag⟩
  · exact .inl (hran.trans e.ran)
  · rcases e.drains_or_ran ho hl hdrain with hdrain | hran
    · exact .inr (.inl hdrain)
    · exact .inl hran
  · rcases e.checks hflag hcalls with hchecks | hdrain
    · exact .inr (.inr hchecks)
    · exact .inr (.inl hdrain)

end Effect

namespace Run

variable (run : Run t s s')
include run

theorem ordered (h : s.Ordered) : s'.Ordered := by
  induction run with
  | refl => exact h
  | tail _ step ih => exact step.effect.ordered ih

theorem requested : s.requested <+: s'.requested := by
  induction run with
  | refl => exact List.prefix_rfl
  | tail _ step ih => exact ih.trans step.effect.requested

theorem awake (h : s.Awake) : s'.Awake := by
  induction run with
  | refl => exact h
  | tail _ step ih => exact step.effect.awake ih

theorem waits {l : List InterruptCallback} (ho : s.Ordered) (hl : l <+: s.requested)
    (h : s.Waits l) : s'.Waits l := by
  induction run with
  | refl => exact h
  | tail before step ih =>
    exact step.effect.waits (ordered before ho) (hl.trans (requested before)) ih

theorem sees {l : List InterruptCallback} (ho : s.Ordered) (hl : l <+: s.requested)
    (h : s.Sees l) : s'.Sees l := by
  induction run with
  | refl => exact h
  | tail before step ih =>
    exact step.effect.sees (ordered before ho) (hl.trans (requested before)) ih

end Run

/-- Whoever runs callbacks comes back when all that were requested by then have been begun. -/
theorem Run.drained (run : Run t s s') (ho : s.Ordered) (drain : .drain ∈ s.calls)
    (idle : s'.calls = []) : s.requested <+: s'.ran := by
  have hsees : s'.Sees s.requested := run.sees ho List.prefix_rfl (.inr (.inl drain))
  simpa [Sees, idle] using hsees

/-- A check that no termination diverts runs all callbacks that waited between operations. -/
theorem Run.served {s'' : InterruptService} (run : Run t s s') (ho : s.Ordered) (awake : s.Awake)
    (idle : s.calls = []) (settled : s.owed = 0) (check : s'.calls = [.calls])
    (rest : Run t s' s'') (done : s''.calls = []) : s.requested <+: s''.ran := by
  have hwaits : s.Waits s.requested := by
    by_cases hq : s.queue = []
    · exact .inl (ho.ran_of_empty hq ▸ List.prefix_rfl)
    · have hflag := awake hq
      simp only [idle, settled, List.not_mem_nil, Nat.lt_irrefl, or_false] at hflag
      exact .inr (.inl hflag)
  have hsees : s'.Sees s.requested := by
    rcases run.waits ho List.prefix_rfl hwaits with hran | hflag | hdrain | hask
    · exact .inl hran
    · exact .inr (.inr ⟨check ▸ List.mem_singleton_self _, hflag⟩)
    · simp [check] at hdrain
    · simp [check] at hask
  have hend := rest.sees (run.ordered ho) run.requested hsees
  simpa [Sees, done] using hend

end InterruptService

/-- A bound on the steps of a call, apart from what it finds in the queue. -/
def InterruptCall.effort : InterruptCall → Nat
  | check => 3
  | calls => 2
  | actions rest => 6 * InterruptAction.totalWeight rest + 1
  | terminate | drain | ask | report => 1

def InterruptCall.totalEffort : List InterruptCall → Nat
  | [] => 0
  | call :: rest => call.effort + totalEffort rest

namespace Hosted

variable {h h' : Hosted} {c : InterruptCallback} {rest : List InterruptCallback}

/-- A bound on the steps that running the waiting callbacks takes. -/
def queueEffort (h : Hosted) : Nat :=
  6 * InterruptAction.totalWeight h.isolate.interrupts.flatten + 2 * h.isolate.interrupts.length

theorem queueEffort_eq (same : h'.isolate.interrupts = h.isolate.interrupts) :
    h'.queueEffort = h.queueEffort := by
  rw [queueEffort, queueEffort, same]

theorem queueEffort_take (waiting : h.isolate.interrupts = c :: rest) :
    h.queueEffort = (h.withQueue rest).queueEffort + 6 * InterruptAction.totalWeight c + 2 := by
  simp only [queueEffort, waiting, interrupts_withQueue, List.flatten_cons, List.length_cons,
    InterruptAction.totalWeight_append]
  omega

theorem queueEffort_queued :
    (h.queued c).queueEffort = h.queueEffort + 6 * InterruptAction.totalWeight c + 2 := by
  simp only [queueEffort, interrupts_queued, List.flatten_append, List.flatten_cons,
    List.flatten_nil, List.append_nil, List.length_append, List.length_cons, List.length_nil,
    InterruptAction.totalWeight_append]
  omega

end Hosted

namespace InterruptService

open Hosted

variable {t : ThreadId} {s s' : InterruptService}

/-- A bound on the steps until the thread has nothing to do, if the others leave it alone. -/
def effort (s : InterruptService) : Nat :=
  s.host.queueEffort + InterruptCall.totalEffort s.calls

/-- Every step of its own takes the thread nearer to the end. -/
theorem Advances.effort_lt (h : Advances t s s') : s'.effort < s.effort := by
  unfold effort
  cases h <;> simp only [InterruptCall.totalEffort, InterruptCall.effort,
    InterruptAction.totalWeight]
  case divert h _ _ _ _ _ =>
    have hqueue := queueEffort_eq (interrupts_withoutFlag h .terminate)
    omega
  case terminate outcome =>
    have hqueue := queueEffort_eq (terminate_keepsCallbacks outcome).1
    omega
  case find h _ _ _ _ _ =>
    have hqueue := queueEffort_eq (interrupts_withoutFlag h .api)
    omega
  case take waiting =>
    have hqueue := queueEffort_take waiting
    omega
  case perform a _ _ _ plain outcome =>
    have hqueue := queueEffort_eq ((meets_plain plain _).ok rfl outcome).1
    have hweight := a.weight_pos
    omega
  case request h _ _ _ _ c _ =>
    have hqueue := queueEffort_queued (h := h) (c := c)
    rw [InterruptAction.weight]
    omega
  case handle =>
    have hweight := InterruptAction.weight_pos .handleInterrupts
    omega
  case invoke =>
    have hweight := InterruptAction.weight_pos .invokeCallbacks
    omega
  case ask h _ _ _ _ =>
    have hqueue := queueEffort_eq (interrupts_withFlag h .api)
    omega
  case report h _ _ _ _ result =>
    have hqueue : ({ h with isolate := h.isolate.emit (.action result) } : Hosted).queueEffort =
        h.queueEffort := rfl
    omega
  all_goals omega

/-- Nothing that waits or is being run tears the isolate down. -/
def Spared (s : InterruptService) : Prop :=
  (∀ c ∈ s.queue, InterruptAction.allSpare c) ∧ ∀ call ∈ s.calls, call.spares

theorem Advances.spared (h : Advances t s s') (hs : s.Spared) : s'.Spared := by
  unfold Spared queue at hs ⊢
  cases h with
  | terminate outcome =>
    rw [(terminate_keepsCallbacks outcome).1]
    exact ⟨hs.1, (List.forall_mem_cons.mp hs.2).2⟩
  | take waiting =>
    rw [waiting] at hs
    obtain ⟨hc, hrest⟩ := List.forall_mem_cons.mp hs.1
    exact ⟨hrest, List.forall_mem_cons.mpr ⟨hc, hs.2⟩⟩
  | perform plain outcome =>
    rw [((meets_plain plain _).ok rfl outcome).1]
    simp only [List.forall_mem_cons, InterruptCall.spares, InterruptAction.allSpare,
      Bool.and_eq_true] at hs ⊢
    exact ⟨hs.1, trivial, hs.2.1.2, hs.2.2⟩
  | request =>
    simp only [List.forall_mem_cons, InterruptCall.spares, InterruptAction.allSpare,
      InterruptAction.spares, Bool.and_eq_true, interrupts_queued, List.forall_mem_append] at hs ⊢
    exact ⟨⟨hs.1, hs.2.1.1, List.forall_mem_nil _⟩, trivial, trivial, hs.2.1.2, hs.2.2⟩
  | report => exact ⟨hs.1, (List.forall_mem_cons.mp hs.2).2⟩
  | _ =>
    refine ⟨hs.1, ?_⟩
    simpa [InterruptCall.spares, InterruptAction.allSpare, InterruptAction.spares] using hs.2

theorem Step.spared (h : Step t s s') (hs : s.Spared) : s'.Spared := by
  cases h with
  | handle => exact ⟨hs.1, by simp [InterruptCall.spares]⟩
  | invoke => exact ⟨hs.1, by simp [InterruptCall.spares]⟩
  | own advances => exact advances.spared hs
  | queue c spares => exact ⟨List.forall_mem_append.mpr ⟨hs.1, by simpa using spares⟩, hs.2⟩
  | ask => exact hs
  | elsewhere leaves => exact ⟨by rw [InterruptService.queue, leaves.1]; exact hs.1, hs.2⟩

theorem Run.spared (run : Run t s s') (hs : s.Spared) : s'.Spared := by
  induction run with
  | refl => exact hs
  | tail _ step ih => exact step.spared ih

/-- The next action of a callback is fatal. -/
def Dies (t : ThreadId) (s : InterruptService) : Prop :=
  ∃ a rest calls e h', s.calls = .actions (a :: rest) :: calls ∧
    (performFor t 1 a).outcome s.host = (.error (.fatal e), h')

theorem Spared.goes_on (hs : s.Spared) (busy : s.calls ≠ []) :
    (∃ s', Advances t s s') ∨ s.Dies t := by
  obtain ⟨h, calls, owed, requested, ran⟩ := s
  cases calls with
  | nil => exact absurd rfl busy
  | cons call calls =>
    cases call with
    | check =>
      by_cases hr : IsRequested h
      · exact .inl ⟨_, .divert hr⟩
      · exact .inl ⟨_, .pass hr⟩
    | calls =>
      by_cases hf : h.isolate.guard.check .api
      · exact .inl ⟨_, .find hf⟩
      · exact .inl ⟨_, .miss hf⟩
    | terminate => exact .inl ⟨_, .terminate rfl⟩
    | drain =>
      cases hq : h.isolate.interrupts with
      | nil => exact .inl ⟨_, .drained hq⟩
      | cons c rest => exact .inl ⟨_, .take hq⟩
    | actions rest =>
      cases rest with
      | nil => exact .inl ⟨_, .finish⟩
      | cons a rest =>
        have hspares : a.spares ∧ InterruptAction.allSpare rest := by
          simpa [InterruptCall.spares, InterruptAction.allSpare] using hs.2 _ List.mem_cons_self
        cases hplain : a.isPlain with
        | true =>
          cases ho : (performFor t 1 a).outcome h with
          | mk result h' =>
            cases result with
            | ok result => exact .inl ⟨_, .perform hplain ho⟩
            | error e =>
              obtain ⟨e, rfl⟩ := (meets_plain hplain h).error rfl ho
              exact .inr ⟨a, rest, calls, e, h', rfl, ho⟩
        | false =>
          cases a with
          | request c => exact .inl ⟨_, .request⟩
          | handleInterrupts => exact .inl ⟨_, .handle⟩
          | invokeCallbacks => exact .inl ⟨_, .invoke⟩
          | tearDown => cases hspares.1
          | _ => cases hplain
    | ask => exact .inl ⟨_, .ask⟩
    | report => exact .inl ⟨_, .report .done⟩

end InterruptService

end ScriptEngine

import ScriptEngine.Exception.Prediction
import ScriptEngine.Proofs.FirstHandler

namespace ScriptEngine

theorem HandlerPrediction.definite?_of_ne {p : HandlerPrediction} (h : p ≠ .uncaught) :
    p.definite? = some p := by
  cases p
  case uncaught => exact absurd rfl h
  all_goals rfl

/-- The activation says nothing about who catches. -/
def Activation.IsVague (a : Activation) : Prop :=
  a.prediction? = none ∨ a.prediction? = some .uncaught

theorem Activation.definite?_eq_none {a : Activation} :
    (a.prediction?.bind (·.definite?)) = none ↔ a.IsVague := by
  unfold IsVague
  cases a.prediction? with
  | none => simp
  | some p => cases p <;> simp [HandlerPrediction.definite?]

theorem Activation.definite?_eq_some {a : Activation} {p : HandlerPrediction} :
    (a.prediction?.bind (·.definite?)) = some p ↔ a.prediction? = some p ∧ p ≠ .uncaught := by
  cases a.prediction? with
  | none => simp
  | some q =>
    cases q <;> simp [HandlerPrediction.definite?] <;> rintro rfl <;> simp

namespace Frame

/-- What the tables say the handler of a frame does with an exception. Of the activations of an
optimized frame the innermost one that says something decides. -/
def Predicts (f : Frame) (heap : Heap) (p : HandlerPrediction) : Prop :=
  match f.kind with
  | .interpreted | .baseline => ∃ range, f.coveringRange = some range ∧ range.prediction = p
  | .optimized =>
    (p = .uncaught ∧ ∀ a ∈ f.activations heap, a.IsVague) ∨
    (p ≠ .uncaught ∧ ∃ outer a inner, f.activations heap = outer ++ a :: inner ∧
      (∀ b ∈ inner, b.IsVague) ∧ a.prediction? = some p)
  | .stub => ∃ code, f.code = some code ∧ code.prediction = p
  | _ => False

/-- A stub frame whose builtin predicts something, although its return table has no entry for the
frame's pc. -/
def Misreports (f : Frame) : Prop :=
  f.kind = .stub ∧ ∃ code, f.code = some code ∧ code.catchesInStub ∧ ¬f.GuardsReturn code ∧
    code.prediction ≠ .uncaught

variable {f : Frame} {heap : Heap} {p : HandlerPrediction}

theorem inlinedPrediction_of_predicts (hk : f.kind = .optimized) (hh : f.Handles)
    (hp : f.Predicts heap p) : f.inlinedPrediction heap = p := by
  simp only [Handles, hk] at hh
  obtain ⟨offset, ho⟩ := Option.isSome_iff_exists.mp (returnHandler_isSome.mpr hh)
  simp only [Predicts, hk] at hp
  simp only [inlinedPrediction, ho]
  rcases hp with ⟨rfl, hvague⟩ | ⟨hne, outer, a, inner, hsplit, hvague, ha⟩
  · rw [List.findSome?_eq_none_iff.mpr]
    · rfl
    · intro a ha
      exact Activation.definite?_eq_none.mpr (hvague a (List.mem_reverse.mp ha))
  · have hfirst : ((f.activations heap).reverse.findSome? fun a =>
        a.prediction?.bind (·.definite?)) = some p := by
      refine List.findSome?_eq_some_iff.mpr ⟨inner.reverse, a, outer.reverse, ?_, ?_, ?_⟩
      · rw [hsplit]
        simp
      · exact Activation.definite?_eq_some.mpr ⟨ha, hne⟩
      · intro b hb
        exact Activation.definite?_eq_none.mpr (hvague b (List.mem_reverse.mp hb))
    rw [hfirst]
    rfl

/-- The tables of an optimized frame always say something. -/
theorem exists_predicts_optimized (hk : f.kind = .optimized) : ∃ p, f.Predicts heap p := by
  simp only [Predicts, hk]
  cases h : (f.activations heap).reverse.findSome? fun a => a.prediction?.bind (·.definite?) with
  | none =>
    refine ⟨.uncaught, .inl ⟨rfl, ?_⟩⟩
    intro a ha
    exact Activation.definite?_eq_none.mp
      (List.findSome?_eq_none_iff.mp h a (List.mem_reverse.mpr ha))
  | some p =>
    obtain ⟨inner, a, outer, hsplit, ha, hvague⟩ := List.findSome?_eq_some_iff.mp h
    obtain ⟨ha, hne⟩ := Activation.definite?_eq_some.mp ha
    refine ⟨p, .inr ⟨hne, outer.reverse, a, inner.reverse, ?_, ?_, ha⟩⟩
    · rw [List.reverse_eq_iff.mp hsplit]
      simp
    · intro b hb
      exact Activation.definite?_eq_none.mp (hvague b (List.mem_reverse.mp hb))

/-- A frame that handles is one of those that always do, or its tables say something. -/
theorem Handles.exists_predicts (hh : f.Handles) (heap : Heap) :
    f.IsEntry ∨ f.kind = .continuationWithCatch ∨ ∃ p, f.Predicts heap p := by
  cases hk : f.kind <;> simp only [Handles, hk] at hh
  case entry => exact .inl (.inl hk)
  case constructEntry => exact .inl (.inr hk)
  case continuationWithCatch => exact .inr (.inl rfl)
  case optimized => exact .inr (.inr (exists_predicts_optimized hk))
  case interpreted =>
    obtain ⟨range, hr⟩ := exists_coveringRange.mpr hh
    exact .inr (.inr ⟨range.prediction, by simp only [Predicts, hk]; exact ⟨range, hr, rfl⟩⟩)
  case baseline =>
    obtain ⟨range, hr⟩ := exists_coveringRange.mpr hh
    exact .inr (.inr ⟨range.prediction, by simp only [Predicts, hk]; exact ⟨range, hr, rfl⟩⟩)
  case stub =>
    obtain ⟨code, hc, -⟩ := hh
    exact .inr (.inr ⟨code.prediction, by simp only [Predicts, hk]; exact ⟨code, hc, rfl⟩⟩)

end Frame

namespace Dispatch

/-- Dispatch without a request to restart a frame would find the frame `raw` of the active
segment, after it went past the frames `inner`. -/
structure StopsAt (c : DispatchContext) (t : ThreadState) (inner : List RawFrame)
    (raw : RawFrame) : Prop where
  frames : ∃ rest, t.stack.activeSegment.innermostFirst = inner ++ raw :: rest
  known : ∀ r ∈ inner ++ [raw], r.IsKnown c.codes
  passes : ∀ k r, inner[k]? = some r →
    c.matchFrame none t.handlers k (.of c.codes t.stack.activeSegment.id r) = .ok none
  found : ∃ m, c.matchFrame none t.handlers inner.length
    (.of c.codes t.stack.activeSegment.id raw) = .ok (some m)

variable {c : DispatchContext} {t : ThreadState} {inner : List RawFrame} {raw : RawFrame}

theorem matchFrame_none {f : Frame} {handlers : List Address} {position : Nat}
    (hc : c.catchable = true) :
    c.matchFrame none handlers position f = c.matchCatchable handlers position f :=
  matchFrame_catchable (Option.some_ne_none f.fp).symm hc

theorem StopsAt.not_handles (h : StopsAt c t inner raw) (hc : c.catchable = true) {r : RawFrame}
    (hr : r ∈ inner) : ¬(Frame.of c.codes t.stack.activeSegment.id r).Handles ∧
      ¬(Frame.of c.codes t.stack.activeSegment.id r).Misplaced := by
  obtain ⟨k, hk⟩ := List.getElem?_of_mem hr
  have hpass := h.passes k r hk
  rw [matchFrame_none hc] at hpass
  exact DispatchContext.not_handles_of_passed (Frame.hasCode_of _ _ r) hpass

theorem StopsAt.handles (h : StopsAt c t inner raw) (hc : c.catchable = true) :
    (Frame.of c.codes t.stack.activeSegment.id raw).Handles := by
  obtain ⟨m, hm⟩ := h.found
  rw [matchFrame_none hc] at hm
  exact DispatchContext.handles_of_found hm

/-- Dispatch does go on in the frame that it would stop at. -/
theorem StopsAt.run_eq {codes : CodeRegistry} {builtins : Builtins} {d : Dispatch} {e : Value}
    (h : StopsAt { codes, builtins, exception := e, catchable := true } d.thread inner raw)
    (hp : d.thread.pending = some e) (hc : e.isCatchable = true) (hr : d.restart = none) :
    ∃ m, DispatchContext.matchFrame { codes, builtins, exception := e, catchable := true } none
        d.thread.handlers inner.length (.of codes d.thread.stack.activeSegment.id raw) =
        .ok (some m) ∧
      run codes builtins false d =
        (.ok e, Dispatch.apply { d with
          materialized := forgetAll d.materialized
            (inner.map (.of codes d.thread.stack.activeSegment.id)) } m) := by
  obtain ⟨m, hm⟩ := h.found
  obtain ⟨rest, hframes⟩ := h.frames
  refine ⟨m, hm, ?_⟩
  have hpass : ∀ r ∈ inner, Passes { codes, builtins, exception := e, catchable := true } d.restart
      d.thread.handlers (.of codes d.thread.stack.activeSegment.id r) := by
    intro r hr' visited
    obtain ⟨hn, hmis⟩ := h.not_handles rfl hr'
    rw [hr, matchFrame_none rfl]
    exact DispatchContext.matchCatchable_passes hn hmis
  rw [← hr, ← Nat.zero_add inner.length] at hm
  have hs : searchFrames { codes, builtins, exception := e, catchable := true } d.restart
      d.thread.handlers d.thread.stack.activeSegment.id (inner ++ raw :: rest) 0
      d.materialized = _ := searchFrames_found h.known hpass hm
  rw [run_catchable hp hc]
  unfold searchFor
  dsimp only
  rw [hframes, hs]

end Dispatch

namespace ThreadState

variable {t : ThreadState} {heap : Heap} {f : Frame} {p : HandlerPrediction}

/-- Frames that dispatch goes past say nothing. -/
theorem predictAt_of_passed (hn : ¬f.Handles) (hm : ¬f.Misreports) :
    t.predictAt heap f = .notCaught := by
  unfold predictAt
  cases hk : f.kind <;> simp only [Frame.Handles, hk, not_true_eq_false] at hn
  case exit => rfl
  case native => rfl
  case builtin => rfl
  case optimized =>
    rw [← Frame.returnHandler_isSome, Option.not_isSome_iff_eq_none] at hn
    simp only [Frame.inlinedPrediction, hn]
    rfl
  case interpreted =>
    simp only [Frame.rangePrediction, Frame.coveringRange_eq_none.mpr hn]
    rfl
  case baseline =>
    simp only [Frame.rangePrediction, Frame.coveringRange_eq_none.mpr hn]
    rfl
  case continuationWithCatch =>
    cases hc : f.code with
    | none => rfl
    | some code => exact absurd ⟨code, hc⟩ hn
  case stub =>
    show (f.stubPrediction?.map (·.toCatch)).getD .notCaught = .notCaught
    unfold Frame.stubPrediction?
    cases hc : f.code with
    | none => rfl
    | some code =>
      cases hs : code.catchesInStub with
      | false => simp [Option.filter, hs]
      | true =>
        -- Only a stub without an entry for its pc is asked here, and that one must not speak up.
        have hg : ¬f.GuardsReturn code := fun hg =>
          hn ⟨code, hc, and_assoc.mp ⟨hg.catchesInStub.mp hs, hg⟩⟩
        have hp : code.prediction = .uncaught := Decidable.byContradiction fun hne =>
          hm ⟨hk, code, hc, hs, hg, hne⟩
        simp [Option.filter, hs, hp, HandlerPrediction.toCatch]

/-- The frame that handles says what its tables say. -/
theorem predictAt_of_predicts (hh : f.Handles) (hp : f.Predicts heap p) :
    t.predictAt heap f = p.toCatch := by
  unfold predictAt
  cases hk : f.kind <;> try simp only [Frame.Predicts, hk] at hp
  case optimized =>
    rw [Frame.inlinedPrediction_of_predicts hk hh (by simpa only [Frame.Predicts, hk] using hp)]
  case interpreted =>
    obtain ⟨range, hr, rfl⟩ := hp
    simp only [Frame.rangePrediction, hr]
    rfl
  case baseline =>
    obtain ⟨range, hr, rfl⟩ := hp
    simp only [Frame.rangePrediction, hr]
    rfl
  case stub =>
    obtain ⟨code, hc, rfl⟩ := hp
    simp only [Frame.Handles, hk] at hh
    obtain ⟨_, hc', hb, ht, hg⟩ := hh
    cases hc.symm.trans hc'
    have hs := hg.catchesInStub.mpr ⟨hb, ht⟩
    simp [Frame.stubPrediction?, hc, Option.filter, hs]

theorem firstAnswer_found {α : Type} {codes : CodeRegistry} {segment : Nat}
    {answer : Frame → Option α} {inner rest : List RawFrame} {raw : RawFrame} {a : α}
    (hk : ∀ r ∈ inner ++ [raw], r.IsKnown codes)
    (hinner : ∀ r ∈ inner, answer (.of codes segment r) = none)
    (ha : answer (.of codes segment raw) = some a) :
    Frame.firstAnswer codes segment answer (inner ++ raw :: rest) = .ok (some a) := by
  induction inner with
  | nil =>
    simp only [List.nil_append, Frame.firstAnswer, Frame.view_eq_of (hk raw (by simp)), bind,
      Except.bind, ha]
    rfl
  | cons r inner ih =>
    simp only [List.cons_append, Frame.firstAnswer, Frame.view_eq_of (hk r (by simp)), bind,
      Except.bind, hinner r List.mem_cons_self]
    exact ih (fun q hq => hk q (List.mem_cons_of_mem _ hq))
      (fun q hq => hinner q (List.mem_cons_of_mem _ hq))

theorem handlerType_undefined {e : Value} (he : e.isCatchable = true) :
    t.handlerType .undefined = t.handlerType e := by
  simp only [handlerType, he]
  rfl

theorem toCatch_ne (hp : p ≠ .uncaught) : p.toCatch ≠ .notCaught ∧ p.toCatch ≠ .byExternal := by
  cases p
  case uncaught => exact absurd rfl hp
  all_goals exact ⟨nofun, nofun⟩

variable {env : Surroundings} {builtins : Builtins} {e : Value} {inner : List RawFrame}
  {raw : RawFrame}

/-- The prediction is that of the first frame with one, if dispatch stops there and no stub frame
before it speaks for a handler that it has not. -/
theorem predictCatcher_of_predictAt (htype : t.handlerType e ≠ .external)
    (he : e.isCatchable = true)
    (h : Dispatch.StopsAt { codes := env.codes, builtins, exception := e, catchable := true } t
      inner raw)
    (hstubs : ∀ r ∈ inner, ¬(Frame.of env.codes t.stack.activeSegment.id r).Misreports)
    (hp : t.predictAt env.heap (.of env.codes t.stack.activeSegment.id raw) = p.toCatch)
    (hne : p ≠ .uncaught) : t.predictCatcher env = .ok p.toCatch := by
  obtain ⟨rest, hframes⟩ := h.frames
  have htype' : (t.handlerType .undefined == .external) = false := by
    rw [handlerType_undefined he]
    simpa using htype
  have hinner : ∀ r ∈ inner,
      t.predictAt env.heap (.of env.codes t.stack.activeSegment.id r) = .notCaught :=
    fun r hr => predictAt_of_passed (h.not_handles rfl hr).1 (hstubs r hr)
  unfold predictCatcher
  simp only [htype', hframes]
  rw [firstAnswer_found (a := p.toCatch) h.known]
  · rfl
  · intro r hr
    rw [hinner r hr]
  · rw [hp]
    obtain ⟨hnot, -⟩ := toCatch_ne hne
    cases hc : p.toCatch <;> first | rfl | exact absurd hc hnot

/-- The prediction of the catcher agrees with dispatch: it is the prediction of the frame where
dispatch stops, and without one there it is an entry or a continuation frame that catches. -/
theorem predictCatcher_agrees (htype : t.handlerType e ≠ .external) (he : e.isCatchable = true)
    (h : Dispatch.StopsAt { codes := env.codes, builtins, exception := e, catchable := true } t
      inner raw)
    (hstubs : ∀ r ∈ inner, ¬(Frame.of env.codes t.stack.activeSegment.id r).Misreports) :
    (∀ p, p ≠ .uncaught →
      (Frame.of env.codes t.stack.activeSegment.id raw).Predicts env.heap p →
      t.predictCatcher env = .ok p.toCatch) ∧
    (t.predictCatcher env = .ok .notCaught ∨ t.predictCatcher env = .ok .byExternal →
      (Frame.of env.codes t.stack.activeSegment.id raw).IsEntry ∨
      (Frame.of env.codes t.stack.activeSegment.id raw).kind = .continuationWithCatch ∨
      (Frame.of env.codes t.stack.activeSegment.id raw).Predicts env.heap .uncaught) := by
  have hhandles := h.handles rfl
  have hagrees : ∀ p, p ≠ .uncaught →
      (Frame.of env.codes t.stack.activeSegment.id raw).Predicts env.heap p →
      t.predictCatcher env = .ok p.toCatch := fun p hne hp =>
    predictCatcher_of_predictAt htype he h hstubs (predictAt_of_predicts hhandles hp) hne
  refine ⟨hagrees, ?_⟩
  intro hresult
  rcases hhandles.exists_predicts env.heap with hentry | hcontinuation | ⟨p, hp⟩
  · exact .inl hentry
  · exact .inr (.inl hcontinuation)
  · refine .inr (.inr ?_)
    by_cases hne : p = .uncaught
    · exact hne ▸ hp
    · obtain ⟨hnot, hexternal⟩ := toCatch_ne hne
      rw [hagrees p hne hp] at hresult
      rcases hresult with hr | hr
      · exact absurd (Except.ok.inj hr) hnot
      · exact absurd (Except.ok.inj hr) hexternal

end ThreadState

namespace ThreadState.Example

open Dispatch.Example

def thread : ThreadState where
  stack := { segments := [{ id := 0, base := 1000, cursor := 0, frames := [guarded, native] }] }

def surroundings : Surroundings := { heap := {}, codes }

theorem stopsAt_guarded (builtins : Builtins) (e : Value) :
    Dispatch.StopsAt { codes, builtins, exception := e, catchable := true } thread [native]
      guarded where
  frames := ⟨[], rfl⟩
  known := by
    intro r hr hm
    simp only [List.cons_append, List.nil_append, List.mem_cons, List.not_mem_nil, or_false] at hr
    rcases hr with rfl | rfl
    · cases hm
    · exact ⟨_, rfl⟩
  passes := by
    intro k r hr
    cases k with
    | zero =>
      cases hr
      rfl
    | succ k => cases hr
  found := ⟨_, rfl⟩

/-- The range that guards the interpreted frame catches. -/
theorem predictCatcher_agrees_behind_native :
    thread.predictCatcher surroundings = .ok .byManagedCode := by
  have htype : thread.handlerType (.smi 7) ≠ .external := by decide
  have hstubs : ∀ r ∈ [native],
      ¬(Frame.of surroundings.codes thread.stack.activeSegment.id r).Misreports := by
    intro r hr
    rw [List.mem_singleton.mp hr]
    rintro ⟨hk, -⟩
    cases hk
  exact (predictCatcher_agrees htype rfl (stopsAt_guarded ⟨⟨[], []⟩, 0, 0⟩ (.smi 7)) hstubs).1
    .caught nofun ⟨_, rfl, rfl⟩

end ThreadState.Example

end ScriptEngine

import Mathlib.Data.List.Forall2
import ScriptEngine.Proofs.CutWalks

namespace ScriptEngine

/-- The frame of the interpreter for a function that was inlined, with its receiver. -/
structure RawFrame.Interprets (env : Surroundings) (receiver : Value) (t : TranslatedFrame)
    (r : RawFrame) : Prop where
  marker : r.marker = .managed
  code : ∃ code, env.codes.lookup r.pc = some code ∧ code.managedKind = .interpreted
  function : r.function = t.function
  bytecode : ∃ f, env.heap.function? t.function = some f ∧ r.bytecode = some f.info.bytecode
  offset : r.bytecodeOffset = t.bytecodeOffset
  receiver : r.receiver = receiver
  isConstructor : r.isConstructor = t.isConstructor

/-- Optimized code at a deopt point, and the frames of the interpreter for the functions at that
point, outermost first. The outermost one has the receiver of the optimized frame. -/
structure RawFrame.StandsFor (env : Surroundings) (raw : RawFrame) (alone : List RawFrame) :
    Prop where
  marker : raw.marker = .managed
  apart : ∃ code point outermost inlined first rest,
    env.codes.lookup raw.pc = some code ∧ code.managedKind = .optimized ∧
    code.deoptPoint (code.pcOffset raw.pc) = some point ∧
    point.frames = outermost :: inlined ∧ alone = first :: rest ∧
    first.Interprets env raw.receiver outermost ∧
    List.Forall₂ (fun t r => r.Interprets env t.receiver t) inlined rest

/-- The interpreter's frame of a translated one whose function has the bytecode. -/
def TranslatedFrame.spec (interpreter : Code) (receiver : Value) (bytecode : Bytecode)
    (t : TranslatedFrame) : FrameSpec :=
  let s := (FrameSpec.interpreted interpreter t.function bytecode t.bytecodeOffset).withReceiver
    receiver
  if t.isConstructor then s.asConstructor else s

theorem TranslatedFrame.interprets_spec {env : Surroundings} {interpreter code : Code}
    {receiver : Value} {t : TranslatedFrame} {f : Function}
    (hcode : env.codes.lookup (interpreter.start + FrameSpec.interpreterReturnOffset) = some code)
    (hkind : code.managedKind = .interpreted) (hf : env.heap.function? t.function = some f) :
    (t.spec interpreter receiver f.info.bytecode).frame.Interprets env receiver t := by
  unfold spec
  cases hconstructor : t.isConstructor with
  | true => exact ⟨rfl, ⟨code, hcode, hkind⟩, rfl, ⟨f, hf, rfl⟩, rfl, rfl, hconstructor.symm⟩
  | false => exact ⟨rfl, ⟨code, hcode, hkind⟩, rfl, ⟨f, hf, rfl⟩, rfl, rfl, hconstructor.symm⟩

/-- The frame is interpreted, and stands for an activation of bytecode. -/
structure RawFrame.Runs (env : Surroundings) (a : Activation) (r : RawFrame) : Prop where
  known : r.IsKnown env.codes
  kind : (Frame.of env.codes 0 r).kind = .interpreted
  activations : (Frame.of env.codes 0 r).activations env.heap = [a]
  prediction : (Frame.of env.codes 0 r).rangePrediction = a.prediction?.getD .uncaught

section Frames

variable {env : Surroundings} {receiver : Value} {t : TranslatedFrame} {r raw : RawFrame}
  {alone : List RawFrame}

theorem RawFrame.Interprets.runs (h : r.Interprets env receiver t) :
    ∃ a, Activation.ofFunction env.heap t.function receiver t.bytecodeOffset t.isConstructor =
      some a ∧ r.Runs env a := by
  obtain ⟨code, hcode, hkind⟩ := h.code
  obtain ⟨f, hf, hbytecode⟩ := h.bytecode
  have hbuiltin : code.kind = .builtin := Code.kind_of_interpreted hkind
  have hinterpreted : (Frame.of env.codes 0 r).kind = .interpreted := by
    simp [Frame.of, h.marker, hcode, Frame.kindOf, hkind]
  have hoffset : (Frame.of env.codes 0 r).bytecodeOffset = t.bytecodeOffset := by
    simp [Frame.bytecodeOffset, Frame.of, hcode, hbuiltin, h.offset]
  have hraw : (Frame.of env.codes 0 r).raw = r := rfl
  refine ⟨⟨receiver, t.function, .bytecode f.info.bytecode, t.bytecodeOffset, t.isConstructor⟩,
    by simp [Activation.ofFunction, hf], fun _ => ⟨code, hcode⟩, hinterpreted, ?_, ?_⟩
  · simp [Frame.activations, hinterpreted, Frame.unoptimizedActivation, hoffset, hraw, hbytecode,
      h.receiver, h.function, h.isConstructor]
  · simp only [Frame.rangePrediction, Frame.coveringRange, hraw, hbytecode, hoffset,
      Activation.prediction?]
    rfl

theorem RawFrame.StandsFor.known (h : raw.StandsFor env alone) : raw.IsKnown env.codes := by
  obtain ⟨code, _, _, _, _, _, hcode, -⟩ := h.apart
  exact fun _ => ⟨code, hcode⟩

theorem RawFrame.StandsFor.kind (h : raw.StandsFor env alone) :
    (Frame.of env.codes 0 raw).kind = .optimized := by
  obtain ⟨code, _, _, _, _, _, hcode, hkind, -⟩ := h.apart
  simp [Frame.of, h.marker, hcode, Frame.kindOf, hkind]

theorem RawFrame.StandsFor.ne_nil (h : raw.StandsFor env alone) : alone ≠ [] := by
  obtain ⟨_, _, _, _, _, _, -, -, -, -, rfl, -⟩ := h.apart
  exact List.cons_ne_nil _ _

theorem runs_inlined {inlined : List TranslatedFrame} {rest : List RawFrame}
    (h : List.Forall₂ (fun t r => r.Interprets env t.receiver t) inlined rest) :
    List.Forall₂ (RawFrame.Runs env) (inlined.filterMap fun t => Activation.ofFunction env.heap
      t.function t.receiver t.bytecodeOffset t.isConstructor) rest := by
  induction h with
  | nil => exact .nil
  | cons hr _ ih =>
    obtain ⟨a, ha, hruns⟩ := hr.runs
    simpa only [List.filterMap_cons, ha] using List.Forall₂.cons hruns ih

/-- The frames run the activations of the optimized frame. -/
theorem RawFrame.StandsFor.runs (h : raw.StandsFor env alone) :
    List.Forall₂ (RawFrame.Runs env) ((Frame.of env.codes 0 raw).activations env.heap) alone := by
  have hkind := h.kind
  obtain ⟨code, point, outermost, inlined, first, rest, hcode, -, hpoint, hframes, rfl, hfirst,
    hrest⟩ := h.apart
  obtain ⟨a, ha, hruns⟩ := hfirst.runs
  have hraw : (Frame.of env.codes 0 raw).raw = raw := rfl
  have hactivations : (Frame.of env.codes 0 raw).activations env.heap =
      Activation.ofTranslated env.heap raw.receiver (outermost :: inlined) := by
    have hof : (Frame.of env.codes 0 raw).code = some code := hcode
    simp [Frame.activations, hkind, Frame.optimizedActivations, hof, Frame.pcOffset, Frame.pc,
      hraw, hpoint, hframes]
  rw [hactivations, Activation.ofTranslated, ha]
  exact .cons hruns (runs_inlined hrest)

end Frames

theorem Frame.view_lost {codes : CodeRegistry} {segment : Nat} {r : RawFrame}
    (h : ¬r.IsKnown codes) : view codes segment r = breach (.managedFrameWithoutCode r.pc) := by
  simp only [RawFrame.IsKnown, not_forall] at h
  obtain ⟨hm, hcode⟩ := h
  have hnone : codes.lookup r.pc = none := by
    cases hc : codes.lookup r.pc with
    | none => rfl
    | some code => exact absurd ⟨code, hc⟩ hcode
  simp [Frame.view, hm, hnone]

namespace TraceBuilder

variable {env : Surroundings} {alone inner outer frames frames' : List RawFrame}
  {activations : List Activation} {b : TraceBuilder}

theorem addActivation_full {heap : Heap} (h : b.isFull) (a : Activation) :
    b.addActivation heap a = b := by
  simp [addActivation, h]

theorem addActivations_full {heap : Heap} (h : b.isFull) (activations : List Activation) :
    activations.foldl (·.addActivation heap ·) b = b := by
  induction activations with
  | nil => rfl
  | cons a activations ih => rw [List.foldl_cons, addActivation_full h, ih]

/-- The frames begin with one that has no code, which ends a walk. -/
def LostAt (codes : CodeRegistry) (frames : List RawFrame) {α : Type} (w : Walk α) : Prop :=
  ∃ r, frames.head? = some r ∧ ¬r.IsKnown codes ∧ w = breach (.managedFrameWithoutCode r.pc)

theorem addFrames_full_known (h : b.isFull) {r : RawFrame} (hk : r.IsKnown env.codes)
    (frames : List RawFrame) : addFrames env.codes env.heap 0 (r :: frames) b = .ok b := by
  rw [addFrames, Frame.view_eq_of hk]
  simp [bind, Except.bind, h, pure, Except.pure]

/-- A full builder takes nothing from a frame, but looks at it. -/
theorem addFrames_full (h : b.isFull) (frames : List RawFrame) :
    addFrames env.codes env.heap 0 frames b = .ok b ∨
      LostAt env.codes frames (addFrames env.codes env.heap 0 frames b) := by
  cases frames with
  | nil => exact .inl rfl
  | cons r frames =>
    by_cases hk : r.IsKnown env.codes
    · exact .inl (addFrames_full_known h hk frames)
    · rw [addFrames, Frame.view_lost hk]
      exact .inr ⟨r, rfl, hk, rfl⟩

/-- Frames that run an activation each add them until the builder is full. -/
theorem addFrames_runs (h : List.Forall₂ (RawFrame.Runs env) activations alone) :
    let filled := activations.foldl (·.addActivation env.heap ·) b
    addFrames env.codes env.heap 0 (alone ++ outer) b = .ok filled ∧ filled.isFull ∨
      addFrames env.codes env.heap 0 (alone ++ outer) b =
        addFrames env.codes env.heap 0 outer filled := by
  induction h generalizing b with
  | nil => exact .inr rfl
  | @cons a r activations alone hr _ ih =>
    rw [List.cons_append, List.foldl_cons]
    cases hfull : b.isFull with
    | true =>
      rw [addActivation_full hfull, addActivations_full hfull]
      exact .inl ⟨addFrames_full_known hfull hr.known _, hfull⟩
    | false =>
      rw [addFrames, Frame.view_eq_of hr.known]
      have hadd : b.addFrame env.heap (.of env.codes 0 r) = b.addActivation env.heap a := by
        simp [addFrame, Frame.isManaged, hr.kind, FrameKind.isManaged, hr.activations]
      simpa [bind, Except.bind, hfull, hadd] using ih

theorem addFrames_standsFor {raw : RawFrame} (h : raw.StandsFor env alone) (b : TraceBuilder) :
    addFrames env.codes env.heap 0 (alone.reverse ++ outer) b =
      addFrames env.codes env.heap 0 (raw :: outer) b ∨
    LostAt env.codes outer (addFrames env.codes env.heap 0 (raw :: outer) b) := by
  have hruns := List.forall₂_reverse_iff.mpr h.runs
  cases hfull : b.isFull with
  | true =>
    left
    rw [addFrames_full_known hfull h.known]
    cases hreverse : alone.reverse with
    | nil => exact absurd (List.reverse_eq_nil_iff.mp hreverse) h.ne_nil
    | cons r rest =>
      rw [hreverse] at hruns
      obtain ⟨_, _, hr, -⟩ := List.forall₂_cons_right_iff.mp hruns
      exact addFrames_full_known hfull hr.known _
  | false =>
    have hadd : b.addFrame env.heap (.of env.codes 0 raw) =
        ((Frame.of env.codes 0 raw).activations env.heap).reverse.foldl
          (·.addActivation env.heap ·) b := by
      simp [addFrame, Frame.isManaged, h.kind, FrameKind.isManaged]
    have hwhole : addFrames env.codes env.heap 0 (raw :: outer) b =
        addFrames env.codes env.heap 0 outer (b.addFrame env.heap (.of env.codes 0 raw)) := by
      rw [addFrames, Frame.view_eq_of h.known]
      simp [bind, Except.bind, hfull]
    rw [hwhole, hadd]
    rcases addFrames_runs (b := b) hruns with ⟨hfilled, hfull'⟩ | hrest
    · -- Full among the frames on their own; the walk that is done with `raw` is at `outer`.
      rcases addFrames_full hfull' outer with hsame | hlost
      · exact .inl (hfilled.trans hsame.symm)
      · exact .inr hlost
    · exact .inl hrest

/-- What frames in front add does not depend on those behind. -/
theorem addFrames_behind {P : Walk TraceBuilder → Prop}
    (h : ∀ b, addFrames env.codes env.heap 0 frames b = addFrames env.codes env.heap 0 frames' b ∨
      P (addFrames env.codes env.heap 0 frames' b)) (b : TraceBuilder) :
    addFrames env.codes env.heap 0 (inner ++ frames) b =
      addFrames env.codes env.heap 0 (inner ++ frames') b ∨
    P (addFrames env.codes env.heap 0 (inner ++ frames') b) := by
  induction inner generalizing b with
  | nil => exact h b
  | cons r inner ih =>
    rw [List.cons_append, List.cons_append, addFrames, addFrames]
    cases Frame.view env.codes 0 r with
    | error e => exact .inl rfl
    | ok f =>
      simp only [bind, Except.bind]
      split
      · exact .inl rfl
      · exact ih _

end TraceBuilder

section Answers

variable {env : Surroundings} {alone inner outer frames frames' : List RawFrame} {raw : RawFrame}
  {activations : List Activation} {α : Type} {answer : Frame → Option α}

theorem Frame.firstAnswer_behind (h : firstAnswer env.codes 0 answer frames =
    firstAnswer env.codes 0 answer frames') : firstAnswer env.codes 0 answer (inner ++ frames) =
      firstAnswer env.codes 0 answer (inner ++ frames') := by
  induction inner with
  | nil => exact h
  | cons r inner ih =>
    rw [List.cons_append, List.cons_append, firstAnswer, firstAnswer, ih]

/-- The answer of frames that answer by their activations. -/
theorem Frame.firstAnswer_runs {own : Activation → Option α}
    (h : List.Forall₂ (RawFrame.Runs env) activations alone)
    (hown : ∀ a r, r.Runs env a → answer (.of env.codes 0 r) = own a) :
    firstAnswer env.codes 0 answer (alone ++ outer) =
      match activations.findSome? own with
      | some a => .ok (some a)
      | none => firstAnswer env.codes 0 answer outer := by
  induction h with
  | nil => rfl
  | @cons a r _ _ hr _ ih =>
    rw [List.cons_append, firstAnswer, view_eq_of hr.known, List.findSome?_cons]
    simp only [bind, Except.bind, hown a r hr]
    cases own a with
    | some a => rfl
    | none => exact ih

/-- An optimized frame that has the answer of its innermost activation with one answers as the
frames that it stands for. -/
theorem Frame.firstAnswer_standsFor (h : raw.StandsFor env alone) {own : Activation → Option α}
    (hown : ∀ a r, r.Runs env a → answer (.of env.codes 0 r) = own a)
    (hwhole : answer (.of env.codes 0 raw) =
      ((Frame.of env.codes 0 raw).activations env.heap).reverse.findSome? own) :
    firstAnswer env.codes 0 answer (inner ++ (alone.reverse ++ outer)) =
      firstAnswer env.codes 0 answer (inner ++ raw :: outer) := by
  refine firstAnswer_behind ?_
  rw [firstAnswer_runs (List.forall₂_reverse_iff.mpr h.runs) hown, ← hwhole, firstAnswer,
    view_eq_of h.known]
  rfl

theorem location?_runs {a : Activation} {r : RawFrame} (h : r.Runs env a) :
    (Frame.of env.codes 0 r).location? env.heap = a.location? env.heap := by
  simp [Frame.location?, Frame.isManaged, h.kind, FrameKind.isManaged, h.activations]

theorem location?_standsFor (h : raw.StandsFor env alone) :
    (Frame.of env.codes 0 raw).location? env.heap =
      ((Frame.of env.codes 0 raw).activations env.heap).reverse.findSome?
        (·.location? env.heap) := by
  simp [Frame.location?, Frame.isManaged, h.kind, FrameKind.isManaged]

/-- What an activation says about who catches, if it says something. -/
def Activation.catcher? (a : Activation) : Option CatchPrediction :=
  (a.prediction?.bind (·.definite?)).map (·.toCatch)

theorem catcherAt_runs (t : ThreadState) {a : Activation} {r : RawFrame} (h : r.Runs env a) :
    t.catcherAt env.heap (.of env.codes 0 r) = a.catcher? := by
  have hsays : t.predictAt env.heap (.of env.codes 0 r) =
      (a.prediction?.getD .uncaught).toCatch := by
    simp only [ThreadState.predictAt, h.kind, h.prediction]
  rw [ThreadState.catcherAt_of_prediction hsays, Activation.catcher?]
  cases a.prediction? <;> rfl

theorem inlinedPrediction_definite {f : Frame} {heap : Heap}
    (hreturn : (∀ a ∈ f.activations heap, a.IsVague) ∨ f.returnHandler.isSome) :
    (f.inlinedPrediction heap).definite? =
      (f.activations heap).reverse.findSome? fun a => a.prediction?.bind (·.definite?) := by
  cases hfirst : (f.activations heap).reverse.findSome? fun a =>
      a.prediction?.bind (·.definite?) with
  | none =>
    unfold Frame.inlinedPrediction
    split
    · rfl
    · rw [hfirst]
      rfl
  | some p =>
    obtain ⟨a, ha, hp⟩ := List.exists_of_findSome?_eq_some hfirst
    obtain ⟨hprediction, hne⟩ := Activation.definite?_eq_some.mp hp
    rcases hreturn with hvague | hsome
    · have hnone := Activation.definite?_eq_none.mpr (hvague a (List.mem_reverse.mp ha))
      rw [hnone] at hp
      cases hp
    · obtain ⟨offset, ho⟩ := Option.isSome_iff_exists.mp hsome
      simp [Frame.inlinedPrediction, ho, hfirst, HandlerPrediction.definite?_of_ne hne]

theorem catcherAt_standsFor (t : ThreadState) (h : raw.StandsFor env alone)
    (hreturn : (∀ a ∈ (Frame.of env.codes 0 raw).activations env.heap, a.IsVague) ∨
      (Frame.of env.codes 0 raw).returnHandler.isSome) :
    t.catcherAt env.heap (.of env.codes 0 raw) =
      ((Frame.of env.codes 0 raw).activations env.heap).reverse.findSome? (·.catcher?) := by
  have hsays : t.predictAt env.heap (.of env.codes 0 raw) =
      ((Frame.of env.codes 0 raw).inlinedPrediction env.heap).toCatch := by
    simp only [ThreadState.predictAt, h.kind]
  have hmap : ((Frame.of env.codes 0 raw).activations env.heap).reverse.findSome? (·.catcher?) =
      (((Frame.of env.codes 0 raw).activations env.heap).reverse.findSome? fun a =>
        a.prediction?.bind (·.definite?)).map (·.toCatch) := by
    rw [List.map_findSome?]
    rfl
  rw [ThreadState.catcherAt_of_prediction hsays, hmap, inlinedPrediction_definite hreturn]

end Answers

namespace ThreadState

/-- The second stack has frames of the interpreter in the place of an optimized frame. -/
structure TakesApart (env : Surroundings) (t t' : ThreadState) (inner : List RawFrame)
    (raw : RawFrame) (outer : List RawFrame) : Prop where
  frames : t.stack.activeFrames.map (·.detached) = (inner ++ raw :: outer).map (·.detached)
  apart : ∃ alone, raw.StandsFor env alone ∧ t'.stack.activeFrames.map (·.detached) =
    (inner ++ (alone.reverse ++ outer)).map (·.detached)
  microtask : t'.microtask = t.microtask

variable {env : Surroundings} {t t' : ThreadState} {inner outer : List RawFrame} {raw : RawFrame}

/-- The second stack may be one where the interpreter's frames are pushed instead. -/
theorem takesApart_layOut (hstack : t.stack = {}) {whole : FrameSpec}
    {alone outside inside : List FrameSpec}
    (h : whole.frame.StandsFor env (alone.map (·.frame))) :
    (t.layOut ((outside ++ whole :: inside).map some)).TakesApart env
      (t.layOut ((outside ++ alone ++ inside).map some))
      (inside.map (·.frame)).reverse whole.frame (outside.map (·.frame)).reverse := by
  have hempty : t.stack.Holds [] := hstack ▸ SegmentedStack.holds_empty
  have hnone : t.stack.activeFrames = [] := by
    rw [hstack]
    rfl
  have hpushed : ∀ specs : List FrameSpec,
      (t.layOut (specs.map some)).stack.activeFrames.map (·.detached) =
        (specs.map (·.frame)).reverse.map (·.detached) := by
    intro specs
    obtain ⟨pushed, hframes, hdetached⟩ := activeFrames_layOut hempty specs
    rw [hframes, hnone, List.append_nil, hdetached, List.map_reverse, List.map_map]
    rfl
  refine ⟨?_, ⟨alone.map (·.frame), h, ?_⟩, ?_⟩
  · rw [hpushed]
    simp
  · rw [hpushed]
    simp
  · obtain ⟨_, _, he⟩ := layOut_eq t ((outside ++ whole :: inside).map some)
    obtain ⟨_, _, he'⟩ := layOut_eq t ((outside ++ alone ++ inside).map some)
    rw [he, he']

theorem TakesApart.trace (h : t.TakesApart env t' inner raw outer) (o : TraceOptions)
    (intrinsics : Intrinsics) : t'.trace env o intrinsics = t.trace env o intrinsics ∨
      TraceBuilder.LostAt env.codes outer (t.trace env o intrinsics) := by
  obtain ⟨alone, hstands, hframes'⟩ := h.apart
  have hadd : (TraceBuilder.start o).addSegment env.codes env.heap t.stack.activeSegment =
      TraceBuilder.addFrames env.codes env.heap 0 (inner ++ raw :: outer) (.start o) :=
    TraceBuilder.addFrames_alike (.of_same h.frames)
  have hadd' : (TraceBuilder.start o).addSegment env.codes env.heap t'.stack.activeSegment =
      TraceBuilder.addFrames env.codes env.heap 0 (inner ++ (alone.reverse ++ outer)) (.start o) :=
    TraceBuilder.addFrames_alike (.of_same hframes')
  rcases TraceBuilder.addFrames_behind (TraceBuilder.addFrames_standsFor hstands) (.start o) with
    hsame | ⟨r, hr, hlost, hadded⟩
  · left
    rw [ThreadState.trace, ThreadState.trace, hadd, hadd', hsame, h.microtask]
  · right
    refine ⟨r, hr, hlost, ?_⟩
    rw [ThreadState.trace, hadd, hadded]
    rfl

theorem TakesApart.location (h : t.TakesApart env t' inner raw outer) :
    t'.location env = t.location env := by
  obtain ⟨alone, hstands, hframes'⟩ := h.apart
  have hwalk : ∀ (t : ThreadState) {frames : List RawFrame},
      t.stack.activeFrames.map (·.detached) = frames.map (·.detached) →
      t.location env = Frame.firstAnswer env.codes 0 (·.location? env.heap) frames :=
    fun _ _ hframes => Frame.firstAnswer_alike (.of_same hframes) (location?_alike env.heap)
      (location?_silent env.heap)
  rw [hwalk t h.frames, hwalk t' hframes']
  exact Frame.firstAnswer_standsFor hstands (fun _ _ hr => location?_runs hr)
    (location?_standsFor hstands)

theorem TakesApart.predictCatcher (h : t.TakesApart env t' inner raw outer)
    (hscopes : t.tryCatches = []) (hscopes' : t'.tryCatches = [])
    (hreturn : (∀ a ∈ (Frame.of env.codes 0 raw).activations env.heap, a.IsVague) ∨
      (Frame.of env.codes 0 raw).returnHandler.isSome) :
    t'.predictCatcher env = t.predictCatcher env := by
  obtain ⟨alone, hstands, hframes'⟩ := h.apart
  have hwalk : ∀ (t₁ : ThreadState) {frames : List RawFrame}, t₁.tryCatches = [] →
      t₁.stack.activeFrames.map (·.detached) = frames.map (·.detached) →
      t₁.predictCatcher env = (Frame.firstAnswer env.codes 0 (t.catcherAt env.heap) frames).map
        (·.getD .notCaught) := by
    intro t₁ frames hnone hframes
    rw [predictCatcher_of_no_scope hnone, Frame.firstAnswer_alike (.of_same hframes)
      (catcherAt_alike hnone hscopes env.heap) (catcherAt_silent hscopes env.heap)]
  rw [hwalk t hscopes h.frames, hwalk t' hscopes' hframes',
    Frame.firstAnswer_standsFor hstands (fun _ _ hr => catcherAt_runs t hr)
      (catcherAt_standsFor t hstands hreturn)]

/-- Inlining does not show, but for frames that have no code: a trace of the first stack can look at
the one right outside of the optimized frame, when a trace of the second has all its sites. -/
theorem TakesApart.walks (h : t.TakesApart env t' inner raw outer) :
    (∀ o intrinsics, t'.trace env o intrinsics = t.trace env o intrinsics ∨
      TraceBuilder.LostAt env.codes outer (t.trace env o intrinsics)) ∧
    t'.location env = t.location env ∧
    (t.tryCatches = [] → t'.tryCatches = [] →
      (∀ a ∈ (Frame.of env.codes 0 raw).activations env.heap, a.IsVague) ∨
        (Frame.of env.codes 0 raw).returnHandler.isSome →
      t'.predictCatcher env = t.predictCatcher env) :=
  ⟨h.trace, h.location, h.predictCatcher⟩

end ThreadState

namespace ThreadState.InliningExample

def interpreter : Code := ⟨0, 4096, Builtin.interpreterEntry.description⟩

def callee : TranslatedFrame := ⟨.object 1, .smi 3, 4, true⟩

def caller : TranslatedFrame := ⟨.object 0, .undefined, 2, false⟩

def optimized : Code where
  number := 1
  start := 8192
  description := {
    kind := .turbofan
    size := 64
    handlers := { returns := [⟨8, 40⟩] }
    deoptPoints := [⟨8, [caller, callee]⟩] }

def function (name : String) : Function where
  info := {
    name := name
    bytecode := {
      length := 10
      registerCount := 1
      handlers := { ranges := [⟨3, 6, 8, 0, .caught⟩] } }
    script := some ⟨"shop.js", ""⟩ }
  code := interpreter
  context := .undefined
  identityHash := 1
  isForwarding := false

def surroundings : Surroundings where
  heap := ⟨#[.function (function "open"), .function (function "Cart")]⟩
  codes := { codes := [interpreter, optimized] }

def whole : FrameSpec := (FrameSpec.optimized optimized (.object 0) 8).withReceiver .null

def alone : List FrameSpec :=
  [caller.spec interpreter .null (function "open").info.bytecode,
    callee.spec interpreter (.smi 3) (function "Cart").info.bytecode]

theorem standsFor_whole : whole.frame.StandsFor surroundings (alone.map (·.frame)) where
  marker := rfl
  apart := by
    have hcode : surroundings.codes.lookup
        (interpreter.start + FrameSpec.interpreterReturnOffset) = some interpreter := rfl
    have hcaller : surroundings.heap.function? caller.function = some (function "open") := rfl
    have hcallee : surroundings.heap.function? callee.function = some (function "Cart") := rfl
    exact ⟨optimized, _, caller, [callee], _, _, rfl, rfl, rfl, rfl, rfl,
      TranslatedFrame.interprets_spec hcode rfl hcaller,
      .cons (TranslatedFrame.interprets_spec hcode rfl hcallee) .nil⟩

theorem walks_inlined_constructor :
    let inlined := layOut {} [some whole]
    let apart := layOut {} (alone.map some)
    apart.trace surroundings {} {} = inlined.trace surroundings {} {} ∧
    (inlined.trace surroundings {} {}).map (·.map (·.functionName)) = .ok ["Cart", "open"] ∧
    apart.location surroundings = inlined.location surroundings ∧
    apart.predictCatcher surroundings = inlined.predictCatcher surroundings ∧
    inlined.predictCatcher surroundings = .ok .byManagedCode := by
  have happart := @takesApart_layOut surroundings {} rfl whole alone [] [] standsFor_whole
  obtain ⟨htrace, hlocation, hpredict⟩ := happart.walks
  refine ⟨?_, rfl, hlocation, hpredict rfl rfl (.inr rfl), rfl⟩
  rcases htrace {} {} with hsame | ⟨r, hr, -⟩
  · exact hsame
  · cases hr

def lost : FrameSpec := .optimized optimized (.object 0) 1000

/-- With room for one site, one of the two walks looks at the frame without code. -/
theorem walks_lost_behind_constructor :
    let inlined := layOut {} [some lost, some whole]
    let apart := layOut {} ((lost :: alone).map some)
    inlined.TakesApart surroundings apart [] whole.frame [lost.frame] ∧
    inlined.trace surroundings { limit := 1 } {} = breach (.managedFrameWithoutCode 9192) ∧
    (apart.trace surroundings { limit := 1 } {}).map (·.map (·.functionName)) = .ok ["Cart"] := by
  have happart := @takesApart_layOut surroundings {} rfl whole alone [lost] [] standsFor_whole
  exact ⟨happart, rfl, rfl⟩

end ThreadState.InliningExample

end ScriptEngine

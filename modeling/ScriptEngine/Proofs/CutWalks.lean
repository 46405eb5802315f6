import ScriptEngine.Exception.Message
import ScriptEngine.Exception.Promises
import ScriptEngine.Proofs.CutDispatch
import ScriptEngine.Proofs.PredictionAgrees

namespace ScriptEngine

/-- Frames that no walk takes notice of. -/
def FrameMarker.isSilent : FrameMarker → Bool
  | entry | constructEntry | exit | native => true
  | managed | stub | continuationWithCatch => false

/-- The second frames are the first ones, up to their places, with silent frames behind them. -/
inductive SeenAlike : List RawFrame → List RawFrame → Prop
  | silent {frames : List RawFrame} (h : ∀ r ∈ frames, r.marker.isSilent) : SeenAlike [] frames
  | cons {r r' : RawFrame} {frames frames' : List RawFrame} (same : r.detached = r'.detached)
      (rest : SeenAlike frames frames') : SeenAlike (r :: frames) (r' :: frames')

theorem SeenAlike.of_detached {frames inner outer : List RawFrame}
    (h : frames.map (·.detached) = inner.map (·.detached))
    (hsilent : ∀ r ∈ outer, r.marker.isSilent) : SeenAlike frames (inner ++ outer) := by
  induction frames generalizing inner with
  | nil =>
    obtain rfl : inner = [] := List.map_eq_nil_iff.mp h.symm
    exact .silent hsilent
  | cons r frames ih =>
    obtain ⟨r', inner, rfl, hr, hrest⟩ := List.map_eq_cons_iff.mp h.symm
    exact .cons hr.symm (ih hrest.symm)

theorem SeenAlike.of_same {frames frames' : List RawFrame}
    (h : frames.map (·.detached) = frames'.map (·.detached)) : SeenAlike frames frames' :=
  List.append_nil frames' ▸ .of_detached h fun _ h => absurd h List.not_mem_nil

namespace Frame

/-- The frame as walks see it. -/
def detached (f : Frame) : Frame := f.stripped RawFrame.detached

theorem eq_of_detached {α : Type} {g : Frame → α} (hg : ∀ f, g f.detached = g f) {f f' : Frame}
    (h : f.detached = f'.detached) : g f = g f' := by
  rw [← hg f, h, hg f']

/-- The frame runs no managed code, and stands for none. -/
def IsSilent (f : Frame) : Prop :=
  f.kind = .entry ∨ f.kind = .constructEntry ∨ f.kind = .exit ∨ f.kind = .native

theorem view_silent (codes : CodeRegistry) (segment : Nat) {r : RawFrame}
    (h : r.marker.isSilent) : ∃ f, view codes segment r = .ok f ∧ f.IsSilent := by
  unfold view IsSilent
  cases hm : r.marker <;> simp [hm, FrameMarker.isSilent] at h
  case entry => exact ⟨_, rfl, .inl rfl⟩
  case constructEntry => exact ⟨_, rfl, .inr (.inl rfl)⟩
  case exit => exact ⟨_, rfl, .inr (.inr (.inl rfl))⟩
  case native => exact ⟨_, rfl, .inr (.inr (.inr rfl))⟩

variable {f : Frame}

theorem IsSilent.not_isManaged (h : f.IsSilent) : f.isManaged = false := by
  unfold isManaged
  rcases h with h | h | h | h <;> rw [h] <;> rfl

end Frame

section Walks

variable {codes : CodeRegistry} {segment segment' : Nat} {frames frames' : List RawFrame}

theorem Frame.firstAnswer_alike {α : Type} {answer answer' : Frame → Option α}
    (h : SeenAlike frames frames')
    (hsame : ∀ f f' : Frame, f.detached = f'.detached → answer f = answer' f')
    (hsilent : ∀ f : Frame, f.IsSilent → answer' f = none) :
    firstAnswer codes segment answer frames = firstAnswer codes segment' answer' frames' := by
  induction h with
  | @silent frames hs =>
    induction frames with
    | nil => rfl
    | cons r frames ih =>
      obtain ⟨f, hv, hf⟩ := view_silent codes segment' (hs r List.mem_cons_self)
      rw [firstAnswer, firstAnswer, hv]
      simp only [bind, Except.bind, hsilent f hf]
      exact ih fun q hq => hs q (List.mem_cons_of_mem _ hq)
  | @cons r r' frames frames' same rest ih =>
    rw [firstAnswer, firstAnswer]
    rcases view_alike RawFrame.keepsView_detached codes segment segment' same with
      ⟨e, he, he'⟩ | ⟨f, f', hv, hv', hf⟩
    · rw [he, he']
      rfl
    · rw [hv, hv']
      simp only [bind, Except.bind, hsame f f' hf]
      cases answer' f' with
      | none => exact ih
      | some a => rfl

/-- An answer stays if frames come behind. -/
theorem Frame.firstAnswer_append {α : Type} {answer : Frame → Option α}
    (h : firstAnswer codes segment answer frames ≠ .ok none) (behind : List RawFrame) :
    firstAnswer codes segment answer (frames ++ behind) =
      firstAnswer codes segment answer frames := by
  induction frames with
  | nil => exact absurd rfl h
  | cons r frames ih =>
    rw [firstAnswer] at h
    rw [List.cons_append, firstAnswer, firstAnswer]
    cases hv : view codes segment r with
    | error e => rfl
    | ok f =>
      simp only [hv, bind, Except.bind] at h ⊢
      cases ha : answer f with
      | none =>
        rw [ha] at h
        exact ih h
      | some a => rfl

theorem TraceBuilder.addFrames_alike {heap : Heap} {b : TraceBuilder}
    (h : SeenAlike frames frames') :
    addFrames codes heap segment frames b = addFrames codes heap segment' frames' b := by
  induction h generalizing b with
  | @silent frames hs =>
    -- Whether the builder is full or not, a silent frame leaves it as it is.
    induction frames with
    | nil => rfl
    | cons r frames ih =>
      obtain ⟨f, hv, hf⟩ := Frame.view_silent codes segment' (hs r List.mem_cons_self)
      have hadd : b.addFrame heap f = b := by
        rw [addFrame, hf.not_isManaged, if_neg Bool.false_ne_true]
      rw [addFrames, addFrames, hv]
      simp only [bind, Except.bind, hadd]
      split
      case isTrue => rfl
      case isFalse => exact ih fun q hq => hs q (List.mem_cons_of_mem _ hq)
  | @cons r r' frames frames' same rest ih =>
    rw [addFrames, addFrames]
    rcases Frame.view_alike RawFrame.keepsView_detached codes segment segment' same with
      ⟨e, he, he'⟩ | ⟨f, f', hv, hv', hf⟩
    · rw [he, he']
      rfl
    · have hadd : b.addFrame heap f = b.addFrame heap f' :=
        Frame.eq_of_detached (fun _ => rfl) hf
      rw [hv, hv']
      simp only [bind, Except.bind, hadd, ih]

theorem ThreadState.searchPromise_alike {env : Surroundings} {tracked : List Value} {found : Value}
    (h : SeenAlike frames frames') :
    searchPromise env segment frames tracked found =
      searchPromise env segment' frames' tracked found := by
  induction h generalizing tracked found with
  | @silent frames hs =>
    induction frames with
    | nil => rfl
    | cons r frames ih =>
      obtain ⟨f, hv, hf⟩ := Frame.view_silent env.codes segment' (hs r List.mem_cons_self)
      have hnothing : promisePredictionAt env.heap f = .uncaught := by
        unfold promisePredictionAt Frame.isManaged
        rcases hf with hk | hk | hk | hk <;> rw [hk] <;> rfl
      rw [searchPromise, searchPromise, hv]
      simp only [bind, Except.bind, hnothing]
      exact ih fun q hq => hs q (List.mem_cons_of_mem _ hq)
  | @cons r r' frames frames' same rest ih =>
    rw [searchPromise, searchPromise]
    rcases Frame.view_alike RawFrame.keepsView_detached env.codes segment segment' same with
      ⟨e, he, he'⟩ | ⟨f, f', hv, hv', hf⟩
    · rw [he, he']
      rfl
    · have hsays : promisePredictionAt env.heap f = promisePredictionAt env.heap f' :=
        Frame.eq_of_detached (fun _ => rfl) hf
      rw [hv, hv']
      simp only [bind, Except.bind, hsays, ih]

end Walks

namespace ThreadState

variable {t t' : ThreadState} {env : Surroundings}

/-- The walks over two stacks give the same answers. -/
structure WalksAlike (env : Surroundings) (t t' : ThreadState) : Prop where
  trace : ∀ o intrinsics, t.trace env o intrinsics = t'.trace env o intrinsics
  location : t.location env = t'.location env
  predictCatcher : t.predictCatcher env = t'.predictCatcher env
  promiseOnThrow : t.promiseOnThrow env = t'.promiseOnThrow env

theorem externalCatchesAt_of_no_scope (h : t.tryCatches = []) (f : Frame) :
    t.externalCatchesAt f = false := by
  simp [externalCatchesAt, topTryCatch, h]

theorem predictAt_alike (h : t.tryCatches = []) (h' : t'.tryCatches = []) (heap : Heap)
    {f f' : Frame} (hf : f.detached = f'.detached) :
    t.predictAt heap f = t'.predictAt heap f' := by
  have hdetached : ∀ (t : ThreadState) (f : Frame), t.tryCatches = [] →
      t.predictAt heap f = ({} : ThreadState).predictAt heap f.detached := by
    intro t f h
    have hkind : f.detached.kind = f.kind := rfl
    unfold predictAt
    rw [externalCatchesAt_of_no_scope h, externalCatchesAt_of_no_scope rfl, hkind]
    cases f.kind <;> rfl
  rw [hdetached t f h, hdetached t' f' h', hf]

/-- What a frame says about who catches, if it says something. -/
def catcherAt (t : ThreadState) (heap : Heap) (f : Frame) : Option CatchPrediction :=
  match t.predictAt heap f with
  | .notCaught => none
  | p => some p

theorem catcherAt_of_prediction {heap : Heap} {f : Frame} {p : HandlerPrediction}
    (h : t.predictAt heap f = p.toCatch) : t.catcherAt heap f = p.definite?.map (·.toCatch) := by
  unfold catcherAt
  rw [h]
  cases p <;> rfl

theorem predictCatcher_eq (h : t.handlerType .undefined ≠ .external) :
    t.predictCatcher env =
      (Frame.firstAnswer env.codes t.stack.activeSegment.id (t.catcherAt env.heap)
        t.stack.activeFrames).map (·.getD .notCaught) := by
  unfold predictCatcher
  rw [beq_false_of_ne h]
  rfl

theorem predictCatcher_of_no_scope (h : t.tryCatches = []) :
    t.predictCatcher env =
      (Frame.firstAnswer env.codes t.stack.activeSegment.id (t.catcherAt env.heap)
        t.stack.activeFrames).map (·.getD .notCaught) := by
  refine predictCatcher_eq ?_
  unfold handlerType topTryCatch
  rw [h]
  cases t.managedHandler.filter fun _ => Value.undefined.isCatchable <;> exact nofun

theorem catcherAt_alike (h : t.tryCatches = []) (h' : t'.tryCatches = []) (heap : Heap) :
    ∀ f f' : Frame, f.detached = f'.detached → t.catcherAt heap f = t'.catcherAt heap f' := by
  intro f f' hf
  rw [catcherAt, catcherAt, predictAt_alike h h' heap hf]

theorem catcherAt_silent (h : t.tryCatches = []) (heap : Heap) :
    ∀ f : Frame, f.IsSilent → t.catcherAt heap f = none := by
  intro f hf
  unfold catcherAt predictAt
  rw [externalCatchesAt_of_no_scope h]
  rcases hf with hk | hk | hk | hk <;> rw [hk] <;> rfl

theorem location?_alike (heap : Heap) :
    ∀ f f' : Frame, f.detached = f'.detached → f.location? heap = f'.location? heap :=
  fun _ _ => Frame.eq_of_detached (g := (·.location? heap)) fun _ => rfl

theorem location?_silent (heap : Heap) : ∀ f : Frame, f.IsSilent → f.location? heap = none := by
  intro f hf
  rw [Frame.location?, hf.not_isManaged, if_neg Bool.false_ne_true]

theorem walksAlike (h : SeenAlike t.stack.activeFrames t'.stack.activeFrames)
    (hscopes : t.tryCatches = []) (hscopes' : t'.tryCatches = [])
    (hpromises : t.promises = t'.promises) (hmicrotask : t.microtask = t'.microtask) :
    WalksAlike env t t' where
  trace := by
    intro o intrinsics
    have hadd : (TraceBuilder.start o).addSegment env.codes env.heap t.stack.activeSegment =
        (TraceBuilder.start o).addSegment env.codes env.heap t'.stack.activeSegment :=
      TraceBuilder.addFrames_alike h
    rw [trace, trace, hadd, hmicrotask]
  location := Frame.firstAnswer_alike h (location?_alike env.heap) (location?_silent env.heap)
  predictCatcher := by
    rw [predictCatcher_of_no_scope hscopes, predictCatcher_of_no_scope hscopes']
    congr 1
    exact Frame.firstAnswer_alike h (catcherAt_alike hscopes hscopes' env.heap)
      (catcherAt_silent hscopes' env.heap)
  promiseOnThrow := by
    have hsearch : searchPromise env t.stack.activeSegment.id t.stack.activeSegment.innermostFirst
        t.promises.reverse .undefined =
        searchPromise env t'.stack.activeSegment.id t'.stack.activeSegment.innermostFirst
        t.promises.reverse .undefined := searchPromise_alike h
    rw [promiseOnThrow, promiseOnThrow, hsearch, hpromises]

/-- A walk that finds something on the first stack finds it on the second one too. -/
structure FindsToo (env : Surroundings) (t t' : ThreadState) : Prop where
  location : t.location env ≠ .ok none → t'.location env = t.location env
  predictCatcher : t.predictCatcher env ≠ .ok .notCaught →
    t'.predictCatcher env = t.predictCatcher env

theorem findsToo {pushed behind : List RawFrame}
    (hframes : t'.stack.activeFrames = pushed ++ behind)
    (hpushed : t.stack.activeFrames.map (·.detached) = pushed.map (·.detached))
    (hscopes : t.tryCatches = []) (hscopes' : t'.tryCatches = []) : FindsToo env t t' := by
  have halike : SeenAlike t.stack.activeFrames pushed := .of_same hpushed
  constructor
  · intro h
    have hsame : t.location env = Frame.firstAnswer env.codes t'.stack.activeSegment.id
        (·.location? env.heap) pushed :=
      Frame.firstAnswer_alike halike (location?_alike env.heap) (location?_silent env.heap)
    rw [hsame] at h ⊢
    rw [← Frame.firstAnswer_append h behind, ← hframes]
    rfl
  · intro h
    rw [predictCatcher_of_no_scope hscopes']
    rw [predictCatcher_of_no_scope hscopes, Frame.firstAnswer_alike halike
      (catcherAt_alike hscopes hscopes' env.heap) (catcherAt_silent hscopes' env.heap)] at h ⊢
    rw [hframes, Frame.firstAnswer_append]
    intro hnone
    exact h (congrArg (Except.map (·.getD .notCaught)) hnone)

open SegmentedStack

theorem tryCatches_layOut (h : t.tryCatches = []) (layout : List (Option FrameSpec)) :
    (t.layOut layout).tryCatches = [] := by
  obtain ⟨_, _, he⟩ := layOut_eq t layout
  rw [he]
  exact h

theorem walksAlike_layOut {layout layout' : List (Option FrameSpec)} (hscopes : t.tryCatches = [])
    (h : SeenAlike (t.layOut layout).stack.activeFrames (t.layOut layout').stack.activeFrames) :
    WalksAlike env (t.layOut layout) (t.layOut layout') := by
  obtain ⟨_, _, he⟩ := layOut_eq t layout
  obtain ⟨_, _, he'⟩ := layOut_eq t layout'
  exact walksAlike h (tryCatches_layOut hscopes layout) (tryCatches_layOut hscopes layout')
    (by rw [he, he']) (by rw [he, he'])

/-- The active segment of a stack that was cut has the frames pushed after the last cut alone. -/
theorem activeFrames_cut (h : t.stack.Holds []) (outer : List (Option FrameSpec))
    (inner : List FrameSpec) :
    (t.layOut (outer ++ none :: inner.map some)).stack.activeFrames.map (·.detached) =
      (inner.map (·.frame.detached)).reverse := by
  obtain ⟨_, houter⟩ := holds_layOut h outer
  obtain ⟨pushed, hframes, hpushed⟩ :=
    activeFrames_layOut (t := (t.layOut outer).lay none) houter.switchToNew inner
  have hnone : ((t.layOut outer).lay none).stack.activeFrames = [] :=
    activeFrames_switchToNew houter
  have hcut : t.layOut (outer ++ none :: inner.map some) =
      ((t.layOut outer).lay none).layOut (inner.map some) := List.foldl_append
  rw [hcut, hframes, hnone, List.append_nil, hpushed]

theorem uncut_eq (layout : List (Option FrameSpec)) :
    uncut layout = (layout.filterMap id).map some := by
  induction layout with
  | nil => rfl
  | cons step layout ih => cases step <;> simpa [uncut] using ih

/-- Without cuts, the frames pushed before lie behind those. -/
theorem activeFrames_uncut (hstack : t.stack = {}) (outer : List (Option FrameSpec))
    (inner : List FrameSpec) : ∃ pushed before,
      (t.layOut (uncut (outer ++ none :: inner.map some))).stack.activeFrames = pushed ++ before ∧
      pushed.map (·.detached) = (inner.map (·.frame.detached)).reverse ∧
      before.map (·.detached) = ((outer.filterMap id).map (·.frame.detached)).reverse := by
  have hempty : t.stack.Holds [] := hstack ▸ holds_empty
  obtain ⟨_, houter⟩ := holds_layOut hempty ((outer.filterMap id).map some)
  obtain ⟨before, hbefore, hdetached⟩ := activeFrames_layOut hempty (outer.filterMap id)
  obtain ⟨pushed, hframes, hpushed⟩ := activeFrames_layOut houter inner
  have huncut : uncut (outer ++ none :: inner.map some) =
      (outer.filterMap id).map some ++ inner.map some := by
    simp [uncut_eq]
  have hwhole : t.layOut (uncut (outer ++ none :: inner.map some)) =
      (t.layOut ((outer.filterMap id).map some)).layOut (inner.map some) := by
    rw [huncut]
    exact List.foldl_append
  have hbase : t.stack.activeFrames = [] := by
    rw [hstack]
    rfl
  rw [hbase, List.append_nil] at hbefore
  exact ⟨pushed, before, by rw [hwhole, hframes, hbefore], hpushed, hdetached⟩

variable {outer : List (Option FrameSpec)} {inner : List FrameSpec}

/-- Walks take no notice of the frames that were pushed before the last cut. -/
theorem walksAlike_of_cut (hstack : t.stack = {}) (hscopes : t.tryCatches = []) :
    WalksAlike env (t.layOut (outer ++ none :: inner.map some)) (t.layOut (inner.map some)) := by
  have hempty : t.stack.Holds [] := hstack ▸ holds_empty
  have hbase : t.stack.activeFrames = [] := by
    rw [hstack]
    rfl
  obtain ⟨pushed, hframes, hpushed⟩ := activeFrames_layOut hempty inner
  apply walksAlike_layOut hscopes
  rw [hframes, hbase]
  exact .of_detached ((activeFrames_cut hempty outer inner).trans hpushed.symm)
    fun _ h => absurd h List.not_mem_nil

/-- Where those frames are silent, a cut makes no difference. -/
theorem walksAlike_of_silent (hstack : t.stack = {}) (hscopes : t.tryCatches = [])
    (hsilent : ∀ spec, some spec ∈ outer → spec.frame.marker.isSilent) :
    WalksAlike env (t.layOut (outer ++ none :: inner.map some))
      (t.layOut (uncut (outer ++ none :: inner.map some))) := by
  have hempty : t.stack.Holds [] := hstack ▸ holds_empty
  obtain ⟨pushed, before, hframes, hpushed, hbefore⟩ := activeFrames_uncut hstack outer inner
  apply walksAlike_layOut hscopes
  rw [hframes]
  refine .of_detached ((activeFrames_cut hempty outer inner).trans hpushed.symm) ?_
  intro r hr
  have hmem : r.detached ∈ before.map (·.detached) := List.mem_map_of_mem hr
  rw [hbefore, List.mem_reverse] at hmem
  obtain ⟨spec, hspec, he⟩ := List.mem_map.mp hmem
  obtain ⟨_, hstep, rfl⟩ := List.mem_filterMap.mp hspec
  have hmarker : r.marker = spec.frame.marker := (congrArg (·.marker) he).symm
  rw [hmarker]
  exact hsilent spec hstep

/-- What walks find behind the last cut they find without it. -/
theorem findsToo_of_cut (hstack : t.stack = {}) (hscopes : t.tryCatches = []) :
    FindsToo env (t.layOut (outer ++ none :: inner.map some))
      (t.layOut (uncut (outer ++ none :: inner.map some))) := by
  have hempty : t.stack.Holds [] := hstack ▸ holds_empty
  obtain ⟨pushed, before, hframes, hpushed, -⟩ := activeFrames_uncut hstack outer inner
  exact findsToo hframes ((activeFrames_cut hempty outer inner).trans hpushed.symm)
    (tryCatches_layOut hscopes _) (tryCatches_layOut hscopes _)

/-- Dispatch ends the same way on a stack that was cut. -/
theorem run_layOut (hstack : t.stack = {}) (layout : List (Option FrameSpec)) :
    ∃ frames frames', (t.layOut layout).stack.Holds frames ∧
      (t.layOut (uncut layout)).stack.Holds frames' ∧
      frames.map (·.unplaced) = frames'.map (·.unplaced) ∧
      ∀ codes builtins termination kept kept' lazyThrow, Dispatch.EndsAlike frames frames'
        (Dispatch.run codes builtins termination ⟨t.layOut layout, kept, lazyThrow, none⟩)
        (Dispatch.run codes builtins termination
          ⟨t.layOut (uncut layout), kept', lazyThrow, none⟩) := by
  have hempty : t.stack.Holds [] := hstack ▸ holds_empty
  have hsame : t.SameFrames t := ⟨⟨[], [], hempty, hempty, rfl⟩, rfl⟩
  obtain ⟨⟨frames, frames', hs, hs', hframes⟩, hhandlers⟩ := hsame.layOut layout
  have hpending : (t.layOut layout).pending = (t.layOut (uncut layout)).pending := by
    obtain ⟨_, _, he⟩ := layOut_eq t layout
    obtain ⟨_, _, he'⟩ := layOut_eq t (uncut layout)
    rw [he, he']
  refine ⟨frames, frames', hs, hs', hframes, ?_⟩
  intro codes builtins termination kept kept' lazyThrow
  exact Dispatch.run_alike codes builtins termination hs hs' hframes hhandlers hpending rfl rfl rfl

/-- On a stack that was cut, walks see the frames pushed after the last cut alone: what they find
there they find on the uncut stack too, and they answer as there if the frames before are silent.
Dispatch ends the same way on both stacks, whatever the frames. -/
theorem layOut_cut (hstack : t.stack = {}) (hscopes : t.tryCatches = [])
    (outer : List (Option FrameSpec)) (inner : List FrameSpec) :
    let cut := t.layOut (outer ++ none :: inner.map some)
    let whole := t.layOut (uncut (outer ++ none :: inner.map some))
    (∀ env, WalksAlike env cut (t.layOut (inner.map some))) ∧
    (∀ env, FindsToo env cut whole) ∧
    ((∀ spec, some spec ∈ outer → spec.frame.marker.isSilent) →
      ∀ env, WalksAlike env cut whole) ∧
    ∃ frames frames', cut.stack.Holds frames ∧ whole.stack.Holds frames' ∧
      frames.map (·.unplaced) = frames'.map (·.unplaced) ∧
      ∀ codes builtins termination kept kept' lazyThrow, Dispatch.EndsAlike frames frames'
        (Dispatch.run codes builtins termination ⟨cut, kept, lazyThrow, none⟩)
        (Dispatch.run codes builtins termination ⟨whole, kept', lazyThrow, none⟩) :=
  ⟨fun _ => walksAlike_of_cut hstack hscopes, fun _ => findsToo_of_cut hstack hscopes,
    fun hsilent _ => walksAlike_of_silent hstack hscopes hsilent, run_layOut hstack _⟩

end ThreadState

namespace ThreadState.Example

open Dispatch.Example

def throwing : ThreadState := { pending := some (.smi 7) }

def entry : RawFrame := { marker := .entry, pc := 4096, slots := 6 }

/-- Only the entry frame was pushed before the cut: nothing is lost. -/
theorem layOut_cut_behind_entry :
    let cut :=
      throwing.layOut [some ⟨entry, false⟩, none, some ⟨guarded, false⟩, some ⟨native, false⟩]
    WalksAlike surroundings cut
      (throwing.layOut [some ⟨entry, false⟩, some ⟨guarded, false⟩, some ⟨native, false⟩]) ∧
    cut.predictCatcher surroundings = .ok .byManagedCode := by
  have hsilent : ∀ spec, some spec ∈ [some (⟨entry, false⟩ : FrameSpec)] →
      spec.frame.marker.isSilent := by
    intro spec h
    cases List.mem_singleton.mp h
    rfl
  exact ⟨(layOut_cut (t := throwing) rfl rfl [some ⟨entry, false⟩]
    [⟨guarded, false⟩, ⟨native, false⟩]).2.2.1 hsilent surroundings, rfl⟩

/-- A cut between the guarded frame and the native one hides the former from the prediction, and
dispatch finds it. -/
theorem predictCatcher_lost_by_cut :
    let layout := [some ⟨entry, false⟩, some ⟨guarded, false⟩, none, some ⟨native, false⟩]
    (throwing.layOut layout).predictCatcher surroundings = .ok .notCaught ∧
    (throwing.layOut (uncut layout)).predictCatcher surroundings = .ok .byManagedCode ∧
    ((Dispatch.run codes ⟨⟨[], []⟩, 0, 0⟩ false
      ⟨throwing.layOut layout, [], false, none⟩).2.thread.pendingHandler.map (·.framesAbove)) =
      some 0 :=
  ⟨rfl, rfl, by decide +kernel⟩

end ThreadState.Example

end ScriptEngine

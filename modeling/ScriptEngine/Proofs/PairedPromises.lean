import ScriptEngine.Exception.Promises
import ScriptEngine.Proofs.Landings

namespace ScriptEngine

/-- The frame waits for a promise, and the exception rejects it. -/
def HandlerPrediction.awaits : HandlerPrediction → Bool
  | asyncAwait | uncaughtAsyncAwait => true
  | _ => false

/-- The frames up to the first managed one whose pc is in no code, and the pc of that one. -/
def Frame.knownAmong (codes : CodeRegistry) (segment : Nat) :
    List RawFrame → List Frame × Option Address
  | [] => ([], none)
  | raw :: rest =>
    match view codes segment raw with
    | .error _ => ([], some raw.pc)
    | .ok f => (f :: (knownAmong codes segment rest).1, (knownAmong codes segment rest).2)

namespace Heap

/-- The heap with the hint on a promise that its rejection is handled. -/
def withHint (h : Heap) (v : Value) : Heap :=
  h.modifyPromise v fun p => { p with handledHint := true }

end Heap

namespace ThreadState

/-- What the managed frames and the stubs that catch say about the promise, where they say
something. -/
def promisePredictions (heap : Heap) (frames : List Frame) : List HandlerPrediction :=
  frames.filterMap fun f => (promisePredictionAt heap f).definite?

/-- The number of frames that wait before the first one that does not. -/
def awaiting (predictions : List HandlerPrediction) : Nat :=
  (predictions.takeWhile (·.awaits)).length

/-- The promise, and the heap afterwards, by the pairs of frames that wait and tracked promises: the
first promise that user code handles. Without one it depends on what ends the run of frames that
wait: too few promises, the last frame, one without code at the pc `codeless`, or a frame that does
not wait. `last` is the promise of the pair before. -/
def pairedPromise (heap : Heap) (predictions : List HandlerPrediction) (codeless : Option Address)
    (tracked : List Value) (last : Value) : Walk (Value × Heap) :=
  let run := awaiting predictions
  let paired := tracked.take run
  let last := paired.getLastD last
  match paired.find? heap.hasUserRejectHandler with
  | some p => .ok (p, heap)
  | none =>
    if tracked.length < run then .ok (last, heap)
    else
      match predictions[run]?, codeless with
      | none, none => .ok (last, heap)
      | none, some pc => breach (.managedFrameWithoutCode pc)
      | some .promise, _ => .ok (tracked[run]?.getD .undefined, heap)
      | some .caught, _ => .ok (last, heap.withHint last)
      | some _, _ => .ok (last, heap) -- no other prediction ends a run

section

variable {heap : Heap} {p : HandlerPrediction} {predictions : List HandlerPrediction}
  {codeless : Option Address} {tracked : List Value} {last q : Value}

theorem pairedPromise_nil : pairedPromise heap [] codeless tracked last =
    codeless.elim (.ok (last, heap)) fun pc => breach (.managedFrameWithoutCode pc) := by
  cases codeless <;> simp [pairedPromise, awaiting]

theorem pairedPromise_caught :
    pairedPromise heap (.caught :: predictions) codeless tracked last =
      .ok (last, heap.withHint last) := by
  simp [pairedPromise, awaiting, HandlerPrediction.awaits]

theorem pairedPromise_promise :
    pairedPromise heap (.promise :: predictions) codeless tracked last =
      .ok (tracked.headD .undefined, heap) := by
  cases tracked <;> simp [pairedPromise, awaiting, HandlerPrediction.awaits]

theorem pairedPromise_exhausted (hp : p.awaits) :
    pairedPromise heap (p :: predictions) codeless [] last = .ok (last, heap) := by
  simp [pairedPromise, awaiting, hp]

/-- A pair goes to the promise if user code handles it, and else to the next pair. -/
theorem pairedPromise_pair (hp : p.awaits) :
    pairedPromise heap (p :: predictions) codeless (q :: tracked) last =
      if heap.hasUserRejectHandler q then .ok (q, heap)
      else pairedPromise heap predictions codeless tracked q := by
  simp only [pairedPromise, awaiting, List.takeWhile_cons, hp, if_true, List.length_cons,
    List.take_succ_cons, List.find?_cons, List.getLastD_cons, List.getElem?_cons_succ,
    Nat.add_lt_add_iff_right]
  cases heap.hasUserRejectHandler q <;> rfl

end

/-- The promise and the heap with the hint that is left on it. -/
def TrackedPromise.result (heap : Heap) (found : TrackedPromise) : Value × Heap :=
  (found.promise, if found.isCaught then heap.withHint found.promise else heap)

section

variable {env : Surroundings} {segment : Nat} {raw : RawFrame} {raws : List RawFrame} {f : Frame}
  {tracked : List Value} {last : Value}

theorem promisePredictions_cons (heap : Heap) (f : Frame) (frames : List Frame) :
    promisePredictions heap (f :: frames) =
      (promisePredictionAt heap f).definite?.toList ++ promisePredictions heap frames := by
  simp only [promisePredictions, List.filterMap_cons]
  cases (promisePredictionAt heap f).definite? <;> rfl

/-- Frames that wait are all alike. -/
theorem searchPromise_awaits (hview : Frame.view env.codes segment raw = .ok f)
    (hawaits : (promisePredictionAt env.heap f).awaits) :
    searchPromise env segment (raw :: raws) tracked last =
      match tracked with
      | [] => .ok ⟨last, false⟩
      | q :: outer =>
        if env.heap.hasUserRejectHandler q then .ok ⟨q, false⟩
        else searchPromise env segment raws outer q := by
  rw [searchPromise, hview]
  cases hp : promisePredictionAt env.heap f <;> simp [hp, HandlerPrediction.awaits] at hawaits
  all_goals cases tracked <;> simp only [bind, Except.bind, hp] <;> rfl

theorem definite?_of_awaits {p : HandlerPrediction} (hp : p.awaits) : p.definite? = some p := by
  cases p <;> first | rfl | cases hp

end

theorem searchPromise_eq (env : Surroundings) (segment : Nat) (raws : List RawFrame)
    (tracked : List Value) (last : Value) :
    TrackedPromise.result env.heap <$> searchPromise env segment raws tracked last =
      pairedPromise env.heap
        (promisePredictions env.heap (Frame.knownAmong env.codes segment raws).1)
        (Frame.knownAmong env.codes segment raws).2 tracked last := by
  induction raws generalizing tracked last with
  | nil =>
    rw [Frame.knownAmong, promisePredictions, List.filterMap_nil, pairedPromise_nil]
    rfl
  | cons raw raws ih =>
    cases hview : Frame.view env.codes segment raw with
    | error e =>
      obtain rfl := Frame.view_error hview
      rw [searchPromise, Frame.knownAmong, hview, promisePredictions, List.filterMap_nil,
        pairedPromise_nil]
      rfl
    | ok f =>
      rw [Frame.knownAmong, hview, promisePredictions_cons]
      -- Only frames that wait take a promise from those that are tracked.
      by_cases hawaits : (promisePredictionAt env.heap f).awaits
      · rw [definite?_of_awaits hawaits]
        cases tracked with
        | nil =>
          have hsearch : searchPromise env segment (raw :: raws) [] last = .ok ⟨last, false⟩ :=
            searchPromise_awaits hview hawaits
          rw [hsearch]
          exact (pairedPromise_exhausted hawaits).symm
        | cons q tracked =>
          have hsearch : searchPromise env segment (raw :: raws) (q :: tracked) last =
              if env.heap.hasUserRejectHandler q then .ok ⟨q, false⟩
              else searchPromise env segment raws tracked q := searchPromise_awaits hview hawaits
          rw [hsearch]
          refine Eq.trans ?_ (pairedPromise_pair hawaits).symm
          split
          case isTrue => rfl
          case isFalse => exact ih tracked q
      · rw [searchPromise, hview]
        cases hp : promisePredictionAt env.heap f with
        | uncaught =>
          simp only [bind, Except.bind, hp]
          exact ih tracked last
        | caught =>
          simp only [bind, Except.bind, hp]
          exact pairedPromise_caught.symm
        | promise =>
          simp only [bind, Except.bind, hp]
          exact pairedPromise_promise.symm
        | asyncAwait => exact absurd (by rw [hp]; rfl) hawaits
        | uncaughtAsyncAwait => exact absurd (by rw [hp]; rfl) hawaits

end ThreadState

namespace Heap

/-- The heaps differ by a hint on a promise, if it is one, and in nothing else. -/
structure DiffersByHint (h h' : Heap) (v : Value) : Prop where
  size : h'.size = h.size
  promise : h'.promise? v = (h.promise? v).map fun p => { p with handledHint := true }
  same : h.promise? v = none → h' = h
  others : ∀ w, w ≠ v → h'.object? w = h.object? w

variable {h : Heap} {v w : Value}

theorem object?_modify (h : Heap) (v w : Value) (f : HeapObject → HeapObject) :
    (h.modify v f).object? w = if w = v then (h.object? w).map f else h.object? w := by
  cases v
  case object id =>
    cases w
    case object id' =>
      simp only [modify, object?, Value.objectId?, Option.bind_some, Array.getElem?_modify,
        UInt32.toNat_inj, Value.object.injEq, eq_comm]
    all_goals exact (if_neg nofun).symm
  all_goals
    split
    case isTrue hw => rw [hw]; rfl
    case isFalse => rfl

theorem modify_eq_self {f : HeapObject → HeapObject}
    (hf : ∀ o, h.object? v = some o → f o = o) : h.modify v f = h := by
  cases v
  case object id =>
    have hobjects : h.objects.modify id.toNat f = h.objects := by
      refine Array.ext_getElem? fun i => ?_
      rw [Array.getElem?_modify]
      split
      case isTrue hi =>
        subst hi
        cases ho : h.objects[id.toNat]? with
        | none => rfl
        | some o => rw [Option.map_some, hf o ho]
      case isFalse => rfl
    exact congrArg Heap.mk hobjects
  all_goals rfl

theorem differsByHint_withHint (h : Heap) (v : Value) : h.DiffersByHint (h.withHint v) v where
  size := by
    cases v
    case object id => exact Array.size_modify
    all_goals rfl
  promise := by
    simp only [promise?, withHint, modifyPromise, object?_modify, if_true]
    cases h.object? v with
    | none => rfl
    | some o => cases o <;> rfl
  same hv := modify_eq_self fun o ho => by
    cases o
    case promise p => simp [promise?, ho] at hv
    all_goals rfl
  others w hw := by rw [withHint, modifyPromise, object?_modify, if_neg hw]

end Heap

namespace ThreadState

theorem not_awaits_of_end {predictions : List HandlerPrediction} {p : HandlerPrediction}
    (hend : predictions[awaiting predictions]? = some p) : p.awaits = false := by
  induction predictions with
  | nil => cases hend
  | cons q predictions ih =>
    cases hq : q.awaits with
    | true =>
      rw [awaiting, List.takeWhile_cons_of_pos hq, List.length_cons,
        List.getElem?_cons_succ] at hend
      exact ih hend
    | false =>
      rw [awaiting, List.takeWhile_cons_of_neg (Bool.not_eq_true _ ▸ hq)] at hend
      exact Option.some.inj hend ▸ hq

/-- A run of frames that wait ends at a promise, or where managed code catches. -/
theorem promise_or_caught_of_end {heap : Heap} {frames : List Frame} {p : HandlerPrediction}
    (hend : (promisePredictions heap frames)[awaiting (promisePredictions heap frames)]? = some p) :
    p = .promise ∨ p = .caught := by
  have hawaits := not_awaits_of_end hend
  obtain ⟨f, -, hdefinite⟩ := List.mem_filterMap.mp (List.mem_of_getElem? hend)
  cases p with
  | uncaught => cases hp : promisePredictionAt heap f <;> rw [hp] at hdefinite <;> cases hdefinite
  | caught => exact .inr rfl
  | promise => exact .inl rfl
  | asyncAwait => cases hawaits
  | uncaughtAsyncAwait => cases hawaits

/-- The pairs decide what the promise is, and whether a hint is left on it. -/
theorem promiseOnThrow_eq (t : ThreadState) (env : Surroundings) :
    let segment := t.stack.activeSegment
    let known := Frame.knownAmong env.codes segment.id segment.innermostFirst
    let predictions := promisePredictions env.heap known.1
    t.promiseOnThrow env =
        pairedPromise env.heap predictions known.2 t.promises.reverse .undefined ∧
      (∀ p, predictions[awaiting predictions]? = some p → p = .promise ∨ p = .caught) ∧
      ∀ v, env.heap.DiffersByHint (env.heap.withHint v) v := by
  refine ⟨?_, fun _ => promise_or_caught_of_end, env.heap.differsByHint_withHint⟩
  rw [← searchPromise_eq, promiseOnThrow]
  cases searchPromise env t.stack.activeSegment.id t.stack.activeSegment.innermostFirst
    t.promises.reverse .undefined <;> rfl

namespace PairsExample

def interpreter : Code := ⟨0, 4096, Builtin.interpreterEntry.description⟩

/-- A call is the last instruction, so it returns to the first address behind the code. -/
def calling : Code := ⟨1, 8192, { kind := .turbofan, size := 64 }⟩

def surroundings : Surroundings where
  heap := ⟨#[.promise {}, .promise {}, .promise {}]⟩
  codes := { codes := [interpreter, calling] }

def predicted (p : HandlerPrediction) : FrameSpec :=
  .interpreted interpreter .undefined
    { length := 10, registerCount := 1, handlers := { ranges := [⟨0, 10, 8, 0, p⟩] } } 2

def running (specs : List FrameSpec) : ThreadState :=
  specs.foldl (fun t spec => (t.pushFrame spec).2)
    { promises := [.object 0, .object 1, .object 2] }

/-- Two frames wait, so the promise of the outer one is the second from the top. -/
example : Prod.fst <$> (running [predicted .caught, predicted .asyncAwait,
    predicted .uncaughtAsyncAwait]).promiseOnThrow surroundings = .ok (.object 1) := by rfl

theorem promiseOnThrow_behind_code :
    (running [.optimized calling .undefined 64]).stack.segments.length = 1 ∧
      ∀ found, (running [.optimized calling .undefined 64]).promiseOnThrow surroundings ≠
        .ok found := by
  refine ⟨rfl, fun found hfound => ?_⟩
  have hfails : (running [.optimized calling .undefined 64]).promiseOnThrow surroundings =
      breach (.managedFrameWithoutCode 8256) := rfl
  rw [hfails] at hfound
  cases hfound

end PairsExample

end ThreadState

end ScriptEngine

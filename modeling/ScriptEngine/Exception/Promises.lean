import ScriptEngine.Exception.Prediction

namespace ScriptEngine

namespace Heap

/-- User code that reacts to a rejection: a function that does not just forward, or any other
object. -/
def isRejectHandler (h : Heap) (handler : Value) : Bool :=
  match h.function? handler with
  | some f => !f.isForwarding
  | none => handler.isObject

/-- Descents along outer promises stop behind this many pending ones. -/
def outerPromiseLimit : Nat := 1024

/-- Reactions are searched this many promises deep. -/
def reactionDepthLimit : Nat := 64

/-- The result of a descent along outer promises. -/
inductive Descent
  /-- A promise with a hint that it is handled. -/
  | hinted
  /-- The pending promises on the way, the last one first. -/
  | reached (pending : List Value)

/-- Descends from a promise to the ones it is handled by, `steps` promises at most. -/
def descendFor (h : Heap) : Nat → Value → List Value → Descent
  | 0, _, pending => .reached pending
  | steps + 1, promise, pending =>
    match h.promise? promise with
    | none => .reached pending
    | some p =>
      if p.handledHint then .hinted
      else
        let pending := if p.isPending then promise :: pending else pending
        if (h.promise? p.handledBy).isNone || outerPromiseLimit < pending.length then
          .reached pending
        else descendFor h steps p.handledBy pending

/-- The descent from a promise. Longer than this it goes in a circle of settled promises. -/
def descend (h : Heap) (promise : Value) : Descent :=
  descendFor h ((h.size + 1) * (outerPromiseLimit + 2)) promise []

mutual

/-- Whether user code handles the rejection of a promise, or of one that it forwards to. -/
def handledByUserFor (h : Heap) : Nat → Value → Bool
  | 0, _ => false
  | steps + 1, promise =>
    match h.descend promise with
    | .hinted => true
    | .reached pending => pending.any fun p => reactionsHandleFor h steps p 0

/-- Whether a reaction of a promise handles a rejection, or passes it on to a promise that is
handled by user code. -/
def reactionsHandleFor (h : Heap) : Nat → Value → Nat → Bool
  | 0, _, _ => false
  | steps + 1, promise, depth =>
    if reactionDepthLimit < depth then false
    else
      match h.promise? promise with
      | none => false
      | some p => p.reactions.any fun r =>
        let derived :=
          if (h.promise? r.derived).isSome then some r.derived
          else (h.capability? r.derived).map (·.promise)
        match derived with
        | none => false
        | some d =>
          (!r.rejectHandler.isUndefined && h.isRejectHandler r.rejectHandler) ||
            handledByUserFor h steps d || reactionsHandleFor h steps d (depth + 1)

end

/-- A search that ends starts from no promise twice, and from each goes through no more reactions
than the limit, so this bound is never its end. -/
def searchBound (h : Heap) : Nat := (h.size + 2) * (reactionDepthLimit + 3)

def hasUserRejectHandler (h : Heap) (promise : Value) : Bool :=
  h.handledByUserFor h.searchBound promise

end Heap

namespace ThreadState

/-- What one frame says about the promise: nothing, or how its handler treats the exception. -/
def promisePredictionAt (heap : Heap) (f : Frame) : HandlerPrediction :=
  if f.isManaged then f.prediction heap
  else if f.kind == .stub then f.stubPrediction?.getD .uncaught
  else .uncaught

/-- The promise found, and whether it was found behind a handler in managed code. -/
structure TrackedPromise where
  promise : Value := .undefined
  isCaught : Bool := false

/-- Walks the frames of a segment. `tracked` holds the promises that no async frame was paired
with yet, innermost first; `found` is the promise of the last pair. -/
def searchPromise (env : Surroundings) (segment : Nat) :
    List RawFrame → List Value → Value → Walk TrackedPromise
  | [], _, found => .ok ⟨found, false⟩
  | raw :: rest, tracked, found => do
    let f ← Frame.view env.codes segment raw
    match promisePredictionAt env.heap f, tracked with
    | .uncaught, _ => searchPromise env segment rest tracked found
    | .caught, _ => return ⟨found, true⟩
    | .promise, _ => return ⟨tracked.headD .undefined, false⟩
    | .asyncAwait, [] | .uncaughtAsyncAwait, [] => return ⟨found, false⟩
    | .asyncAwait, p :: outer | .uncaughtAsyncAwait, p :: outer =>
      if env.heap.hasUserRejectHandler p then return ⟨p, false⟩
      else searchPromise env segment rest outer p

/-- The promise that an exception thrown now rejects, or undefined; and the heap with a hint on
the promise if managed code catches the exception. -/
def promiseOnThrow (t : ThreadState) (env : Surroundings) : Walk (Value × Heap) := do
  let segment := t.stack.activeSegment
  let found ← searchPromise env segment.id segment.innermostFirst t.promises.reverse .undefined
  let hint (p : Promise) : Promise := { p with handledHint := true }
  return (found.promise,
    if found.isCaught then env.heap.modifyPromise found.promise hint else env.heap)

end ThreadState

end ScriptEngine

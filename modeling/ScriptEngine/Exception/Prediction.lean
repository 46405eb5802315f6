import ScriptEngine.Thread.State
import ScriptEngine.Trace.Capture

namespace ScriptEngine

/-- Who will catch an exception that is thrown now, told without unwinding. -/
inductive CatchPrediction
  | notCaught
  | byManagedCode
  | byPromise
  | byAsyncAwait
  | byExternal
  deriving DecidableEq

def HandlerPrediction.toCatch : HandlerPrediction → CatchPrediction
  | uncaught => .notCaught
  | caught => .byManagedCode
  | promise => .byPromise
  | asyncAwait | uncaughtAsyncAwait => .byAsyncAwait

/-- A prediction that says something. -/
def HandlerPrediction.definite? : HandlerPrediction → Option HandlerPrediction
  | uncaught => none
  | p => some p

/-- The kind of the innermost handler. -/
inductive HandlerType
  | managed
  | external
  | none
  deriving DecidableEq

/-- The innermost handler for an exception. An uncatchable one passes the managed handlers. The
lower of two addresses is the newer. -/
def ThreadState.handlerType (t : ThreadState) (exception : Value) : HandlerType :=
  match t.managedHandler.filter fun _ => exception.isCatchable, t.topTryCatch.map (·.address) with
  | .none, .none => .none
  | .none, some _ => .external
  | some _, .none => .managed
  | some managed, some external => if external < managed then .external else .managed

/-- The prediction of the handler that covers an activation, if any does. -/
def Activation.prediction? (a : Activation) : Option HandlerPrediction :=
  match a.code with
  | .code c => if c.isBuiltin then some c.prediction else none
  | .bytecode b => (b.handlers.lookupRange a.offset).map (·.prediction)

namespace Frame

/-- The prediction of an interpreted or baseline frame. -/
def rangePrediction (f : Frame) : HandlerPrediction :=
  (f.coveringRange.map (·.prediction)).getD .uncaught

/-- The first definite prediction of an optimized frame's activations, innermost first. -/
def inlinedPrediction (f : Frame) (heap : Heap) : HandlerPrediction :=
  match f.returnHandler with
  | none => .uncaught
  | some _ =>
    ((f.activations heap).reverse.findSome? fun a =>
      a.prediction?.bind (·.definite?)).getD .uncaught

/-- The prediction of a frame by its handler table. -/
def prediction (f : Frame) (heap : Heap) : HandlerPrediction :=
  match f.kind with
  | .optimized => f.inlinedPrediction heap
  | .interpreted | .baseline => f.rangePrediction
  | _ => .uncaught

/-- The prediction of the code of a stub frame, if the code can catch. -/
def stubPrediction? (f : Frame) : Option HandlerPrediction :=
  (f.code.filter (·.catchesInStub)).map (·.prediction)

end Frame

namespace ThreadState

/-- Whether the innermost scope of the embedder gets what reaches an entry frame: unless it is
verbose or lies beyond the handler below the entry frame's own. -/
def externalCatchesAt (t : ThreadState) (entry : Frame) : Bool :=
  match t.topTryCatch with
  | none => false
  | some scope =>
    if scope.isVerbose then false
    else
      match entry.raw.handler with
      | none => true
      | some 0 => true
      | some (i + 1) =>
        match t.handlers[i]? with
        | none => true
        | some next => scope.address < next

/-- What one frame says about who catches. -/
def predictAt (t : ThreadState) (heap : Heap) (f : Frame) : CatchPrediction :=
  match f.kind with
  | .entry | .constructEntry => if t.externalCatchesAt f then .byExternal else .notCaught
  | .interpreted | .baseline => f.rangePrediction.toCatch
  | .optimized => (f.inlinedPrediction heap).toCatch
  | .stub => (f.stubPrediction?.map (·.toCatch)).getD .notCaught
  | .continuationWithCatch => (f.code.map (·.prediction.toCatch)).getD .notCaught
  | .builtin | .exit | .native => .notCaught

/-- Asks the frames of the active segment from the innermost outwards. -/
def predictCatcher (t : ThreadState) (env : Surroundings) : Walk CatchPrediction := do
  if t.handlerType .undefined == .external then return .byExternal
  let segment := t.stack.activeSegment
  let answer (f : Frame) : Option CatchPrediction :=
    match t.predictAt env.heap f with
    | .notCaught => none
    | p => some p
  let found ← Frame.firstAnswer env.codes segment.id answer segment.innermostFirst
  return found.getD .notCaught

end ThreadState

end ScriptEngine

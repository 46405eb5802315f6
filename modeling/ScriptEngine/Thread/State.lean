import ScriptEngine.Heap.Roots
import ScriptEngine.Stack.View
import ScriptEngine.Thread.TryCatch

namespace ScriptEngine

/-- Threads are known by name. -/
abbrev ThreadId := String

/-- Where execution goes on after a handler was found. -/
structure PendingHandler where
  /-- The context to install; undefined keeps the frame's own. -/
  context : Value
  entry : Address
  constantPool : Address
  fp : Address
  sp : Address
  /-- Frames given up above the frame that handles. -/
  framesAbove : Nat
  deriving DecidableEq

/-- What an isolate keeps for one thread. The setters of the pending and the scheduled exception
refuse to fill both slots. -/
structure ThreadState where
  pending : Option Value := none
  scheduled : Option Value := none
  message : Option Value := none
  context : Value := .undefined
  /-- The pending exception was handed to the embedder's innermost scope. -/
  externalCaught : Bool := false
  /-- The next throw is a rethrow and makes no message. -/
  rethrowing : Bool := false
  /-- Addresses of the handlers of entry frames, outermost first. -/
  handlers : List Address := []
  /-- Outermost first. -/
  tryCatches : List TryCatch := []
  pendingHandler : Option PendingHandler := none
  stack : SegmentedStack := {}
  /-- Outermost first. -/
  promises : List Value := []
  microtask : Value := .undefined
  /-- Arrays that are being joined. -/
  joins : List Value := []

namespace ThreadState

def setPending (t : ThreadState) (exception : Value) : Except IsolateError ThreadState :=
  if t.scheduled.isSome then .error (.exceptionConflict .pendingWhileScheduled)
  else .ok { t with pending := some exception }

def clearPending (t : ThreadState) : ThreadState := { t with pending := none }

def setScheduled (t : ThreadState) (exception : Value) : Except IsolateError ThreadState :=
  if t.pending.isSome then .error (.exceptionConflict .scheduledWhilePending)
  else .ok { t with scheduled := some exception }

def clearScheduled (t : ThreadState) : ThreadState := { t with scheduled := none }

/-- Moves the pending exception to the scheduled slot. -/
def schedulePending (t : ThreadState) : Except IsolateError ThreadState :=
  match t.pending with
  | none => .error .noPendingException
  | some exception => .ok { t with pending := none, scheduled := some exception }

/-- The handler of the innermost entry frame. -/
def managedHandler (t : ThreadState) : Option Address := t.handlers.getLast?

def topTryCatch (t : ThreadState) : Option TryCatch := t.tryCatches.getLast?

def tryCatch? (t : ThreadState) (id : TryCatchId) : Option TryCatch :=
  t.tryCatches.find? (·.id == id)

/-- Changes the innermost scope. -/
def modifyTop (t : ThreadState) (f : TryCatch → TryCatch) : ThreadState :=
  match t.tryCatches.getLast? with
  | none => t
  | some top => { t with tryCatches := t.tryCatches.dropLast ++ [f top] }

/-- Changes the outermost scope of an id. -/
def modifyTryCatch (t : ThreadState) (id : TryCatchId) (f : TryCatch → TryCatch) : ThreadState :=
  match t.tryCatches.findIdx? (·.id == id) with
  | none => t
  | some i => { t with tryCatches := t.tryCatches.modify i f }

/-- The scope becomes the innermost one and takes stack space. -/
def registerTryCatch (t : ThreadState) (scope : TryCatch) : TryCatch × ThreadState :=
  let (address, stack) := t.stack.reserveNative TryCatch.size
  let scope := { scope with address := address }
  (scope, { t with stack := stack, tryCatches := t.tryCatches ++ [scope] })

/-- Only the innermost scope can be taken away. -/
def unregisterTryCatch (t : ThreadState) (id : TryCatchId) :
    Except IsolateError (TryCatch × ThreadState) :=
  match t.tryCatches.getLast? with
  | none => .error (.unknownTryCatch id)
  | some top =>
    if top.id = id then
      .ok (top, { t with
        tryCatches := t.tryCatches.dropLast
        stack := t.stack.releaseNative top.address TryCatch.size })
    else if t.tryCatches.any (·.id == id) then .error .tryCatchOrder
    else .error (.unknownTryCatch id)

/-- Entry frames also install a handler at their sp. -/
def pushFrame (t : ThreadState) (spec : FrameSpec) : Address × ThreadState :=
  let (frame, stack) := t.stack.push spec
  if spec.frame.marker.isEntry then
    let installed (g : StackSegment) : StackSegment :=
      { g with
        frames := g.frames.dropLast ++
          [{ frame with handler := some t.handlers.length }] }
    (frame.fp, { t with
      handlers := t.handlers ++ [frame.sp]
      stack := stack.modifyActive installed })
  else (frame.fp, { t with stack := stack })

/-- Takes the handler of an entry frame, and all above it, along. -/
def popFrame (t : ThreadState) : Option RawFrame × ThreadState :=
  match t.stack.pop with
  | (none, stack) => (none, { t with stack := stack })
  | (some frame, stack) =>
    let handlers := match frame.handler with
      | none => t.handlers
      | some i => t.handlers.take i
    (some frame, { t with stack := stack, handlers := handlers })

/-- The stack pointer to resume with at a handler. -/
def handlerResumeSp (t : ThreadState) (i : Nat) : Option Address :=
  t.handlers[i]?.map (· + stackHandlerSize)

def pushPromise (t : ThreadState) (promise : Value) : ThreadState :=
  { t with promises := t.promises ++ [promise] }

def popPromise (t : ThreadState) : Option Value × ThreadState :=
  (t.promises.getLast?, { t with promises := t.promises.dropLast })

section Roots

variable {m : Type → Type} [Monad m]

def visitHandler (visit : RootVisitor m) (h : PendingHandler) : m PendingHandler := do
  return { h with context := ← visit .threadState "pending handler context" h.context }

def visitTryCatch (visit : RootVisitor m) (s : TryCatch) : m TryCatch := do
  let exception ← visit.option .externalTryCatch "try-catch exception" s.exception
  let message ← visit.option .externalTryCatch "try-catch message" s.message
  return { s with exception := exception, message := message }

def visitFrame (visit : RootVisitor m) (f : RawFrame) : m RawFrame := do
  let function ← visit .stack "frame function" f.function
  let receiver ← visit .stack "frame receiver" f.receiver
  let context ← visit .stack "frame context" f.context
  let exception ← visit .stack "frame exception" f.exception
  let registers ← visit.list .stack "frame registers" f.registers
  return { f with
    function := function
    receiver := receiver
    context := context
    exception := exception
    registers := registers }

def visitSegment (visit : RootVisitor m) (g : StackSegment) : m StackSegment := do
  return { g with frames := ← g.frames.mapM (visitFrame visit) }

/-- Visits every slot of the thread once. -/
def visitRoots (visit : RootVisitor m) (t : ThreadState) : m ThreadState := do
  let pending ← visit.option .threadState "pending exception" t.pending
  let message ← visit.option .threadState "pending message" t.message
  let context ← visit .threadState "context" t.context
  let scheduled ← visit.option .threadState "scheduled exception" t.scheduled
  let microtask ← visit .threadState "current microtask" t.microtask
  let pendingHandler ← match t.pendingHandler with
    | none => pure none
    | some h => some <$> visitHandler visit h
  let joins ← visit.list .threadState "array join stack" t.joins
  let tryCatches ← t.tryCatches.mapM (visitTryCatch visit)
  let promises ← visit.list .promiseStack "promise stack" t.promises
  let segments ← t.stack.segments.mapM (visitSegment visit)
  return { t with
    pending := pending
    message := message
    context := context
    scheduled := scheduled
    microtask := microtask
    pendingHandler := pendingHandler
    joins := joins
    tryCatches := tryCatches
    promises := promises
    stack := { t.stack with segments := segments } }

end Roots

end ThreadState

end ScriptEngine

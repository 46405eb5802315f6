import ScriptEngine.Blob.Format

namespace ScriptEngine

abbrev IsolateId := Nat

abbrev TryCatchId := Nat

inductive LifecycleState
  /-- Memory is reserved, nothing else is set up. -/
  | allocated
  | initializing
  | initialized
  /-- Setting up stopped half way. -/
  | failed
  | deinitializing
  | deinitialized
  deriving DecidableEq

def LifecycleState.text : LifecycleState → String
  | allocated => "Allocated"
  | initializing => "Initializing"
  | initialized => "Initialized"
  | failed => "Failed"
  | deinitializing => "Deinitializing"
  | deinitialized => "Deinitialized"

/-- States that do not let a thread in. -/
def LifecycleState.refusesEntry : LifecycleState → Bool
  | deinitializing | deinitialized | failed => true
  | _ => false

/-- How messages write what depends on where the process runs. -/
structure Naming where
  address : Address → String := Text.hexAddress
  isolate : IsolateId → String := toString
  tryCatch : TryCatchId → String := toString

inductive SnapshotError
  | empty (name : String)
  | rejected (reason : String)

def SnapshotError.message : SnapshotError → String
  | empty name => s!"snapshot {name} is empty"
  | rejected reason => s!"snapshot rejected: {reason}"

/-- Why two exception slots would both be occupied. -/
inductive SlotConflict
  | throwWhileScheduled
  | pendingWhileScheduled
  | scheduledWhilePending
  | other (text : String)

def SlotConflict.message : SlotConflict → String
  | throwWhileScheduled => "cannot throw while an exception is scheduled"
  | pendingWhileScheduled => "cannot set a pending exception while one is scheduled"
  | scheduledWhilePending => "cannot schedule an exception while one is pending"
  | other text => text

/-- Operations that some lifecycle states do not allow. -/
inductive GuardedOperation
  | setUp
  | enter
  | tearDown
  | unwind
  | createGlobalHandle
  | other (text : String)

def GuardedOperation.text : GuardedOperation → String
  | setUp => "initialize"
  | enter => "enter"
  | tearDown => "deinitialize"
  | unwind => "unwind"
  | createGlobalHandle => "create a global handle in"
  | other text => text

inductive IsolateError
  | notEntered
  | threadNotAttached
  | exceptionConflict (conflict : SlotConflict)
  | noPendingException
  | noScheduledException
  | invalidState (operation : GuardedOperation) (state : LifecycleState)
  | unknownTryCatch (id : TryCatchId)
  | tryCatchOrder
  | unknownCode (address : Address)
  | snapshot (e : SnapshotError)
  | blob (e : BlobError)
  | noDeserializer
  | system (text : String)

def IsolateError.message (naming : Naming) : IsolateError → String
  | notEntered => "isolate is not entered on this thread"
  | threadNotAttached => "thread is not attached to the isolate"
  | exceptionConflict conflict => s!"exception slot conflict: {conflict.message}"
  | noPendingException => "no pending exception"
  | noScheduledException => "no scheduled exception"
  | invalidState operation state => s!"cannot {operation.text} an isolate in state {state.text}"
  | unknownTryCatch id => s!"unknown try-catch scope TryCatchId({naming.tryCatch id})"
  | tryCatchOrder => "try-catch scopes unregistered out of order"
  | unknownCode address => s!"no code object contains address {naming.address address}"
  | snapshot e => s!"snapshot error: {e.message}"
  | blob e => s!"embedded blob error: {e.message}"
  | noDeserializer => "no deserializer installed"
  | system text => s!"IO error: {text}"

/-- Internal checks that did not hold. -/
inductive Breach
  | managedFrameWithoutCode (pc : Address)
  | entryWithoutHandler
  | entryHandlerNotInstalled (index : Nat)
  | entryWithoutCode (pc : Address)
  | entryWithoutReturn
  | contextRegisterOutOfRange (register count : Nat)
  | throwingFrameHandles
  | handlerOffsetUnmapped (offset : Nat)
  | builtinFrameHandles (name : String)
  | restartOnCatchable
  | restartOfUnmanaged
  | restartWithoutCode
  | restartOfUnmarked
  | awaitingGeneratorRuns
  | droppedAlive (isolate : IsolateId) (live : List String)
  | other (text : String)

def Breach.message (naming : Naming) : Breach → String
  | managedFrameWithoutCode pc => s!"managed frame at pc {naming.address pc} has no code"
  | entryWithoutHandler => "entry frame without a stack handler"
  | entryHandlerNotInstalled index => s!"entry frame handler {index} is not installed"
  | entryWithoutCode pc => s!"entry frame at pc {naming.address pc} has no code"
  | entryWithoutReturn => "entry trampoline has no handler"
  | contextRegisterOutOfRange register count =>
    s!"context register r{register} out of range for a frame with {count} registers"
  | throwingFrameHandles => "interpreted handler frame must be below the frame that threw"
  | handlerOffsetUnmapped offset => s!"baseline code has no pc for handler offset {offset}"
  | builtinFrameHandles name => s!"builtin frame {name} has an exception handler"
  | restartOnCatchable => "frame restart requires an uncatchable exception"
  | restartOfUnmanaged => "only managed frames can be restarted"
  | restartWithoutCode => "restarted optimized frame has no code"
  | restartOfUnmarked => "restarted optimized frame must be marked for deoptimization"
  | awaitingGeneratorRuns => "awaiting generator is not suspended"
  | droppedAlive isolate live =>
    let names := ", ".intercalate (live.map fun name => "\"" ++ name ++ "\"")
    s!"isolate isolate#{naming.isolate isolate} dropped with live subsystems: [{names}]"
  | other text => text

/-- Misuse of the registry of blobs. -/
inductive BlobMisuse
  | heldNotSticky
  | heldWithoutSticky
  | outstandingReferences (count : Nat)
  | releasedNotSticky
  | refcountUnderflow
  | refcountingEnabled
  | currentNotSticky
  | missing
  | other (text : String)

def BlobMisuse.message : BlobMisuse → String
  | heldNotSticky => "isolate holds a shared blob that is not the sticky blob"
  | heldWithoutSticky => "isolate holds a shared blob but no sticky blob exists"
  | outstandingReferences count => s!"creating a blob with {count} outstanding references"
  | releasedNotSticky => "released blob is not the sticky blob"
  | refcountUnderflow => "blob refcount underflow"
  | refcountingEnabled => "free_current requires refcounting to be disabled"
  | currentNotSticky => "current blob is not the sticky blob"
  | missing => "booting from a snapshot requires an embedded blob"
  | other text => text

inductive FatalError
  | outOfMemory (purpose : String)
  | notInitialized
  | snapshotArgumentMismatch
  | sharedSpaceClientsAlive (owner : IsolateId) (clients : Nat)
  | outstandingEntries (isolate : IsolateId) (entries : Nat)
  | noHandlerFound
  | stackTraceDoubleFault (level : Nat)
  | blobMismatch (misuse : BlobMisuse)
  | abortOnUncaughtException (description : String)
  | invariantViolation (breach : Breach)

def FatalError.message (naming : Naming) : FatalError → String
  | outOfMemory purpose => s!"Out of memory: {purpose}"
  | notInitialized =>
    "Platform not initialized; call platform::initialize_once_per_process first"
  | snapshotArgumentMismatch => "Snapshot arguments must be all present or all absent"
  | sharedSpaceClientsAlive owner clients =>
    s!"Shared space owner {naming.isolate owner} torn down with {clients} attached client(s)"
  | outstandingEntries isolate entries =>
    s!"Isolate {naming.isolate isolate} destroyed with {entries} outstanding entr(ies)"
  | noHandlerFound => "No exception handler found on the stack"
  | stackTraceDoubleFault level => s!"Stack trace formatting re-entered {level} times"
  | blobMismatch misuse => s!"Embedded blob: {misuse.message}"
  | abortOnUncaughtException description => s!"Aborting on uncaught exception: {description}"
  | invariantViolation breach => s!"Invariant violated: {breach.message naming}"

/-- What a process that ends on a fatal error writes. -/
def FatalError.lastWords (e : FatalError) : String := s!"keel: fatal error: {e.message {}}"

inductive Failure
  | refused (e : IsolateError)
  | fatal (e : FatalError)

def Failure.message (naming : Naming) : Failure → String
  | refused e => e.message naming
  | fatal e => e.message naming

/-- A computation on a state of type `σ`. One that fails keeps the changes it made before. -/
abbrev Action (σ α : Type) := ExceptT Failure (StateM σ) α

/-- A walk that only reads; it can come upon a broken invariant. -/
abbrev Walk (α : Type) := Except FatalError α

def breach {α : Type} (b : Breach) : Walk α := .error (.invariantViolation b)

namespace Action

def refuse {σ α : Type} (e : IsolateError) : Action σ α := throw (.refused e)

def die {σ α : Type} (e : FatalError) : Action σ α := throw (.fatal e)

def ofWalk {σ α : Type} : Walk α → Action σ α
  | .ok a => pure a
  | .error e => die e

def ofExcept {σ α : Type} : Except IsolateError α → Action σ α
  | .ok a => pure a
  | .error e => refuse e

/-- Runs an action on a part of the state, and puts the part back whether it fails or not. -/
def onPart {σ τ α : Type} (get : σ → τ) (put : τ → σ → σ) (act : Action τ α) : Action σ α :=
  ExceptT.mk fun s =>
    let (result, part) := act.run.run (get s)
    (result, put part s)

/-- Leaves the result of an action aside. -/
def ignore {σ α : Type} (act : Action σ α) : Action σ Unit := do
  let _ ← act

/-- Result and state after a run. -/
def outcome {σ α : Type} (act : Action σ α) (s : σ) : Except Failure α × σ := act.run.run s

/-- Turns a failure into a value. -/
def attempt {σ α : Type} (act : Action σ α) : Action σ (Except Failure α) :=
  ExceptT.mk fun s =>
    let (result, s) := act.outcome s
    (.ok result, s)

end Action

end ScriptEngine

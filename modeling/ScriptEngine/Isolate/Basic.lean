import ScriptEngine.Code.Builtins
import ScriptEngine.Isolate.Callback
import ScriptEngine.Isolate.Guard
import ScriptEngine.Isolate.Materialized
import ScriptEngine.Isolate.Subsystems
import ScriptEngine.Platform
import ScriptEngine.Thread.State
import ScriptEngine.Trace.Capture
import ScriptEngine.Trace.Printer

namespace ScriptEngine

/-- What an isolate keeps for an attached thread. -/
structure ThreadData where
  top : ThreadState := {}
  stackSize : Nat
  printer : Printer := {}

/-- The part that an isolate has in the shared space. -/
inductive SpaceRole
  | owner (id : SpaceId)
  /-- A client does not keep the space alive. -/
  | client (id : SpaceId)
  deriving DecidableEq

/-- An independent instance of the engine, with a heap, code, subsystems and the state of every
thread that is attached. -/
structure Isolate where
  id : IsolateId
  options : IsolateOptions
  state : LifecycleState := .allocated
  /-- The states that it was in before, the last one first. -/
  past : List LifecycleState := []
  /-- The memory of the isolate itself. -/
  region : Option Reservation
  heap : Heap := {}
  codes : CodeRegistry := {}
  builtins : Option Builtins := none
  blob : Option BlobHandle
  intrinsics : Intrinsics := {}
  /-- In the order in which the threads were attached. -/
  threads : Table ThreadId ThreadData := []
  /-- Entries without an exit yet, over all threads. -/
  entries : Nat := 0
  subsystems : Subsystems := {}
  materialized : MaterializedObjects := []
  /-- The frame that handles is rebuilt before it goes on. -/
  lazyThrow : Bool := false
  spaceRole : Option SpaceRole := none
  /-- The frame that a debugger wants to restart. -/
  restart : Option Address := none
  guard : StackGuard := {}
  interrupts : List InterruptCallback := []
  terminationRequested : Bool := false
  listeners : List Listener := []
  deserializer : Option Deserializer := none
  events : List Event := []

namespace Isolate

def isInitialized (i : Isolate) : Bool := i.state == .initialized

/-- All states that it has been in, from the present one back. -/
def life (i : Isolate) : List LifecycleState := i.state :: i.past

/-- The isolate goes on to another state. -/
def inState (i : Isolate) (s : LifecycleState) : Isolate := { i with state := s, past := i.life }

/-- Names of the subsystems that are alive. -/
def liveSubsystems (i : Isolate) : List String :=
  i.subsystems.live ++
  (if i.codes.range.isSome then ["code range"] else []) ++
  (if i.builtins.isSome then ["builtins"] else []) ++
  (if i.blob.isSome then ["embedded blob"] else []) ++
  (if i.spaceRole.isSome then ["shared space"] else []) ++
  (if i.threads.isEmpty then [] else ["thread data"])

def isSpaceOwner (i : Isolate) : Bool :=
  match i.spaceRole with
  | some (.owner _) => true
  | _ => false

def isSpaceClient (i : Isolate) : Bool :=
  match i.spaceRole with
  | some (.client _) => true
  | _ => false

/-- The shared space, if it is alive. -/
def sharedSpace? (i : Isolate) (p : Platform) : Option HeldSpace :=
  match i.spaceRole with
  | none => none
  | some (.owner id) => p.space? id
  | some (.client id) => p.space? id

def surroundings (i : Isolate) : Surroundings := ⟨i.heap, i.codes⟩

def emit (i : Isolate) (e : Event) : Isolate := { i with events := i.events ++ [e] }

def thread? (i : Isolate) (t : ThreadId) : Option ThreadData := i.threads.lookup t

/-- Changes the data of a thread. -/
def modifyThread (i : Isolate) (t : ThreadId) (f : ThreadData → ThreadData) : Isolate :=
  { i with threads := i.threads.map fun (name, d) => if name = t then (name, f d) else (name, d) }

def setTop (i : Isolate) (t : ThreadId) (top : ThreadState) : Isolate :=
  i.modifyThread t fun d => { d with top := top }

/-- Attaches a thread unless it is attached. -/
def attach (i : Isolate) (t : ThreadId) : Isolate :=
  if (i.thread? t).isSome then i
  else { i with threads := i.threads ++ [(t, { stackSize := i.options.stackSize })] }

/-- Detaches a thread; tells whether it was attached. -/
def detach (i : Isolate) (t : ThreadId) : Bool × Isolate :=
  ((i.thread? t).isSome, { i with threads := i.threads.remove t })

def detachAll (i : Isolate) : Isolate := { i with threads := [] }

/-- Options of traces of this isolate. -/
def traceOptions (i : Isolate) (limit : Nat) (skip : Skip) : TraceOptions where
  limit := limit
  skip := skip
  showBuiltins := i.options.builtinsInStackTraces
  async := i.options.asyncStackTraces

/-- The state of an attached thread. -/
def top (t : ThreadId) : Action Isolate ThreadState := do
  match (← get).thread? t with
  | none => Action.refuse .threadNotAttached
  | some d => return d.top

/-- Sets the state of a thread. -/
def putTop (t : ThreadId) (top : ThreadState) : Action Isolate Unit := modify (·.setTop t top)

/-- Changes the state of an attached thread. -/
def onTop {α : Type} (t : ThreadId) (f : ThreadState → α × ThreadState) : Action Isolate α := do
  let (a, top) := f (← top t)
  putTop t top
  return a

/-- Changes the state of an attached thread unless the change is refused. -/
def tryOnTop (t : ThreadId) (f : ThreadState → Except IsolateError ThreadState) :
    Action Isolate Unit := do
  putTop t (← Action.ofExcept (f (← top t)))

/-- Puts an object on the heap. -/
def allocate (o : HeapObject) : Action Isolate Value :=
  modifyGet fun i =>
    let (v, heap) := i.heap.allocate o
    (v, { i with heap := heap })

def requireBuiltins (operation : GuardedOperation) : Action Isolate Builtins := do
  let i ← get
  match i.builtins with
  | none => Action.refuse (.invalidState operation i.state)
  | some builtins => return builtins

def lookupCode (i : Isolate) (pc : Address) : Except IsolateError Code :=
  match i.codes.lookup pc with
  | none => .error (.unknownCode pc)
  | some code => .ok code

def createGlobalHandle (v : Value) : Action Isolate Nat := do
  let i ← get
  match i.subsystems.globalHandles with
  | none => Action.refuse (.invalidState .createGlobalHandle i.state)
  | some handles =>
    let (handle, handles) := handles.create v
    set { i with subsystems := { i.subsystems with globalHandles := some handles } }
    return handle

section Roots

variable {m : Type → Type} [Monad m]

/-- Visits every reference that the isolate holds outside the heap. -/
def visitRoots (visit : RootVisitor m) (i : Isolate) : m Isolate := do
  let threads ← i.threads.mapM fun (t, d) => do
    return (t, { d with top := ← d.top.visitRoots visit })
  let handles ← match i.subsystems.globalHandles with
    | none => pure none
    | some handles => some <$> handles.visitRoots visit
  let materialized ← i.materialized.visitRoots visit
  return { i with
    threads := threads
    subsystems := { i.subsystems with globalHandles := handles }
    materialized := materialized }

end Roots

end Isolate

end ScriptEngine

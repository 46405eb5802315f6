import ScriptEngine.Exception.Unwind
import ScriptEngine.Inspect.Isolate
import ScriptEngine.Isolate.Interrupt
import ScriptEngine.Table

namespace ScriptEngine

/-- Where the code of an isolate lives: bases and sizes of its blob's code and of its code range. -/
structure CodePlaces where
  blob : Option (Address × Nat) := none
  range : Option (Address × Nat) := none

namespace CodePlaces

/-- The offset of an address in a region. The end belongs to the region. -/
def offsetIn? (a : Address) (region : Option (Address × Nat)) : Option Nat :=
  region.bind fun (base, size) => if base ≤ a ∧ a ≤ base + size then some (a - base) else none

/-- An address relative to the region that holds it. -/
def text (p : CodePlaces) (a : Address) : String :=
  match offsetIn? a p.blob, offsetIn? a p.range with
  | some n, _ => s!"blob+{n}"
  | none, some n => s!"range+{n}"
  | none, none => Text.hexAddress a

/-- Regions that an isolate has now replace the ones it had before. -/
def update (p : CodePlaces) (i : Isolate) : CodePlaces where
  blob := (i.builtins.map fun b => (b.base, b.blob.code.length)).or p.blob
  range := (i.codes.range.map fun r => (r.base, r.size)).or p.range

end CodePlaces

/-- An engine that a tool drives step by step. What a step makes gets a name, by which later steps
refer to it. -/
structure Session where
  engine : Engine := {}
  platforms : Table String PlatformId := []
  isolates : Table String IsolateId := []
  /-- Isolates in the order in which they came into being. -/
  born : List IsolateId := []
  /-- The last known places, also of isolates that are gone. -/
  places : Table IsolateId CodePlaces := []
  values : Table String Value := []
  scripts : Table String Script := []
  /-- Code with the isolate that it was placed for. -/
  codes : Table String (IsolateId × Code) := []
  tryCatches : Table String TryCatchId := []
  /-- Scopes that are not registered now, but can be. -/
  spare : Table String TryCatch := []
  /-- Shared spaces that the tool keeps alive. -/
  spaces : Table String (PlatformId × SpaceId) := []
  /-- What was last told about a thread. -/
  told : Option Datum := none

namespace Session

def isolateNamed? (s : Session) (name : String) : Option Isolate :=
  (s.isolates.lookup name).bind s.engine.isolate?

def placesOf (s : Session) (name : String) : CodePlaces :=
  ((s.isolates.lookup name).bind (s.places.lookup ·)).getD {}

/-- Isolates are numbered from one in the order of their birth. -/
def numberOf (s : Session) (id : IsolateId) : Nat := ((s.born.idxOf? id).map (· + 1)).getD id

/-- How a session writes what depends on where the engine runs, for steps on an isolate. -/
def naming (s : Session) (isolate : String) : Naming where
  address := (s.placesOf isolate).text
  isolate id := toString (s.numberOf id)

end Session

/-- Where a step runs: on an isolate by name, and on a thread. -/
structure Site where
  isolate : String
  thread : ThreadId

inductive StepFailure
  | failed (f : Failure)
  /-- The step refers to something by a name that nothing has. -/
  | unknown (sort name : String)

/-- A step of a session. One that fails keeps the changes it made before. -/
abbrev SessionM := ReaderT Site (ExceptT StepFailure (StateM Session))

namespace SessionM

/-- What a table has under a name. -/
def named {α : Type} (sort : String) (table : Session → Table String α) (name : String) :
    SessionM α := do
  match (table (← get)).lookup name with
  | some a => return a
  | none => throw (.unknown sort name)

def isolateId : SessionM IsolateId := do named "isolate" (·.isolates) (← read).isolate

def thread : SessionM ThreadId := return (← read).thread

def hosted : SessionM Hosted := do
  match (← get).engine.hosted? (← isolateId) with
  | some h => return h
  | none => throw (.unknown "isolate" (← read).isolate)

def isolate : SessionM Isolate := return (← hosted).isolate

def heap : SessionM Heap := return (← isolate).heap

def onEngine {α : Type} (act : Action Engine α) : SessionM α := do
  let s ← get
  let (result, engine) := Action.outcome act s.engine
  set { s with engine := engine }
  match result with
  | .ok a => return a
  | .error e => throw (.failed e)

def onHosted {α : Type} (act : Action Hosted α) : SessionM α := do
  onEngine (Engine.onHosted (← isolateId) act)

def onIsolate {α : Type} (act : Action Isolate α) : SessionM α := onHosted (Hosted.onIsolate act)

def modifyIsolate (f : Isolate → Isolate) : SessionM Unit := onIsolate (modify f)

def modifyHeap (f : Heap → Heap) : SessionM Unit :=
  modifyIsolate fun i => { i with heap := f i.heap }

/-- Runs an action on the step's thread. -/
def onThread {α : Type} (act : ThreadId → Action Isolate α) : SessionM α := do
  onIsolate (act (← thread))

def top : SessionM ThreadState := onThread Isolate.top

def onTop {α : Type} (f : ThreadState → α × ThreadState) : SessionM α :=
  onThread (Isolate.onTop · f)

def modifyTop (f : ThreadState → ThreadState) : SessionM Unit := onTop fun t => ((), f t)

def tryOnTop (f : ThreadState → Except IsolateError ThreadState) : SessionM Unit :=
  onThread (Isolate.tryOnTop · f)

def onStack {α : Type} (f : SegmentedStack → α × SegmentedStack) : SessionM α :=
  onTop fun t =>
    let (a, stack) := f t.stack
    (a, { t with stack := stack })

def onWalk {α : Type} (w : Walk α) : SessionM α := onIsolate (Action.ofWalk w)

def surroundings : SessionM Surroundings := return (← isolate).surroundings

def bindValue (name : String) (v : Value) : SessionM Unit :=
  modify fun s => { s with values := s.values.put name v }

/-- Code that a step gave a name, or else a builtin of the isolate. -/
def code (name : String) : SessionM Code := do
  match (← get).codes.lookup name, Named.ofName? (α := Builtin) name, (← isolate).builtins with
  | some (_, c), _, _ => return c
  | none, some b, some builtins => return builtins.code b
  | none, _, _ => throw (.unknown "code" name)

/-- The isolate that keeps the marks of some code: the one that it was placed for, if that one is
still there. -/
def codeHome (name : String) : SessionM IsolateId := do
  let s ← get
  let home := (s.codes.lookup name).map (·.1)
  match home.filter fun id => (s.engine.isolate? id).isSome with
  | some id => return id
  | none => isolateId

end SessionM

end ScriptEngine

import ScriptEngine.Isolate.Basic

namespace ScriptEngine

/-- An isolate with the platform that it lives on. -/
structure Hosted where
  isolate : Isolate
  platform : Platform

namespace Hosted

/-- Runs an action of the isolate. -/
def onIsolate {α : Type} (act : Action Isolate α) : Action Hosted α :=
  Action.onPart (·.isolate) (fun i h => { h with isolate := i }) act

/-- Runs an action of the registry of blobs. -/
def onBlobs {α : Type} (act : Action BlobRegistry α) : Action Hosted α :=
  Action.onPart (·.platform.blobs)
    (fun r h => { h with platform := { h.platform with blobs := r } }) act

def modifyIsolate (f : Isolate → Isolate) : Action Hosted Unit :=
  modify fun h => { h with isolate := f h.isolate }

def modifyPlatform (f : Platform → Platform) : Action Hosted Unit :=
  modify fun h => { h with platform := f h.platform }

def setState (s : LifecycleState) : Action Hosted Unit := modifyIsolate (·.inState s)

/-- Reserves memory of the platform; it is fatal if there is not enough. -/
def reserve (size : Nat) (purpose : String) : Action Hosted Reservation := do
  match (← get).platform.reserve size with
  | none => Action.die (.outOfMemory purpose)
  | some (r, platform) => do
    modifyPlatform fun _ => platform
    return r

/-- Owns the shared space, or joins it if there is one. -/
def attachSharedSpace : Action Hosted Unit := do
  let h ← get
  match h.platform.sharedSpace? with
  | some s => do
    modifyPlatform (·.modifySpace s.id (·.attach h.isolate.id))
    modifyIsolate fun i => { i with spaceRole := some (.client s.id) }
  | none => do
    let (id, platform) := h.platform.openSpace h.isolate.id
    set ({ h with platform := platform } : Hosted)
    modifyIsolate fun i => { i with spaceRole := some (.owner id) }

/-- An owner has to be alone; its space is closed to new clients and goes once nobody holds it. -/
def detachSharedSpace : Action Hosted Unit := do
  let h ← get
  modifyIsolate fun i => { i with spaceRole := none }
  match h.isolate.spaceRole with
  | none => return
  | some (.client id) => modifyPlatform (·.modifySpace id fun s => (s.detach h.isolate.id).2)
  | some (.owner id) => do
    modifyPlatform (·.unholdSpace id)
    match h.platform.space? id with
    | none => return
    | some s => Action.ofWalk s.space.checkNoClients
    modifyPlatform fun p => if p.slot = some id then { p with slot := none } else p

/-- Starts the compile thread. The system can refuse to, and says why. -/
def startCompileThread : Option String → Action Hosted Unit
  | some text => Action.refuse (.system text)
  | none =>
    modifyIsolate fun i => { i with subsystems := { i.subsystems with compileQueue := some {} } }

/-- Makes sure that the isolate has a blob, and that it is current. Without snapshots an isolate
that has no blob of the binary takes the sticky one. -/
def setUpBlob (fromSnapshot : Bool) : Action Hosted PlacedBlob := do
  let held := (← get).isolate.blob
  if !fromSnapshot && !held.any (·.isBinary) then
    let handle ← onBlobs (BlobRegistry.createAndSet held)
    modifyIsolate fun i => { i with blob := some handle }
  match (← get).isolate.blob with
  | none => Action.die (.blobMismatch .missing)
  | some handle => do
    onBlobs (modify (·.setCurrent handle.placed))
    return handle.placed

/-- A function of the engine that runs a builtin. -/
def builtinFunction (builtins : Builtins) (name : String) (b : Builtin) : HeapObject :=
  .function
    { info := { name, bytecode := ⟨0, 0, {}, {}⟩, origin := .builtin }
      code := builtins.code b
      context := .undefined
      identityHash := 0
      isForwarding := false }

/-- The combinator functions that async traces name. -/
def createIntrinsics (builtins : Builtins) : Action Isolate Unit := do
  let promiseAll ← Isolate.allocate (builtinFunction builtins "all" .promiseAll)
  let promiseAllSettled ←
    Isolate.allocate (builtinFunction builtins "allSettled" .promiseAllSettled)
  let promiseAny ← Isolate.allocate (builtinFunction builtins "any" .promiseAny)
  modify fun i => { i with intrinsics := { promiseAll, promiseAllSettled, promiseAny } }

def installBuiltins (placed : PlacedBlob) : Action Isolate Unit := do
  let i ← get
  let (builtins, codes) := Builtins.install placed.blob placed.codeAddress i.codes
  set { i with codes := codes }
  createIntrinsics builtins
  modify fun i => { i with builtins := some builtins }

def deserialize (snapshots : SnapshotSet) : Action Isolate Unit := do
  let i ← get
  match i.deserializer with
  | none => Action.refuse .noDeserializer
  | some d => do
    set (i.emit (.deserializing i.state i.builtins.isSome snapshots))
    match d.run snapshots with
    | .ok () => return
    | .error e => Action.refuse (.snapshot e)

/-- The phases of setting up, with what the system says where it does not start the compile thread.
The thread that sets up is attached without an entry. -/
def setUpPhases (t : ThreadId) (refusal : Option String) (snapshots : Option SnapshotSet) :
    Action Hosted Unit := do
  let options := (← get).isolate.options
  if options.sharedSpace then attachSharedSpace
  let range ← reserve options.codeRangeSize "code range"
  modifyIsolate fun i =>
    { i with
      codes := i.codes.setRange { reservation := range }
      subsystems := i.subsystems.createCore }
  if options.concurrentRecompilation then startCompileThread refusal
  modifyIsolate fun i => (i.attach t).setTop t {}
  let placed ← setUpBlob snapshots.isSome
  onIsolate (installBuiltins placed)
  match snapshots with
  | none => return
  | some s => onIsolate (deserialize s)

/-- Sets up an allocated isolate, from snapshots if there are any. -/
def setUpFrom (t : ThreadId) (refusal : Option String) (snapshots : Option SnapshotSet) :
    Action Hosted Unit := do
  let i := (← get).isolate
  if i.state ≠ .allocated then Action.refuse (.invalidState .setUp i.state)
  if snapshots.isSome && i.deserializer.isNone then Action.refuse .noDeserializer
  setState .initializing
  match ← Action.attempt (setUpPhases t refusal snapshots) with
  | .ok () => setState .initialized
  | .error (.refused e) => do
    setState .failed
    Action.refuse e
  | .error (.fatal e) => Action.die e

/-- Sets up from all three snapshots or from none. -/
def setUp (t : ThreadId) (startup readOnly shared : Option (List UInt8)) (canRehash : Bool)
    (refusal : Option String := none) : Action Hosted Unit :=
  match startup, readOnly, shared with
  | none, none, none => setUpFrom t refusal none
  | some startup, some readOnly, some shared =>
    setUpFrom t refusal (some { startup, readOnly, shared, canRehash })
  | _, _, _ => Action.die .snapshotArgumentMismatch

/-- Removes builtins, all other code and the code range. -/
def releaseCode : Action Hosted Unit := do
  modifyIsolate fun i =>
    { i with
      codes := ((i.builtins.map (·.uninstall i.codes)).getD i.codes).clear
      builtins := none }
  let (range, codes) := (← get).isolate.codes.takeRange
  modifyIsolate fun i => { i with codes := codes }
  match range with
  | none => return
  | some r => modifyPlatform (·.release r.reservation)

def releaseBlob : Action Hosted Unit := do
  let held := (← get).isolate.blob
  modifyIsolate fun i => { i with blob := none }
  match held with
  | none => return
  | some handle => onBlobs (BlobRegistry.release handle)

/-- Takes apart what setting up made, from the compile thread back to the caches. -/
def releaseAll : Action Hosted Unit := do
  modifyIsolate fun i => { i with subsystems := { i.subsystems with compileQueue := none } }
  detachSharedSpace
  modifyIsolate fun i =>
    { i.detachAll with
      materialized := []
      subsystems := { i.subsystems with globalHandles := none }
      heap := {} }
  releaseCode
  modifyIsolate fun i => { i with intrinsics := {} }
  releaseBlob
  modifyIsolate fun i => { i with subsystems := i.subsystems.clearCaches }

/-- Drops the callbacks that wait, the oldest first, and tells what that came to. A callback can own
something of the embedder, which then goes too. -/
def dropCallbacks {α : Type} (onDrop : InterruptCallback → Action Hosted α) :
    List InterruptCallback → Action Hosted (List α)
  | [] => return []
  | callback :: rest => do
    modifyIsolate fun i => { i with interrupts := rest }
    let dropped ← onDrop callback
    return dropped :: (← dropCallbacks onDrop rest)

/-- Tears everything down, and tells what dropping the callbacks came to. Once done it has no
effect; in the middle of setting up or of tearing down it is refused. -/
def tearDownWith {α : Type} (onDrop : InterruptCallback → Action Hosted α) :
    Action Hosted (List α) := do
  match (← get).isolate.state with
  | .deinitialized => return []
  | .initializing => Action.refuse (.invalidState .tearDown .initializing)
  | .deinitializing => Action.refuse (.invalidState .tearDown .deinitializing)
  | .allocated | .initialized | .failed => do
    setState .deinitializing
    releaseAll
    let dropped ← dropCallbacks onDrop (← get).isolate.interrupts
    modifyIsolate fun i => { i with listeners := [] }
    setState .deinitialized
    return dropped

/-- Tears down an isolate whose callbacks own nothing of the embedder. -/
def tearDown : Action Hosted Unit :=
  Action.ignore (tearDownWith fun _ => (return : Action Hosted Unit))

/-- A call that is made while another one runs: where it starts, what it comes to, where it ends. -/
structure InnerCall where
  before : Hosted
  result : Except Failure Unit
  after : Hosted

/-- Tears down once more, a number of times, whatever that comes to. -/
def tearDownAgain : Nat → Action Hosted (List InnerCall)
  | 0 => return []
  | n + 1 => do
    let before ← get
    let result ← Action.attempt tearDown
    let after ← get
    return ⟨before, result, after⟩ :: (← tearDownAgain n)

/-- An isolate with entries cannot go. -/
def checkNoEntries (i : Isolate) : Walk Unit :=
  if i.entries = 0 then .ok () else .error (.outstandingEntries i.id i.entries)

/-- Tears down for good; that tearing down is refused does not matter. -/
def disposeWith {α : Type} (onDrop : InterruptCallback → Action Hosted α) :
    Action Hosted (List α) := do
  Action.ofWalk (checkNoEntries (← get).isolate)
  match ← Action.attempt (tearDownWith onDrop) with
  | .ok dropped => return dropped
  | .error (.refused _) => return []
  | .error (.fatal e) => Action.die e

/-- Disposes of an isolate whose callbacks own nothing of the embedder. -/
def dispose : Action Hosted Unit :=
  Action.ignore (disposeWith fun _ => (return : Action Hosted Unit))

/-- The end of an isolate that nobody refers to. A fatal error can have left it in the middle of
setting up or of tearing down. -/
def destroy : Action Hosted Unit := do
  let i := (← get).isolate
  Action.ofWalk (checkNoEntries i)
  if i.state = .initializing ∨ i.state = .deinitializing then setState .failed
  dispose
  let i := (← get).isolate
  if !i.liveSubsystems.isEmpty then
    Action.die (.invariantViolation (.droppedAlive i.id i.liveSubsystems))
  modifyIsolate fun i => { i with region := none }
  match i.region with
  | none => return
  | some r => modifyPlatform (·.release r)

end Hosted

end ScriptEngine

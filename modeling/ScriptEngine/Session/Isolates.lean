import ScriptEngine.Session.Basic

namespace ScriptEngine.SessionM

def platformId (name : String) : SessionM PlatformId := named "platform" (·.platforms) name

def platform (name : String) : SessionM Platform := do
  match (← get).engine.platform? (← platformId name) with
  | some p => return p
  | none => throw (.unknown "platform" name)

def bindPlatform (name : String) (id : PlatformId) : SessionM Unit :=
  modify fun s => { s with platforms := s.platforms.put name id }

/-- The name of the platform of the process. -/
def globalName : String := "global"

def createPlatform (name : String) (o : ProcessOptions) : SessionM Unit := do
  bindPlatform name (← onEngine (Engine.addPlatform o))

/-- The options of the platform of the process, if there is one. -/
def globalOptions : SessionM (Option ProcessOptions) := do
  match (← get).engine.globalPlatform with
  | none => return none
  | some id => do
    bindPlatform globalName id
    return some (← platform globalName).options

/-- Also tells whether the platform is the one that was there before. -/
def initializeOnce (o : ProcessOptions) : SessionM (Option Bool × ProcessOptions) := do
  let before := (← get).engine.globalPlatform
  let id ← onEngine (Engine.initializeOnce o)
  bindPlatform globalName id
  return (before.map (· == id), (← platform globalName).options)

/-- Numbers and names a new isolate. The isolate that had the name before is given up. -/
def bindIsolate (name : String) (id : IsolateId) : SessionM Unit := do
  let former := (← get).isolates.lookup name
  modify fun s => { s with born := s.born ++ [id], isolates := s.isolates.put name id }
  match former with
  | none => return
  | some old => onEngine (Engine.dropHandle old)

def allocateGlobal (name : String) (o : IsolateOptions) : SessionM Unit := do
  bindIsolate name (← onEngine (Engine.allocate o))

def stateOf (id : IsolateId) : SessionM (Option LifecycleState) :=
  return ((← get).engine.isolate? id).map (·.state)

def allocateIn (name platform : String) (o : IsolateOptions) :
    SessionM (Option LifecycleState) := do
  let id ← onEngine (Engine.allocateIn (← platformId platform) o)
  bindIsolate name id
  stateOf id

def create (name platform : String) (o : IsolateOptions) : SessionM (Option LifecycleState) := do
  let id ← onEngine (Engine.create (← thread) (← platformId platform) o)
  bindIsolate name id
  stateOf id

def dropIsolate : SessionM Unit := do
  let id ← isolateId
  let site ← read
  modify fun s => { s with isolates := s.isolates.remove site.isolate }
  onEngine (Engine.dropHandle id)

/-- The name of the thread's current isolate; a question mark if it has none any more. -/
def current : SessionM (Option String) := do
  let s ← get
  return (s.engine.current (← thread)).map fun id =>
    ((s.isolates.find? (·.2 == id)).map (·.1)).getD "?"

def shownIsolate : SessionM (IsolateId → Datum) := do
  let s ← get
  return fun id => inspect (s.numberOf id)

def platformSurvey (name : String) : SessionM Datum := do
  return (← platform name).survey (← shownIsolate)

def isolateSurvey : SessionM Datum := do
  let h ← hosted
  let here := (← get).engine.entriesOn (← thread) h.isolate.id
  return h.survey here (← shownIsolate)

def onBlobs (platform : String) (act : Action BlobRegistry Unit) : SessionM Unit := do
  let _ ← onEngine (Engine.onBlobs (← platformId platform) act)

def hasMemory (name : String) (size : Nat) : SessionM Bool :=
  return ((← platform name).reserve size).isSome

def unhold (space : PlatformId × SpaceId) : SessionM Unit :=
  onEngine (Engine.modifyPlatform space.1 (·.unholdSpace space.2))

/-- Lets go of a shared space; tells whether one was held under the name. -/
def dropSpace (name : String) : SessionM Bool := do
  match (← get).spaces.lookup name with
  | none => return false
  | some space => do
    modify fun s => { s with spaces := s.spaces.remove name }
    unhold space
    return true

/-- Keeps the shared space of the isolate alive under a name; tells whether it has one. -/
def holdSpace (name : String) : SessionM Bool := do
  let h ← hosted
  match h.isolate.sharedSpace? h.platform, (← get).engine.resident? h.isolate.id with
  | some held, some resident => do
    let former := (← get).spaces.lookup name
    onEngine (Engine.modifyPlatform resident.platform (·.holdSpace held.id))
    modify fun s => { s with spaces := s.spaces.put name (resident.platform, held.id) }
    match former with
    | none => return true
    | some space => do
      unhold space
      return true
  | _, _ => return false

def setUp (startup readOnly shared : Option (List UInt8)) (canRehash : Bool) : SessionM Unit := do
  onHosted (Hosted.setUp (← thread) startup readOnly shared canRehash)

def enter : SessionM Unit := do onEngine (Engine.enter (← thread) (← isolateId))

def exit : SessionM Unit := do onEngine (Engine.exit (← thread) (← isolateId))

/-- Attaches the thread twice; the second time finds it attached. -/
def attach : SessionM (Bool × Nat) := do
  let t ← thread
  modifyIsolate (·.attach t)
  return (true, (← isolate).threads.length)

def detach : SessionM Bool := do
  let t ← thread
  onIsolate (modifyGet (·.detach t))

end ScriptEngine.SessionM

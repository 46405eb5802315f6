import ScriptEngine.Isolate.Lifecycle

namespace ScriptEngine

abbrev PlatformId := Nat

/-- An isolate that a thread entered, and how often in a row. -/
structure EntryItem where
  isolate : IsolateId
  count : Nat
  deriving DecidableEq

/-- An isolate with the number of its platform, and how many references the embedder has. -/
structure Resident where
  platform : PlatformId
  handles : Nat
  isolate : Isolate

/-- A process: its platforms, its isolates, and what each thread has entered. An isolate lives as
long as the embedder or a thread refers to it. -/
structure Engine where
  /-- By number. -/
  platforms : List Platform := []
  /-- The platform of the process, for isolates that name none. -/
  globalPlatform : Option PlatformId := none
  residents : List Resident := []
  /-- What each thread entered, innermost first. -/
  entryStacks : Table ThreadId (List EntryItem) := []
  nextIsolate : IsolateId := 1
  nextTryCatch : TryCatchId := 1

namespace Engine

def platform? (p : Engine) (id : PlatformId) : Option Platform := p.platforms[id]?

def resident? (p : Engine) (id : IsolateId) : Option Resident :=
  p.residents.find? (·.isolate.id == id)

def isolate? (p : Engine) (id : IsolateId) : Option Isolate := (p.resident? id).map (·.isolate)

def hosted? (p : Engine) (id : IsolateId) : Option Hosted := do
  let r ← p.resident? id
  let platform ← p.platform? r.platform
  return ⟨r.isolate, platform⟩

/-- Puts an isolate and its platform back. -/
def putHosted (p : Engine) (id : IsolateId) (h : Hosted) : Engine :=
  match p.resident? id with
  | none => p
  | some r =>
    { p with
      platforms := p.platforms.set r.platform h.platform
      residents := p.residents.map fun s =>
        if s.isolate.id = id then { s with isolate := h.isolate } else s }

/-- Runs an action of an isolate and its platform. The isolate is known to exist. -/
def onHosted {α : Type} (id : IsolateId) (act : Action Hosted α) : Action Engine α := do
  match (← get).hosted? id with
  | none => Action.refuse .notEntered
  | some h =>
    let (result, h) := act.outcome h
    modify (·.putHosted id h)
    match result with
    | .ok a => return a
    | .error e => throw e

def onIsolate {α : Type} (id : IsolateId) (act : Action Isolate α) : Action Engine α :=
  onHosted id (Hosted.onIsolate act)

def addPlatform (o : ProcessOptions) : Action Engine PlatformId :=
  modifyGet fun p =>
    (p.platforms.length, { p with platforms := p.platforms ++ [.create p.platforms.length o] })

/-- The platform of the process. Options count the first time only. -/
def initializeOnce (o : ProcessOptions) : Action Engine PlatformId := do
  match (← get).globalPlatform with
  | some id => return id
  | none => do
    let id ← addPlatform o
    modify fun p => { p with globalPlatform := some id }
    return id

def modifyPlatform (id : PlatformId) (f : Platform → Platform) : Action Engine Unit :=
  modify fun p => { p with platforms := p.platforms.modify id f }

def onBlobs {α : Type} (id : PlatformId) (act : Action BlobRegistry α) :
    Action Engine (Option α) := do
  match (← get).platform? id with
  | none => return none
  | some platform =>
    let (result, blobs) := act.outcome platform.blobs
    modifyPlatform id fun p => { p with blobs := blobs }
    match result with
    | .ok a => return some a
    | .error e => throw e

/-- What a thread entered, innermost first. -/
def entryStack (p : Engine) (t : ThreadId) : List EntryItem := (p.entryStacks.lookup t).getD []

def setEntryStack (p : Engine) (t : ThreadId) (items : List EntryItem) : Engine :=
  { p with entryStacks := p.entryStacks.put t items }

/-- The isolate that a thread entered last and did not exit. -/
def current (p : Engine) (t : ThreadId) : Option IsolateId :=
  (p.entryStack t).head?.map (·.isolate)

/-- How often a thread is in an isolate. -/
def entriesOn (p : Engine) (t : ThreadId) (id : IsolateId) : Nat :=
  ((p.entryStack t).filter (·.isolate == id)).foldr (fun item n => item.count + n) 0

def isEntered (p : Engine) (id : IsolateId) : Bool :=
  p.entryStacks.any fun (_, items) => items.any (·.isolate == id)

/-- Ends the life of an isolate that nothing refers to. It is gone even if that is fatal. -/
def collect (id : IsolateId) : Action Engine Unit := do
  let p ← get
  match p.resident? id with
  | none => return
  | some r =>
    if r.handles = 0 && !p.isEntered id then
      let result ← Action.attempt (onHosted id Hosted.destroy)
      modify fun p => { p with residents := p.residents.filter (·.isolate.id != id) }
      match result with
      | .ok () => return
      | .error e => throw e

/-- Gives up a reference of the embedder. -/
def dropHandle (id : IsolateId) : Action Engine Unit := do
  modify fun p =>
    { p with
      residents := p.residents.map fun r =>
        if r.isolate.id = id then { r with handles := r.handles - 1 } else r }
  collect id

/-- Reserves the memory of an isolate and gives it a first blob; the embedder gets a reference. -/
def allocateIn (platform : PlatformId) (o : IsolateOptions) : Action Engine IsolateId := do
  let p ← get
  match (p.platform? platform).bind (·.reserve o.regionSize) with
  | none => Action.die (.outOfMemory "isolate region")
  | some (region, host) =>
    let id := p.nextIsolate
    let (blob, blobs) := host.blobs.acquire
    let isolate : Isolate := { id, options := o, region := some region, blob }
    set ({ p with
      platforms := p.platforms.set platform { host with blobs := blobs }
      residents := p.residents ++ [⟨platform, 1, isolate⟩]
      nextIsolate := id + 1 } : Engine)
    return id

/-- Allocates on the platform of the process. -/
def allocate (o : IsolateOptions) : Action Engine IsolateId := do
  match (← get).globalPlatform with
  | none => Action.die .notInitialized
  | some platform => allocateIn platform o

/-- Allocates and sets up. An isolate that cannot be set up is gone again. -/
def create (t : ThreadId) (platform : PlatformId) (o : IsolateOptions)
    (refusal : Option String := none) : Action Engine IsolateId := do
  let id ← allocateIn platform o
  match ← Action.attempt (onHosted id (Hosted.setUp t none none none false refusal)) with
  | .ok () => return id
  | .error e =>
    dropHandle id
    throw e

/-- Makes an isolate current on a thread. Entering the current one again only counts. -/
def enter (t : ThreadId) (id : IsolateId) : Action Engine Unit := do
  let p ← get
  match p.isolate? id with
  | none => return
  | some i =>
    if i.state.refusesEntry then Action.refuse (.invalidState .enter i.state)
    match p.entryStack t with
    | item :: rest =>
      if item.isolate = id then
        set (p.setEntryStack t ({ item with count := item.count + 1 } :: rest))
      else
        set (p.setEntryStack t (⟨id, 1⟩ :: item :: rest))
        onIsolate id (modify (·.attach t))
    | [] =>
      set (p.setEntryStack t [⟨id, 1⟩])
      onIsolate id (modify (·.attach t))
    onIsolate id (modify fun i => { i with entries := i.entries + 1 })

/-- Takes back an entry into the current isolate. With the last one in a row, the isolate that was
current before is current again. -/
def exit (t : ThreadId) (id : IsolateId) : Action Engine Unit := do
  let p ← get
  match p.entryStack t with
  | [] => Action.refuse .notEntered
  | item :: rest =>
    if item.isolate ≠ id then Action.refuse .notEntered
    let items := if item.count ≤ 1 then rest else { item with count := item.count - 1 } :: rest
    set (p.setEntryStack t items)
    onIsolate id (modify fun i => { i with entries := i.entries - 1 })
    collect id

/-- A number for a new try-catch scope. -/
def freshTryCatch : Action Engine TryCatchId :=
  modifyGet fun p => (p.nextTryCatch, { p with nextTryCatch := p.nextTryCatch + 1 })

end Engine

end ScriptEngine

import ScriptEngine.Session.Basic

namespace ScriptEngine.SessionM

def pushFrame (s : FrameSpec) : SessionM Datum := do return .address (← onTop (·.pushFrame s))

def walkSurvey : SessionM Datum := do
  onWalk ((← top).stack.activeSegment.survey (← surroundings))

def visitSurvey (stop : Option Nat) : SessionM Datum := do
  onWalk ((← top).stack.activeSegment.surveyVisits (← surroundings).codes stop)

def segmentSurvey (id : Nat) : SessionM Datum := do
  match (← top).stack.segment? id with
  | none => return .null
  | some g => return .list [.address g.base, inspect g.state]

def frameAt (fp : Address) : SessionM (Option RawFrame) := do
  return (← top).stack.activeSegment.frameAt? fp

/-- Changes a frame of the active segment; tells whether there is one. -/
def modifyFrame (fp : Address) (f : RawFrame → RawFrame) : SessionM Bool :=
  onStack fun s =>
    ((s.activeSegment.frameAt? fp).isSome, s.modifyActive (·.modifyFrame fp f))

/-- Switches segments if there is where to go. -/
def switchStack (f : SegmentedStack → Option (Nat × SegmentedStack)) : SessionM (Option Nat) :=
  onStack fun s =>
    match f s with
    | none => (none, s)
    | some (id, s) => (some id, s)

def reserveNative (size : Nat) : SessionM Datum := do
  return .address (← onStack (·.reserveNative size))

/-- The cursor after a release. -/
def releaseNative (address : Address) (size : Nat) : SessionM Datum := do
  let cursor ← onStack fun s =>
    let s := s.releaseNative address size
    (s.activeSegment.cursor, s)
  return .address cursor

/-- The state of the thread, if it is attached. -/
def threadSurvey : SessionM Datum := do
  let t ← thread
  return inspect (((← isolate).thread? t).map (·.top.survey))

/-- An exception slot, and whether it is filled. -/
def slotSurvey (slot : ThreadState → Option Value) : SessionM (Option Value × Bool) := do
  let v := slot (← top)
  return (v, v.isSome)

/-- Settings of a scope. They can only be switched on. -/
structure ScopeSettings where
  verbose : Bool
  silent : Bool

def ScopeSettings.apply (o : ScopeSettings) (t : TryCatch) : TryCatch :=
  { t with
    isVerbose := t.isVerbose || o.verbose
    capturesMessage := t.capturesMessage && !o.silent }

def tryCatchId (name : String) : SessionM TryCatchId := named "try-catch" (·.tryCatches) name

def freshTryCatch (name : String) : SessionM TryCatch := do
  let id ← onEngine Engine.freshTryCatch
  modify fun s => { s with tryCatches := s.tryCatches.put name id }
  return { id }

def spareTryCatch (name : String) (scope : TryCatch) : SessionM Unit :=
  modify fun s => { s with spare := s.spare.put name scope }

/-- Makes a scope that is not registered yet. -/
def makeTryCatch (name : String) (o : ScopeSettings) : SessionM TryCatch := do
  let scope := o.apply (← freshTryCatch name)
  spareTryCatch name scope
  return scope

/-- Registers the spare scope of a name, or else a new one. -/
def registerTryCatch (name : String) (o : ScopeSettings) : SessionM Datum := do
  let scope ← match (← get).spare.lookup name with
    | none => freshTryCatch name
    | some scope => do
      modify fun s => { s with spare := s.spare.remove name }
      pure scope
  return .address (← onTop (·.registerTryCatch (o.apply scope))).address

/-- A scope that is kept can be registered again. -/
def unregisterTryCatch (name : String) (keep : Bool) : SessionM TryCatch := do
  let id ← tryCatchId name
  let (scope, t) ← onIsolate (Action.ofExcept ((← top).unregisterTryCatch id))
  modifyTop fun _ => t
  if keep then spareTryCatch name scope
  return scope

def tryCatch (name : String) : SessionM TryCatch := do
  let id ← tryCatchId name
  match (← top).tryCatch? id with
  | none => onIsolate (Action.refuse (.unknownTryCatch id))
  | some scope => return scope

/-- Changes a registered scope; gives it, if it is registered. -/
def modifyTryCatch (name : String) (f : TryCatch → TryCatch) : SessionM (Option TryCatch) := do
  let id ← tryCatchId name
  modifyTop (·.modifyTryCatch id f)
  return (← top).tryCatch? id

def asyncTrace (o : TraceOptions) (promise : Value) : SessionM (List CallSite) := do
  let i ← isolate
  return (← onWalk ((TraceBuilder.start o).follow i.heap i.intrinsics promise)).sites

/-- What is added to a trace by hand. -/
inductive TraceItem
  | activation (a : Activation)
  | suspended (generator : Value)
  | element (closure : Value) (combinator : Combinator) (function : Value)

def TraceItem.addTo (heap : Heap) (b : TraceBuilder) : TraceItem → TraceBuilder
  | activation a => b.addActivation heap a
  | suspended generator => ((heap.generator? generator).map (b.addSuspended heap)).getD b
  | element closure combinator function => b.addElement heap closure combinator function

/-- Adds items one by one; gives the state of the builder after each, and the call sites. -/
def buildTrace (o : TraceOptions) (items : List TraceItem) : SessionM Datum := do
  let heap ← heap
  let step (s : TraceBuilder × List Datum) (item : TraceItem) : TraceBuilder × List Datum :=
    let b := item.addTo heap s.1
    (b, s.2 ++ [.list [inspect b.size, inspect b.isFull, inspect (b.size == 0)]])
  let (b, states) := items.foldl step (.start o, [])
  return inspect (states, b.sites)

/-- Asks for the restart of a frame, or takes the request back. -/
def requestRestart (fp : Option Address) : SessionM Datum := do
  modifyIsolate fun i => { i with restart := fp }
  return .addressOf fp

/-- The frame whose restart is asked for, and whether the engine would restart it. -/
def restartSurvey : SessionM Datum := do
  let i ← isolate
  match i.restart with
  | none => return .null
  | some fp => return .list [.address fp, .text (toString (i.restart == some fp))]

/-- The number of frames with materialized objects then. -/
def materialize (fp : Address) (objects : List Value) : SessionM Nat := do
  modifyIsolate fun i => { i with materialized := i.materialized.put fp objects }
  return (← isolate).materialized.length

def materialized (fp : Address) : SessionM (Nat × Option String) := do
  let m := (← isolate).materialized
  return (m.length, (m.lookup fp).map Value.taggedList)

/-- Moves all objects by a number, in the roots only; counts the slots. -/
def relocateRoots (distance : UInt32) : SessionM Nat :=
  onIsolate (modifyGet fun i =>
    let (i, count) := (i.visitRoots (RootVisitor.relocate (· + distance))).run 0
    (count, i))

end ScriptEngine.SessionM

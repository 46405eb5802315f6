import ScriptEngine.Session.Basic

namespace ScriptEngine.SessionM

def bindScript (name : String) (script : Script) : SessionM Unit :=
  modify fun s => { s with scripts := s.scripts.put name script }

def bindCode (name : String) (c : Code) : SessionM Address := do
  let home ← isolateId
  modify fun s => { s with codes := s.codes.put name (home, c) }
  return c.start

/-- The description with the information of a function, if the value is one. -/
def describedFor (d : CodeDescription) (function : Value) : SessionM CodeDescription := do
  match (← heap).function? function with
  | none => return d
  | some f => return { d with function := some f.info }

def onCodes {α : Type} (f : CodeRegistry → α × CodeRegistry) : SessionM α :=
  onIsolate (modifyGet fun i =>
    let (a, codes) := f i.codes
    (a, { i with codes := codes }))

/-- Places code in the code range and names it. -/
def installCode (name : String) (d : CodeDescription) : SessionM Datum := do
  match ← onCodes (·.install d) with
  | none => return .null
  | some c => return .address (← bindCode name c)

def insertCode (name : String) (d : CodeDescription) (start : Address) : SessionM Datum := do
  return .address (← bindCode name (← onCodes (·.insertAt d start)))

/-- The size of the code that was removed. -/
def removeCode (start : Address) : SessionM (Option Nat) :=
  return (← onCodes (·.remove start)).map (·.size)

/-- Whether code was marked before and is now. -/
def markCode (name : String) (mark : Bool) : SessionM (Bool × Bool) := do
  let c ← code name
  onEngine (Engine.onIsolate (← codeHome name) (modifyGet fun i =>
    let marked := i.codes.mark c mark
    ((i.codes.isMarked c, marked.isMarked c), { i with codes := marked })))

def lookupCode (pc : Address) : SessionM Datum := do
  let c ← onIsolate (do Action.ofExcept ((← get).lookupCode pc))
  return .list [inspect c.builtin, inspect c.kind, .address c.start, inspect (c.pcOffset pc)]

def lookupBuiltin (pc : Address) : SessionM (Option Builtin) :=
  return (← isolate).builtins.bind (·.lookup pc)

/-- Names a new object, if it is to have a name. -/
def allocated (name : Option String) (v : Value) : SessionM Value := do
  match name with
  | none => return v
  | some name => do
    bindValue name v
    return v

def allocate (name : Option String) (o : HeapObject) : SessionM Value := do
  allocated name (← onIsolate (Isolate.allocate o))

/-- Where the engine keeps a value that a step can name. -/
inductive Slot
  | pending
  | scheduled
  | message
  | intrinsic (c : Combinator)

def readSlot : Slot → SessionM (Option Value)
  | .pending => return (← top).pending
  | .scheduled => return (← top).scheduled
  | .message => return (← top).message
  | .intrinsic c => return some ((← isolate).intrinsics.function c)

/-- Names the value of a slot, if there is one. -/
def bindSlot (name : String) (slot : Slot) : SessionM (Option Value) := do
  let v ← readSlot slot
  match v with
  | none => return none
  | some v => do
    bindValue name v
    return some v

/-- A message about an exception, without a stack. -/
def allocateMessage (name : Option String) (exception : Value) (location : Option Location) :
    SessionM Value := do
  allocate name (.message ((← heap).messageFor exception location []))

/-- The number of reactions that the promise has then. -/
def addReaction (promise : Value) (r : Reaction) : SessionM (Option Nat) := do
  modifyHeap (·.modifyPromise promise fun p => { p with reactions := p.reactions ++ [r] })
  return ((← heap).promise? promise).map (·.reactions.length)

/-- Sets all of a promise but its reactions; tells whether it is pending then. -/
def setPromise (promise : Value) (p : Promise) : SessionM (Option Bool) := do
  modifyHeap (·.modifyPromise promise fun old => { p with reactions := old.reactions })
  return ((← heap).promise? promise).map (·.isPending)

/-- Tells whether there is such a generator. Without a promise it keeps its own. -/
def setGenerator (generator : Value) (state : GeneratorState) (promise : Option Value)
    (queue : List Value) : SessionM Bool := do
  modifyHeap (·.modifyGenerator generator fun g =>
    { g with state := state, promise := promise.getD g.promise, queue := queue })
  return ((← heap).generator? generator).isSome

/-- Tells whether there is such a function. -/
def setFunction (function context : Value) (isForwarding : Bool) : SessionM Bool := do
  modifyHeap (·.modifyFunction function fun f =>
    { f with context := context, isForwarding := isForwarding })
  return ((← heap).function? function).isSome

/-- How the promises of a chain lead from each one to the next. -/
structure ChainLink where
  /-- Every promise is handled by the next one. -/
  handledBy : Bool
  /-- Every promise has a reaction that settles the next one. -/
  reaction : Bool
  /-- A position whose promise has a reaction in any case, with a reject handler. -/
  handlerAt : Option Nat
  handler : Value

/-- The promise at a position of a chain. `next` is the one after it. -/
def ChainLink.promise (link : ChainLink) (status : PromiseStatus) (position : Nat)
    (next : Option Value) : Promise where
  status := if position = 0 then .pending else status
  handledBy := match next with
    | some p => if link.handledBy then p else .undefined
    | none => .undefined
  reactions := match next with
    | none => []
    | some p =>
      if link.handlerAt = some position then [⟨.undefined, link.handler, p⟩]
      else if link.reaction then [⟨.undefined, .undefined, p⟩]
      else []

/-- Makes a chain of promises, named by position; gives the first and the last one. -/
def promiseChain (name : String) (count : Nat) (status : PromiseStatus) (link : ChainLink) :
    SessionM (Value × Value) := do
  let promises ← (List.range count).mapM fun position =>
    allocate (some s!"{name}{position}") (.promise {})
  for (promise, position) in promises.zipIdx do
    modifyHeap (·.modifyPromise promise fun _ =>
      link.promise status position promises[position + 1]?)
  return (promises.headD .undefined, promises.getLastD .undefined)

end ScriptEngine.SessionM

import ScriptEngine.Trace.Builder

namespace ScriptEngine

/-- The combinator functions of an isolate. -/
structure Intrinsics where
  promiseAll : Value := .undefined
  promiseAllSettled : Value := .undefined
  promiseAny : Value := .undefined
  deriving DecidableEq

def Intrinsics.function (i : Intrinsics) : Combinator → Value
  | .all => i.promiseAll
  | .allSettled => i.promiseAllSettled
  | .any => i.promiseAny

namespace Heap

/-- Whether a function runs one of some builtins. -/
def runsBuiltin (h : Heap) (function : Value) (builtins : List Builtin) : Bool :=
  (h.function? function).any fun f => f.code.builtin.any builtins.contains

def isAwaitFulfill (h : Heap) (handler : Value) : Bool :=
  h.runsBuiltin handler
    [.asyncFunctionAwaitResolve, .asyncGeneratorAwaitResolve, .asyncGeneratorYieldResolve]

def isAwaitReject (h : Heap) (handler : Value) : Bool :=
  h.runsBuiltin handler [.asyncFunctionAwaitReject, .asyncGeneratorAwaitReject]

/-- The context of a closure. -/
def contextOf? (h : Heap) (closure : Value) : Option Context :=
  (h.function? closure).bind fun f => h.context? f.context

/-- The generator that an await closure resumes. -/
def awaitingGenerator? (h : Heap) (closure : Value) : Option Generator :=
  (h.contextOf? closure).bind fun c => h.generator? c.extension

/-- The promise of the capability that an element of a combinator settles. -/
def combinedPromise? (h : Heap) (element : Value) : Option Value :=
  (h.contextOf? element).bind fun c => (h.capability? c.capability).map (·.promise)

/-- A derived promise, directly or through a capability. -/
def derivedPromise? (h : Heap) (derived : Value) : Option Value :=
  if (h.promise? derived).isSome then some derived
  else ((h.capability? derived).map (·.promise)).filter fun p => (h.promise? p).isSome

end Heap

/-- The promise that a generator settles next. -/
def Generator.nextPromise? (g : Generator) : Option Value :=
  match g.kind with
  | .asyncFunction => some g.promise
  | .asyncGenerator => g.queue.head?
  | .generator => none

/-- What waits for a promise. -/
inductive Hop
  | await (generator : Generator)
  | element (combinator : Combinator) (closure : Value)
  | resolve (closure : Value)
  | derive (derived : Value)

namespace Hop

/-- What the reaction of a promise leads to. The first kind that fits counts. -/
def ofReaction? (h : Heap) (r : Reaction) : Option Hop :=
  if h.isAwaitFulfill r.fulfillHandler || h.isAwaitReject r.rejectHandler then
    (h.awaitingGenerator? r.fulfillHandler).map await
  else if h.runsBuiltin r.fulfillHandler [.promiseAllResolveElement] then
    some (element .all r.fulfillHandler)
  else if h.runsBuiltin r.fulfillHandler [.promiseAllSettledResolveElement] then
    some (element .allSettled r.fulfillHandler)
  else if h.runsBuiltin r.rejectHandler [.promiseAnyRejectElement] then
    some (element .any r.rejectHandler)
  else if h.runsBuiltin r.fulfillHandler [.capabilityDefaultResolve] then
    some (resolve r.fulfillHandler)
  else some (derive r.derived)

/-- A pending promise with exactly one reaction leads on. -/
def ofPromise? (h : Heap) (promise : Value) : Option Hop :=
  match h.promise? promise with
  | none => none
  | some p =>
    match p.isPending, p.reactions with
    | true, [r] => ofReaction? h r
    | _, _ => none

/-- The promise to go on with. -/
def next? (h : Heap) : Hop → Option Value
  | await g => g.nextPromise?
  | element _ closure => h.combinedPromise? closure
  | resolve closure => (h.contextOf? closure).map (·.promise)
  | derive derived => h.derivedPromise? derived

/-- The call site of the hop, if it has one. Who waits must be suspended. -/
def addTo (h : Heap) (intrinsics : Intrinsics) (b : TraceBuilder) : Hop → Walk TraceBuilder
  | await g => if g.isSuspended then .ok (b.addSuspended h g) else breach .awaitingGeneratorRuns
  | element combinator closure =>
    .ok (b.addElement h closure combinator (intrinsics.function combinator))
  | resolve _ => .ok b
  | derive _ => .ok b

end Hop

namespace TraceBuilder

/-- Follows at most `steps` hops. -/
def followFor (h : Heap) (intrinsics : Intrinsics) :
    Nat → Value → TraceBuilder → Walk TraceBuilder
  | 0, _, b => .ok b
  | steps + 1, promise, b =>
    if b.isFull then .ok b
    else
      match Hop.ofPromise? h promise with
      | none => .ok b
      | some hop => do
        let b ← hop.addTo h intrinsics b
        match hop.next? h with
        | none => return b
        | some next => followFor h intrinsics steps next b

/-- Adds what waits for a promise. More hops than objects without a new site lead in a circle, so
the bound is never the end of a chain that ends. -/
def follow (b : TraceBuilder) (h : Heap) (intrinsics : Intrinsics) (promise : Value) :
    Walk TraceBuilder :=
  followFor h intrinsics ((h.size + 1) * (b.limit + 1)) promise b

/-- The promise that the microtask in progress settles. -/
def microtaskPromise? (h : Heap) (microtask : Value) : Option Value :=
  match h.reactionJob? microtask with
  | none => none
  | some job =>
    if h.isAwaitFulfill job.handler || h.isAwaitReject job.handler then
      ((h.awaitingGenerator? job.handler).filter (·.isExecuting)).bind (·.nextPromise?)
    else if (h.promise? job.derived).isSome then some job.derived
    else none

/-- Adds what waits for the microtask in progress. -/
def followMicrotask (b : TraceBuilder) (h : Heap) (intrinsics : Intrinsics) (microtask : Value) :
    Walk TraceBuilder :=
  match microtaskPromise? h microtask with
  | none => .ok b
  | some promise => b.follow h intrinsics promise

end TraceBuilder

end ScriptEngine

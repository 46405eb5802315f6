import ScriptEngine.Code.Basic
import ScriptEngine.Trace.CallSite

namespace ScriptEngine

/-- A closure. -/
structure Function where
  info : FunctionInfo
  /-- The code that the closure runs. -/
  code : Code
  context : Value
  identityHash : Nat
  /-- An internal handler that only passes results on between promises. -/
  isForwarding : Bool

structure Context where
  /-- The suspended generator, in the context of an await closure. -/
  extension : Value
  slots : List Value

def Context.slot (c : Context) (i : Nat) : Value := c.slots.getD i .undefined

/-- In contexts of combinator elements: the capability of the combined promise. -/
def Context.capability (c : Context) : Value := c.slot 0

/-- In contexts of default resolving functions: the promise to settle. -/
def Context.promise (c : Context) : Value := c.slot 0

inductive PromiseStatus
  | pending
  | fulfilled
  | rejected
  deriving DecidableEq

structure Reaction where
  fulfillHandler : Value
  rejectHandler : Value
  /-- The derived promise, a capability, or undefined. -/
  derived : Value
  deriving DecidableEq

structure Promise where
  status : PromiseStatus := .pending
  result : Value := .undefined
  reactions : List Reaction := []
  hasHandler : Bool := false
  /-- The rejection is known to be handled. -/
  handledHint : Bool := false
  /-- An outer promise, whose handlers also see this one. -/
  handledBy : Value := .undefined

def Promise.isPending (p : Promise) : Bool := p.status == .pending

structure Capability where
  promise : Value
  resolve : Value
  reject : Value

inductive GeneratorKind
  | generator
  | asyncFunction
  | asyncGenerator
  deriving DecidableEq

inductive GeneratorState
  | suspended
  | executing
  | closed
  deriving DecidableEq

/-- The activation of a generator or an async function. -/
structure Generator where
  kind : GeneratorKind
  function : Value
  receiver : Value
  state : GeneratorState
  /-- The bytecode offset of the suspension. -/
  position : Nat
  /-- Async functions: the promise that the caller got. -/
  promise : Value
  /-- Async generators: promises of the open requests, oldest first. -/
  queue : List Value

def Generator.isSuspended (g : Generator) : Bool := g.state == .suspended
def Generator.isExecuting (g : Generator) : Bool := g.state == .executing

inductive ReactionKind
  | fulfill
  | reject
  deriving DecidableEq

/-- A reaction on the microtask queue. -/
structure ReactionJob where
  kind : ReactionKind
  handler : Value
  derived : Value

structure ErrorObject where
  name : String
  message : String
  /-- The stack where the error was made. -/
  stack : Option (List CallSite) := none

/-- Describes an exception and where it was thrown. -/
structure Message where
  exception : Value
  text : String
  location : Option Location
  stack : List CallSite

inductive HeapObject
  | plain
  | string (s : String)
  | error (e : ErrorObject)
  | function (f : Function)
  | context (c : Context)
  | promise (p : Promise)
  | capability (c : Capability)
  | generator (g : Generator)
  | reactionJob (j : ReactionJob)
  | message (m : Message)

def HeapObject.typeName : HeapObject → String
  | plain => "Object"
  | string _ => "String"
  | error _ => "Error"
  | function _ => "Function"
  | context _ => "Context"
  | promise _ => "Promise"
  | capability _ => "PromiseCapability"
  | generator _ => "Generator"
  | reactionJob _ => "PromiseReactionJob"
  | message _ => "Message"

end ScriptEngine

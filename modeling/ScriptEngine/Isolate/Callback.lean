import ScriptEngine.Datum
import ScriptEngine.Heap.Basic
import ScriptEngine.Failure

namespace ScriptEngine

/-- A listener of messages. -/
inductive Listener
  /-- Reports messages in full. With a second tag it adds a brief listener at each message. -/
  | full (tag : Datum) (adds : Option Datum)
  /-- Reports texts only. -/
  | brief (tag : Datum)

/-- One thing that an interrupt callback does. -/
inductive InterruptAction
  | note (data : Datum)
  | throwValue (v : Value)
  /-- Requests another callback. -/
  | request (actions : List InterruptAction)
  | requestTermination
  | handleInterrupts
  | invokeCallbacks
  | readPending
  | cancelTermination
  | tearDown

mutual

/-- The number of actions in an action, counting those of the callbacks that it requests. -/
def InterruptAction.weight : InterruptAction → Nat
  | .request actions => 1 + InterruptAction.totalWeight actions
  | _ => 1

def InterruptAction.totalWeight : List InterruptAction → Nat
  | [] => 0
  | a :: rest => a.weight + InterruptAction.totalWeight rest

end

/-- A callback for the next interrupt check. -/
abbrev InterruptCallback := List InterruptAction

/-- What an action of a callback came to. -/
inductive ActionResult
  | note (data : Datum)
  | value (v : Value)
  | optional (v : Option Value)
  | count (n : Nat)
  | requested
  | done
  | refused (e : IsolateError)

/-- The three snapshots to boot from. -/
structure SnapshotSet where
  startup : List UInt8
  readOnly : List UInt8
  shared : List UInt8
  canRehash : Bool

/-- Fills an isolate from snapshots. Accepts all snapshots, unless told to look for empty ones or
to reject them. -/
structure Deserializer where
  checksEmpty : Bool := false
  rejection : Option String := none

def Deserializer.run (d : Deserializer) (s : SnapshotSet) : Except SnapshotError Unit :=
  let isEmpty (p : String × List UInt8) : Bool := p.2.isEmpty
  let named := [("startup", s.startup), ("read-only", s.readOnly), ("shared", s.shared)]
  match if d.checksEmpty then named.find? isEmpty else none, d.rejection with
  | some (name, _), _ => .error (.empty name)
  | none, some reason => .error (.rejected reason)
  | none, none => .ok ()

/-- What callbacks of the embedder saw and did. -/
inductive Event
  /-- The embedder was asked whether an uncaught exception ends the process. -/
  | abortAsked (pending : Option Value) (answer : Bool)
  | deserializing (state : LifecycleState) (hasBuiltins : Bool) (snapshots : SnapshotSet)
  | message (tag : Datum) (m : Message)
  | briefMessage (tag : Datum) (m : Message)
  | action (result : ActionResult)

end ScriptEngine

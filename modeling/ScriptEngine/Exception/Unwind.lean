import ScriptEngine.Exception.Dispatch
import ScriptEngine.Exception.Promises
import ScriptEngine.Exception.Raise

namespace ScriptEngine.Isolate

/-- Finds the frame that handles the pending exception, and gives the exception back. -/
def unwind (t : ThreadId) : Action Isolate Value := do
  let builtins ← requireBuiltins .unwind
  let top ← Isolate.top t
  let i ← get
  let (result, d) := Dispatch.run i.codes builtins i.terminationRequested
    { thread := top
      materialized := i.materialized
      lazyThrow := i.lazyThrow
      restart := i.restart }
  set { i.setTop t d.thread with
    materialized := d.materialized
    lazyThrow := d.lazyThrow
    restart := d.restart }
  match result with
  | .ok exception => return exception
  | .error e => throw e

/-- Takes the flag that asks for the rebuilding of a frame. -/
def takeLazyThrow (i : Isolate) : Bool × Isolate := (i.lazyThrow, { i with lazyThrow := false })

/-- Takes the place where execution goes on. -/
def takeHandler (t : ThreadId) : Action Isolate (Option PendingHandler) :=
  onTop t fun top => (top.pendingHandler, { top with pendingHandler := none })

def predictCatcher (t : ThreadId) : Action Isolate CatchPrediction := do
  let top ← Isolate.top t
  Action.ofWalk (top.predictCatcher (← get).surroundings)

/-- The promise that an exception raised now rejects. -/
def promiseOnThrow (t : ThreadId) : Action Isolate Value := do
  let top ← Isolate.top t
  let (promise, heap) ← Action.ofWalk (top.promiseOnThrow (← get).surroundings)
  modify fun i => { i with heap := heap }
  return promise

def location (t : ThreadId) : Action Isolate (Option Location) := do
  let top ← Isolate.top t
  Action.ofWalk (top.location (← get).surroundings)

def detailedTrace (t : ThreadId) (limit : Nat) : Action Isolate (List SiteSummary) := do
  let top ← Isolate.top t
  Action.ofWalk (top.detailedTrace (← get).surroundings limit)

end ScriptEngine.Isolate

import ScriptEngine.Exception.Raise
import ScriptEngine.Isolate.Lifecycle

namespace ScriptEngine.Hosted

/-- Queues a callback, and asks for a check. -/
def requestInterrupt (callback : InterruptCallback) : Action Hosted Unit :=
  modifyIsolate fun i =>
    { i with interrupts := i.interrupts ++ [callback], guard := i.guard.request .api }

/-- Clears a flag of the guard; tells whether it was set. -/
def takeFlag (flag : InterruptFlag) : Action Hosted Bool := do
  let (wasSet, guard) := (← get).isolate.guard.take flag
  modifyIsolate fun i => { i with guard := guard }
  return wasSet

/-- The next callback of the queue. -/
def takeCallback : Action Hosted (Option InterruptCallback) := do
  match (← get).isolate.interrupts with
  | [] => return none
  | callback :: rest => do
    modifyIsolate fun i => { i with interrupts := rest }
    return some callback

/-- What an action came to; only a refusal counts as a result, a fatal error ends the callback. -/
def resultOf {α : Type} (act : Action Hosted α) (result : α → ActionResult) :
    Action Hosted ActionResult := do
  match ← Action.attempt act with
  | .ok a => return result a
  | .error (.refused e) => return .refused e
  | .error (.fatal e) => Action.die e

mutual

/-- Runs the callbacks of the queue until it is empty, and counts them. Every action runs at most
once, so `fuel` needs to be no more than the actions waiting and the callbacks with them. -/
def invokeFor (t : ThreadId) : Nat → Action Hosted Nat
  | 0 => return 0
  | fuel + 1 => do
    match ← takeCallback with
    | none => return 0
    | some callback => do
      runFor t fuel callback
      return (← invokeFor t fuel) + 1

/-- Serves the flags: a termination first, else the callbacks. -/
def serveFor (t : ThreadId) : Nat → Action Hosted Value
  | 0 => return .undefined
  | fuel + 1 => do
    if ← takeFlag .terminate then onIsolate (Isolate.terminate t)
    else
      if ← takeFlag .api then
        let _ ← invokeFor t fuel
      return .undefined

/-- Runs the actions of a callback in order. -/
def runFor (t : ThreadId) : Nat → List InterruptAction → Action Hosted Unit
  | 0, _ => return
  | _ + 1, [] => return
  | fuel + 1, action :: rest => do
    let result ← performFor t fuel action
    modifyIsolate (·.emit (.action result))
    runFor t fuel rest

def performFor (t : ThreadId) : Nat → InterruptAction → Action Hosted ActionResult
  | 0, _ => return .done
  | fuel + 1, action =>
    match action with
    | .note data => return .note data
    | .throwValue v => resultOf (onIsolate (Isolate.raise t v none)) .value
    | .request actions => do
      requestInterrupt actions
      return .requested
    | .requestTermination => do
      modifyIsolate (·.requestTermination)
      return .done
    | .handleInterrupts => resultOf (serveFor t fuel) .value
    | .invokeCallbacks => return .count (← invokeFor t fuel)
    | .readPending => resultOf (onIsolate (Isolate.top t)) fun top => .optional top.pending
    | .cancelTermination => resultOf (onIsolate (Isolate.cancelTermination t)) fun _ => .done
    | .tearDown => resultOf tearDown fun _ => .done

end

/-- A bound on the calls that serving some callbacks takes. -/
def interruptBound (callbacks : List InterruptCallback) : Nat :=
  6 * (InterruptAction.totalWeight callbacks.flatten + callbacks.length) + 6

/-- Runs the waiting callbacks, and counts them. -/
def invokeCallbacks (t : ThreadId) : Action Hosted Nat := do
  invokeFor t (interruptBound (← get).isolate.interrupts)

/-- Serves interrupts: gives the value that tells of an exception if the execution must end. -/
def handleInterrupts (t : ThreadId) : Action Hosted Value := do
  serveFor t (interruptBound (← get).isolate.interrupts)

end ScriptEngine.Hosted

import ScriptEngine.Exception.Message
import ScriptEngine.Exception.Prediction
import ScriptEngine.Isolate.Basic

namespace ScriptEngine

namespace ThreadState

/-- Hands the pending exception to the innermost scope of the embedder if that is the innermost
handler. False if a managed handler is. -/
def propagate (t : ThreadState) (handler : HandlerType) : Bool × ThreadState :=
  match t.pending, handler with
  | none, _ => (false, t)
  | some _, .managed => (false, { t with externalCaught := false })
  | some _, .none => (true, { t with externalCaught := false })
  | some exception, .external =>
    let t := { t with externalCaught := true }
    if exception.isCatchable then (true, t.modifyTop (·.catchException exception t.message))
    else (true, t.modifyTop (·.terminate))

/-- Hands the pending exception on by its own handler type. -/
def propagatePending (t : ThreadState) : Except IsolateError (Bool × ThreadState) :=
  match t.pending with
  | none => .error .noPendingException
  | some exception => .ok (t.propagate (t.handlerType exception))

/-- A throw makes a message unless the innermost scope of the embedder wants none. -/
def wantsMessage (t : ThreadState) : Bool := t.topTryCatch.all (·.wantsMessage)

/-- Takes the scheduled exception away if a scope has it. A termination stays as long as there are
frames. The scope's message is pending no longer either. -/
def cancelScheduled (t : ThreadState) (id : TryCatchId) : Except IsolateError ThreadState :=
  match t.tryCatch? id with
  | none => .error (.unknownTryCatch id)
  | some scope =>
    let t := match t.scheduled with
      | none => t
      | some .termination =>
        if t.stack.depth = 0 then { t with externalCaught := false, scheduled := none } else t
      | some exception =>
        if some exception = scope.exception then { t with scheduled := none } else t
    .ok (if scope.message.isSome && t.message = scope.message then { t with message := none }
      else t)

/-- Drops a termination from both slots, and from the innermost scope of the embedder. -/
def cancelTermination (t : ThreadState) : ThreadState :=
  let t := t.modifyTop (·.cancelTermination)
  let t :=
    if t.pending = some .termination then { t with externalCaught := false, pending := none } else t
  if t.scheduled = some .termination then { t with externalCaught := false, scheduled := none }
  else t

/-- The stack pointer of the innermost managed frame of the active segment. -/
def managedSp (t : ThreadState) (env : Surroundings) : Walk (Option Address) :=
  let segment := t.stack.activeSegment
  Frame.firstAnswer env.codes segment.id (fun f => if f.isManaged then some f.sp else none)
    segment.innermostFirst

end ThreadState

namespace Isolate

/-- The message that a throw makes, and whether the prediction says that nobody catches it. -/
def describeThrow (i : Isolate) (t : ThreadState) (exception : Value) (location : Option Location) :
    Walk (Message × Bool) := do
  let env := i.surroundings
  let location ← match location.or (i.heap.errorLocation? exception) with
    | some l => .ok (some l)
    | none => t.location env
  let stack ←
    if i.options.captureUncaught then
      t.trace env (i.traceOptions i.options.uncaughtTraceLimit .none) i.intrinsics
    else .ok []
  let isUncaught ←
    if i.options.abortOnUncaught then do
      let prediction ← t.predictCatcher env
      .ok (prediction == .notCaught || prediction == .byExternal)
    else .ok false
  return (i.heap.messageFor exception location stack, isUncaught)

/-- Ends the process over an uncaught exception, unless the embedder says no. -/
def abortUncaught (t : ThreadId) (exception : Value) : Action Isolate Unit := do
  let i ← get
  match i.options.abortAnswer with
  | none => Action.die (.abortOnUncaughtException (i.heap.describe exception))
  | some answer => do
    let pending := (i.thread? t).bind (·.top.pending)
    set (i.emit (.abortAsked pending answer))
    if answer then Action.die (.abortOnUncaughtException (i.heap.describe exception))

/-- Makes an exception pending, with a message if somebody may want one, and gives the value that
tells callers so. -/
def raise (t : ThreadId) (exception : Value) (location : Option Location) :
    Action Isolate Value := do
  let top ← Isolate.top t
  if top.scheduled.isSome then Action.refuse (.exceptionConflict .throwWhileScheduled)
  let makesMessage := top.wantsMessage && !top.rethrowing && exception.isCatchable
  putTop t { top with rethrowing := false }
  let mut isUncaught := false
  if makesMessage then
    let (m, uncaught) ← Action.ofWalk ((← get).describeThrow top exception location)
    let message ← allocate (.message m)
    tryOnTop t fun top => .ok { top with message := some message }
    isUncaught := uncaught
  tryOnTop t (·.setPending exception)
  if isUncaught then abortUncaught t exception
  return .raised

/-- Raises without a new message. -/
def rethrow (t : ThreadId) (exception : Value) : Action Isolate Value := do
  tryOnTop t (·.setPending exception)
  return .raised

/-- Raises with a message that was made before. -/
def rethrowWithMessage (t : ThreadId) (exception message : Value) : Action Isolate Value := do
  tryOnTop t fun top => do
    let top ← top.setPending exception
    return { top with message := some message }
  return .raised

/-- Raises from a callback of the embedder. The message stays pending for the promotion. -/
def scheduleThrow (t : ThreadId) (exception : Value) : Action Isolate Unit := do
  let _ ← raise t exception none
  tryOnTop t fun top =>
    let (_, top) := top.propagate (top.handlerType exception)
    if top.pending.isSome then { top with externalCaught := false }.schedulePending else .ok top

/-- Makes the scheduled exception pending. -/
def promote (t : ThreadId) : Action Isolate Value := do
  let top ← Isolate.top t
  match top.scheduled with
  | none => Action.refuse .noScheduledException
  | some exception => do
    putTop t top.clearScheduled
    rethrow t exception

/-- What happens to the pending exception when control leaves managed code: it is scheduled
(true), or dropped (false) on request or because the embedder's scope has it and no managed frame
is between here and the scope. -/
def reschedule (t : ThreadId) (clear : Bool) : Action Isolate Bool := do
  let top ← Isolate.top t
  match top.pending with
  | none => Action.refuse .noPendingException
  | some exception => do
    let (_, top) := top.propagate (top.handlerType exception)
    putTop t top
    let mut clear := clear
    if exception.isCatchable && top.externalCaught then
      match top.topTryCatch with
      | none => pure ()
      | some scope =>
        let sp ← Action.ofWalk (top.managedSp (← get).surroundings)
        if sp.all (scope.address < ·) then clear := true
    if clear then
      putTop t { top with externalCaught := false, pending := none }
      return false
    else
      tryOnTop t (·.schedulePending)
      return true

/-- Hands the pending exception to the embedder. -/
def propagate (t : ThreadId) : Action Isolate Bool := do
  let (done, top) ← Action.ofExcept (← Isolate.top t).propagatePending
  putTop t top
  return done

/-- Tells a listener about a message. -/
def notify (m : Message) (i : Isolate) : Listener → Isolate
  | .brief tag => i.emit (.briefMessage tag m)
  | .full tag none => i.emit (.message tag m)
  | .full tag (some added) =>
    let i := i.emit (.message tag m)
    { i with listeners := i.listeners ++ [.brief added] }

/-- Tells every listener that was there at the start about a message. -/
def notifyAll (m : Message) (i : Isolate) : Isolate := i.listeners.foldl (notify m) i

/-- The pending message that is due to the listeners, and the state of the thread without it. -/
def takeDueMessage (top : ThreadState) (report : Bool) : Option Value × ThreadState :=
  match top.pending with
  | none => (none, top)
  | some exception =>
    let handler := top.handlerType exception
    let (propagated, top) := top.propagate handler
    if propagated && report then
      let isDue := exception.isCatchable &&
        (handler != .external || top.topTryCatch.any (·.isVerbose))
      (if isDue then top.message else none, { top with message := none })
    else (none, top)

/-- Delivers the pending message if nobody else will. -/
def report (t : ThreadId) (report : Bool) : Action Isolate Unit := do
  let due ← onTop t (takeDueMessage · report)
  let i ← get
  match due.bind i.heap.message? with
  | none => return
  | some m => set (i.notifyAll m)

/-- Asks for the end of the execution; the next interrupt check raises it. -/
def requestTermination (i : Isolate) : Isolate :=
  { i with terminationRequested := true, guard := i.guard.request .terminate }

def terminate (t : ThreadId) : Action Isolate Value := raise t .termination none

/-- Takes back a termination that has not unwound everything. -/
def cancelTermination (t : ThreadId) : Action Isolate Unit := do
  tryOnTop t fun top => .ok top.cancelTermination
  modify fun i => { i with terminationRequested := false, guard := i.guard.clear .terminate }

/-- The call sites of a thread. -/
def trace (t : ThreadId) (limit : Nat) (skip : Skip) : Action Isolate (List CallSite) := do
  let top ← Isolate.top t
  let i ← get
  Action.ofWalk (top.trace i.surroundings (i.traceOptions limit skip) i.intrinsics)

/-- An error object with the current stack. -/
def newError (t : ThreadId) (name message : String) : Action Isolate Value := do
  let stack ← trace t (← get).options.stackTraceLimit .none
  allocate (.error ⟨name, message, some stack⟩)

def stackOverflow (t : ThreadId) : Action Isolate Value := do
  let error ← newError t "RangeError" "Maximum call stack size exceeded"
  raise t error none

def illegalOperation (t : ThreadId) : Action Isolate Value := do
  let text ← allocate (.string "illegal access")
  raise t text none

/-- Renders the trace of a thread with the thread's printer. -/
def traceText (t : ThreadId) : Action Isolate String := do
  let sites ← trace t (← get).options.stackTraceLimit .none
  let i ← get
  match i.thread? t with
  | none => Action.refuse .threadNotAttached
  | some d => do
    let r := d.printer.render ((CallSite.lines "Stack trace:" sites).map TraceLine.ofText)
    set (i.modifyThread t fun d => { d with printer := r.printer })
    match r.result with
    | .ok text => return text
    | .error (.fatal e) => Action.die e
    | .error .line => return ""

end Isolate

end ScriptEngine

import ScriptEngine.Code.Builtins
import ScriptEngine.Isolate.Materialized
import ScriptEngine.Thread.State

namespace ScriptEngine

/-- What a frame gets when its handler is chosen. -/
inductive FramePatch
  | none
  /-- Drop the handlers from an index on. -/
  | handlers (kept : Nat)
  | bytecodeOffset (fp : Address) (offset : Nat)
  | context (fp : Address) (context : Value)
  | exception (fp : Address) (exception : Value)
  deriving DecidableEq

structure HandlerMatch where
  handler : PendingHandler
  patch : FramePatch := .none
  /-- The frame is rebuilt without optimization, and throws again then. -/
  lazyThrow : Bool := false
  /-- A restart request is met. -/
  clearsRestart : Bool := false
  deriving DecidableEq

/-- What the search consults and does not change. -/
structure DispatchContext where
  codes : CodeRegistry
  builtins : Builtins
  exception : Value
  /-- Whether managed code may catch the exception. -/
  catchable : Bool

/-- What dispatch changes. -/
structure Dispatch where
  thread : ThreadState
  materialized : MaterializedObjects
  lazyThrow : Bool
  /-- The frame that a debugger wants to restart. -/
  restart : Option Address

namespace DispatchContext

/-- Execution goes on `offset` bytes into some code. -/
def resumeIn (code : Code) (offset : Nat) (fp sp : Address) (framesAbove : Nat) :
    PendingHandler where
  context := .undefined
  entry := code.start + offset
  constantPool := code.constantPool
  fp := fp
  sp := sp
  framesAbove := framesAbove

/-- Entry frames always handle: by the handler for the call out, with all handlers dropped from
their own on. -/
def matchEntry (handlers : List Address) (visited : Nat) (f : Frame) : Walk HandlerMatch :=
  match f.raw.handler with
  | none => breach .entryWithoutHandler
  | some i =>
    match handlers[i]?, f.code with
    | none, _ => breach (.entryHandlerNotInstalled i)
    | some _, none => breach (.entryWithoutCode f.pc)
    | some address, some code =>
      match code.handlers.lookupReturn 0 with
      | none => breach .entryWithoutReturn
      | some offset =>
        .ok
          { handler := resumeIn code offset 0 (address + stackHandlerSize) visited
            patch := .handlers i }

/-- Code that is marked is entered again at the call, and throws once it is rebuilt. -/
def matchOptimized (c : DispatchContext) (visited : Nat) (f : Frame) : Option HandlerMatch := do
  let code ← f.code
  let offset ← f.returnHandler
  let isGivenUp := code.kind.isOptimized && c.codes.isMarked code
  return {
    handler := resumeIn code (if isGivenUp then f.pcOffset else offset) f.fp f.slotsSp visited
    lazyThrow := isGivenUp }

def matchStub (visited : Nat) (f : Frame) : Option HandlerMatch := do
  let code ← f.code
  let offset ← f.stubHandler
  return { handler := resumeIn code offset f.fp f.slotsSp visited }

/-- The value of the register that holds a handler's context. -/
def contextRegister (f : Frame) (register : Nat) : Walk Value :=
  match f.raw.registers[register]? with
  | some v => .ok v
  | none => breach (.contextRegisterOutOfRange register f.raw.registers.length)

/-- The interpreter enters the frame again by itself, so one frame less is given up. -/
def matchInterpreted (c : DispatchContext) (visited : Nat) (f : Frame) :
    Walk (Option HandlerMatch) :=
  match f.coveringRange with
  | none => .ok none
  | some range => do
    let context ← contextRegister f range.contextRegister
    if visited = 0 then breach .throwingFrameHandles
    else
      let code := c.builtins.code .interpreterEnterAtBytecode
      return some {
        handler := { resumeIn code 0 f.fp f.registersSp (visited - 1) with context := context }
        patch := .bytecodeOffset f.fp range.handler }

def matchBaseline (visited : Nat) (f : Frame) : Walk (Option HandlerMatch) :=
  match f.coveringRange, f.code with
  | some range, some code => do
    let context ← contextRegister f range.contextRegister
    match code.pcForBytecodeOffset range.handler with
    | none => breach (.handlerOffsetUnmapped range.handler)
    | some pc =>
      return some {
        handler := resumeIn code (pc - code.start) f.fp f.registersSp visited
        patch := .context f.fp context }
  | _, _ => .ok none

/-- Builtins that are called like functions have no handlers. -/
def checkBuiltin (f : Frame) : Walk (Option HandlerMatch) :=
  match f.code with
  | none => .ok none
  | some code =>
    if (code.handlers.lookupReturn f.pcOffset).isSome then
      breach (.builtinFrameHandles ((code.builtin.map (·.name)).getD "?"))
    else .ok none

def matchContinuation (c : DispatchContext) (visited : Nat) (f : Frame) : Option HandlerMatch :=
  f.code.map fun code =>
    { handler := resumeIn code 0 f.fp f.sp visited
      patch := .exception f.fp c.exception }

/-- Optimized frames restart by being rebuilt, all other managed frames through a builtin. -/
def restartFrame (c : DispatchContext) (visited : Nat) (f : Frame) : Walk HandlerMatch :=
  if c.catchable then breach .restartOnCatchable
  else if !f.isManaged then breach .restartOfUnmanaged
  else if f.kind = .optimized then
    match f.code with
    | none => breach .restartWithoutCode
    | some code =>
      if c.codes.isMarked code then
        .ok { handler := resumeIn code f.pcOffset f.fp f.slotsSp visited, lazyThrow := true }
      else breach .restartOfUnmarked
  else
    .ok
      { handler := resumeIn (c.builtins.code .restartFrame) 0 f.fp 0 visited
        clearsRestart := true }

/-- Whether and how a frame handles a catchable exception. -/
def matchCatchable (c : DispatchContext) (handlers : List Address) (visited : Nat) (f : Frame) :
    Walk (Option HandlerMatch) :=
  match f.kind with
  | .entry | .constructEntry => some <$> matchEntry handlers visited f
  | .optimized => .ok (c.matchOptimized visited f)
  | .stub => .ok (matchStub visited f)
  | .interpreted => c.matchInterpreted visited f
  | .baseline => matchBaseline visited f
  | .builtin => checkBuiltin f
  | .continuationWithCatch => .ok (c.matchContinuation visited f)
  | .exit | .native => .ok none

/-- Whether and how a frame handles an uncatchable exception. -/
def matchUncatchable (handlers : List Address) (visited : Nat) (f : Frame) :
    Walk (Option HandlerMatch) :=
  match f.kind with
  | .entry | .constructEntry => some <$> matchEntry handlers visited f
  | _ => .ok none

/-- How a frame handles the exception, if it does. A request to restart it comes first. -/
def matchFrame (c : DispatchContext) (restart : Option Address) (handlers : List Address)
    (visited : Nat) (f : Frame) : Walk (Option HandlerMatch) :=
  if restart = some f.fp then some <$> c.restartFrame visited f
  else if c.catchable then c.matchCatchable handlers visited f
  else matchUncatchable handlers visited f

end DispatchContext

namespace Dispatch

/-- What a search through some frames ends with. -/
inductive SearchResult
  | found (m : HandlerMatch)
  /-- No frame handles; so many were visited up to here. -/
  | passed (visited : Nat)

/-- Objects of a top tier frame are of no use once the frame is given up. -/
def forget (materialized : MaterializedObjects) (f : Frame) : MaterializedObjects :=
  if f.isTurbofan then materialized.remove f.fp else materialized

/-- Searches frames in order. -/
def searchFrames (c : DispatchContext) (restart : Option Address) (handlers : List Address)
    (segment : Nat) :
    List RawFrame → Nat → MaterializedObjects → Walk SearchResult × MaterializedObjects
  | [], visited, materialized => (.ok (.passed visited), materialized)
  | raw :: rest, visited, materialized =>
    match Frame.view c.codes segment raw with
    | .error e => (.error e, materialized)
    | .ok f =>
      match c.matchFrame restart handlers visited f with
      | .error e => (.error e, materialized)
      | .ok (some m) => (.ok (.found m), materialized)
      | .ok none =>
        searchFrames c restart handlers segment rest (visited + 1) (forget materialized f)

def applyPatch (t : ThreadState) : FramePatch → ThreadState
  | .none => t
  | .handlers kept => { t with handlers := t.handlers.take kept }
  | .bytecodeOffset fp offset =>
    { t with
      stack :=
        t.stack.modifyActive (·.modifyFrame fp fun r => { r with bytecodeOffset := offset }) }
  | .context fp context =>
    { t with
      stack := t.stack.modifyActive (·.modifyFrame fp fun r => { r with context := context }) }
  | .exception fp exception =>
    { t with
      stack := t.stack.modifyActive (·.modifyFrame fp fun r => { r with exception := exception }) }

/-- Records where execution goes on; the exception is pending no longer. -/
def apply (d : Dispatch) (m : HandlerMatch) : Dispatch :=
  { d with
    thread := { applyPatch d.thread m.patch with pendingHandler := some m.handler, pending := none }
    lazyThrow := d.lazyThrow || m.lazyThrow
    restart := if m.clearsRestart then none else d.restart }

/-- Searches the active segment and at most `segments` further ones, and applies the match. -/
def searchFor (c : DispatchContext) : Nat → Nat → Dispatch → Walk Unit × Dispatch
  | segments, visited, d =>
    let active := d.thread.stack.activeSegment
    match searchFrames c d.restart d.thread.handlers active.id active.innermostFirst visited
        d.materialized with
    | (.error e, materialized) => (.error e, { d with materialized := materialized })
    | (.ok (.found m), materialized) => (.ok (), { d with materialized := materialized }.apply m)
    | (.ok (.passed visited), materialized) =>
      let d := { d with materialized := materialized }
      match segments, d.thread.stack.switchToParent with
      | segments + 1, some (_, stack) =>
        searchFor c segments visited { d with thread := { d.thread with stack := stack } }
      | _, _ => (.error .noHandlerFound, d)

/-- Dispatches the pending exception and gives it back. Without managed handlers to consult the
joins in progress are given up. -/
def run (codes : CodeRegistry) (builtins : Builtins) (termination : Bool) (d : Dispatch) :
    Except Failure Value × Dispatch :=
  match d.thread.pending with
  | none => (.error (.refused .noPendingException), d)
  | some exception =>
    let catchable := exception.isCatchable && !termination
    let thread := if catchable then d.thread else { d.thread with joins := [] }
    let (result, d) := searchFor { codes, builtins, exception, catchable }
      thread.stack.segments.length 0 { d with thread := thread }
    match result with
    | .ok () => (.ok exception, d)
    | .error e => (.error (.fatal e), d)

end Dispatch

end ScriptEngine

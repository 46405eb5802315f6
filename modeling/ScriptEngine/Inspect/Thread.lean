import ScriptEngine.Inspect.Heap
import ScriptEngine.Stack.View
import ScriptEngine.Thread.State

namespace ScriptEngine

namespace Named

instance : Named FrameMarker where
  names :=
    [("Entry", .entry), ("ConstructEntry", .constructEntry), ("Exit", .exit),
     ("JavaScript", .managed), ("Stub", .stub),
     ("BuiltinContinuationWithCatch", .continuationWithCatch), ("Native", .native)]

instance : Named SegmentState where
  names :=
    [("Active", .active), ("Inactive", .inactive), ("Suspended", .suspended),
     ("Retired", .retired)]

instance : Named HandlerType where
  names := [("JavaScript", .managed), ("External", .external), ("None", .none)]

end Named

/-- The name of a frame's type; optimized frames are told apart by tier. -/
def Frame.typeName (f : Frame) : String :=
  match f.kind with
  | .entry => "Entry"
  | .constructEntry => "ConstructEntry"
  | .exit => "Exit"
  | .interpreted => "Interpreted"
  | .baseline => "Baseline"
  | .optimized => if f.isTurbofan then "Turbofan" else "Maglev"
  | .builtin => "Builtin"
  | .stub => "Stub"
  | .continuationWithCatch => "BuiltinContinuationWithCatch"
  | .native => "Native"

namespace Inspect

instance : Inspect TryCatch where
  inspect t := .record
    [("verbose", inspect t.isVerbose), ("capture", inspect t.capturesMessage),
     ("exception", inspect t.exception), ("message", inspect t.message),
     ("continue", inspect t.canContinue), ("terminated", inspect t.hasTerminated),
     ("rethrow", inspect t.rethrow), ("caught", inspect t.hasCaught),
     ("address", .address t.address)]

instance : Inspect PendingHandler where
  inspect h := .record
    [("context", inspect h.context), ("entry", .address h.entry),
     ("pool", .address h.constantPool), ("fp", .address h.fp), ("sp", .address h.sp),
     ("frames", inspect h.framesAbove)]

instance : Inspect RawFrame where
  inspect f := .record
    [("marker", inspect f.marker), ("fp", .address f.fp), ("sp", .address f.sp),
     ("pc", .address f.pc), ("caller_sp", .address f.callerSp), ("function", inspect f.function),
     ("receiver", inspect f.receiver), ("context", inspect f.context),
     ("registers", inspect f.registers), ("bytecode", inspect (f.bytecode.map (·.length))),
     ("offset", inspect f.bytecodeOffset), ("handler", inspect f.handler),
     ("exception", inspect f.exception), ("constructor", inspect f.isConstructor),
     ("slots", inspect f.slots)]

instance : Inspect StackSegment where
  inspect g := .record
    [("id", inspect g.id), ("base", .address g.base), ("cursor", .address g.cursor),
     ("state", inspect g.state), ("parent", inspect g.parent), ("frames", inspect g.frames)]

instance : Inspect SegmentedStack where
  inspect s := .record
    [("active", inspect s.active), ("depth", inspect s.depth), ("segments", inspect s.segments)]

end Inspect

/-- An activation, with the name of its function. -/
def Activation.survey (heap : Heap) (a : Activation) : Datum :=
  let code := match a.code with
    | .bytecode b => inspect b.length
    | .code c => inspect c
  .list
    [inspect a.function, inspect a.receiver, inspect a.offset, inspect a.isConstructor,
     inspect a.sourcePosition, code, inspect a.code.isBuiltin,
     inspect ((heap.function? a.function).map (·.info.name))]

namespace Frame

/-- What a frame says about its handlers. -/
def surveyHandlers (f : Frame) : Datum :=
  match f.kind with
  | .entry | .constructEntry => inspect f.raw.handler
  | .interpreted | .baseline => .list
    [inspect f.bytecodeOffset, inspect f.coveringRange, inspect f.raw.registers.length,
     .address f.registersSp]
  | .optimized => .list [inspect f.returnHandler, .address f.slotsSp]
  | .stub => inspect f.stubHandler
  | .builtin | .continuationWithCatch | .exit | .native => .null

def survey (heap : Heap) (f : Frame) : Datum := .record
  [("type", inspect f.typeName), ("id", .address f.fp), ("fp", .address f.fp),
   ("sp", .address f.sp), ("pc", .address f.pc), ("pc_offset", inspect f.pcOffset),
   ("segment", inspect f.segment), ("code", inspect f.code), ("managed", inspect f.isManaged),
   ("turbofan", inspect f.isTurbofan), ("lookup", f.surveyHandlers),
   ("summaries", inspect ((f.activations heap).map (Activation.survey heap))),
   ("predict", inspect (f.prediction heap)), ("marker", inspect f.raw.marker)]

/-- The family that a frame belongs to for visitors of typed frames. -/
def family? (f : Frame) : Option String :=
  match f.kind with
  | .entry | .constructEntry => some "entry"
  | .interpreted | .baseline => some "unoptimized"
  | .optimized => some "optimized"
  | .builtin => some "builtin"
  | .stub => some "stub"
  | .continuationWithCatch => some "continuation"
  | .exit | .native => none

end Frame

namespace StackSegment

/-- The walk over a segment: whether it is over, how many frames are left and the segment, before
and after. -/
def survey (g : StackSegment) (env : Surroundings) : Walk Datum := do
  let frames ← g.views env.codes
  return .list
    [.list [inspect g.frames.isEmpty, inspect g.frames.length, inspect g.id],
     inspect (frames.map (Frame.survey env.heap)), inspect true]

/-- What two visitors see: one that looks at markers and stops when it has seen `stop`, and one
that tells families of frames apart. -/
def surveyVisits (g : StackSegment) (codes : CodeRegistry) (stop : Option Nat) : Walk Datum := do
  let seen := match stop with
    | none => g.innermostFirst
    | some n => g.innermostFirst.take (max n 1)
  let _ ← seen.mapM (Frame.view codes g.id)
  let frames ← g.views codes
  return inspect (seen.map (·.marker), frames.filterMap (·.family?))

end StackSegment

/-- What a tool is told about a thread. -/
def ThreadState.survey (t : ThreadState) : Datum := .record
  [("pending", inspect t.pending), ("scheduled", inspect t.scheduled),
   ("message", inspect t.message), ("context", inspect t.context),
   ("external", inspect t.externalCaught), ("handlers", .list (t.handlers.map .address)),
   ("catch", .addressOf (t.topTryCatch.map (·.address))), ("depth", inspect t.stack.depth),
   ("cursor", .address t.stack.activeSegment.cursor), ("resume", inspect t.pendingHandler),
   ("promises", inspect t.promises.length), ("joins", inspect t.joins.length)]

end ScriptEngine

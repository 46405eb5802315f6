import ScriptEngine.Trace.Capture

namespace ScriptEngine

/-- Where an activation is in its script; the function's own position if the offset has none. -/
def Activation.location? (a : Activation) (heap : Heap) : Option Location := do
  let f ← heap.function? a.function
  let script ← f.info.script
  return .point script (a.sourcePosition.getD f.info.startPosition)

/-- The location of a frame's innermost activation that has a script. -/
def Frame.location? (f : Frame) (heap : Heap) : Option Location :=
  if f.isManaged then (f.activations heap).reverse.findSome? (·.location? heap) else none

/-- The location of the innermost activation of the active segment that has a script. -/
def ThreadState.location (t : ThreadState) (env : Surroundings) : Walk (Option Location) :=
  let segment := t.stack.activeSegment
  Frame.firstAnswer env.codes segment.id (·.location? env.heap) segment.innermostFirst

def CallSite.location? (s : CallSite) : Option Location := do
  let script ← s.script
  let position ← s.sourcePosition
  return .point script position

namespace Heap

/-- The location that the stack of an error object gives. -/
def errorLocation? (h : Heap) (exception : Value) : Option Location := do
  let e ← h.error? exception
  let stack ← e.stack
  stack.findSome? (·.location?)

/-- The message about an exception. -/
def messageFor (h : Heap) (exception : Value) (location : Option Location)
    (stack : List CallSite) : Message :=
  ⟨exception, s!"Uncaught {h.describe exception}", location, stack⟩

end Heap

end ScriptEngine

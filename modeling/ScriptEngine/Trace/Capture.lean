import ScriptEngine.Thread.State
import ScriptEngine.Trace.Awaiting

namespace ScriptEngine

/-- What a walk over a stack reads besides the stack. -/
structure Surroundings where
  heap : Heap
  codes : CodeRegistry

/-- A call site resolved to names and coordinates. -/
structure SiteSummary where
  functionName : String
  scriptName : Option String
  line : Nat
  column : Nat
  isConstructor : Bool

/-- Line and column are zero where the position is unknown. -/
def CallSite.summary (s : CallSite) : SiteSummary :=
  let (line, column) := s.lineAndColumn.getD (0, 0)
  ⟨s.functionName, s.scriptName, line, column, s.isConstructor⟩

namespace ThreadState

def trace (t : ThreadState) (env : Surroundings) (o : TraceOptions) (intrinsics : Intrinsics) :
    Walk (List CallSite) := do
  let b ← (TraceBuilder.start o).addSegment env.codes env.heap t.stack.activeSegment
  if o.async && !b.isFull then
    let b ← b.followMicrotask env.heap intrinsics t.microtask
    return b.sites
  else return b.sites

def detailedTrace (t : ThreadState) (env : Surroundings) (limit : Nat) :
    Walk (List SiteSummary) := do
  let sites ← t.trace env { limit, async := false } {}
  return sites.map (·.summary)

end ThreadState

end ScriptEngine

import ScriptEngine.Code.Function
import ScriptEngine.Code.Basic
import ScriptEngine.Datum
import ScriptEngine.Heap.Roots
import ScriptEngine.Table

namespace ScriptEngine

/-- Compiled functions by script and position. -/
abbrev CompilationCache := Table (Nat × Nat) FunctionInfo

/-- Property access stubs by shape and name. -/
abbrev StubCache := Table (Nat × Nat) Address

/-- Time zone offsets. The stamp tells how often the time zone changed. -/
structure DateCache where
  stamp : UInt32 := 0
  offsets : Table Int Int := []

namespace DateCache

/-- The offset for a time; `compute` gives it if it is not known. The flag tells whether it was
computed. -/
def offsetFor (c : DateCache) (time : Int) (compute : Int → Int) : Int × Bool × DateCache :=
  match c.offsets.lookup time with
  | some offset => (offset, false, c)
  | none => (compute time, true, { c with offsets := c.offsets.put time (compute time) })

def reset (c : DateCache) : DateCache := ⟨c.stamp + 1, []⟩

end DateCache

/-- Size of the backtracking stack of regular expressions. -/
structure RegExpStack where
  size : Nat := 1024

namespace RegExpStack

def initialSize : Nat := 1024

def maximumSize : Nat := 64 * 1024 * 1024

/-- Grows to a power of two that is large enough; refuses what is above the maximum. -/
def ensureCapacity (s : RegExpStack) (size : Nat) : Bool × RegExpStack :=
  if maximumSize < size then (false, s)
  else if s.size < size then (true, ⟨min size.nextPowerOfTwo maximumSize⟩)
  else (true, s)

def reset (s : RegExpStack) : RegExpStack := ⟨min s.size initialSize⟩

end RegExpStack

/-- References that the embedder holds, by handle. Freed handles are used again, the last freed
one first. -/
structure GlobalHandles where
  slots : List (Option Value) := []
  free : List Nat := []

namespace GlobalHandles

def create (g : GlobalHandles) (v : Value) : Nat × GlobalHandles :=
  match g.free with
  | handle :: free => (handle, { slots := g.slots.set handle (some v), free })
  | [] => (g.slots.length, { g with slots := g.slots ++ [some v] })

def get? (g : GlobalHandles) (handle : Nat) : Option Value := g.slots[handle]?.join

def destroy (g : GlobalHandles) (handle : Nat) : Option Value × GlobalHandles :=
  match g.get? handle with
  | none => (none, g)
  | some v => (some v, { slots := g.slots.set handle none, free := handle :: g.free })

def size (g : GlobalHandles) : Nat := (g.slots.filter (·.isSome)).length

def visitRoots {m : Type → Type} [Monad m] (visit : RootVisitor m) (g : GlobalHandles) :
    m GlobalHandles := do
  return { g with slots := ← g.slots.mapM (visit.option .globalHandles "global handle") }

end GlobalHandles

/-- A job for the compile thread: what it reports when it runs, and whether it fails then. -/
structure CompileJob where
  report : Datum
  fails : Bool := false

/-- The compile thread. It takes jobs in order until it is stopped; a failing job ends it. -/
structure CompileQueue where
  isRunning : Bool := true
  waiting : List CompileJob := []
  completed : Nat := 0
  reports : List Datum := []

namespace CompileQueue

/-- Also tells whether the job was taken. -/
def queue (q : CompileQueue) (job : CompileJob) : Bool × CompileQueue :=
  if q.isRunning then (true, { q with waiting := q.waiting ++ [job] }) else (false, q)

/-- Runs jobs up to the first that fails. -/
def work (q : CompileQueue) : List CompileJob → CompileQueue
  | [] => q
  | job :: rest =>
    let q := { q with reports := q.reports ++ [job.report] }
    if job.fails then q else { q with completed := q.completed + 1 }.work rest

/-- Finishes the jobs that were queued. -/
def stop (q : CompileQueue) : CompileQueue :=
  { q.work q.waiting with isRunning := false, waiting := [] }

end CompileQueue

/-- Each subsystem is there or not, independently of the others. -/
structure Subsystems where
  compilationCache : Option CompilationCache := none
  stubCache : Option StubCache := none
  dateCache : Option DateCache := none
  regExpStack : Option RegExpStack := none
  globalHandles : Option GlobalHandles := none
  compileQueue : Option CompileQueue := none

namespace Subsystems

/-- Makes the caches and the handles anew. -/
def createCore (s : Subsystems) : Subsystems :=
  { s with
    compilationCache := some []
    stubCache := some []
    dateCache := some {}
    regExpStack := some {}
    globalHandles := some {} }

/-- Drops the caches. -/
def clearCaches (s : Subsystems) : Subsystems :=
  { s with compilationCache := none, stubCache := none, dateCache := none, regExpStack := none }

/-- Names of the subsystems that are there. -/
def live (s : Subsystems) : List String :=
  (if s.compilationCache.isSome then ["compilation cache"] else []) ++
  (if s.stubCache.isSome then ["stub cache"] else []) ++
  (if s.dateCache.isSome then ["date cache"] else []) ++
  (if s.regExpStack.isSome then ["regexp stack"] else []) ++
  (if s.globalHandles.isSome then ["global handles"] else []) ++
  (if s.compileQueue.isSome then ["compile dispatcher"] else [])

end Subsystems

end ScriptEngine

namespace ScriptEngine

structure IsolateOptions where
  stackTraceLimit : Nat := 10
  /-- Traces go on with what waits for the microtask in progress. -/
  asyncStackTraces : Bool := true
  builtinsInStackTraces : Bool := false
  /-- Messages carry a trace. -/
  captureUncaught : Bool := false
  uncaughtTraceLimit : Nat := 10
  /-- An exception that nobody will catch ends the process. -/
  abortOnUncaught : Bool := false
  /-- The embedder's word on whether an uncaught exception ends the process. -/
  abortAnswer : Option Bool := none
  /-- Own the shared space of the process, or join it. -/
  sharedSpace : Bool := false
  concurrentRecompilation : Bool := true
  printAllExceptions : Bool := false
  /-- Bytes of machine stack for each thread. -/
  stackSize : Nat := 984 * 1024
  regionSize : Nat := 64 * 1024
  codeRangeSize : Nat := 256 * 1024

namespace IsolateOptions

def withSharedSpace (o : IsolateOptions) : IsolateOptions := { o with sharedSpace := true }

def withoutConcurrentRecompilation (o : IsolateOptions) : IsolateOptions :=
  { o with concurrentRecompilation := false }

def withStackTraceLimit (o : IsolateOptions) (limit : Nat) : IsolateOptions :=
  { o with stackTraceLimit := limit }

def capturingUncaught (o : IsolateOptions) (limit : Nat) : IsolateOptions :=
  { o with captureUncaught := true, uncaughtTraceLimit := limit }

def abortingOnUncaught (o : IsolateOptions) (answer : Option Bool) : IsolateOptions :=
  { o with abortOnUncaught := true, abortAnswer := answer }

/-- The text of a record that shows some of its fields. -/
def record (name : String) (fields : List (String × String)) (isComplete : Bool) : String :=
  let shown := fields.map fun (field, value) => s!"{field}: {value}"
  name ++ " \x7b " ++ ", ".intercalate (if isComplete then shown else shown ++ [".."]) ++ " \x7d"

/-- The text of the options that matter most. -/
def text (o : IsolateOptions) : String :=
  record "IsolateOptions"
    [("stack_trace_limit", toString o.stackTraceLimit),
     ("async_stack_traces", toString o.asyncStackTraces),
     ("builtins_in_stack_traces", toString o.builtinsInStackTraces),
     ("capture_stack_trace_for_uncaught_exceptions", toString o.captureUncaught),
     ("abort_on_uncaught_exception", toString o.abortOnUncaught),
     ("shared_space", toString o.sharedSpace),
     ("concurrent_recompilation", toString o.concurrentRecompilation),
     ("stack_size", toString o.stackSize)]
    false

end IsolateOptions

structure ProcessOptions where
  /-- A blob with the builtins is part of the binary. -/
  binaryBlob : Bool := true
  /-- A limit on the memory of all isolates. -/
  memoryBudget : Option Nat := none

def ProcessOptions.text (o : ProcessOptions) : String :=
  let budget := match o.memoryBudget with
    | none => "None"
    | some limit => s!"Some({limit})"
  IsolateOptions.record "ProcessOptions"
    [("binary_embedded_blob", toString o.binaryBlob), ("memory_budget", budget)] true

end ScriptEngine

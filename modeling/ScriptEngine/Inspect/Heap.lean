import ScriptEngine.Inspect.Code
import ScriptEngine.Heap.Roots
import ScriptEngine.Trace.Capture

namespace ScriptEngine

namespace Named

instance : Named PromiseStatus where
  names := [("Pending", .pending), ("Fulfilled", .fulfilled), ("Rejected", .rejected)]

instance : Named GeneratorKind where
  names :=
    [("Generator", .generator), ("AsyncFunction", .asyncFunction),
     ("AsyncGenerator", .asyncGenerator)]

instance : Named GeneratorState where
  names := [("Suspended", .suspended), ("Executing", .executing), ("Closed", .closed)]

instance : Named ReactionKind where
  names := [("Fulfill", .fulfill), ("Reject", .reject)]

instance : Named Combinator where
  names := [("All", .all), ("AllSettled", .allSettled), ("Any", .any)]

instance : Named RootKind where
  names :=
    [("ThreadLocalTop", .threadState), ("ExternalTryCatch", .externalTryCatch),
     ("StackRoots", .stack), ("PromiseStack", .promiseStack),
     ("GlobalHandles", .globalHandles), ("MaterializedObjects", .materializedObjects)]

end Named

namespace Inspect

instance : Inspect Location := ⟨fun l => .list [inspect l.text, inspect l.start, inspect l.stop]⟩

/-- Function and receiver show poisoned. -/
instance : Inspect CallSite where
  inspect s := .record
    [("text", inspect s.text), ("function", inspect s.function), ("receiver", inspect s.receiver),
     ("name", inspect s.functionName), ("script", inspect s.scriptName),
     ("offset", inspect s.codeOffset), ("position", inspect s.sourcePosition),
     ("line", inspect s.lineAndColumn), ("async", inspect s.isAsync),
     ("strict", inspect s.isStrict), ("constructor", inspect s.isConstructor),
     ("combinator", inspect (s.combinator.map fun (c, index) =>
       Datum.list [inspect c, inspect c.name, inspect index])),
     ("is_combinator", inspect s.combinator.isSome)]

instance : Inspect SiteSummary where
  inspect s := .list
    [inspect s.functionName, inspect s.scriptName, inspect s.line, inspect s.column,
     inspect s.isConstructor]

instance : Inspect Message where
  inspect m := .record
    [("exception", inspect m.exception), ("text", inspect m.text),
     ("location", inspect m.location), ("stack", inspect m.stack)]

instance : Inspect ErrorObject where
  inspect e := .record
    [("name", inspect e.name), ("message", inspect e.message), ("stack", inspect e.stack)]

instance : Inspect Function where
  inspect f := .record
    [("name", inspect f.info.name), ("origin", inspect f.info.origin),
     ("strict", inspect f.info.isStrict), ("user", inspect f.info.isUserCode),
     ("code", inspect f.code), ("context", inspect f.context), ("hash", inspect f.identityHash),
     ("forwarding", inspect f.isForwarding), ("start", inspect f.info.startPosition),
     ("length", inspect f.info.bytecode.length),
     ("registers", inspect f.info.bytecode.registerCount)]

/-- A context shows its slots, and what reads of some of them give. -/
instance : Inspect Context where
  inspect c := .record
    [("extension", inspect c.extension), ("slots", inspect c.slots),
     ("slot", inspect ([0, 1, 9].map c.slot))]

instance : Inspect Reaction where
  inspect r := .list [inspect r.fulfillHandler, inspect r.rejectHandler, inspect r.derived]

instance : Inspect Promise where
  inspect p := .record
    [("status", inspect p.status), ("result", inspect p.result), ("handler", inspect p.hasHandler),
     ("hint", inspect p.handledHint), ("by", inspect p.handledBy),
     ("pending", inspect p.isPending), ("reactions", inspect p.reactions)]

instance : Inspect Capability where
  inspect c := .list [inspect c.promise, inspect c.resolve, inspect c.reject]

instance : Inspect Generator where
  inspect g := .record
    [("kind", inspect g.kind), ("function", inspect g.function), ("receiver", inspect g.receiver),
     ("state", inspect g.state), ("pos", inspect g.position), ("promise", inspect g.promise),
     ("queue", inspect g.queue), ("suspended", inspect g.isSuspended),
     ("executing", inspect g.isExecuting)]

instance : Inspect ReactionJob where
  inspect j := .list [inspect j.kind, inspect j.handler, inspect j.derived]

/-- The name of the type, and the fields. -/
instance : Inspect HeapObject where
  inspect o :=
    let fields := match o with
      | .plain => .record []
      | .string s => .record [("string", inspect s)]
      | .error e => inspect e
      | .function f => inspect f
      | .context c => inspect c
      | .promise p => inspect p
      | .capability c => inspect c
      | .generator g => inspect g
      | .reactionJob j => inspect j
      | .message m => inspect m
    .list [inspect o.typeName, fields]

instance : Inspect RootEntry where
  inspect e := .list [inspect e.kind, inspect e.description, inspect e.value]

end Inspect

namespace Heap

/-- Which of the typed accessors find an object behind a value. -/
def accessors (h : Heap) (v : Value) : List Bool :=
  [(h.string? v).isSome, (h.function? v).isSome, (h.context? v).isSome, (h.promise? v).isSome,
   (h.capability? v).isSome, (h.generator? v).isSome, (h.reactionJob? v).isSome,
   (h.error? v).isSome, (h.message? v).isSome]

/-- The object behind a value, the first accessor that finds it, and how many do. -/
def survey (h : Heap) (v : Value) : Datum :=
  .list
    [inspect (h.object? v), inspect ((h.accessors v).idxOf? true),
     inspect ((h.accessors v).count true)]

end Heap

/-- Root entries in the order of their texts. -/
def RootEntry.sorted (entries : List RootEntry) : List RootEntry :=
  let key (e : RootEntry) : String := s!"{Named.nameOf e.kind},{e.description},{e.value.tagged}"
  entries.mergeSort fun a b => key a ≤ key b

end ScriptEngine

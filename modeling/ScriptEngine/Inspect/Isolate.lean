import ScriptEngine.Engine
import ScriptEngine.Inspect.Failure
import ScriptEngine.Inspect.Thread

namespace ScriptEngine

namespace Inspect

instance : Inspect Intrinsics where
  inspect i := .list
    [inspect i.promiseAll, inspect i.promiseAllSettled, inspect i.promiseAny, inspect (i == {})]

instance : Inspect ProcessOptions := ⟨fun o => inspect (o.binaryBlob, o.memoryBudget)⟩

end Inspect

/-- The settings of options that builders change, and what a platform makes of them. -/
def IsolateOptions.survey (o : IsolateOptions) (p : ProcessOptions) : Datum :=
  let platform := Platform.create 0 p
  .record
    [("debug", inspect o.text), ("uncaught_limit", inspect o.uncaughtTraceLimit),
     ("callback", inspect o.abortAnswer.isSome), ("region", inspect o.regionSize),
     ("range", inspect o.codeRangeSize), ("print_all", inspect o.printAllExceptions),
     ("process", inspect p.text), ("default_blob", inspect platform.blobs.default.isSome),
     ("shared", inspect platform.sharedSpace?.isSome),
     ("same", inspect (platform.options.text == p.text))]

/-- Owner, clients and their number. `shown` writes isolates. -/
def SharedSpace.survey (s : SharedSpace) (shown : IsolateId → Datum) : Datum :=
  .list [shown s.owner, .list (s.clients.map shown), inspect s.clients.length]

def Platform.survey (p : Platform) (shown : IsolateId → Datum) : Datum :=
  .record
    [("refs", inspect p.blobs.refs), ("frees", inspect p.blobs.frees),
     ("sticky", inspect p.blobs.sticky.isSome), ("null", inspect p.blobs.current.isNull),
     ("binary", inspect p.blobs.isCurrentBinary), ("budget", inspect p.options.memoryBudget),
     ("shared", inspect (p.sharedSpace?.map fun s => s.space.survey shown))]

/-- All about an isolate that is no object of its own. `here` counts the entries of the thread that
asks. -/
def Hosted.survey (h : Hosted) (here : Nat) (shown : IsolateId → Datum) : Datum :=
  let i := h.isolate
  .record
    [("state", inspect i.state), ("initialized", inspect i.isInitialized),
     ("live", inspect i.liveSubsystems), ("blob", inspect i.blob.isSome),
     ("binary", inspect (i.blob.map (·.isBinary))), ("builtins", inspect i.builtins.isSome),
     ("owner", inspect i.isSpaceOwner), ("client", inspect i.isSpaceClient),
     ("space", inspect ((i.sharedSpace? h.platform).map (·.space.clients.length))),
     ("entries", inspect i.entries), ("here", inspect here),
     ("threads", inspect i.threads.length), ("codes", inspect i.codes.size),
     ("terminate", inspect i.terminationRequested), ("interrupts", inspect i.guard.hasPending),
     ("listeners", inspect i.listeners.length), ("heap", inspect (i.heap.size, i.heap.size == 0)),
     ("id", shown i.id), ("shows_id", inspect true),
     ("platform_budget", inspect h.platform.options.memoryBudget),
     ("stack_size", inspect i.options.stackSize)]

namespace Isolate

/-- The table of attached threads, and what it has for one of them. -/
def surveyThread (i : Isolate) (t : ThreadId) : Datum :=
  let found := (i.thread? t).map fun d =>
    Datum.list
      [inspect true, inspect d.stackSize, inspect t, inspect true, inspect d.printer.level]
  .list
    [inspect i.threads.length, inspect i.threads.isEmpty, inspect i.threads.length, inspect found]

/-- The roots, materialized objects apart. With several threads attached the order says nothing. -/
def surveyRoots (i : Isolate) : Datum :=
  let entries := ((i.visitRoots RootVisitor.collect).run []).2
  let (objects, others) := entries.partition (·.kind == .materializedObjects)
  .list
    [inspect (if i.threads.length ≤ 1 then others else RootEntry.sorted others),
     inspect (RootEntry.sorted objects), inspect entries.length,
     inspect (entries.countP (·.kind == .stack)), inspect entries.isEmpty]

end Isolate

def ActionResult.datum (naming : Naming) : ActionResult → Datum
  | note data => data
  | value v => inspect v
  | optional v => inspect v
  | count n => inspect n
  | requested => .text "requested"
  | done => .null
  | refused e => (Failure.refused e).datum naming

def Event.datum (naming : Naming) : Event → Datum
  | abortAsked pending answer => .list [.text "abort?", inspect pending, inspect answer]
  | deserializing state hasBuiltins s => .list
    [.text "deserialize", inspect state, inspect hasBuiltins,
     inspect (Text.hexBytes (Sha256.digest s.startup)), inspect s.readOnly.length,
     inspect s.shared.length, inspect s.canRehash]
  | message tag m => .list
    [.text "message", tag, inspect m.text, inspect m.exception, inspect m.location,
     inspect m.stack.length]
  | briefMessage tag m => .list [.text "added", tag, inspect m.text]
  | action result => result.datum naming

end ScriptEngine

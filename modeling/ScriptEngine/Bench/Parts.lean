import ScriptEngine.Bench.Basic
import ScriptEngine.Inspect.Failure
import ScriptEngine.Isolate.Guard
import ScriptEngine.Isolate.Subsystems
import ScriptEngine.Memory
import ScriptEngine.Table
import ScriptEngine.SharedSpace
import ScriptEngine.Trace.Printer

namespace ScriptEngine

/-- An allocator, and the reservations that were taken from it. -/
structure PageBench where
  pages : PageAllocator
  held : Table String Reservation := []

inductive PageCommand
  | reserve (name : String) (size : Nat)
  | release (name : String)

namespace PageBench

/-- Budgets from the outermost inwards. -/
def ofLimits (limits : List Nat) : PageBench where
  pages := { budgets := limits.map fun limit => { limit }, next := 0x1000 }

def perform (b : PageBench) : PageCommand → Datum × PageBench
  | .reserve name size =>
    match b.pages.attempt size with
    | (none, pages) => (.null, { b with pages })
    | (some r, pages) => (inspect r.size, ⟨pages, b.held.put name r⟩)
  | .release name =>
    match b.held.lookup name with
    | none => (.text "not held", b)
    | some r => (.null, ⟨b.pages.release r, b.held.remove name⟩)

/-- Also tells the bytes in use. -/
def obey (command : PageCommand) (b : PageBench) : Datum × PageBench :=
  let (result, b) := b.perform command
  (inspect (result, b.pages.used), b)

end PageBench

inductive SpaceCommand
  | attach (client : IsolateId)
  | detach (client : IsolateId)
  | checkNoClients

namespace SharedSpace

/-- A refusal shows without the owner. -/
def perform (s : SharedSpace) : SpaceCommand → Datum × SharedSpace
  | .attach client => (.null, s.attach client)
  | .detach client =>
    let (was, s) := s.detach client
    (inspect was, s)
  | .checkNoClients =>
    match s.checkNoClients with
    | .ok () => (.null, s)
    | .error e =>
      let message := ((e.message {}).splitOn " torn").getLastD ""
      (inspect ((Failure.fatal e).kind, message), s)

/-- Also tells clients and owner. -/
def obey (command : SpaceCommand) (s : SharedSpace) : Datum × SharedSpace :=
  let (result, s) := s.perform command
  (.list [result, inspect s.clients, inspect s.clients.length, inspect s.owner], s)

end SharedSpace

inductive GuardCommand
  | request
  | clear
  | check
  | take

namespace StackGuard

def perform (g : StackGuard) (flag : InterruptFlag) : GuardCommand → Datum × StackGuard
  | .request => (.null, g.request flag)
  | .clear => (.null, g.clear flag)
  | .check => (inspect (g.check flag), g)
  | .take =>
    let (was, g) := g.take flag
    (inspect was, g)

/-- Also tells whether any flag is set. -/
def obey (command : GuardCommand × InterruptFlag) (g : StackGuard) : Datum × StackGuard :=
  let (result, g) := g.perform command.2 command.1
  (inspect (result, g.hasPending), g)

end StackGuard

inductive QueueCommand
  | queue (job : CompileJob)
  | stop
  | isRunning

def CompileQueue.obey (command : QueueCommand) (q : CompileQueue) : Datum × CompileQueue :=
  match command with
  | .queue job =>
    let (taken, q) := q.queue job
    (inspect taken, q)
  | .stop => (inspect (q.stop.completed, q.stop.reports), q.stop)
  | .isRunning => (inspect q.isRunning, q)

def Rendering.text : Except RenderFailure String → Datum
  | .ok text => .text text
  | .error .line => .failure "panic" "line source failed"
  | .error (.fatal e) => (Failure.fatal e).datum {}

/-- What lines asked for is lost if one of them fails. -/
def Printer.obey (lines : List TraceLine) (p : Printer) : Datum × Printer :=
  let r := p.render lines
  let nested :=
    if r.result.isOk then r.nested.map fun n => (n.level, Rendering.text n.result) else []
  (.record
    [("text", Rendering.text r.result), ("nested", inspect nested),
     ("level", inspect r.printer.level)],
    r.printer)

end ScriptEngine

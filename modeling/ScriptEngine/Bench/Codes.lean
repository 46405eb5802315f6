import ScriptEngine.Bench.Basic
import ScriptEngine.Code.Registry
import ScriptEngine.Table

namespace ScriptEngine

/-- A code registry by itself. Code goes by labels, and addresses can count from the last code
range. -/
structure CodeBench where
  registry : CodeRegistry := {}
  pages : PageAllocator := { next := 0x550000000000 }
  /-- Where the last code range starts. -/
  base : Address := 0
  /-- The code range that was taken last. -/
  aside : Option CodeRange := none
  labels : Table String Nat := []

/-- An address, or a distance from the base. -/
inductive CodePlace
  | absolute (a : Address)
  | relative (distance : Int)

inductive CodeCommand
  /-- Reserves a code range, and asks it about some offsets. -/
  | range (size : Nat) (offsets : List Int)
  | takeRange
  | restoreRange
  | dropRange
  | install (label : String) (d : CodeDescription)
  | insert (label : String) (d : CodeDescription) (start : CodePlace)
  | remove (start : CodePlace)
  | lookup (pcs : List CodePlace)
  | clear

namespace CodeBench

def address (b : CodeBench) : CodePlace → Address
  | .absolute a => a
  | .relative distance => (b.base + distance).toNat

/-- Code without a label shows as a question mark. -/
def label (b : CodeBench) (c : Code) : String := (b.labels.firstName? (· == c.number)).getD "?"

def give (b : CodeBench) (label : String) (c : Code) (registry : CodeRegistry) : CodeBench :=
  { b with registry := registry, labels := b.labels.put label c.number }

def perform (b : CodeBench) (command : CodeCommand) : Datum × CodeBench :=
  match command with
  | .range size offsets =>
    match b.pages.reserve size with
    | none => (.null, b)
    | some (reservation, pages) =>
      let range : CodeRange := { reservation }
      let holds := offsets.map fun offset => range.contains ((range.base : Int) + offset).toNat
      (inspect (range.size, holds),
        { b with pages := pages, base := range.base, registry := b.registry.setRange range })
  | .takeRange =>
    let (range, registry) := b.registry.takeRange
    (inspect (range.map (·.size)), { b with registry := registry, aside := range })
  | .restoreRange =>
    match b.aside with
    | none => (.bool false, b)
    | some range => (.bool true, { b with registry := b.registry.setRange range, aside := none })
  | .dropRange => (inspect (b.aside.map (·.size)), { b with aside := none })
  | .install label d =>
    match b.registry.install d with
    | (none, registry) => (.null, { b with registry := registry })
    | (some c, registry) => (.int ((c.start : Int) - b.base), b.give label c registry)
  | .insert label d start =>
    let (c, registry) := b.registry.insertAt d (b.address start)
    (.null, b.give label c registry)
  | .remove start =>
    let (c, registry) := b.registry.remove (b.address start)
    (inspect (c.map b.label), { b with registry := registry })
  | .lookup pcs => (inspect (pcs.map fun pc => (b.registry.lookup (b.address pc)).map b.label), b)
  | .clear => (.null, { b with registry := b.registry.clear })

/-- Also tells the size of the registry, and whether it has a code range. -/
def obey (command : CodeCommand) (b : CodeBench) : Datum × CodeBench :=
  let (result, b) := b.perform command
  (.list [result, inspect b.registry.size, inspect (b.registry.size == 0),
    inspect b.registry.range.isSome], b)

end CodeBench

end ScriptEngine

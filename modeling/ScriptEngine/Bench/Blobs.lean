import ScriptEngine.Bench.Basic
import ScriptEngine.Inspect.Blob
import ScriptEngine.Platform

namespace ScriptEngine

/-- A registry of blobs by itself, and the handles that were taken from it. -/
structure BlobBench where
  registry : BlobRegistry
  held : Table String BlobHandle := []

/-- Handles are named. -/
inductive BlobCommand
  | acquire (name : String)
  /-- Another handle may count as held before. -/
  | create (name : String) (held : Option String)
  | foreign (name : String)
  /-- A handle that is kept can be released again. -/
  | release (name : String) (keep : Bool)
  | setCurrent (name : String)
  | disableCounting
  | freeCurrent
  | clearCurrent
  | same (name other : String)

namespace BlobBench

def create (hasDefault : Bool) : BlobBench where
  registry :=
    { default := if hasDefault then some Blob.ofBinary else none
      nextAddress := Platform.blobsBase }

/-- A handle of a registry that has nothing to do with this one. -/
def foreign : BlobHandle := .shared (Blob.create.place 0x7e0000000000)

/-- Runs an action of the registry, and does the rest if it succeeds. -/
def attempt {α : Type} [Inspect α] (b : BlobBench) (act : Action BlobRegistry α)
    (rest : α → BlobBench → BlobBench) : Except Failure Datum × BlobBench :=
  match act.outcome b.registry with
  | (.ok a, r) => (.ok (inspect a), rest a { b with registry := r })
  | (.error e, r) => (.error e, { b with registry := r })

def hold (b : BlobBench) (name : String) (h : BlobHandle) : BlobBench :=
  { b with held := b.held.put name h }

def forget (b : BlobBench) (name : String) : BlobBench := { b with held := b.held.remove name }

def noHandle : Datum := .text "no handle"

def perform (b : BlobBench) (command : BlobCommand) : Except Failure Datum × BlobBench :=
  let change (f : BlobRegistry → BlobRegistry) : Except Failure Datum × BlobBench :=
    (.ok .null, { b with registry := f b.registry })
  match command with
  | .acquire name =>
    let (handle, r) := b.registry.acquire
    let b := { b with registry := r }
    (.ok (inspect handle), (handle.map (b.hold name)).getD (b.forget name))
  | .create name held =>
    b.attempt (BlobRegistry.createAndSet (held.bind (b.held.lookup ·))) fun h b => b.hold name h
  | .foreign name => (.ok .null, b.hold name foreign)
  | .release name keep =>
    match b.held.lookup name with
    | none => (.ok noHandle, b)
    | some handle =>
      let b := if keep then b else b.forget name
      b.attempt (BlobRegistry.release handle) fun () b => b
  | .setCurrent name =>
    match b.held.lookup name with
    | none => (.ok noHandle, b)
    | some handle => change (·.setCurrent handle.placed)
  | .disableCounting => change (·.disableCounting)
  | .freeCurrent => b.attempt BlobRegistry.freeCurrent fun () b => b
  | .clearCurrent => change (·.clearCurrent)
  | .same name other =>
    let codeOf (name : String) : Option Address :=
      (b.held.lookup name).map (·.placed.codeAddress)
    (.ok (.bool (codeOf name == codeOf other)), b)

/-- A command that succeeds also shows the registry. -/
def obey (command : BlobCommand) (b : BlobBench) : Datum × BlobBench :=
  match b.perform command with
  | (.ok d, b) => (b.registry.survey b.held d, b)
  | (.error e, b) => (e.datum {}, b)

end BlobBench

end ScriptEngine

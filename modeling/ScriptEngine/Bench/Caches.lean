import ScriptEngine.Bench.Basic
import ScriptEngine.Inspect.Failure
import ScriptEngine.Inspect.Heap
import ScriptEngine.Isolate.Materialized
import ScriptEngine.Isolate.Subsystems

namespace ScriptEngine

/-- The subsystems of an isolate by themselves, and a store of materialized objects. -/
structure CacheBench where
  parts : Subsystems := {}
  objects : MaterializedObjects := []
  /-- How many time zone offsets were computed. -/
  computed : Nat := 0

inductive CacheCommand
  | createCore
  | clearCaches
  | dropHandles
  | live
  | materialize (fp : Address) (objects : List Value)
  | materialized (fp : Address)
  | unmaterialize (fp : Address)
  | clearMaterialized
  | materializedRoots
  | cacheFunction (a b : Nat) (name : String)
  | cachedFunction (a b : Nat)
  | clearFunctions
  | setStub (a b : Nat) (address : Address)
  | stub (a b : Nat)
  | clearStubs
  /-- The offset for a time, and what a computation of it gives. -/
  | date (time offset : Int)
  | resetDates
  | ensureCapacity (size : Nat)
  | resetRegExps
  | createHandle (v : Value)
  | readHandle (handle : Nat)
  | destroyHandle (handle : Nat)
  | countHandles
  | handleRoots

namespace CacheBench

/-- What a command on a subsystem that is not there gives. -/
def absent (b : CacheBench) : Datum × CacheBench := (.failure "absent" "", b)

/-- Runs a command on a subsystem. -/
def on {α : Type} (b : CacheBench) (part : Option α) (put : Option α → Subsystems)
    (f : α → Datum × α) : Datum × CacheBench :=
  match part with
  | none => b.absent
  | some a =>
    let (d, a) := f a
    (d, { b with parts := put (some a) })

def onFunctions (b : CacheBench) :=
  b.on b.parts.compilationCache fun c => { b.parts with compilationCache := c }

def onStubs (b : CacheBench) := b.on b.parts.stubCache fun c => { b.parts with stubCache := c }

def onDates (b : CacheBench) := b.on b.parts.dateCache fun c => { b.parts with dateCache := c }

def onRegExps (b : CacheBench) :=
  b.on b.parts.regExpStack fun c => { b.parts with regExpStack := c }

def onHandles (b : CacheBench) :=
  b.on b.parts.globalHandles fun c => { b.parts with globalHandles := c }

def roots {α : Type} (visit : StateM (List RootEntry) α) : List RootEntry := (visit.run []).2

def obey (command : CacheCommand) (b : CacheBench) : Datum × CacheBench :=
  let m := b.objects
  let shown (fp : Address) : Option String := (m.lookup fp).map Value.taggedList
  match command with
  | .createCore => (.null, { b with parts := b.parts.createCore })
  | .clearCaches => (.null, { b with parts := b.parts.clearCaches })
  | .dropHandles =>
    (inspect b.parts.globalHandles.isSome,
      { b with parts := { b.parts with globalHandles := none } })
  | .live => (inspect b.parts.live, b)
  | .materialize fp objects => (.null, { b with objects := m.put fp objects })
  | .materialized fp => (.list [inspect (shown fp), inspect m.length, inspect m.isEmpty], b)
  | .unmaterialize fp =>
    (inspect (shown fp, (m.remove fp).length), { b with objects := m.remove fp })
  | .clearMaterialized => (.null, { b with objects := [] })
  | .materializedRoots =>
    let entries := RootEntry.sorted (roots (m.visitRoots RootVisitor.collect))
    (.list
      [inspect (entries.map (·.value)), inspect entries.length, inspect entries.isEmpty], b)
  | .cacheFunction x y name =>
    b.onFunctions fun c => (.null, c.put (x, y) { name, bytecode := ⟨0, 0, {}, {}⟩ })
  | .cachedFunction x y => b.onFunctions fun c =>
    (.list [inspect ((c.lookup (x, y)).map (·.name)), inspect c.length, inspect c.isEmpty], c)
  | .clearFunctions => b.onFunctions fun _ => (.null, [])
  | .setStub x y address => b.onStubs fun c => (.null, c.put (x, y) address)
  | .stub x y => b.onStubs fun c => (inspect (c.lookup (x, y)), c)
  | .clearStubs => b.onStubs fun _ => (.null, [])
  | .date time offset =>
    match b.parts.dateCache with
    | none => b.absent
    | some c =>
      let (found, isNew, c) := c.offsetFor time fun _ => offset
      let computed := b.computed + isNew.toNat
      (.list [inspect found, inspect computed, inspect c.stamp],
        { b with computed := computed, parts := { b.parts with dateCache := some c } })
  | .resetDates => b.onDates fun c => (inspect c.reset.stamp, c.reset)
  | .ensureCapacity size => b.onRegExps fun c =>
    let (done, c) := c.ensureCapacity size
    (inspect (done, c.size), c)
  | .resetRegExps => b.onRegExps fun c =>
    (inspect (c.reset.size, ({} : RegExpStack).size), c.reset)
  | .createHandle v => b.onHandles fun c =>
    let (handle, c) := c.create v
    (inspect handle, c)
  | .readHandle handle => b.onHandles fun c => (inspect (c.get? handle), c)
  | .destroyHandle handle => b.onHandles fun c =>
    let (v, c) := c.destroy handle
    (inspect v, c)
  | .countHandles => b.onHandles fun c => (inspect (c.size, c.size == 0), c)
  | .handleRoots => b.onHandles fun c =>
    (inspect (roots (c.visitRoots RootVisitor.collect)), c)

end CacheBench

end ScriptEngine

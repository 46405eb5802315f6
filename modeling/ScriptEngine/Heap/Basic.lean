import ScriptEngine.Heap.Object

namespace ScriptEngine

/-- Objects by number, read through one accessor for each type. -/
structure Heap where
  objects : Array HeapObject := #[]

namespace Heap

def size (h : Heap) : Nat := h.objects.size

/-- The object gets the next number. -/
def allocate (h : Heap) (o : HeapObject) : Value × Heap :=
  (.object (UInt32.ofNat h.size), { objects := h.objects.push o })

def object? (h : Heap) (v : Value) : Option HeapObject :=
  v.objectId?.bind fun id => h.objects[id.toNat]?

/-- Changes the object that a value refers to, if there is one. -/
def modify (h : Heap) (v : Value) (f : HeapObject → HeapObject) : Heap :=
  match v.objectId? with
  | none => h
  | some id => { objects := h.objects.modify id.toNat f }

def string? (h : Heap) (v : Value) : Option String :=
  match h.object? v with
  | some (.string s) => some s
  | _ => none

def error? (h : Heap) (v : Value) : Option ErrorObject :=
  match h.object? v with
  | some (.error e) => some e
  | _ => none

def function? (h : Heap) (v : Value) : Option Function :=
  match h.object? v with
  | some (.function f) => some f
  | _ => none

def context? (h : Heap) (v : Value) : Option Context :=
  match h.object? v with
  | some (.context c) => some c
  | _ => none

def promise? (h : Heap) (v : Value) : Option Promise :=
  match h.object? v with
  | some (.promise p) => some p
  | _ => none

def capability? (h : Heap) (v : Value) : Option Capability :=
  match h.object? v with
  | some (.capability c) => some c
  | _ => none

def generator? (h : Heap) (v : Value) : Option Generator :=
  match h.object? v with
  | some (.generator g) => some g
  | _ => none

def reactionJob? (h : Heap) (v : Value) : Option ReactionJob :=
  match h.object? v with
  | some (.reactionJob j) => some j
  | _ => none

def message? (h : Heap) (v : Value) : Option Message :=
  match h.object? v with
  | some (.message m) => some m
  | _ => none

def modifyPromise (h : Heap) (v : Value) (f : Promise → Promise) : Heap :=
  h.modify v fun
    | .promise p => .promise (f p)
    | o => o

def modifyFunction (h : Heap) (v : Value) (f : Function → Function) : Heap :=
  h.modify v fun
    | .function g => .function (f g)
    | o => o

def modifyGenerator (h : Heap) (v : Value) (f : Generator → Generator) : Heap :=
  h.modify v fun
    | .generator g => .generator (f g)
    | o => o

def newString (h : Heap) (s : String) : Value × Heap := h.allocate (.string s)

def newError (h : Heap) (name message : String) (stack : Option (List CallSite)) : Value × Heap :=
  h.allocate (.error ⟨name, message, stack⟩)

def newPromise (h : Heap) : Value × Heap := h.allocate (.promise {})

/-- The text of a value in messages. -/
def describe (h : Heap) (v : Value) : String :=
  match h.object? v, v with
  | some (.error e), _ => if e.message.isEmpty then e.name else s!"{e.name}: {e.message}"
  | some (.string s), _ => s
  | some o, _ => s!"[object {o.typeName}]"
  | none, .smi n => toString n.toInt
  | none, .bool b => toString b
  | none, .undefined => "undefined"
  | none, .null => "null"
  | none, v => v.tagged

end Heap

end ScriptEngine

import ScriptEngine.Value
import ScriptEngine.Code.Builtin
import ScriptEngine.Code.Function

namespace ScriptEngine

abbrev Address := Nat

inductive CodeKind
  | builtin
  /-- Generated from bytecode without optimization. -/
  | baseline
  | maglev
  | turbofan
  /-- Written by hand and no builtin. -/
  | stub
  deriving DecidableEq

/-- Code that speculates and may have to be given up. -/
def CodeKind.isOptimized : CodeKind → Bool
  | maglev | turbofan => true
  | _ => false

/-- A function activation inlined into optimized code. -/
structure TranslatedFrame where
  function : Value
  receiver : Value
  bytecodeOffset : Nat
  isConstructor : Bool
  deriving DecidableEq

/-- The activations at one return offset, outermost first. -/
structure DeoptPoint where
  pcOffset : Nat
  frames : List TranslatedFrame
  deriving DecidableEq

/-- What describes machine code before it has an address. -/
structure CodeDescription where
  kind : CodeKind
  size : Nat
  builtin : Option Builtin := none
  stackSlots : Nat := 0
  handlers : HandlerTable := {}
  isTurbofanned : Bool := kind == .turbofan
  prediction : HandlerPrediction := .uncaught
  /-- By offset. -/
  deoptPoints : List DeoptPoint := []
  /-- Baseline code: bytecode offsets with their offsets in the code. -/
  pcMap : List (Nat × Nat) := []
  function : Option FunctionInfo := none

/-- Inserts before the points of equal or greater offset. -/
def CodeDescription.addDeoptPoint (d : CodeDescription) (p : DeoptPoint) : CodeDescription :=
  { d with deoptPoints := BinarySearch.insertAfter (·.pcOffset < p.pcOffset) d.deoptPoints p }

def Builtin.description (b : Builtin) : CodeDescription where
  kind := .builtin
  size := b.size
  builtin := some b
  handlers := b.handlers
  isTurbofanned := b.isTurbofanned
  prediction := b.prediction

/-- Code at an address. Its number tells it apart from other code of the same description. -/
structure Code where
  number : Nat
  start : Address
  description : CodeDescription

namespace Code

def kind (c : Code) : CodeKind := c.description.kind
def builtin (c : Code) : Option Builtin := c.description.builtin
def size (c : Code) : Nat := c.description.size
def stackSlots (c : Code) : Nat := c.description.stackSlots
def handlers (c : Code) : HandlerTable := c.description.handlers
def isTurbofanned (c : Code) : Bool := c.description.isTurbofanned
def prediction (c : Code) : HandlerPrediction := c.description.prediction
def isBuiltin (c : Code) : Bool := c.kind == .builtin

/-- The first address after the instructions, where the constant pool starts. -/
def stop (c : Code) : Address := c.start + c.size

def constantPool (c : Code) : Address := c.stop

def contains (c : Code) (pc : Address) : Bool := c.start ≤ pc && pc < c.stop

/-- Offsets are 32 bits wide; an address before the code has offset zero. -/
def pcOffset (c : Code) (pc : Address) : Nat := (pc - c.start) % 4294967296

/-- The last point at or before the offset; of points at one offset, the last in the list. -/
def deoptPoint (c : Code) (pcOffset : Nat) : Option DeoptPoint :=
  BinarySearch.last? (·.pcOffset ≤ pcOffset) c.description.deoptPoints

/-- The address of the first entry for a bytecode offset. -/
def pcForBytecodeOffset (c : Code) (bytecodeOffset : Nat) : Option Address :=
  (c.description.pcMap.find? (·.1 == bytecodeOffset)).map (c.start + ·.2)

/-- Of two mapped offsets, the later entry wins unless its code offset is smaller. -/
def laterEntry (best : Option (Nat × Nat)) (entry : Nat × Nat) : Option (Nat × Nat) :=
  match best with
  | none => some entry
  | some b => if b.2 ≤ entry.2 then some entry else some b

/-- The bytecode offset mapped to the greatest code offset at or before the address. -/
def bytecodeOffsetForPc (c : Code) (pc : Address) : Option Nat :=
  ((c.description.pcMap.filter (·.2 ≤ c.pcOffset pc)).foldl laterEntry none).map (·.1)

/-- A builtin from the optimizing compiler with a handler table: the only code that catches
while a stub frame runs it. -/
def catchesInStub (c : Code) : Bool :=
  c.isBuiltin && c.isTurbofanned && !c.handlers.isEmpty

end Code

end ScriptEngine

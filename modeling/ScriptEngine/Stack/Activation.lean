import ScriptEngine.Heap.Basic
import ScriptEngine.Stack.View

namespace ScriptEngine

inductive ActiveCode
  | bytecode (b : Bytecode)
  | code (c : Code)

namespace ActiveCode

def isBuiltin : ActiveCode → Bool
  | bytecode _ => false
  | code c => c.isBuiltin

def sourcePosition (offset : Nat) : ActiveCode → Option Nat
  | bytecode b => b.positions.lookup offset
  | code _ => none

end ActiveCode

/-- A function activation that a frame stands for. An optimized frame has one for each inlined
function. -/
structure Activation where
  receiver : Value
  function : Value
  code : ActiveCode
  /-- A bytecode offset; for builtins an offset in their instructions. -/
  offset : Nat
  isConstructor : Bool

namespace Activation

def sourcePosition (a : Activation) : Option Nat := a.code.sourcePosition a.offset

/-- The function's own bytecode, if the value is a function. -/
def ofFunction (heap : Heap) (function receiver : Value) (offset : Nat) (isConstructor : Bool) :
    Option Activation :=
  (heap.function? function).map fun f =>
    ⟨receiver, function, .bytecode f.info.bytecode, offset, isConstructor⟩

/-- Activations of translated frames. The first one has the receiver of the frame itself. -/
def ofTranslated (heap : Heap) (receiver : Value) : List TranslatedFrame → List Activation
  | [] => []
  | outer :: inlined =>
    (ofFunction heap outer.function receiver outer.bytecodeOffset outer.isConstructor).toList ++
      inlined.filterMap fun t =>
        ofFunction heap t.function t.receiver t.bytecodeOffset t.isConstructor

end Activation

namespace Frame

/-- An interpreted or baseline frame runs its own bytecode, or else its function's. -/
def unoptimizedActivation (f : Frame) (heap : Heap) : Option Activation :=
  let bytecode := f.raw.bytecode.or ((heap.function? f.raw.function).map (·.info.bytecode))
  bytecode.map fun b =>
    ⟨f.raw.receiver, f.raw.function, .bytecode b, f.bytecodeOffset, f.raw.isConstructor⟩

/-- Without a deopt point an optimized frame stands for its function at offset zero. -/
def optimizedActivations (f : Frame) (heap : Heap) : List Activation :=
  match f.code.bind (·.deoptPoint f.pcOffset) with
  | some point => Activation.ofTranslated heap f.raw.receiver point.frames
  | none =>
    (Activation.ofFunction heap f.raw.function f.raw.receiver 0 f.raw.isConstructor).toList

def builtinActivation (f : Frame) : Option Activation :=
  f.code.map fun c =>
    ⟨f.raw.receiver, f.raw.function, .code c, f.pcOffset, f.raw.isConstructor⟩

/-- The activations of a frame, outermost first. -/
def activations (f : Frame) (heap : Heap) : List Activation :=
  match f.kind with
  | .interpreted | .baseline => (f.unoptimizedActivation heap).toList
  | .optimized => f.optimizedActivations heap
  | .builtin => f.builtinActivation.toList
  | _ => []

end Frame

end ScriptEngine

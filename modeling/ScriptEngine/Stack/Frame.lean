import ScriptEngine.Code.Basic

namespace ScriptEngine

def wordSize : Nat := 8

/-- The saved frame pointer and the return address are above the frame pointer. -/
def fixedSizeAboveFp : Nat := 2 * wordSize

/-- Context, function, bytecode and bytecode offset of interpreter frames are below it. -/
def interpreterFixedSize : Nat := 4 * wordSize

/-- Size of the record that an entry frame installs. -/
def stackHandlerSize : Nat := 2 * wordSize

/-- How a frame was pushed. -/
inductive FrameMarker
  | entry
  | constructEntry
  /-- Managed code calls the engine. -/
  | exit
  /-- Managed code; the code at the pc says more. -/
  | managed
  | stub
  /-- The continuation of a builtin that catches exceptions. -/
  | continuationWithCatch
  /-- Embedder code. -/
  | native
  deriving DecidableEq

def FrameMarker.isEntry : FrameMarker → Bool
  | entry | constructEntry => true
  | _ => false

/-- A frame as it lies on the stack, which grows down. -/
structure RawFrame where
  marker : FrameMarker
  fp : Address := 0
  sp : Address := 0
  pc : Address
  /-- The stack pointer to go back to on return. -/
  callerSp : Address := 0
  function : Value := .undefined
  receiver : Value := .undefined
  context : Value := .undefined
  registers : List Value := []
  bytecode : Option Bytecode := none
  bytecodeOffset : Nat := 0
  /-- The index of the handler that an entry frame installed. -/
  handler : Option Nat := none
  /-- Where a continuation frame gets a caught exception. -/
  exception : Value := .hole
  isConstructor : Bool := false
  /-- Words between fp and sp. -/
  slots : Nat

/-- A frame to push. The slots of optimized code count from above the fixed part. -/
structure FrameSpec where
  frame : RawFrame
  isOptimized : Bool := false

namespace FrameSpec

def entrySlots : Nat := 6
def exitSlots : Nat := 2
def typedSlots : Nat := 4

/-- Where interpreter frames stand in the code of the interpreter. -/
def interpreterReturnOffset : Nat := 16

/-- Where continuation frames stand in their code. -/
def continuationReturnOffset : Nat := 8

def entry (code : Code) : FrameSpec :=
  ⟨{ marker := .entry, pc := code.start, slots := entrySlots }, false⟩

def constructEntry (code : Code) : FrameSpec :=
  ⟨{ marker := .constructEntry, pc := code.start, slots := entrySlots }, false⟩

def exit (code : Code) : FrameSpec :=
  ⟨{ marker := .exit, pc := code.start, slots := exitSlots }, false⟩

/-- A frame with a register file of undefined values. -/
def unoptimized (pc : Address) (function : Value) (bytecode : Bytecode) (offset : Nat) :
    FrameSpec :=
  ⟨{ marker := .managed
     pc := pc
     function := function
     registers := List.replicate bytecode.registerCount .undefined
     bytecode := some bytecode
     bytecodeOffset := offset
     slots := interpreterFixedSize / wordSize + bytecode.registerCount }, false⟩

def interpreted (code : Code) (function : Value) (bytecode : Bytecode) (offset : Nat) : FrameSpec :=
  unoptimized (code.start + interpreterReturnOffset) function bytecode offset

/-- Stands at the code for the bytecode offset, or at the start if there is none. -/
def baseline (code : Code) (function : Value) (bytecode : Bytecode) (offset : Nat) : FrameSpec :=
  unoptimized ((code.pcForBytecodeOffset offset).getD code.start) function bytecode offset

def optimized (code : Code) (function : Value) (pcOffset : Nat) : FrameSpec :=
  ⟨{ marker := .managed
     pc := code.start + pcOffset
     function := function
     slots := max code.stackSlots (fixedSizeAboveFp / wordSize) }, true⟩

def builtin (code : Code) (function : Value) (pcOffset : Nat) : FrameSpec :=
  ⟨{ marker := .managed, pc := code.start + pcOffset, function := function, slots := typedSlots },
    false⟩

def stub (code : Code) (pcOffset : Nat) : FrameSpec :=
  ⟨{ marker := .stub, pc := code.start + pcOffset, slots := typedSlots }, false⟩

def continuationWithCatch (code : Code) : FrameSpec :=
  ⟨{ marker := .continuationWithCatch
     pc := code.start + continuationReturnOffset
     slots := typedSlots }, false⟩

def native (pc : Address) : FrameSpec :=
  ⟨{ marker := .native, pc := pc, slots := typedSlots }, false⟩

def withReceiver (s : FrameSpec) (v : Value) : FrameSpec :=
  { s with frame := { s.frame with receiver := v } }

def withContext (s : FrameSpec) (v : Value) : FrameSpec :=
  { s with frame := { s.frame with context := v } }

/-- Extends the register file with undefined values as far as needed. -/
def withRegister (s : FrameSpec) (i : Nat) (v : Value) : FrameSpec :=
  let registers := s.frame.registers ++ List.replicate (i + 1 - s.frame.registers.length) .undefined
  { s with frame := { s.frame with registers := registers.set i v } }

def asConstructor (s : FrameSpec) : FrameSpec :=
  { s with frame := { s.frame with isConstructor := true } }

end FrameSpec

end ScriptEngine

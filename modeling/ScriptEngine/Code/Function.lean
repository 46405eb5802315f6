import ScriptEngine.Script
import ScriptEngine.Code.HandlerTable
import ScriptEngine.Code.Positions

namespace ScriptEngine

structure Bytecode where
  length : Nat
  registerCount : Nat
  handlers : HandlerTable := {}
  positions : SourcePositions := {}

/-- Where a function came from; traces show user functions only. -/
inductive FunctionOrigin
  | user
  /-- Internal code written in the managed language. -/
  | native
  /-- Exposed by the embedder. -/
  | api
  | builtin
  deriving DecidableEq

/-- What every closure of one source function shares. -/
structure FunctionInfo where
  name : String
  bytecode : Bytecode
  origin : FunctionOrigin := .user
  isStrict : Bool := false
  script : Option Script := none
  /-- Position of the function itself, for use where no offset is known. -/
  startPosition : Nat := 0

def FunctionInfo.isUserCode (f : FunctionInfo) : Bool :=
  f.origin == .user && f.script.isSome

end ScriptEngine

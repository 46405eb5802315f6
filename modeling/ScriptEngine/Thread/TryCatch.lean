import ScriptEngine.Failure
import ScriptEngine.Value

namespace ScriptEngine

/-- A scope of the embedder that catches exceptions on their way out of managed code. -/
structure TryCatch where
  id : TryCatchId
  address : Address := 0
  /-- Caught exceptions are reported to listeners all the same. -/
  isVerbose : Bool := false
  /-- Caught exceptions get a message. -/
  capturesMessage : Bool := true
  exception : Option Value := none
  message : Option Value := none
  /-- False once a termination got here. -/
  canContinue : Bool := true
  hasTerminated : Bool := false
  /-- The embedder wants the exception thrown again when the scope ends. -/
  rethrow : Bool := false

namespace TryCatch

/-- Stack space of a scope. -/
def size : Nat := 64

def hasCaught (t : TryCatch) : Bool := t.exception.isSome

/-- A throw with this scope on top makes a message. -/
def wantsMessage (t : TryCatch) : Bool := t.isVerbose || t.capturesMessage

/-- Forgets what was caught. -/
def reset (t : TryCatch) : TryCatch :=
  { t with exception := none, message := none, rethrow := false }

/-- Takes an exception, and the message if there is one. -/
def catchException (t : TryCatch) (exception : Value) (message : Option Value) : TryCatch :=
  { t with
    canContinue := true
    hasTerminated := false
    exception := some exception
    message := message.or t.message }

def terminate (t : TryCatch) : TryCatch :=
  { t with canContinue := false, hasTerminated := true, exception := some .termination }

/-- Undoes a termination that got here. -/
def cancelTermination (t : TryCatch) : TryCatch :=
  if t.hasTerminated then { t with hasTerminated := false, canContinue := true } else t

end TryCatch

end ScriptEngine

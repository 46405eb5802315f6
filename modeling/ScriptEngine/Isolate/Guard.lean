namespace ScriptEngine

inductive InterruptFlag
  | terminate
  /-- Callbacks of the embedder are waiting. -/
  | api
  deriving DecidableEq

/-- Flags that other threads set to interrupt an execution. -/
structure StackGuard where
  terminate : Bool := false
  api : Bool := false
  deriving DecidableEq

namespace StackGuard

def check (g : StackGuard) : InterruptFlag → Bool
  | .terminate => g.terminate
  | .api => g.api

def set (g : StackGuard) (flag : InterruptFlag) (on : Bool) : StackGuard :=
  match flag with
  | .terminate => { g with terminate := on }
  | .api => { g with api := on }

def request (g : StackGuard) (flag : InterruptFlag) : StackGuard := g.set flag true

def clear (g : StackGuard) (flag : InterruptFlag) : StackGuard := g.set flag false

/-- Clears a flag, and tells whether it was set. -/
def take (g : StackGuard) (flag : InterruptFlag) : Bool × StackGuard := (g.check flag, g.clear flag)

def hasPending (g : StackGuard) : Bool := g.terminate || g.api

end StackGuard

end ScriptEngine

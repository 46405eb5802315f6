import ScriptEngine.Heap.Basic

namespace ScriptEngine

/-- The set a root slot belongs to. -/
inductive RootKind
  | threadState
  | externalTryCatch
  | stack
  | promiseStack
  | globalHandles
  | materializedObjects
  deriving DecidableEq

structure RootEntry where
  kind : RootKind
  description : String
  value : Value
  deriving DecidableEq

/-- Reads a slot and gives its new content. -/
abbrev RootVisitor (m : Type → Type) := RootKind → String → Value → m Value

namespace RootVisitor

variable {m : Type → Type} [Monad m]

def option (visit : RootVisitor m) (kind : RootKind) (description : String) :
    Option Value → m (Option Value)
  | none => pure none
  | some v => some <$> visit kind description v

def list (visit : RootVisitor m) (kind : RootKind) (description : String) :
    List Value → m (List Value) :=
  List.mapM (visit kind description)

/-- Lists the references that it sees, and changes nothing. -/
def collect : RootVisitor (StateM (List RootEntry)) := fun kind description v => do
  if v.isObject then modify (· ++ [⟨kind, description, v⟩])
  return v

/-- Moves every reference, and counts the slots that hold one. -/
def relocate (move : ObjectId → ObjectId) : RootVisitor (StateM Nat) := fun _ _ v =>
  match v with
  | .object id => do
    modify (· + 1)
    return .object (move id)
  | v => return v

end RootVisitor

end ScriptEngine

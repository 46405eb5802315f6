namespace ScriptEngine

/-- Heap objects are numbered in the order of their allocation. -/
abbrev ObjectId := UInt32

/-- A value of managed code. Exceptions, receivers and register contents are all values. -/
inductive Value
  | undefined
  | null
  /-- Marks an empty slot. -/
  | hole
  /-- The exception that ends an execution; managed code cannot catch it. -/
  | termination
  /-- What a throwing operation returns once its exception is pending. -/
  | raised
  | bool (b : Bool)
  | smi (n : Int32)
  | object (id : ObjectId)
  deriving DecidableEq

namespace Value

instance : Inhabited Value := ⟨undefined⟩

def isUndefined : Value → Bool
  | undefined => true
  | _ => false

def isObject : Value → Bool
  | object _ => true
  | _ => false

/-- Only the termination exception passes every managed handler. -/
def isCatchable : Value → Bool
  | termination => false
  | _ => true

def objectId? : Value → Option ObjectId
  | object id => some id
  | _ => none

/-- The tag of a value and, where it has one, its payload. -/
def tagged : Value → String
  | undefined => "Undefined"
  | null => "Null"
  | hole => "TheHole"
  | termination => "TerminationException"
  | raised => "Exception"
  | bool b => s!"Bool({b})"
  | smi n => s!"Smi({n.toInt})"
  | object id => s!"Object({id.toNat})"

/-- The values of a list as one bracketed text. -/
def taggedList (values : List Value) : String :=
  "[" ++ ", ".intercalate (values.map tagged) ++ "]"

end Value

end ScriptEngine

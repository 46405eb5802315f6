import ScriptEngine.Value

namespace ScriptEngine

/-- A machine word that holds a value. -/
structure Word where
  bits : UInt64
  deriving DecidableEq

namespace Word

def objectTag : UInt64 := 0
def smiTag : UInt64 := 1
def boolTag : UInt64 := 2
def singletonTag : UInt64 := 6

/-- Singleton `k` has the number `k` above its tag. -/
def singleton (k : UInt64) : Word := ⟨k * 8 + singletonTag⟩

def payload (n : UInt32) (tag : UInt64) : Word := ⟨n.toUInt64 * 4294967296 + tag⟩

def undefined : Word := singleton 0
def null : Word := singleton 1
def hole : Word := singleton 2
def termination : Word := singleton 3
def raised : Word := singleton 4
def bool (b : Bool) : Word := ⟨b.toUInt64 * 8 + boolTag⟩
def smi (n : Int32) : Word := payload n.toUInt32 smiTag
def object (id : ObjectId) : Word := payload id objectTag

def tag (w : Word) : UInt64 := w.bits % 8

/-- The upper half of the word. -/
def upper (w : Word) : UInt32 := (w.bits / 4294967296).toUInt32

def isUndefined (w : Word) : Bool := w == undefined
def isNull (w : Word) : Bool := w == null
def isHole (w : Word) : Bool := w == hole
def isTermination (w : Word) : Bool := w == termination
def isRaised (w : Word) : Bool := w == raised
def isBool (w : Word) : Bool := w.tag == boolTag
def isSmi (w : Word) : Bool := w.tag == smiTag
def isObject (w : Word) : Bool := w.tag == objectTag
def isNullish (w : Word) : Bool := w.isUndefined || w.isNull
def isCatchable (w : Word) : Bool := !w.isTermination

def bool? (w : Word) : Option Bool :=
  if w.isBool then some (w == bool true) else none

def smi? (w : Word) : Option Int32 :=
  if w.isSmi then some w.upper.toInt32 else none

def object? (w : Word) : Option ObjectId :=
  if w.isObject then some w.upper else none

theorem toNat_payload (n : UInt32) (tag : UInt64) (h : tag.toNat < 8) :
    (payload n tag).bits.toNat = n.toNat * 4294967296 + tag.toNat := by
  have := n.toNat_lt
  simp only [payload, UInt64.toNat_add, UInt64.toNat_mul, UInt32.toNat_toUInt64, UInt64.reduceToNat]
  omega

theorem tag_payload (n : UInt32) (tag : UInt64) (h : tag.toNat < 8) :
    (payload n tag).tag = tag := by
  apply UInt64.toNat_inj.1
  simp only [Word.tag, UInt64.toNat_mod, toNat_payload n tag h, UInt64.reduceToNat]
  omega

theorem upper_payload (n : UInt32) (tag : UInt64) (h : tag.toNat < 8) :
    (payload n tag).upper = n := by
  have := n.toNat_lt
  apply UInt32.toNat_inj.1
  simp only [upper, UInt64.toNat_toUInt32, UInt64.toNat_div, toNat_payload n tag h,
    UInt64.reduceToNat]
  omega

theorem smi?_smi (n : Int32) : (smi n).smi? = some n := by
  simp [smi?, isSmi, smi, tag_payload, upper_payload, smiTag]

theorem object?_object (id : ObjectId) : (object id).object? = some id := by
  simp [object?, isObject, object, tag_payload, upper_payload, objectTag]

theorem bool?_bool (b : Bool) : (bool b).bool? = some b := by
  cases b <;> decide

end Word

/-- The word that encodes a value. -/
def Value.word : Value → Word
  | .undefined => .undefined
  | .null => .null
  | .hole => .hole
  | .termination => .termination
  | .raised => .raised
  | .bool b => .bool b
  | .smi n => .smi n
  | .object id => .object id

end ScriptEngine

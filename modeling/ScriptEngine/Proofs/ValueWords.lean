import ScriptEngine.Value.Word
import Mathlib.Logic.ExistsUnique

namespace ScriptEngine

namespace Value

/-- What a value is, its payload apart. -/
inductive Kind
  | undefined
  | null
  | hole
  | termination
  | raised
  | bool
  | smi
  | object
  deriving DecidableEq

def kind : Value → Kind
  | .undefined => .undefined
  | .null => .null
  | .hole => .hole
  | .termination => .termination
  | .raised => .raised
  | .bool _ => .bool
  | .smi _ => .smi
  | .object _ => .object

/-- The low three bits of the words of a kind; the singletons share theirs. -/
def Kind.tag : Kind → UInt64
  | .object => Word.objectTag
  | .smi => Word.smiTag
  | .bool => Word.boolTag
  | .undefined | .null | .hole | .termination | .raised => Word.singletonTag

def smi? : Value → Option Int32
  | .smi n => some n
  | _ => none

def bool? : Value → Option Bool
  | .bool b => some b
  | _ => none

end Value

namespace Word

/-- The test of words that each kind has. -/
def test : Value.Kind → Word → Bool
  | .undefined => isUndefined
  | .null => isNull
  | .hole => isHole
  | .termination => isTermination
  | .raised => isRaised
  | .bool => isBool
  | .smi => isSmi
  | .object => isObject

/-- The value that a word shows as: payloads are read first, then the singletons are tried. -/
def value? (w : Word) : Option Value :=
  if let some id := w.object? then some (.object id)
  else if let some n := w.smi? then some (.smi n)
  else if let some b := w.bool? then some (.bool b)
  else if w.isUndefined then some .undefined
  else if w.isNull then some .null
  else if w.isHole then some .hole
  else if w.isTermination then some .termination
  else if w.isRaised then some .raised
  else none

theorem tag_eq_and (w : Word) : w.tag = w.bits &&& 0b111 := by
  apply UInt64.toNat_inj.mp
  rw [tag, UInt64.toNat_mod, UInt64.toNat_and]
  exact (Nat.and_two_pow_sub_one_eq_mod w.bits.toNat 3).symm

theorem upper_eq_shiftRight (w : Word) : w.upper = (w.bits >>> 32).toUInt32 := by
  have hshift : w.bits >>> 32 = w.bits / 4294967296 := by
    apply UInt64.toNat_inj.mp
    rw [UInt64.toNat_shiftRight, UInt64.toNat_div]
    exact Nat.shiftRight_eq_div_pow _ _
  rw [upper, hshift]

theorem bits_payload (n : UInt32) (tag : UInt64) (h : tag.toNat < 8) :
    (payload n tag).bits = n.toUInt64 <<< 32 ||| tag := by
  have hn := n.toNat_lt
  have hshift : (n.toUInt64 <<< 32).toNat = n.toNat <<< 32 := by
    rw [UInt64.toNat_shiftLeft, UInt32.toNat_toUInt64]
    refine Nat.mod_eq_of_lt ?_
    rw [Nat.shiftLeft_eq]
    exact Nat.mul_lt_mul_of_pos_right hn (by decide)
  apply UInt64.toNat_inj.mp
  -- the tag lies below the shifted payload, so that adding it sets its bits
  rw [toNat_payload n tag h, UInt64.toNat_or, hshift, ← Nat.shiftLeft_add_eq_or_of_lt (by omega),
    Nat.shiftLeft_eq]

end Word

namespace Value

/-- The layout of words: a payload of 32 bits, or the number of a boolean or a singleton, above
three bits of tag. -/
theorem bits_word (v : Value) : v.word.bits =
    match v with
    | .object id => id.toUInt64 <<< 32 ||| 0b000
    | .smi n => n.toUInt32.toUInt64 <<< 32 ||| 0b001
    | .bool b => b.toUInt64 <<< 3 ||| 0b010
    | .undefined => (0 : UInt64) <<< 3 ||| 0b110
    | .null => (1 : UInt64) <<< 3 ||| 0b110
    | .hole => (2 : UInt64) <<< 3 ||| 0b110
    | .termination => (3 : UInt64) <<< 3 ||| 0b110
    | .raised => (4 : UInt64) <<< 3 ||| 0b110 := by
  cases v with
  | object id => exact Word.bits_payload id _ (by decide)
  | smi n => exact Word.bits_payload n.toUInt32 _ (by decide)
  | bool b => cases b <;> rfl
  | undefined | null | hole | termination | raised => rfl

/-- A negative number and an object can share their upper halves. -/
example : (smi (-7)).word.bits = 0xfffffff900000001 ∧
    (object 0xfffffff9).word.bits = 0xfffffff900000000 := by decide

theorem tag_word (v : Value) : v.word.tag = v.kind.tag := by
  cases v with
  | object id => exact Word.tag_payload id _ (by decide)
  | smi n => exact Word.tag_payload n.toUInt32 _ (by decide)
  | bool b => cases b <;> rfl
  | undefined | null | hole | termination | raised => rfl

theorem isObject_word (v : Value) : v.word.isObject = v.isObject := by
  rw [Word.isObject, tag_word]
  cases v <;> rfl

theorem isSmi_word (v : Value) : v.word.isSmi = v.smi?.isSome := by
  rw [Word.isSmi, tag_word]
  cases v <;> rfl

theorem isBool_word (v : Value) : v.word.isBool = v.bool?.isSome := by
  rw [Word.isBool, tag_word]
  cases v <;> rfl

theorem object?_word (v : Value) : v.word.object? = v.objectId? := by
  cases v with
  | object id => exact Word.object?_object id
  | _ => simp [Word.object?, isObject_word, isObject, objectId?]

theorem smi?_word (v : Value) : v.word.smi? = v.smi? := by
  cases v with
  | smi n => exact Word.smi?_smi n
  | _ => simp [Word.smi?, isSmi_word, smi?]

theorem bool?_word (v : Value) : v.word.bool? = v.bool? := by
  cases v with
  | bool b => exact Word.bool?_bool b
  | _ => simp [Word.bool?, isBool_word, bool?]

theorem value?_word (v : Value) : v.word.value? = some v := by
  simp only [Word.value?, object?_word, smi?_word, bool?_word]
  -- what is left to evaluate are the words of singletons
  cases v <;> rfl

theorem word_inj {v v' : Value} : v.word = v'.word ↔ v = v' := by
  refine ⟨?_, congrArg word⟩
  intro h
  have hread : some v = some v' := by rw [← value?_word, h, value?_word]
  exact Option.some.inj hread

theorem bits_inj {v v' : Value} : v.word.bits = v'.word.bits ↔ v = v' := by
  rw [← word_inj, Word.mk.injEq]

/-- To compare words is to compare values. -/
theorem beq_word (v v' : Value) : (v.word == v'.word) = decide (v = v') :=
  Bool.eq_iff_iff.mpr (by simp [word_inj])

theorem isUndefined_word (v : Value) : v.word.isUndefined = v.isUndefined :=
  (beq_word v .undefined).trans (by cases v <;> rfl)

theorem isCatchable_word (v : Value) : v.word.isCatchable = v.isCatchable := by
  have htest : v.word.isTermination = decide (v = .termination) := beq_word v .termination
  rw [Word.isCatchable, htest]
  cases v <;> rfl

/-- Each test tells the values of its kind from all others. -/
theorem test_word (v : Value) (k : Kind) : v.word.test k = decide (v.kind = k) := by
  cases k with
  | undefined => exact (isUndefined_word v).trans (by cases v <;> rfl)
  | null => exact (beq_word v .null).trans (by cases v <;> rfl)
  | hole => exact (beq_word v .hole).trans (by cases v <;> rfl)
  | termination => exact (beq_word v .termination).trans (by cases v <;> rfl)
  | raised => exact (beq_word v .raised).trans (by cases v <;> rfl)
  | bool => exact (isBool_word v).trans (by cases v <;> rfl)
  | smi => exact (isSmi_word v).trans (by cases v <;> rfl)
  | object => exact (isObject_word v).trans (by cases v <;> rfl)

/-- Words give back the numbers, objects and booleans that they were made from. The word of a value
passes the test of the value's kind and no other, the accessors of other kinds find nothing in it,
and it cannot be caught only if it is the termination exception. Two words are equal only if they
were made as the same kind of value from the same payload. -/
theorem words_faithful :
    (∀ n : Int32, (Word.smi n).smi? = some n) ∧
    (∀ id : ObjectId, (Word.object id).object? = some id) ∧
    (∀ b : Bool, (Word.bool b).bool? = some b) ∧
    (∀ v : Value,
      v.word.test v.kind = true ∧ (∃! k, v.word.test k = true) ∧
      (v.word.smi? = none ↔ v.kind ≠ .smi) ∧
      (v.word.object? = none ↔ v.kind ≠ .object) ∧
      (v.word.bool? = none ↔ v.kind ≠ .bool) ∧
      (v.word.isCatchable = false ↔ v = .termination)) ∧
    ∀ v v' : Value, v.word.bits = v'.word.bits ↔ v = v' := by
  refine ⟨Word.smi?_smi, Word.object?_object, Word.bool?_bool, ?_, fun _ _ => bits_inj⟩
  intro v
  have hself : v.word.test v.kind = true := by simp [test_word]
  refine ⟨hself, ⟨v.kind, hself, ?_⟩, ?_, ?_, ?_, ?_⟩
  · intro k hk
    rw [test_word] at hk
    exact (of_decide_eq_true hk).symm
  · rw [smi?_word]
    cases v <;> simp [smi?, kind]
  · rw [object?_word]
    cases v <;> simp [objectId?, kind]
  · rw [bool?_word]
    cases v <;> simp [bool?, kind]
  · rw [isCatchable_word]
    cases v <;> simp [isCatchable]

end Value

end ScriptEngine

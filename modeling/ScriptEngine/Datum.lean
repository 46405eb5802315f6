import ScriptEngine.Value

namespace ScriptEngine

/-- Data in which the engine shows its state to tools. -/
inductive Datum
  | null
  | bool (b : Bool)
  | int (n : Int)
  | text (s : String)
  /-- How an address is written depends on where code lives. -/
  | address (a : Nat)
  | list (items : List Datum)
  | record (fields : List (String × Datum))

namespace Datum

instance : Inhabited Datum := ⟨null⟩

mutual

/-- Writes addresses as texts. -/
def spell (write : Nat → String) : Datum → Datum
  | address a => text (write a)
  | list items => list (spellItems write items)
  | record fields => record (spellFields write fields)
  | d => d

def spellItems (write : Nat → String) : List Datum → List Datum
  | [] => []
  | d :: rest => d.spell write :: spellItems write rest

def spellFields (write : Nat → String) : List (String × Datum) → List (String × Datum)
  | [] => []
  | (name, d) :: rest => (name, d.spell write) :: spellFields write rest

end

mutual

def same : Datum → Datum → Bool
  | null, null => true
  | bool a, bool b => a == b
  | int a, int b => a == b
  | text a, text b => a == b
  | address a, address b => a == b
  | list as, list bs => sameItems as bs
  | record as, record bs => sameFields as bs
  | _, _ => false

def sameItems : List Datum → List Datum → Bool
  | [], [] => true
  | a :: as, b :: bs => a.same b && sameItems as bs
  | _, _ => false

def sameFields : List (String × Datum) → List (String × Datum) → Bool
  | [], [] => true
  | (m, a) :: as, (n, b) :: bs => m == n && a.same b && sameFields as bs
  | _, _ => false

end

instance : BEq Datum := ⟨same⟩

/-- An address, if there is one. -/
def addressOf : Option Nat → Datum
  | none => null
  | some a => address a

end Datum

/-- Types whose members can be shown. -/
class Inspect (α : Type) where
  inspect : α → Datum

export Inspect (inspect)

namespace Inspect

instance : Inspect Datum := ⟨id⟩
instance : Inspect Unit := ⟨fun _ => .null⟩
instance : Inspect Bool := ⟨.bool⟩
instance : Inspect Nat := ⟨fun n => .int n⟩
instance : Inspect Int := ⟨.int⟩
instance : Inspect UInt32 := ⟨fun n => .int n.toNat⟩
instance : Inspect Int32 := ⟨fun n => .int n.toInt⟩
instance : Inspect String := ⟨.text⟩
instance : Inspect Value := ⟨fun v => .text v.tagged⟩

variable {α β : Type} [Inspect α] [Inspect β]

instance : Inspect (Option α) where
  inspect
    | none => .null
    | some a => inspect a

instance : Inspect (List α) := ⟨fun as => .list (as.map inspect)⟩

/-- A pair is a list of two. -/
instance : Inspect (α × β) := ⟨fun (a, b) => .list [inspect a, inspect b]⟩

end Inspect

/-- Enumerations whose members have names. -/
class Named (α : Type) where
  names : List (String × α)

namespace Named

variable {α : Type} [Named α]

def ofName? (name : String) : Option α := (names (α := α)).lookup name

def nameOf [BEq α] (a : α) : String := (((names).find? (·.2 == a)).map (·.1)).getD "?"

instance (priority := low) [BEq α] : Inspect α := ⟨fun a => .text (nameOf a)⟩

end Named

end ScriptEngine

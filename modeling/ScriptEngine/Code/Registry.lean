import ScriptEngine.Code.Basic
import ScriptEngine.Memory

namespace ScriptEngine

/-- Blocks start at multiples of this. -/
def codeAlignment : Nat := 32

def alignUp (n : Nat) : Nat := (n + (codeAlignment - 1)) / codeAlignment * codeAlignment

/-- A reservation, and the offset where its unused part starts. -/
structure CodeRange where
  reservation : Reservation
  next : Nat := 0

namespace CodeRange

def base (r : CodeRange) : Address := r.reservation.base
def size (r : CodeRange) : Nat := r.reservation.size

def contains (r : CodeRange) (a : Address) : Bool := r.base ≤ a && a < r.base + r.size

/-- Takes the next block that has room for `size` bytes, if there is any. -/
def allocate (r : CodeRange) (size : Nat) : Option Address × CodeRange :=
  let stop := alignUp (r.next + max size 1)
  if stop ≤ r.size then (some (r.base + r.next), { r with next := stop }) else (none, r)

end CodeRange

/-- Room for one word behind the instructions. -/
def constantPoolSize : Nat := 8

/-- Code by start address, the code range, and the numbers of the code that is marked for
deoptimization. -/
structure CodeRegistry where
  codes : List Code := []
  range : Option CodeRange := none
  installed : Nat := 0
  marked : List Nat := []

namespace CodeRegistry

/-- Adds to a list that is ordered by start, in the place of code with the same start. -/
def insertByStart (c : Code) : List Code → List Code
  | [] => [c]
  | d :: rest =>
    if c.start < d.start then c :: d :: rest
    else if c.start = d.start then c :: rest
    else d :: insertByStart c rest

def insertAt (r : CodeRegistry) (d : CodeDescription) (start : Address) : Code × CodeRegistry :=
  let code : Code := ⟨r.installed, start, d⟩
  (code, { r with codes := insertByStart code r.codes, installed := r.installed + 1 })

/-- Places code in the code range; fails if there is none or it has no room. -/
def install (r : CodeRegistry) (d : CodeDescription) : Option Code × CodeRegistry :=
  match r.range with
  | none => (none, r)
  | some range =>
    let (start, range) := range.allocate (d.size + constantPoolSize)
    let r := { r with range := some range }
    match start with
    | none => (none, r)
    | some start =>
      let (code, r) := r.insertAt d start
      (some code, r)

def remove (r : CodeRegistry) (start : Address) : Option Code × CodeRegistry :=
  (r.codes.find? (·.start == start), { r with codes := r.codes.filter (·.start != start) })

/-- The code with the greatest start at or before the address, if it reaches that far. -/
def lookup (r : CodeRegistry) (pc : Address) : Option Code :=
  ((r.codes.takeWhile (·.start ≤ pc)).getLast?).filter (·.contains pc)

def size (r : CodeRegistry) : Nat := r.codes.length

def clear (r : CodeRegistry) : CodeRegistry := { r with codes := [] }

def setRange (r : CodeRegistry) (range : CodeRange) : CodeRegistry := { r with range := some range }

def takeRange (r : CodeRegistry) : Option CodeRange × CodeRegistry :=
  (r.range, { r with range := none })

def isMarked (r : CodeRegistry) (c : Code) : Bool := r.marked.contains c.number

def mark (r : CodeRegistry) (c : Code) (marked : Bool) : CodeRegistry :=
  let others := r.marked.filter (· != c.number)
  { r with marked := if marked then c.number :: others else others }

end CodeRegistry

end ScriptEngine

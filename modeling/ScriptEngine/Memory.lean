namespace ScriptEngine

/-- A region of the address space. -/
structure Reservation where
  base : Nat
  size : Nat
  deriving DecidableEq

namespace Memory

/-- The system grants sizes up to this one. -/
def systemLimit : Nat := 0x7fffffffffffffff

/-- Sums of sizes that reach this one do not fit a machine word. -/
def wordLimit : Nat := 0x10000000000000000

/-- Unused space kept behind every reservation. -/
def guardSize : Nat := 65536

end Memory

/-- A limit on the bytes in use, and the bytes in use. -/
structure Budget where
  limit : Nat
  used : Nat := 0
  deriving DecidableEq

namespace Budget

def fits (b : Budget) (size : Nat) : Bool :=
  b.used + size < Memory.wordLimit && b.used + size ≤ b.limit

def book (b : Budget) (size : Nat) : Budget := { b with used := b.used + size }

def unbook (b : Budget) (size : Nat) : Budget := { b with used := b.used - size }

end Budget

/-- Budgets from the outermost inwards. The innermost one draws on the system, which hands out
addresses in increasing order. -/
structure PageAllocator where
  budgets : List Budget := []
  next : Nat
  deriving DecidableEq

namespace PageAllocator

/-- Asks the budgets from the outermost inwards, and the system behind them. Every budget books the
size before the next one is asked, and gives it back if that one refuses. -/
def ask (size : Nat) : List Budget → Bool × List Budget
  | [] => (size ≤ Memory.systemLimit, [])
  | b :: inner =>
    if b.fits size then
      let booked := b.book size
      let (isGranted, inner) := ask size inner
      (isGranted, (if isGranted then booked else booked.unbook size) :: inner)
    else (false, b :: inner)

/-- Asks for a region, and also gives the budgets after a refusal. -/
def attempt (a : PageAllocator) (size : Nat) : Option Reservation × PageAllocator :=
  let (isGranted, budgets) := ask size a.budgets
  if isGranted then
    (some ⟨a.next, size⟩, { budgets, next := a.next + size + Memory.guardSize })
  else (none, { a with budgets })

/-- A refusal leaves the budgets as they were. -/
def reserve (a : PageAllocator) (size : Nat) : Option (Reservation × PageAllocator) :=
  match a.attempt size with
  | (none, _) => none
  | (some r, a) => some (r, a)

def release (a : PageAllocator) (r : Reservation) : PageAllocator :=
  { a with budgets := a.budgets.map (·.unbook r.size) }

/-- Bytes booked on the outermost budget. -/
def used (a : PageAllocator) : Nat := (a.budgets.head?.map (·.used)).getD 0

end PageAllocator

end ScriptEngine

import ScriptEngine.Blob.Registry
import ScriptEngine.Isolate.Options
import ScriptEngine.Memory
import ScriptEngine.SharedSpace

namespace ScriptEngine

abbrev SpaceId := Nat

/-- A shared space, and how many keep it alive: its owner, and holders outside. -/
structure HeldSpace where
  id : SpaceId
  space : SharedSpace
  holders : Nat
  deriving DecidableEq

/-- What the isolates of a platform have in common: memory, blobs and the shared space. -/
structure Platform where
  options : ProcessOptions
  pages : PageAllocator
  blobs : BlobRegistry
  /-- Spaces that are alive. -/
  spaces : List HeldSpace := []
  /-- The space that isolates join. It may be gone. -/
  slot : Option SpaceId := none
  nextSpace : SpaceId := 0

namespace Platform

/-- Address space of a platform's reservations. -/
def pagesBase : Address := 0x500000000000

/-- Address space of a platform's blobs. -/
def blobsBase : Address := 0x600000000000

/-- Distance between the address spaces of two platforms. -/
def span : Nat := 0x1000000000

/-- The platform with a number; platforms with different numbers use different addresses. -/
def create (number : Nat) (o : ProcessOptions) : Platform where
  options := o
  pages :=
    { budgets := (o.memoryBudget.map fun limit => { limit }).toList
      next := pagesBase + number * span }
  blobs :=
    { default := if o.binaryBlob then some Blob.ofBinary else none
      nextAddress := blobsBase + number * span }

def reserve (p : Platform) (size : Nat) : Option (Reservation × Platform) :=
  (p.pages.reserve size).map fun (r, pages) => (r, { p with pages := pages })

def release (p : Platform) (r : Reservation) : Platform := { p with pages := p.pages.release r }

def space? (p : Platform) (id : SpaceId) : Option HeldSpace := p.spaces.find? (·.id == id)

/-- The space that isolates join, if it is alive. -/
def sharedSpace? (p : Platform) : Option HeldSpace := p.slot.bind p.space?

def modifySpace (p : Platform) (id : SpaceId) (f : SharedSpace → SharedSpace) : Platform :=
  { p with spaces := p.spaces.map fun s => if s.id = id then { s with space := f s.space } else s }

/-- A new space for isolates to join, kept alive by its owner. -/
def openSpace (p : Platform) (owner : IsolateId) : SpaceId × Platform :=
  (p.nextSpace,
   { p with
     spaces := p.spaces ++ [⟨p.nextSpace, { owner }, 1⟩]
     slot := some p.nextSpace
     nextSpace := p.nextSpace + 1 })

def holdSpace (p : Platform) (id : SpaceId) : Platform :=
  { p with
    spaces := p.spaces.map fun s => if s.id = id then { s with holders := s.holders + 1 } else s }

/-- A space that nobody holds is gone. -/
def unholdSpace (p : Platform) (id : SpaceId) : Platform :=
  { p with
    spaces := p.spaces.filterMap fun s =>
      if s.id = id then
        if s.holders ≤ 1 then none else some { s with holders := s.holders - 1 }
      else some s }

end Platform

end ScriptEngine

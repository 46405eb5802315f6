import ScriptEngine.Failure

namespace ScriptEngine

/-- A blob in memory. Its code address tells it apart from other blobs. -/
structure PlacedBlob where
  blob : Blob
  codeAddress : Address
  dataAddress : Address

/-- A blob that an isolate runs on. -/
inductive BlobHandle
  /-- Part of the binary, never freed. -/
  | binary (b : PlacedBlob)
  | shared (b : PlacedBlob)

namespace BlobHandle

def placed : BlobHandle → PlacedBlob
  | binary b => b
  | shared b => b

def isBinary : BlobHandle → Bool
  | binary _ => true
  | shared _ => false

end BlobHandle

/-- Addresses and sizes of the two sections; all zero without a blob. -/
structure BlobView where
  code : Address := 0
  codeSize : Nat := 0
  data : Address := 0
  dataSize : Nat := 0
  deriving DecidableEq

def BlobView.isNull (v : BlobView) : Bool := v.code == 0

def PlacedBlob.view (b : PlacedBlob) : BlobView :=
  ⟨b.codeAddress, b.blob.code.length, b.dataAddress, b.blob.data.length⟩

namespace Blob

/-- Where the binary's blob is. -/
def binaryAddress : Address := 0x400000000000

/-- Address space of a blob. -/
def span : Nat := 0x100000

/-- Distance from a blob's code to its data. -/
def dataOffset : Nat := 0x80000

def place (blob : Blob) (address : Address) : PlacedBlob := ⟨blob, address, address + dataOffset⟩

/-- The blob that is part of the binary. -/
def ofBinary : PlacedBlob := place create binaryAddress

end Blob

structure BlobRegistry where
  /-- The blob of the binary, if it has one. -/
  default : Option PlacedBlob
  /-- Where the next blob is put. -/
  nextAddress : Address
  current : BlobView := {}
  sticky : Option PlacedBlob := none
  isCounting : Bool := true
  refs : Nat := 0
  frees : Nat := 0

namespace BlobRegistry

/-- The current blob is the one of the binary. -/
def isCurrentBinary (r : BlobRegistry) : Bool :=
  !r.current.isNull && r.default.any (·.codeAddress == r.current.code)

def setCurrent (r : BlobRegistry) (b : PlacedBlob) : BlobRegistry := { r with current := b.view }

def clearCurrent (r : BlobRegistry) : BlobRegistry := { r with current := {} }

def disableCounting (r : BlobRegistry) : BlobRegistry := { r with isCounting := false }

def isSticky (r : BlobRegistry) (b : PlacedBlob) : Bool :=
  r.sticky.any (·.codeAddress == b.codeAddress)

/-- The blob that a new isolate starts with: the sticky one with a reference, else the default. -/
def acquire (r : BlobRegistry) : Option BlobHandle × BlobRegistry :=
  match r.sticky, r.default with
  | some b, _ => (some (.shared b), { r with refs := r.refs + 1 }.setCurrent b)
  | none, some b => (some (.binary b), r.setCurrent b)
  | none, none => (none, r)

def misuse {α : Type} (m : BlobMisuse) : Action BlobRegistry α := Action.die (.blobMismatch m)

/-- The blob for an isolate that boots from scratch: the sticky one, or a new one that becomes
sticky. No reference is taken for an isolate that holds the sticky blob already. -/
def createAndSet (held : Option BlobHandle) : Action BlobRegistry BlobHandle := do
  let r ← get
  match r.sticky, held with
  | some b, some (.shared own) =>
    if own.codeAddress ≠ b.codeAddress then misuse .heldNotSticky
    set (r.setCurrent b)
    return .shared b
  | some b, _ =>
    set ({ r with refs := r.refs + 1 }.setCurrent b)
    return .shared b
  | none, some (.shared _) => misuse .heldWithoutSticky
  | none, _ =>
    if r.refs ≠ 0 then misuse (.outstandingReferences r.refs)
    let b := Blob.create.place r.nextAddress
    set ({ r with
      sticky := some b
      refs := r.refs + 1
      nextAddress := r.nextAddress + Blob.span }.setCurrent b)
    return .shared b

/-- Frees the sticky blob. -/
def free (r : BlobRegistry) : BlobRegistry :=
  { r with sticky := none, frees := r.frees + 1 }.clearCurrent

/-- Gives a reference back. The last one frees the blob if references are counted. -/
def release (handle : BlobHandle) : Action BlobRegistry Unit := do
  let r ← get
  match handle, r.sticky with
  | .binary _, _ => return
  | .shared _, none => return
  | .shared b, some _ =>
    if !r.isSticky b then misuse .releasedNotSticky
    if r.refs = 0 then misuse .refcountUnderflow
    let r := { r with refs := r.refs - 1 }
    set (if r.refs = 0 && r.isCounting then r.free else r)

/-- Frees the sticky blob by hand. It is sticky no longer even if it is not the current one, which
is fatal. -/
def freeCurrent : Action BlobRegistry Unit := do
  let r ← get
  if r.isCounting then misuse .refcountingEnabled
  match r.sticky with
  | none => return
  | some b =>
    if r.current.code ≠ b.codeAddress then
      set { r with sticky := none }
      misuse .currentNotSticky
    set r.free

end BlobRegistry

end ScriptEngine

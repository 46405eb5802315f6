import ScriptEngine.Code.Registry
import ScriptEngine.Digest.Sha256
import ScriptEngine.Text.Hex

namespace ScriptEngine

inductive BlobError
  | invalidMagic
  | unsupportedVersion (version : Nat)
  | truncated (expected actual : Nat)
  | builtinCountMismatch (expected actual : Nat)
  | checksumMismatch (part expected actual : String)

def BlobError.message : BlobError → String
  | invalidMagic => "Invalid blob magic"
  | unsupportedVersion version => s!"Unsupported blob version {version}"
  | truncated expected actual =>
    s!"Blob data section truncated: expected at least {expected} bytes, got {actual}"
  | builtinCountMismatch expected actual =>
    s!"Blob has {actual} builtins, runtime expects {expected}"
  | checksumMismatch part expected actual =>
    s!"Checksum mismatch in {part} section: expected {expected}, got {actual}"

/-- The code of the builtins, and data about it: a magic text, a version, the number of builtins, a
digest of the code, a digest of the table, and the table, which gives the offset and the size of
every builtin. -/
structure Blob where
  code : List UInt8
  data : List UInt8
  deriving DecidableEq

namespace Blob

/-- The bytes of "KEELBLOB". -/
def magic : List UInt8 := [0x4b, 0x45, 0x45, 0x4c, 0x42, 0x4c, 0x4f, 0x42]

def version : Nat := 1

def digestSize : Nat := 32

/-- Magic, version, count and two digests. -/
def headerSize : Nat := 8 + 4 + 4 + digestSize + digestSize

/-- Bytes of a table entry. -/
def entrySize : Nat := 8

/-- The least size of a data section. -/
def dataSize : Nat := headerSize + Builtin.count * entrySize

/-- The trap instruction that fills gaps. -/
def padding : UInt8 := 0xcc

/-- A number as `count` bytes, the lowest first. -/
def littleEndian : Nat → Nat → List UInt8
  | 0, _ => []
  | count + 1, n => UInt8.ofNat n :: littleEndian count (n / 256)

def le32 (n : Nat) : List UInt8 := littleEndian 4 n

/-- The number that bytes spell, the lowest first. -/
def leNat : List UInt8 → Nat
  | [] => 0
  | b :: bs => b.toNat + 256 * leNat bs

/-- `size` bytes of `bytes` from `start` on. -/
def slice (bytes : List UInt8) (start size : Nat) : List UInt8 := (bytes.drop start).take size

/-- The instructions of a builtin: its index over and over, with a trap at the end. -/
def instructions (b : Builtin) : List UInt8 :=
  List.replicate (b.size - 1) (UInt8.ofNat b.index) ++ [padding]

def padded (b : Builtin) : List UInt8 :=
  instructions b ++ List.replicate (alignUp b.size - b.size) padding

/-- Table entries of builtins laid out one after the other. -/
def layout (start : Nat) : List Builtin → List (Nat × Nat)
  | [] => []
  | b :: rest => (start, b.size) :: layout (start + alignUp b.size) rest

def table : List UInt8 :=
  (layout 0 Builtin.all).flatMap fun (offset, size) => le32 offset ++ le32 size

/-- A data section from the digest function, the code section and the table. -/
def dataFor (digest : List UInt8 → List UInt8) (code table : List UInt8) : List UInt8 :=
  magic ++ le32 version ++ le32 Builtin.count ++ digest code ++ digest table ++ table

/-- The blob with every builtin, by the digest function. -/
def createFor (digest : List UInt8 → List UInt8) : Blob :=
  let code := Builtin.all.flatMap padded
  ⟨code, dataFor digest code table⟩

def create : Blob := createFor Sha256.digest

def checkDigest (digest : List UInt8 → List UInt8) (part : String) (expected bytes : List UInt8) :
    Except BlobError Unit :=
  if digest bytes = expected then .ok ()
  else .error (.checksumMismatch part (Text.hexBytes expected) (Text.hexBytes (digest bytes)))

/-- Checks the header, then both digests. -/
def verify (digest : List UInt8 → List UInt8) (blob : Blob) : Except BlobError Unit :=
  let found := leNat (slice blob.data 8 4)
  let count := leNat (slice blob.data 12 4)
  if blob.data.length < headerSize then .error (.truncated dataSize blob.data.length)
  else if slice blob.data 0 8 ≠ magic then .error .invalidMagic
  else if found ≠ version then .error (.unsupportedVersion found)
  else if count ≠ Builtin.count then .error (.builtinCountMismatch Builtin.count count)
  else if blob.data.length < dataSize then .error (.truncated dataSize blob.data.length)
  else do
    checkDigest digest "code" (slice blob.data 16 digestSize) blob.code
    checkDigest digest "data" (slice blob.data (16 + digestSize) digestSize)
      (blob.data.drop headerSize)

/-- The blob of two sections, if they pass the checks. -/
def ofSections (digest : List UInt8 → List UInt8) (code data : List UInt8) :
    Except BlobError Blob := do
  let blob : Blob := ⟨code, data⟩
  verify digest blob
  return blob

/-- Offset of a builtin in the code section. -/
def offsetOf (blob : Blob) (b : Builtin) : Nat :=
  leNat (slice blob.data (headerSize + b.index * entrySize) 4)

/-- Size of a builtin by the table. -/
def sizeOf (blob : Blob) (b : Builtin) : Nat :=
  leNat (slice blob.data (headerSize + b.index * entrySize + 4) 4)

end Blob

end ScriptEngine

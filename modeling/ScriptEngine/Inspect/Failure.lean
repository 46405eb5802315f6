import ScriptEngine.Datum
import ScriptEngine.Failure

namespace ScriptEngine

instance : Named LifecycleState where
  names :=
    [.allocated, .initializing, .initialized, .failed, .deinitializing, .deinitialized].map
      fun s => (s.text, s)

def BlobError.kind : BlobError → String
  | invalidMagic => "InvalidMagic"
  | unsupportedVersion _ => "UnsupportedVersion"
  | truncated _ _ => "Truncated"
  | builtinCountMismatch _ _ => "BuiltinCountMismatch"
  | checksumMismatch _ _ _ => "ChecksumMismatch"

def IsolateError.kind : IsolateError → String
  | notEntered => "NotEntered"
  | threadNotAttached => "ThreadNotAttached"
  | exceptionConflict _ => "ExceptionConflict"
  | noPendingException => "NoPendingException"
  | noScheduledException => "NoScheduledException"
  | invalidState _ _ => "InvalidState"
  | unknownTryCatch _ => "UnknownTryCatch"
  | tryCatchOrder => "TryCatchOrder"
  | unknownCode _ => "UnknownCode"
  | snapshot _ => "Snapshot"
  | blob _ => "Blob"
  | noDeserializer => "NoDeserializer"
  | system _ => "Io"

def FatalError.kind : FatalError → String
  | outOfMemory _ => "OutOfMemory"
  | notInitialized => "NotInitialized"
  | snapshotArgumentMismatch => "SnapshotArgumentMismatch"
  | sharedSpaceClientsAlive _ _ => "SharedSpaceClientsAlive"
  | outstandingEntries _ _ => "OutstandingEntries"
  | noHandlerFound => "NoHandlerFound"
  | stackTraceDoubleFault _ => "StackTraceDoubleFault"
  | blobMismatch _ => "BlobMismatch"
  | abortOnUncaughtException _ => "AbortOnUncaughtException"
  | invariantViolation _ => "InvariantViolation"

def Failure.kind : Failure → String
  | refused e => e.kind
  | fatal e => "Fatal." ++ e.kind

def BlobError.ofKind (kind text : String) (a b : Nat) : BlobError :=
  match kind with
  | "InvalidMagic" => .invalidMagic
  | "UnsupportedVersion" => .unsupportedVersion (UInt32.ofNat a).toNat
  | "Truncated" => .truncated a b
  | "BuiltinCountMismatch" => .builtinCountMismatch a b
  | _ => .checksumMismatch text (toString a) (toString b)

/-- Other kinds are operations that a state does not allow. -/
def IsolateError.ofKind (kind text : String) (a : Nat) (blob : BlobError) (state : LifecycleState) :
    IsolateError :=
  match kind with
  | "NotEntered" => .notEntered
  | "ThreadNotAttached" => .threadNotAttached
  | "ExceptionConflict" => .exceptionConflict (.other text)
  | "NoPendingException" => .noPendingException
  | "NoScheduledException" => .noScheduledException
  | "UnknownTryCatch" => .unknownTryCatch a
  | "TryCatchOrder" => .tryCatchOrder
  | "UnknownCode" => .unknownCode a
  | "Empty" => .snapshot (.empty text)
  | "Rejected" => .snapshot (.rejected text)
  | "NoDeserializer" => .noDeserializer
  | "Io" => .system text
  | "Blob" => .blob blob
  | operation => .invalidState (.other operation) state

/-- Any other kind checks that two numbers are equal, which is fatal if they are not. -/
def FatalError.ofKind? (kind text : String) (a b : Nat) : Option FatalError :=
  match kind with
  | "OutOfMemory" => some (.outOfMemory text)
  | "NotInitialized" => some .notInitialized
  | "SnapshotArgumentMismatch" => some .snapshotArgumentMismatch
  | "SharedSpaceClientsAlive" => some (.sharedSpaceClientsAlive a b)
  | "OutstandingEntries" => some (.outstandingEntries a b)
  | "NoHandlerFound" => some .noHandlerFound
  | "StackTraceDoubleFault" => some (.stackTraceDoubleFault (UInt32.ofNat a).toNat)
  | "BlobMismatch" => some (.blobMismatch (.other text))
  | "AbortOnUncaughtException" => some (.abortOnUncaughtException text)
  | "InvariantViolation" => some (.invariantViolation (.other text))
  | _ => if a = b then none else some (.invariantViolation (.other s!"{a} is not {b}"))

/-- A failure that stands where a result would. -/
def Datum.failure (kind message : String) : Datum :=
  .record [("error", .text kind), ("message", .text message)]

def Failure.datum (naming : Naming) (f : Failure) : Datum := .failure f.kind (f.message naming)

/-- A result, or its failure. -/
def Datum.ofResult {α : Type} [Inspect α] (naming : Naming) : Except Failure α → Datum
  | .ok a => inspect a
  | .error f => f.datum naming

end ScriptEngine

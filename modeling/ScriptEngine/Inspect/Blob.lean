import ScriptEngine.Blob.Registry
import ScriptEngine.Inspect.Code
import ScriptEngine.Inspect.Failure
import ScriptEngine.Table

namespace ScriptEngine

/-- Sizes and table of a blob; the bytes themselves only on request. -/
def PlacedBlob.survey (b : PlacedBlob) (withBytes : Bool) : Datum :=
  let bytes (section_ : List UInt8) : Datum :=
    if withBytes then .text (Text.hexBytes section_) else .null
  .record
    [("code_size", inspect b.blob.code.length), ("data_size", inspect b.blob.data.length),
     ("null_view", inspect b.view.isNull), ("view", inspect (b.view.codeSize, b.view.dataSize)),
     ("entries", inspect (Builtin.all.map fun e => (b.blob.offsetOf e, b.blob.sizeOf e))),
     ("code", bytes b.blob.code), ("data", bytes b.blob.data)]

instance : Inspect BlobHandle where
  inspect h := .record
    [("binary", inspect h.isBinary), ("code_size", inspect h.placed.blob.code.length)]

/-- The state of a registry after a step with some result. `held` are the handles of the embedder,
by name. -/
def BlobRegistry.survey (r : BlobRegistry) (held : Table String BlobHandle) (result : Datum) :
    Datum :=
  .record
    [("r", result), ("sticky", inspect r.sticky.isSome), ("refs", inspect r.refs),
     ("frees", inspect r.frees), ("null", inspect r.current.isNull),
     ("sizes", inspect (r.current.codeSize, r.current.dataSize)),
     ("who", inspect (held.firstName? (·.placed.codeAddress == r.current.code))),
     ("binary", inspect r.isCurrentBinary), ("default", inspect r.default.isSome),
     ("zero", inspect (r.current.code == 0))]

end ScriptEngine

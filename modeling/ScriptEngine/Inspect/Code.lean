import ScriptEngine.Code.Builtins
import ScriptEngine.Code.Positions
import ScriptEngine.Datum
import ScriptEngine.Exception.Prediction
import ScriptEngine.Stack.Activation

namespace ScriptEngine

namespace Named

instance : Named HandlerPrediction where
  names :=
    [("Uncaught", .uncaught), ("Caught", .caught), ("Promise", .promise),
     ("AsyncAwait", .asyncAwait), ("UncaughtAsyncAwait", .uncaughtAsyncAwait)]

instance : Named CatchPrediction where
  names :=
    [("NotCaught", .notCaught), ("CaughtByManagedCode", .byManagedCode),
     ("CaughtByPromise", .byPromise), ("CaughtByAsyncAwait", .byAsyncAwait),
     ("CaughtByExternal", .byExternal)]

instance : Named CodeKind where
  names :=
    [("Builtin", .builtin), ("Baseline", .baseline), ("Maglev", .maglev),
     ("Turbofan", .turbofan), ("Stub", .stub)]

instance : Named FunctionOrigin where
  names := [("User", .user), ("Native", .native), ("Api", .api), ("Builtin", .builtin)]

/-- Tools know the builtin behind joins by a shorter name than traces do. -/
instance : Named Builtin where
  names := Builtin.all.map fun b => (if b = .arrayJoin then "ArrayJoin" else b.name, b)

end Named

namespace Inspect

/-- What a lookup in a handler table gives: handler, context register and prediction. -/
instance : Inspect RangeEntry where
  inspect e := .list [inspect e.handler, inspect e.contextRegister, inspect e.prediction]

instance : Inspect TranslatedFrame where
  inspect f :=
    .list
      [inspect f.function, inspect f.receiver, inspect f.bytecodeOffset, inspect f.isConstructor]

instance : Inspect DeoptPoint := ⟨fun p => inspect (p.pcOffset, p.frames)⟩

/-- Code shows as its builtin or its kind. -/
instance : Inspect Code where
  inspect c := match c.builtin with
    | some b => inspect b
    | none => inspect c.kind

end Inspect

/-- Answers of a handler table at some offsets. -/
def HandlerTable.survey (t : HandlerTable) (rangeAt returnAt : List Nat) : Datum :=
  let found := rangeAt.map t.lookupRange
  .record
    [("empty", inspect t.isEmpty),
     ("ranges", inspect t.ranges.length),
     ("returns", inspect t.returns.length),
     ("range_at", inspect found),
     ("catch", inspect (found.map fun e => e.map (·.prediction.toCatch))),
     ("return_at", inspect (returnAt.map t.lookupReturn))]

/-- Lines and columns of some positions of a script. -/
def Script.survey (s : Script) (positions : List Nat) : Datum :=
  .record
    [("name", inspect s.name),
     ("length", inspect s.source.utf8ByteSize),
     ("at", .list (positions.map fun position =>
       let l := Location.point s position
       .list [inspect (s.lineAndColumn position), inspect l.lineAndColumn, inspect l.text]))]

namespace Code

/-- What a registry that holds the code says about an address. -/
def surveyPc (c : Code) (registry : CodeRegistry) (pc : Address) : Datum :=
  .list
    [inspect (c.contains pc), inspect (registry.lookup pc).isSome, inspect (c.pcOffset pc),
     inspect (c.bytecodeOffsetForPc pc)]

/-- All about code that is alone in a registry. -/
def survey (c : Code) (registry : CodeRegistry) (pcs bytecodes deopts returns : List Nat) : Datum :=
  .record
    [("kind", inspect c.kind), ("builtin", inspect c.builtin), ("start", inspect c.start),
     ("end", inspect c.stop), ("size", inspect c.size), ("pool", inspect c.constantPool),
     ("slots", inspect c.stackSlots), ("turbofanned", inspect c.isTurbofanned),
     ("prediction", inspect c.prediction), ("optimized", inspect c.kind.isOptimized),
     ("can_deopt", inspect c.kind.isOptimized),
     ("function", inspect (c.description.function.map (·.name))),
     ("is_ce", inspect (c.builtin == some .exitStub)),
     ("builtin_code", inspect (ActiveCode.code c).isBuiltin),
     ("position", inspect ((ActiveCode.code c).sourcePosition 0)),
     ("pcs", .list (pcs.map (c.surveyPc registry))),
     ("bytecodes", inspect (bytecodes.map c.pcForBytecodeOffset)),
     ("deopts", inspect (deopts.map c.deoptPoint)),
     ("returns", inspect (returns.map c.handlers.lookupReturn))]

end Code

namespace Builtins

/-- All about one builtin, with addresses relative to the blob. -/
def surveyOne (t : Builtins) (b : Builtin) : Datum :=
  let c := t.code b
  let returns := (List.range c.size).filterMap fun offset =>
    (c.handlers.lookupReturn offset).map fun handler => (offset, handler)
  .record
    [("id", inspect b), ("index", inspect b.index), ("name", inspect b.name),
     ("size", inspect b.size), ("turbofanned", inspect b.isTurbofanned),
     ("prediction", inspect b.prediction), ("offset", inspect (t.blob.offsetOf b)),
     ("blob_size", inspect (t.blob.sizeOf b)), ("entry", inspect (c.start - t.base)),
     ("kind", inspect c.kind), ("pool", inspect (c.constantPool - t.base)),
     ("ranges", inspect c.handlers.ranges.length), ("returns", inspect returns),
     ("static", inspect (c.start == t.base + t.blob.offsetOf b))]

/-- The builtins of some numbers, and the ones at some offsets from the start of the blob. -/
def survey (t : Builtins) (registry : CodeRegistry) (numbers : List Nat) (offsets : List Int) :
    Datum :=
  let at_ (offset : Int) : Datum :=
    let pc := (t.base + offset).toNat
    inspect (t.lookup pc, (registry.lookup pc).bind (·.builtin))
  .record
    [("rows", .list (numbers.map fun i => inspect ((Builtin.ofIndex? i).map t.surveyOne))),
     ("at", .list (offsets.map at_)),
     ("count", inspect Builtin.count), ("handler", inspect Builtin.entryHandlerOffset),
     ("installed", inspect registry.size), ("left", inspect (t.uninstall registry).size)]

end Builtins

end ScriptEngine

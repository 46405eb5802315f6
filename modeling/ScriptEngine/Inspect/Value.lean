import ScriptEngine.Datum
import ScriptEngine.Text.Hex
import ScriptEngine.Value.Word

namespace ScriptEngine

/-- All sixteen digits of a word. -/
def Word.digits (w : Word) : String :=
  let digits := Text.hexDigits w.bits.toNat
  String.ofList (List.replicate (16 - digits.length) '0') ++ digits

/-- Each value with what tests and readers say about its word, and the first of the values that has
the same word. -/
def Value.survey (values : List Value) : Datum :=
  let words := values.map (·.word)
  .list (values.map fun v =>
    let w := v.word
    .record
      [("raw", inspect w.digits), ("debug", inspect v),
       ("is", inspect
         [w.isUndefined, w.isNull, w.isHole, w.isTermination, w.isRaised, w.isBool, w.isSmi,
          w.isObject, w.isNullish, w.isCatchable]),
       ("bool", inspect w.bool?), ("smi", inspect w.smi?), ("object", inspect w.object?),
       ("first_equal", inspect (words.idxOf w))])

end ScriptEngine

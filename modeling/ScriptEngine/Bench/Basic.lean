import ScriptEngine.Datum

namespace ScriptEngine

/-- Answers of a bench to commands in order. -/
def Bench.run {κ σ : Type} (obey : κ → σ → Datum × σ) (s : σ) : List κ → List Datum
  | [] => []
  | command :: rest =>
    let (answer, s) := obey command s
    answer :: Bench.run obey s rest

end ScriptEngine

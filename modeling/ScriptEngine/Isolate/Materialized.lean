import ScriptEngine.Heap.Roots
import ScriptEngine.Code.Basic
import ScriptEngine.Table

namespace ScriptEngine

/-- Objects made for optimized frames that are about to be given up, by frame pointer. -/
abbrev MaterializedObjects := Table Address (List Value)

namespace MaterializedObjects

variable {μ : Type → Type} [Monad μ]

def visitRoots (visit : RootVisitor μ) (m : MaterializedObjects) : μ MaterializedObjects :=
  m.mapM fun (fp, objects) => do
    return (fp, ← visit.list .materializedObjects "materialized object" objects)

end MaterializedObjects

end ScriptEngine

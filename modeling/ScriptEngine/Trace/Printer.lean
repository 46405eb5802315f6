import ScriptEngine.Failure

namespace ScriptEngine

/-- Renders traces line by line. Producing a line can run embedder code, which can ask for another
rendering: the first such request gets what the outermost one has so far, a request inside that one
is fatal. -/
structure Printer where
  /-- Renderings in progress. -/
  level : Nat := 0
  incomplete : String := ""
  deriving DecidableEq

/-- A line, the renderings that producing it asks for, and whether producing it fails then. -/
inductive TraceLine
  | mk (text : String) (requests : List (List TraceLine)) (fails : Bool)

def TraceLine.ofText (text : String) : TraceLine := .mk text [] false

inductive RenderFailure
  | fatal (e : FatalError)
  /-- A line could not be produced. -/
  | line

/-- What a request gave, and the level after it. -/
structure NestedRender where
  level : Nat
  result : Except RenderFailure String

structure Rendering where
  result : Except RenderFailure String
  /-- Renderings asked for while lines were produced, in order. -/
  nested : List NestedRender
  printer : Printer

namespace Printer

/-- Lowers the level, however a rendering ended. -/
def leave (p : Printer) : Printer := { p with level := p.level - 1 }

mutual

def render (p : Printer) (lines : List TraceLine) : Rendering :=
  let entered := { p with level := p.level + 1 }
  match p.level with
  | 0 =>
    match renderLines { entered with incomplete := "" } lines with
    | (true, nested, p) => ⟨.ok p.incomplete, nested, { p with incomplete := "" }.leave⟩
    | (false, nested, p) => ⟨.error .line, nested, p.leave⟩
  | 1 => ⟨.ok p.incomplete, [], entered.leave⟩
  | n => ⟨.error (.fatal (.stackTraceDoubleFault n)), [], entered.leave⟩

/-- Appends lines until one fails. -/
def renderLines (p : Printer) : List TraceLine → Bool × List NestedRender × Printer
  | [] => (true, [], p)
  | .mk text requests fails :: rest =>
    let (nested, p) := answer p requests
    if fails then (false, nested, p)
    else
      let (done, later, p) := renderLines { p with incomplete := p.incomplete ++ text ++ "\n" } rest
      (done, nested ++ later, p)

/-- Renders on behalf of a line, one request after the other. -/
def answer (p : Printer) : List (List TraceLine) → List NestedRender × Printer
  | [] => ([], p)
  | lines :: rest =>
    let r := render p lines
    let (later, p) := answer r.printer rest
    (r.nested ++ ⟨r.printer.level, r.result⟩ :: later, p)

end

end Printer

end ScriptEngine

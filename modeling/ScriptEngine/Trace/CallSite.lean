import ScriptEngine.Value
import ScriptEngine.Script

namespace ScriptEngine

/-- The promise combinator whose element an async entry stands for. -/
inductive Combinator
  | all
  | allSettled
  | any
  deriving DecidableEq

def Combinator.name : Combinator → String
  | all => "Promise.all"
  | allSettled => "Promise.allSettled"
  | any => "Promise.any"

/-- An entry of a stack trace. -/
structure CallSite where
  /-- As found on the stack, poisoned or not. -/
  ownReceiver : Value
  /-- As found on the stack, poisoned or not. -/
  ownFunction : Value
  functionName : String
  script : Option Script
  /-- A bytecode offset; for builtins an offset in their instructions. -/
  codeOffset : Nat
  sourcePosition : Option Nat
  isAsync : Bool
  /-- Strict code was seen up to here, so function and receiver are hidden. -/
  isStrict : Bool
  isConstructor : Bool
  /-- The combinator, and the index of the element. -/
  combinator : Option (Combinator × Nat)

namespace CallSite

def receiver (s : CallSite) : Value := if s.isStrict then .undefined else s.ownReceiver

def function (s : CallSite) : Value := if s.isStrict then .undefined else s.ownFunction

def scriptName (s : CallSite) : Option String := s.script.map (·.name)

def lineAndColumn (s : CallSite) : Option (Nat × Nat) := do
  let script ← s.script
  let position ← s.sourcePosition
  return script.lineAndColumn position

def shownName (s : CallSite) : String :=
  if s.functionName.isEmpty then "<anonymous>" else s.functionName

/-- Where the entry is, in parentheses. -/
def place (s : CallSite) : String :=
  match s.scriptName, s.lineAndColumn with
  | some script, some (line, column) => s!"({script}:{line}:{column})"
  | some script, none => s!"({script})"
  | none, _ => "(native)"

def text (s : CallSite) : String :=
  match s.combinator with
  | some (combinator, index) => s!"async {combinator.name} (index {index})"
  | none =>
    (if s.isAsync then "async " else "") ++ (if s.isConstructor then "new " else "") ++
      s!"{s.shownName} {s.place}"

end CallSite

/-- A header, and one line for every entry. -/
def CallSite.lines (header : String) (sites : List CallSite) : List String :=
  header :: sites.map fun s => s!"    at {s.text}"

end ScriptEngine

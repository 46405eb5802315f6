import ScriptEngine.BinarySearch

namespace ScriptEngine

/-- Positions in a script count bytes; lines and columns count from one. -/
structure Script where
  name : String
  source : String

namespace Script

/-- Byte offsets of the newline characters of a text that starts at byte `start`. -/
def newlines (start : Nat) : List Char → List Nat
  | [] => []
  | c :: cs =>
    let rest := newlines (start + c.utf8Size) cs
    if c = '\n' then start :: rest else rest

/-- Offsets are 32 bits wide. -/
def lineEnds (s : Script) : List Nat := (newlines 0 s.source.toList).map (· % 4294967296)

/-- Line and column of a position. A newline belongs to the line that it ends. -/
def lineAndColumn (s : Script) (position : Nat) : Nat × Nat :=
  let lineStart := match BinarySearch.last? (· < position) s.lineEnds with
    | none => 0
    | some last => last + 1
  (BinarySearch.partitionPoint (· < position) s.lineEnds + 1, position - lineStart + 1)

end Script

/-- A range of a script to which an exception is attributed. -/
structure Location where
  script : Script
  start : Nat
  stop : Nat

namespace Location

/-- The range of one position. -/
def point (script : Script) (position : Nat) : Location := ⟨script, position, position + 1⟩

def lineAndColumn (l : Location) : Nat × Nat := l.script.lineAndColumn l.start

def text (l : Location) : String :=
  let (line, column) := l.lineAndColumn
  s!"{l.script.name}:{line}:{column}"

end Location

end ScriptEngine

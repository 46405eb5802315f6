import ScriptEngine.BinarySearch

namespace ScriptEngine

theorem SourcePositions.ordered_nil : BinarySearch.Ordered (·.1) ([] : List (Nat × Nat)) := .nil

/-- Pairs of a code offset and the source position of the code from there on, by offset. -/
structure SourcePositions where
  entries : List (Nat × Nat) := []
  ordered : BinarySearch.Ordered (·.1) entries := by exact SourcePositions.ordered_nil

namespace SourcePositions

/-- Inserts after the entries of equal or smaller offset. -/
def add (t : SourcePositions) (offset position : Nat) : SourcePositions where
  entries := BinarySearch.insertAfter (·.1 ≤ offset) t.entries (offset, position)
  ordered := t.ordered.insertAfter_le (offset, position)

/-- The position of the last entry at or before the offset. -/
def lookup (t : SourcePositions) (offset : Nat) : Option Nat :=
  (BinarySearch.last? (·.1 ≤ offset) t.entries).map (·.2)

end SourcePositions

end ScriptEngine

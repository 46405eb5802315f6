import ScriptEngine.Blob.Format

namespace ScriptEngine

/-- A blob whose code section is at `base`, and the number of the first builtin's code; the
others are numbered on from there. -/
structure Builtins where
  blob : Blob
  base : Address
  firstNumber : Nat

namespace Builtins

def code (t : Builtins) (b : Builtin) : Code :=
  ⟨t.firstNumber + b.index, t.base + t.blob.offsetOf b, b.description⟩

def codes (t : Builtins) : List Code := Builtin.all.map t.code

/-- Installs every builtin at the address that the blob's table gives it. -/
def install (blob : Blob) (base : Address) (registry : CodeRegistry) : Builtins × CodeRegistry :=
  let t : Builtins := ⟨blob, base, registry.installed⟩
  (t, Builtin.all.foldl (fun r b => (r.insertAt b.description (t.code b).start).2) registry)

/-- The builtin whose instructions hold an address. -/
def lookup (t : Builtins) (pc : Address) : Option Builtin :=
  (t.codes.find? (·.contains pc)).bind (·.builtin)

/-- Takes every builtin out of a registry. -/
def uninstall (t : Builtins) (registry : CodeRegistry) : CodeRegistry :=
  t.codes.foldl (fun r c => (r.remove c.start).2) registry

end Builtins

end ScriptEngine

import ScriptEngine.Code.Registry
import ScriptEngine.Failure
import ScriptEngine.Stack.Segment

namespace ScriptEngine

inductive FrameKind
  | entry
  | constructEntry
  | exit
  | interpreted
  | baseline
  | optimized
  | builtin
  | stub
  | continuationWithCatch
  | native
  deriving DecidableEq

/-- Kinds that execute managed code. -/
def FrameKind.isManaged : FrameKind → Bool
  | interpreted | baseline | optimized | builtin => true
  | _ => false

/-- The kind of a managed frame by its code. -/
def Code.managedKind (c : Code) : FrameKind :=
  match c.kind, c.builtin with
  | .builtin, some .interpreterEntry => .interpreted
  | .builtin, some .interpreterEnterAtBytecode => .interpreted
  | .baseline, _ => .baseline
  | .maglev, _ => .optimized
  | .turbofan, _ => .optimized
  | .builtin, _ => .builtin
  | .stub, _ => .builtin

/-- The typed view of a frame: its marker together with the code at its pc. -/
structure Frame where
  raw : RawFrame
  /-- The code that holds the pc. -/
  code : Option Code
  segment : Nat
  kind : FrameKind

namespace Frame

/-- Fails on a managed frame whose pc is in no code. -/
def view (codes : CodeRegistry) (segment : Nat) (raw : RawFrame) : Walk Frame :=
  let code := codes.lookup raw.pc
  let typed (kind : FrameKind) : Walk Frame := .ok ⟨raw, code, segment, kind⟩
  match raw.marker, code with
  | .entry, _ => typed .entry
  | .constructEntry, _ => typed .constructEntry
  | .exit, _ => typed .exit
  | .stub, _ => typed .stub
  | .continuationWithCatch, _ => typed .continuationWithCatch
  | .native, _ => typed .native
  | .managed, some c => typed c.managedKind
  | .managed, none => breach (.managedFrameWithoutCode raw.pc)

def fp (f : Frame) : Address := f.raw.fp
def sp (f : Frame) : Address := f.raw.sp
def pc (f : Frame) : Address := f.raw.pc

/-- The offset of the pc in the frame's code, zero without code. -/
def pcOffset (f : Frame) : Nat := (f.code.map (·.pcOffset f.pc)).getD 0

def isManaged (f : Frame) : Bool := f.kind.isManaged

/-- An optimized frame of the top tier. -/
def isTurbofan (f : Frame) : Bool :=
  f.kind == .optimized && f.code.all (·.kind != .maglev)

/-- The bytecode offset of an interpreted or baseline frame; baseline code maps its pc. -/
def bytecodeOffset (f : Frame) : Nat :=
  match f.code with
  | some c =>
    if c.kind == .baseline then (c.bytecodeOffsetForPc f.pc).getD f.raw.bytecodeOffset
    else f.raw.bytecodeOffset
  | none => f.raw.bytecodeOffset

/-- The innermost guarded range at the bytecode offset of an interpreted or baseline frame. -/
def coveringRange (f : Frame) : Option RangeEntry :=
  f.raw.bytecode.bind (·.handlers.lookupRange f.bytecodeOffset)

/-- Where the registers of an interpreted or baseline frame end. -/
def registersSp (f : Frame) : Address :=
  f.fp - interpreterFixedSize - f.raw.registers.length * wordSize

/-- The handler offset for the call that an optimized frame returns from. -/
def returnHandler (f : Frame) : Option Nat :=
  f.code.bind (·.handlers.lookupReturn f.pcOffset)

/-- Where the slots of the frame's code end. -/
def slotsSp (f : Frame) : Address :=
  f.fp + fixedSizeAboveFp - ((f.code.map (·.stackSlots)).getD 0) * wordSize

/-- The handler offset for the call that a stub frame returns from. -/
def stubHandler (f : Frame) : Option Nat :=
  (f.code.filter (·.catchesInStub)).bind (·.handlers.lookupReturn f.pcOffset)

/-- The answer of the first frame that has one. Frames after it are not looked at. -/
def firstAnswer {α : Type} (codes : CodeRegistry) (segment : Nat) (answer : Frame → Option α) :
    List RawFrame → Walk (Option α)
  | [] => .ok none
  | raw :: rest => do
    let f ← view codes segment raw
    match answer f with
    | some a => return some a
    | none => firstAnswer codes segment answer rest

end Frame

/-- The views of a segment's frames, innermost first. -/
def StackSegment.views (g : StackSegment) (codes : CodeRegistry) : Walk (List Frame) :=
  g.innermostFirst.mapM (Frame.view codes g.id)

end ScriptEngine

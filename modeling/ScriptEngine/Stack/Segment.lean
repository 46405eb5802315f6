import ScriptEngine.Stack.Frame

namespace ScriptEngine

/-- The highest address of the first segment. -/
def stackBase : Address := 0x7ff000000000

/-- Address space of one segment. -/
def segmentSpan : Nat := 0x100000

inductive SegmentState
  | active
  | inactive
  | suspended
  | retired
  deriving DecidableEq

/-- Frames are listed outermost first. -/
structure StackSegment where
  id : Nat
  base : Address
  cursor : Address
  frames : List RawFrame := []
  state : SegmentState := .active
  parent : Option Nat := none

namespace StackSegment

/-- A fresh active segment. -/
def fresh (id : Nat) (base : Address) (parent : Option Nat) : StackSegment :=
  { id, base, cursor := base, parent }

/-- The segment that every stack starts with. -/
def root : StackSegment := fresh 0 stackBase none

/-- The frame that a push makes when the cursor is at `cursor`. -/
def place (cursor : Address) (s : FrameSpec) : RawFrame :=
  let fp := cursor - fixedSizeAboveFp
  let top := if s.isOptimized then fp + fixedSizeAboveFp else fp
  { s.frame with callerSp := cursor, fp := fp, sp := top - s.frame.slots * wordSize }

def push (g : StackSegment) (s : FrameSpec) : RawFrame × StackSegment :=
  let frame := place g.cursor s
  (frame, { g with cursor := frame.sp, frames := g.frames ++ [frame] })

def pop (g : StackSegment) : Option RawFrame × StackSegment :=
  match g.frames.getLast? with
  | none => (none, g)
  | some frame => (some frame, { g with cursor := frame.callerSp, frames := g.frames.dropLast })

def frameAt? (g : StackSegment) (fp : Address) : Option RawFrame :=
  g.frames.find? (·.fp == fp)

/-- Changes the first of some frames that has the frame pointer. -/
def modifyFirst (fp : Address) (f : RawFrame → RawFrame) : List RawFrame → List RawFrame
  | [] => []
  | r :: rest => if r.fp = fp then f r :: rest else r :: modifyFirst fp f rest

def modifyFrame (g : StackSegment) (fp : Address) (f : RawFrame → RawFrame) : StackSegment :=
  { g with frames := modifyFirst fp f g.frames }

/-- The frames, innermost first. -/
def innermostFirst (g : StackSegment) : List RawFrame := g.frames.reverse

end StackSegment

/-- The segments of a thread by id, and the id of the active one. -/
structure SegmentedStack where
  segments : List StackSegment := [.root]
  active : Nat := 0

namespace SegmentedStack

def segment? (s : SegmentedStack) (id : Nat) : Option StackSegment :=
  s.segments.find? (·.id == id)

def activeSegment (s : SegmentedStack) : StackSegment := (s.segment? s.active).getD .root

def modifySegment (s : SegmentedStack) (id : Nat) (f : StackSegment → StackSegment) :
    SegmentedStack :=
  { s with segments := s.segments.map fun g => if g.id = id then f g else g }

def modifyActive (s : SegmentedStack) (f : StackSegment → StackSegment) : SegmentedStack :=
  s.modifySegment s.active f

def push (s : SegmentedStack) (spec : FrameSpec) : RawFrame × SegmentedStack :=
  let (frame, g) := s.activeSegment.push spec
  (frame, s.modifyActive fun _ => g)

def pop (s : SegmentedStack) : Option RawFrame × SegmentedStack :=
  let (frame, g) := s.activeSegment.pop
  (frame, s.modifyActive fun _ => g)

/-- Frames on all segments that are not retired. -/
def depth (s : SegmentedStack) : Nat :=
  ((s.segments.filter (·.state != .retired)).flatMap (·.frames)).length

/-- Takes stack space for a native scope, and gives its address. -/
def reserveNative (s : SegmentedStack) (size : Nat) : Address × SegmentedStack :=
  (s.activeSegment.cursor - size, s.modifyActive fun g => { g with cursor := g.cursor - size })

/-- Gives back the space of a native scope if nothing was put on the stack after it. -/
def releaseNative (s : SegmentedStack) (address : Address) (size : Nat) : SegmentedStack :=
  s.modifyActive fun g => if g.cursor = address then { g with cursor := g.cursor + size } else g

/-- Starts a segment that returns to the active one. -/
def switchToNew (s : SegmentedStack) : Nat × SegmentedStack :=
  let id := s.segments.length
  let left := s.modifyActive fun g => { g with state := .inactive }
  (id,
   { segments := left.segments ++ [.fresh id (stackBase - id * segmentSpan) (some s.active)]
     active := id })

/-- Leaves the active segment in a state, and makes its parent active. -/
def leave (s : SegmentedStack) (state : SegmentState) : Option (Nat × SegmentedStack) := do
  let parent ← s.activeSegment.parent
  let _ ← s.segment? parent
  let left := s.modifyActive fun g => { g with state := state }
  return (parent, { left.modifySegment parent fun g => { g with state := .active } with
    active := parent })

/-- Retires the active segment. -/
def switchToParent (s : SegmentedStack) : Option (Nat × SegmentedStack) := s.leave .retired

/-- Leaves the active segment with its frames. -/
def suspendToParent (s : SegmentedStack) : Option (Nat × SegmentedStack) := s.leave .suspended

end SegmentedStack

end ScriptEngine

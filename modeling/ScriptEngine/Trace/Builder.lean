import ScriptEngine.Stack.Activation

namespace ScriptEngine

/-- Which of the innermost frames a trace leaves out. -/
inductive Skip
  | none
  /-- The innermost visible frame. -/
  | first
  /-- All up to the first activation of a function, with it. -/
  | untilSeen (function : Value)
  deriving DecidableEq

structure TraceOptions where
  limit : Nat := 10
  skip : Skip := .none
  showBuiltins : Bool := false
  async : Bool := true

/-- A trace that is being built, innermost call site first. From the first strict function on, sites
are poisoned. -/
structure TraceBuilder where
  limit : Nat
  skip : Skip
  /-- The skip has not run its course. -/
  isSkipping : Bool
  showBuiltins : Bool
  seenStrict : Bool := false
  sites : List CallSite := []

namespace TraceBuilder

def start (o : TraceOptions) : TraceBuilder where
  limit := o.limit
  skip := o.skip
  isSkipping := o.skip != .none
  showBuiltins := o.showBuiltins

def size (b : TraceBuilder) : Nat := b.sites.length

def isFull (b : TraceBuilder) : Bool := b.limit ≤ b.size

/-- User functions are visible; with builtins shown, everything is. -/
def isVisible (b : TraceBuilder) (heap : Heap) (function : Value) (code : ActiveCode) : Bool :=
  b.showBuiltins || (!code.isBuiltin && (heap.function? function).any (·.info.isUserCode))

/-- Whether a visible function passes the skip, and whether the skip goes on. -/
def passSkip (b : TraceBuilder) (function : Value) : Bool × TraceBuilder :=
  if b.isSkipping then
    match b.skip with
    | .none => (true, b)
    | .first => (false, { b with isSkipping := false })
    | .untilSeen last => (false, { b with isSkipping := function != last })
  else (true, b)

/-- Records whether a function is strict. -/
def noteStrict (b : TraceBuilder) (heap : Heap) (function : Value) : TraceBuilder :=
  { b with seenStrict := b.seenStrict || (heap.function? function).any (·.info.isStrict) }

def add (b : TraceBuilder) (s : CallSite) : TraceBuilder := { b with sites := b.sites ++ [s] }

/-- Name and script of an activation. Builtin code that runs no function has its own name. -/
def nameAndScript (heap : Heap) (a : Activation) : String × Option Script :=
  match heap.function? a.function, a.code with
  | some f, _ => (f.info.name, f.info.script)
  | none, .code c => ((c.builtin.map (·.name)).getD "", none)
  | none, .bytecode _ => ("", none)

def addActivation (b : TraceBuilder) (heap : Heap) (a : Activation) : TraceBuilder :=
  if b.isFull || !b.isVisible heap a.function a.code then b
  else
    let (passes, b) := b.passSkip a.function
    if passes then
      let b := b.noteStrict heap a.function
      let (name, script) := nameAndScript heap a
      b.add
        { ownReceiver := a.receiver
          ownFunction := a.function
          functionName := name
          script := script
          codeOffset := a.offset
          sourcePosition := a.sourcePosition
          isAsync := false
          isStrict := b.seenStrict
          isConstructor := a.isConstructor
          combinator := none }
    else b

/-- Adds the function that a suspended generator will go on with. -/
def addSuspended (b : TraceBuilder) (heap : Heap) (g : Generator) : TraceBuilder :=
  match heap.function? g.function with
  | none => b
  | some f =>
    let code := ActiveCode.bytecode f.info.bytecode
    if b.isFull || !b.isVisible heap g.function code then b
    else
      let b := b.noteStrict heap g.function
      b.add
        { ownReceiver := g.receiver
          ownFunction := g.function
          functionName := f.info.name
          script := f.info.script
          codeOffset := g.position
          sourcePosition := code.sourcePosition g.position
          isAsync := true
          isStrict := b.seenStrict
          isConstructor := false
          combinator := none }

/-- Adds an element of a combinator. Element functions are numbered from one by identity hash. -/
def addElement (b : TraceBuilder) (heap : Heap) (element : Value) (combinator : Combinator)
    (combinatorFunction : Value) : TraceBuilder :=
  if b.isFull then b
  else
    match heap.function? element with
    | none => b
    | some f =>
      b.add
        { ownReceiver := .undefined
          ownFunction := combinatorFunction
          functionName := combinator.name
          script := none
          codeOffset := 0
          sourcePosition := none
          isAsync := true
          isStrict := false
          isConstructor := false
          combinator := some (combinator, f.identityHash - 1) }

/-- Adds the activations of a frame, innermost first. -/
def addFrame (b : TraceBuilder) (heap : Heap) (f : Frame) : TraceBuilder :=
  if f.isManaged then (f.activations heap).reverse.foldl (·.addActivation heap ·) b else b

/-- Adds frames, innermost first, until the builder is full. -/
def addFrames (codes : CodeRegistry) (heap : Heap) (segment : Nat) :
    List RawFrame → TraceBuilder → Walk TraceBuilder
  | [], b => .ok b
  | raw :: rest, b => do
    let f ← Frame.view codes segment raw
    if b.isFull then return b else addFrames codes heap segment rest (b.addFrame heap f)

/-- Adds the frames of a segment. -/
def addSegment (b : TraceBuilder) (codes : CodeRegistry) (heap : Heap) (g : StackSegment) :
    Walk TraceBuilder :=
  addFrames codes heap g.id g.innermostFirst b

end TraceBuilder

end ScriptEngine

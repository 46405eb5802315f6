import Mathlib.Data.List.Basic
import ScriptEngine.Isolate.Basic

namespace ScriptEngine

variable {σ : Type} {α β : Type}

/-- What a stateful computation returns does not depend on the state. -/
def Yields (act : StateM σ α) (a : α) : Prop := ∀ s, (act.run s).1 = a

theorem yields_pure (a : α) : Yields (pure a : StateM σ α) a := fun _ => rfl

theorem Yields.bind {act : StateM σ α} {f : α → StateM σ β} {a : α} {b : β} (h : Yields act a)
    (hf : Yields (f a) b) : Yields (act >>= f) b := by
  intro s
  have hrun : (act >>= f).run s = (f (act.run s).1).run (act.run s).2 := rfl
  rw [hrun, h s]
  exact hf _

theorem Yields.map {act : StateM σ α} {a : α} (h : Yields act a) (f : α → β) :
    Yields (f <$> act) (f a) := fun s => congrArg f (h s)

theorem yields_mapM {act : α → StateM σ β} {f : α → β} (h : ∀ a, Yields (act a) (f a))
    (l : List α) : Yields (l.mapM act) (l.map f) := by
  induction l with
  | nil => exact yields_pure []
  | cons a rest ih =>
    rw [List.mapM_cons]
    exact (h a).bind (ih.bind (yields_pure _))

/-- The visitor replaces each value by its image, wherever it finds it. -/
def RootVisitor.Maps (visit : RootVisitor (StateM σ)) (f : Value → Value) : Prop :=
  ∀ kind description v, Yields (visit kind description v) (f v)

/-- A value after objects have moved. -/
def Value.moved (move : ObjectId → ObjectId) : Value → Value
  | .object id => .object (move id)
  | v => v

theorem RootVisitor.maps_relocate (move : ObjectId → ObjectId) :
    (RootVisitor.relocate move).Maps (Value.moved move) := by
  intro kind description v s
  cases v <;> rfl

section Maps

variable {visit : RootVisitor (StateM σ)} {f : Value → Value} (h : visit.Maps f)
include h

theorem RootVisitor.Maps.option (kind : RootKind) (description : String) (o : Option Value) :
    Yields (visit.option kind description o) (o.map f) := by
  cases o with
  | none => exact yields_pure none
  | some v => exact (h kind description v).map some

theorem RootVisitor.Maps.list (kind : RootKind) (description : String) (l : List Value) :
    Yields (visit.list kind description l) (l.map f) := yields_mapM (h kind description) l

end Maps

/-- What holds of each part holds of all parts in a row. -/
theorem flatMap_map_values {g : α → α} {values : α → List Value} {f : Value → Value}
    (h : ∀ a, values (g a) = (values a).map f) (l : List α) :
    (l.map g).flatMap values = (l.flatMap values).map f := by
  rw [List.flatMap_map, List.map_flatMap]
  exact List.flatMap_congr fun a _ => h a

def PendingHandler.mapValues (f : Value → Value) (h : PendingHandler) : PendingHandler :=
  { h with context := f h.context }

def TryCatch.mapValues (f : Value → Value) (s : TryCatch) : TryCatch :=
  { s with exception := s.exception.map f, message := s.message.map f }

def TryCatch.values (s : TryCatch) : List Value := s.exception.toList ++ s.message.toList

def RawFrame.mapValues (f : Value → Value) (frame : RawFrame) : RawFrame :=
  { frame with
    function := f frame.function
    receiver := f frame.receiver
    context := f frame.context
    exception := f frame.exception
    registers := frame.registers.map f }

def RawFrame.values (frame : RawFrame) : List Value :=
  frame.function :: frame.receiver :: frame.context :: frame.exception :: frame.registers

def StackSegment.mapValues (f : Value → Value) (g : StackSegment) : StackSegment :=
  { g with frames := g.frames.map (RawFrame.mapValues f) }

def StackSegment.values (g : StackSegment) : List Value := g.frames.flatMap RawFrame.values

namespace ThreadState

/-- The thread with each of its values replaced by its image. -/
def mapValues (f : Value → Value) (t : ThreadState) : ThreadState :=
  { t with
    pending := t.pending.map f
    message := t.message.map f
    context := f t.context
    scheduled := t.scheduled.map f
    microtask := f t.microtask
    pendingHandler := t.pendingHandler.map (PendingHandler.mapValues f)
    joins := t.joins.map f
    tryCatches := t.tryCatches.map (TryCatch.mapValues f)
    promises := t.promises.map f
    stack := { t.stack with segments := t.stack.segments.map (StackSegment.mapValues f) } }

/-- All values that the thread holds. -/
def values (t : ThreadState) : List Value :=
  t.pending.toList ++ t.message.toList ++ [t.context] ++ t.scheduled.toList ++ [t.microtask] ++
    (t.pendingHandler.map (·.context)).toList ++ t.joins ++ t.tryCatches.flatMap TryCatch.values ++
    t.promises ++ t.stack.segments.flatMap StackSegment.values

section Visits

variable {visit : RootVisitor (StateM σ)} {f : Value → Value} (h : visit.Maps f)
include h

theorem yields_visitHandler (handler : PendingHandler) :
    Yields (visitHandler visit handler) (handler.mapValues f) :=
  (h _ _ handler.context).bind (yields_pure _)

theorem yields_visitTryCatch (s : TryCatch) : Yields (visitTryCatch visit s) (s.mapValues f) :=
  (h.option _ _ s.exception).bind ((h.option _ _ s.message).bind (yields_pure _))

theorem yields_visitFrame (frame : RawFrame) :
    Yields (visitFrame visit frame) (frame.mapValues f) := by
  refine (h _ _ frame.function).bind ?_
  refine (h _ _ frame.receiver).bind ?_
  refine (h _ _ frame.context).bind ?_
  refine (h _ _ frame.exception).bind ?_
  exact (h.list _ _ frame.registers).bind (yields_pure _)

theorem yields_visitSegment (g : StackSegment) : Yields (visitSegment visit g) (g.mapValues f) :=
  (yields_mapM (yields_visitFrame h) g.frames).bind (yields_pure _)

/-- A visit to the roots of a thread replaces each of its values once, and nothing else. -/
theorem yields_visitRoots (t : ThreadState) : Yields (t.visitRoots visit) (t.mapValues f) := by
  refine (h.option _ _ t.pending).bind ?_
  refine (h.option _ _ t.message).bind ?_
  refine (h _ _ t.context).bind ?_
  refine (h.option _ _ t.scheduled).bind ?_
  refine (h _ _ t.microtask).bind ?_
  unfold mapValues
  cases t.pendingHandler
  case' none => refine (yields_pure none).bind ?_
  case' some handler => refine ((yields_visitHandler h handler).map some).bind ?_
  all_goals
    refine (h.list _ _ t.joins).bind ?_
    refine (yields_mapM (yields_visitTryCatch h) t.tryCatches).bind ?_
    refine (h.list _ _ t.promises).bind ?_
    exact (yields_mapM (yields_visitSegment h) t.stack.segments).bind (yields_pure _)

end Visits

theorem values_mapValues (f : Value → Value) (t : ThreadState) :
    (t.mapValues f).values = t.values.map f := by
  have hoption : ∀ o : Option Value, (o.map f).toList = o.toList.map f :=
    fun o => by cases o <;> rfl
  have hscope : ∀ s : TryCatch, (s.mapValues f).values = s.values.map f := by
    intro s
    simp only [TryCatch.values, TryCatch.mapValues, hoption, List.map_append]
  have hframe : ∀ frame : RawFrame, (frame.mapValues f).values = frame.values.map f := fun _ => rfl
  have hsegment : ∀ g : StackSegment, (g.mapValues f).values = g.values.map f :=
    fun g => flatMap_map_values hframe g.frames
  have hhandler : ((t.pendingHandler.map (PendingHandler.mapValues f)).map (·.context)).toList =
      (t.pendingHandler.map (·.context)).toList.map f := by
    cases t.pendingHandler <;> rfl
  unfold values mapValues
  simp only [List.map_append, List.map_cons, List.map_nil, hoption, hhandler,
    flatMap_map_values hscope, flatMap_map_values hsegment]

end ThreadState

def GlobalHandles.mapValues (f : Value → Value) (g : GlobalHandles) : GlobalHandles :=
  { g with slots := g.slots.map fun slot => slot.map f }

def GlobalHandles.values (g : GlobalHandles) : List Value := g.slots.flatMap (·.toList)

def MaterializedObjects.mapValues (f : Value → Value) (m : MaterializedObjects) :
    MaterializedObjects :=
  m.map fun (fp, objects) => (fp, objects.map f)

def MaterializedObjects.values (m : MaterializedObjects) : List Value := m.flatMap (·.2)

def Intrinsics.values (i : Intrinsics) : List Value :=
  [i.promiseAll, i.promiseAllSettled, i.promiseAny]

/-- The functions and receivers of the activations that were inlined into the code. -/
def Code.values (c : Code) : List Value :=
  c.description.deoptPoints.flatMap fun point =>
    point.frames.flatMap fun frame => [frame.function, frame.receiver]

theorem GlobalHandles.values_mapValues (f : Value → Value) (g : GlobalHandles) :
    (g.mapValues f).values = g.values.map f :=
  flatMap_map_values (fun slot => by cases slot <;> rfl) g.slots

theorem MaterializedObjects.values_mapValues (f : Value → Value) (m : MaterializedObjects) :
    (m.mapValues f).values = m.values.map f := by
  unfold values mapValues
  rw [List.flatMap_map, List.map_flatMap]

namespace Isolate

/-- The isolate with the values of its threads, global handles and materialized objects replaced by
their images, and with everything else as it is. -/
def mapRoots (f : Value → Value) (i : Isolate) : Isolate :=
  { i with
    threads := i.threads.map fun (t, d) => (t, { d with top := d.top.mapValues f })
    subsystems := { i.subsystems with
      globalHandles := i.subsystems.globalHandles.map (GlobalHandles.mapValues f) }
    materialized := i.materialized.mapValues f }

/-- The values that a visit to the roots sees. -/
def visitedValues (i : Isolate) : List Value :=
  (i.threads.flatMap fun (_, d) => d.top.values) ++
    (i.subsystems.globalHandles.toList.flatMap GlobalHandles.values) ++ i.materialized.values

/-- The values outside the heap that it passes by: the combinator functions, and what code keeps of
the activations inlined into it. -/
def unvisitedValues (i : Isolate) : List Value :=
  i.intrinsics.values ++ i.codes.codes.flatMap Code.values

/-- All values that the isolate holds outside the heap. -/
def heldValues (i : Isolate) : List Value := i.visitedValues ++ i.unvisitedValues

theorem yields_visitRoots {visit : RootVisitor (StateM σ)} {f : Value → Value} (h : visit.Maps f)
    (i : Isolate) : Yields (i.visitRoots visit) (i.mapRoots f) := by
  have hthread : ∀ entry : ThreadId × ThreadData,
      Yields (do return (entry.1, { entry.2 with top := ← entry.2.top.visitRoots visit }))
        (entry.1, { entry.2 with top := entry.2.top.mapValues f }) :=
    fun entry => (ThreadState.yields_visitRoots h entry.2.top).bind (yields_pure _)
  have hobjects : ∀ entry : Address × List Value,
      Yields (do return (entry.1, ← visit.list .materializedObjects "materialized object" entry.2))
        (entry.1, entry.2.map f) :=
    fun entry => (h.list _ _ entry.2).bind (yields_pure _)
  refine (yields_mapM hthread i.threads).bind ?_
  unfold mapRoots
  cases i.subsystems.globalHandles
  case' none => refine (yields_pure none).bind ?_
  case' some handles =>
    have hslots := yields_mapM (h.option .globalHandles "global handle") handles.slots
    refine ((hslots.bind (yields_pure (handles.mapValues f))).map some).bind ?_
  all_goals exact (yields_mapM hobjects i.materialized).bind (yields_pure _)

theorem visitedValues_mapRoots (f : Value → Value) (i : Isolate) :
    (i.mapRoots f).visitedValues = i.visitedValues.map f := by
  have hthreads : ((i.mapRoots f).threads.flatMap fun (_, d) => d.top.values) =
      (i.threads.flatMap fun (_, d) => d.top.values).map f :=
    flatMap_map_values (fun entry => entry.2.top.values_mapValues f) i.threads
  have hhandles : (i.mapRoots f).subsystems.globalHandles.toList.flatMap GlobalHandles.values =
      (i.subsystems.globalHandles.toList.flatMap GlobalHandles.values).map f := by
    rw [← flatMap_map_values (GlobalHandles.values_mapValues f)]
    unfold mapRoots
    cases i.subsystems.globalHandles <;> rfl
  have hobjects : (i.mapRoots f).materialized.values = i.materialized.values.map f :=
    i.materialized.values_mapValues f
  unfold visitedValues
  rw [hthreads, hhandles, hobjects, List.map_append, List.map_append]

end Isolate

/-- Values stay as they are exactly if no object among them moves. -/
theorem map_moved_eq_self {move : ObjectId → ObjectId} {l : List Value} :
    l = l.map (Value.moved move) ↔ ∀ id, Value.object id ∈ l → move id = id := by
  induction l with
  | nil => simp
  | cons v rest ih =>
    have hhead : v = v.moved move ↔ ∀ id, Value.object id = v → move id = id := by
      cases v <;> simp [Value.moved, eq_comm]
    rw [List.map_cons, List.cons.injEq, ih, hhead]
    simp only [List.mem_cons, or_imp, forall_and]

/-- A relocation reaches every value of the threads, global handles and materialized objects, and
nothing else. All references move exactly if those that it passes by stay where they are. -/
theorem Isolate.relocation_reaches (i : Isolate) (move : ObjectId → ObjectId) (n : Nat) :
    let i' := ((i.visitRoots (RootVisitor.relocate move)).run n).1
    i' = i.mapRoots (Value.moved move) ∧
      i'.visitedValues = i.visitedValues.map (Value.moved move) ∧
      i'.unvisitedValues = i.unvisitedValues ∧
      (i'.heldValues = i.heldValues.map (Value.moved move) ↔
        ∀ id, Value.object id ∈ i.unvisitedValues → move id = id) := by
  have hmap : ((i.visitRoots (RootVisitor.relocate move)).run n).1 =
      i.mapRoots (Value.moved move) :=
    i.yields_visitRoots (RootVisitor.maps_relocate move) n
  rw [hmap]
  have hvisited := i.visitedValues_mapRoots (Value.moved move)
  have hunvisited : (i.mapRoots (Value.moved move)).unvisitedValues = i.unvisitedValues := rfl
  refine ⟨rfl, hvisited, hunvisited, ?_⟩
  unfold heldValues
  rw [hvisited, hunvisited, List.map_append, List.append_cancel_left_eq]
  exact map_moved_eq_self

end ScriptEngine

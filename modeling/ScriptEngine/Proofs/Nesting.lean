import ScriptEngine.Exception.Prediction
import ScriptEngine.Proofs.CutStacks

namespace ScriptEngine

namespace FrameSpec

/-- The frames that can be described. -/
inductive Built : FrameSpec → Prop
  | entry (code : Code) : Built (FrameSpec.entry code)
  | constructEntry (code : Code) : Built (FrameSpec.constructEntry code)
  | exit (code : Code) : Built (FrameSpec.exit code)
  | interpreted (code : Code) (function : Value) (bytecode : Bytecode) (offset : Nat) :
      Built (FrameSpec.interpreted code function bytecode offset)
  | baseline (code : Code) (function : Value) (bytecode : Bytecode) (offset : Nat) :
      Built (FrameSpec.baseline code function bytecode offset)
  | optimized (code : Code) (function : Value) (pcOffset : Nat) :
      Built (FrameSpec.optimized code function pcOffset)
  | builtin (code : Code) (function : Value) (pcOffset : Nat) :
      Built (FrameSpec.builtin code function pcOffset)
  | stub (code : Code) (pcOffset : Nat) : Built (FrameSpec.stub code pcOffset)
  | continuationWithCatch (code : Code) : Built (FrameSpec.continuationWithCatch code)
  | native (pc : Address) : Built (FrameSpec.native pc)
  | withReceiver {s : FrameSpec} (h : Built s) (v : Value) : Built (s.withReceiver v)
  | withContext {s : FrameSpec} (h : Built s) (v : Value) : Built (s.withContext v)
  | withRegister {s : FrameSpec} (h : Built s) (i : Nat) (v : Value) : Built (s.withRegister i v)
  | asConstructor {s : FrameSpec} (h : Built s) : Built s.asConstructor

/-- The stack space that a frame takes. -/
def extent (s : FrameSpec) : Nat :=
  (if s.isOptimized then 0 else fixedSizeAboveFp) + s.frame.slots * wordSize

variable {s : FrameSpec}

theorem Built.handler_eq (h : s.Built) : s.frame.handler = none := by
  induction h with
  | withReceiver _ _ ih => exact ih
  | withContext _ _ ih => exact ih
  | withRegister _ _ _ ih => exact ih
  | asConstructor _ ih => exact ih
  | _ => rfl

/-- Even the smallest optimized frame has room for the fixed part. -/
theorem Built.le_extent (h : s.Built) : fixedSizeAboveFp ≤ s.extent := by
  induction h with
  | optimized code =>
    have : fixedSizeAboveFp / wordSize ≤ max code.stackSlots (fixedSizeAboveFp / wordSize) :=
      Nat.le_max_right _ _
    simp only [extent, FrameSpec.optimized, fixedSizeAboveFp, wordSize] at this ⊢
    omega
  | withReceiver _ _ ih => exact ih
  | withContext _ _ ih => exact ih
  | withRegister _ _ _ ih => exact ih
  | asConstructor _ ih => exact ih
  | _ => exact Nat.le_add_right _ _

/-- A frame with enough room lies right below the cursor. -/
theorem place_bounds {cursor : Address} (h : s.Built) (room : s.extent ≤ cursor) :
    (StackSegment.place cursor s).fp + fixedSizeAboveFp = cursor ∧
      (StackSegment.place cursor s).sp ≤ (StackSegment.place cursor s).fp := by
  have hfixed := h.le_extent
  unfold extent at hfixed room
  unfold StackSegment.place
  simp only [fixedSizeAboveFp, wordSize] at hfixed room ⊢
  cases hopt : s.isOptimized <;>
    simp only [hopt, if_true, if_false, Bool.false_eq_true] at * <;> lia

end FrameSpec

/-- What takes stack space. -/
inductive StackItem
  | frame (r : RawFrame)
  | scope (s : TryCatch)

namespace StackItem

def top : StackItem → Address
  | frame r => r.fp
  | scope s => s.address

def bottom : StackItem → Address
  | frame r => r.sp
  | scope s => s.address

def isEntry : StackItem → Bool
  | frame r => r.marker.isEntry
  | scope _ => false

def isScope : StackItem → Bool
  | frame _ => false
  | scope _ => true

/-- Entry frames have handlers, and scopes are some. -/
def isHandler (x : StackItem) : Bool := x.isEntry || x.isScope

/-- Where the next item goes. Items are listed newest first. -/
def cursor : List StackItem → Address
  | [] => stackBase
  | x :: _ => x.bottom

def frames (items : List StackItem) : List RawFrame :=
  items.filterMap fun
    | frame r => some r
    | scope _ => none

def scopes (items : List StackItem) : List TryCatch :=
  items.filterMap fun
    | frame _ => none
    | scope s => some s

def entries (items : List StackItem) : List RawFrame := (frames items).filter (·.marker.isEntry)

variable {items older : List StackItem} {r : RawFrame} {s : TryCatch}

@[simp] theorem frames_frame : frames (frame r :: items) = r :: frames items := rfl

@[simp] theorem frames_scope : frames (scope s :: items) = frames items := rfl

@[simp] theorem scopes_frame : scopes (frame r :: items) = scopes items := rfl

@[simp] theorem scopes_scope : scopes (scope s :: items) = s :: scopes items := rfl

@[simp] theorem entries_frame : entries (frame r :: items) =
    if r.marker.isEntry then r :: entries items else entries items := by
  simp [entries, List.filter_cons]

@[simp] theorem entries_scope : entries (scope s :: items) = entries items := rfl

theorem mem_frames : r ∈ frames items ↔ frame r ∈ items := by
  induction items with
  | nil => simp [frames]
  | cons x items ih => cases x <;> simp [ih]

theorem mem_scopes : s ∈ scopes items ↔ scope s ∈ items := by
  induction items with
  | nil => simp [scopes]
  | cons x items ih => cases x <;> simp [ih]

theorem mem_entries : r ∈ entries items ↔ frame r ∈ items ∧ r.marker.isEntry := by
  simp [entries, mem_frames]

@[simp] theorem frames_append (newer : List StackItem) :
    frames (newer ++ older) = frames newer ++ frames older :=
  List.filterMap_append

@[simp] theorem scopes_append (newer : List StackItem) :
    scopes (newer ++ older) = scopes newer ++ scopes older :=
  List.filterMap_append

@[simp] theorem entries_append (newer : List StackItem) :
    entries (newer ++ older) = entries newer ++ entries older := by
  simp [entries]

theorem find?_isHandler_eq_none :
    items.find? isHandler = none ↔ entries items = [] ∧ scopes items = [] := by
  induction items with
  | nil => exact ⟨fun _ => ⟨rfl, rfl⟩, fun _ => rfl⟩
  | cons x items ih =>
    cases x with
    | scope s => simp [isHandler, isScope]
    | frame r => cases hr : r.marker.isEntry <;> simp [isHandler, isEntry, isScope, hr, ih]

/-- Every item was put where the cursor was then. -/
inductive Stacked : List StackItem → Prop
  | nil : Stacked []
  | frame {items : List StackItem} {r : RawFrame} (h : Stacked items)
      (callerSp : r.callerSp = cursor items) (fp : r.fp < cursor items) (sp : r.sp ≤ r.fp)
      (handler : r.handler = if r.marker.isEntry then some (entries items).length else none) :
      Stacked (.frame r :: items)
  | scope {items : List StackItem} {s : TryCatch} (h : Stacked items)
      (address : s.address + TryCatch.size = cursor items) : Stacked (.scope s :: items)

theorem Stacked.bottom_le_top (h : Stacked items) : ∀ x ∈ items, x.bottom ≤ x.top := by
  induction h with
  | nil => simp
  | frame _ _ _ sp _ ih => exact List.forall_mem_cons.mpr ⟨sp, ih⟩
  | scope _ _ ih => exact List.forall_mem_cons.mpr ⟨Nat.le_refl _, ih⟩

theorem Stacked.top_lt_cursor {x : StackItem} (h : Stacked (x :: items)) :
    x.top < cursor items := by
  cases h with
  | frame _ _ fp _ _ => exact fp
  | scope _ address =>
    have hsize : 0 < TryCatch.size := by decide
    simp only [top]
    lia

theorem Stacked.tail {x : StackItem} (h : Stacked (x :: items)) : Stacked items := by
  cases h with
  | frame h => exact h
  | scope h => exact h

theorem Stacked.of_append {newer : List StackItem} (h : Stacked (newer ++ older)) :
    Stacked older := by
  induction newer with
  | nil => exact h
  | cons x newer ih => exact ih h.tail

theorem Stacked.cursor_le (h : Stacked items) : ∀ x ∈ items, cursor items ≤ x.bottom := by
  induction items with
  | nil => simp
  | cons y items ih =>
    intro x hx
    rcases List.mem_cons.mp hx with rfl | hx
    · exact Nat.le_refl _
    · have hrest := ih h.tail x hx
      have hlt := h.top_lt_cursor
      have hle := h.bottom_le_top y List.mem_cons_self
      simp only [cursor]
      lia

theorem Stacked.descending (h : Stacked items) :
    items.Pairwise fun newer older => newer.top < older.bottom := by
  induction items with
  | nil => exact .nil
  | cons x items ih =>
    refine List.pairwise_cons.mpr ⟨fun y hy => ?_, ih h.tail⟩
    exact Nat.lt_of_lt_of_le h.top_lt_cursor (h.tail.cursor_le y hy)

/-- Of an older and a newer item, the newer one has the lower address. -/
theorem Stacked.bottom_lt {newer : List StackItem} {x y : StackItem}
    (h : Stacked (newer ++ x :: older)) (hy : y ∈ older) : x.top < y.bottom :=
  (List.pairwise_cons.mp h.of_append.descending).1 y hy

end StackItem

namespace SegmentedStack

/-- The first segment alone, with some frames, outermost first. -/
def lone (frames : List RawFrame) (cursor : Address) : SegmentedStack :=
  { segments := [{ StackSegment.root with cursor, frames }] }

variable {frames : List RawFrame} {cursor : Address}

@[simp] theorem activeSegment_lone :
    (lone frames cursor).activeSegment = { StackSegment.root with cursor, frames } := rfl

theorem push_lone (spec : FrameSpec) : (lone frames cursor).push spec =
    (StackSegment.place cursor spec,
      lone (frames ++ [StackSegment.place cursor spec]) (StackSegment.place cursor spec).sp) := rfl

theorem modifyFrames_lone (f : List RawFrame → List RawFrame) :
    ((lone frames cursor).modifyActive fun g => { g with frames := f g.frames }) =
      lone (f frames) cursor := rfl

theorem pop_lone (r : RawFrame) :
    (lone (frames ++ [r]) cursor).pop = (some r, lone frames r.callerSp) := by
  simp [pop, StackSegment.pop, lone, modifyActive, modifySegment, activeSegment, segment?,
    StackSegment.root, StackSegment.fresh]

theorem pop_lone_nil : (lone [] cursor).pop = (none, lone [] cursor) := rfl

theorem reserveNative_lone (size : Nat) : (lone frames cursor).reserveNative size =
    (cursor - size, lone frames (cursor - size)) := rfl

theorem releaseNative_lone (size : Nat) :
    (lone frames cursor).releaseNative cursor size = lone frames (cursor + size) := by
  rw [releaseNative, lone, modifyActive, modifySegment]
  simp [lone, StackSegment.root, StackSegment.fresh]

end SegmentedStack

namespace ThreadState

open StackItem

/-- Frames are pushed and popped, scopes registered and unregistered, and what is taken away is the
newest item every time. The items are those that are left. -/
inductive Nested : ThreadState → List StackItem → Prop
  | empty {t : ThreadState} (stack : t.stack = {}) (handlers : t.handlers = [])
      (tryCatches : t.tryCatches = []) : Nested t []
  | push {t : ThreadState} {items : List StackItem} {spec : FrameSpec} (h : Nested t items)
      (built : spec.Built) (room : spec.extent ≤ t.stack.activeSegment.cursor) :
      Nested (t.pushFrame spec).2 (.frame (t.placed spec) :: items)
  | pop {t : ThreadState} {items : List StackItem} {r : RawFrame}
      (h : Nested t (.frame r :: items)) : Nested t.popFrame.2 items
  /-- There is no frame to pop. -/
  | popNothing {t : ThreadState} {items : List StackItem} (h : Nested t items)
      (nothing : frames items = []) : Nested t.popFrame.2 items
  | register {t : ThreadState} {items : List StackItem} (h : Nested t items) (scope : TryCatch)
      (room : TryCatch.size ≤ t.stack.activeSegment.cursor) :
      Nested (t.registerTryCatch scope).2 (.scope (t.registerTryCatch scope).1 :: items)
  | unregister {t t' : ThreadState} {items : List StackItem} {s s' : TryCatch}
      (h : Nested t (.scope s :: items)) (taken : t.unregisterTryCatch s.id = .ok (s', t')) :
      Nested t' items

/-- The segment, the handlers and the scopes of a thread are those of the items. -/
structure LaidOut (t : ThreadState) (items : List StackItem) : Prop where
  stack : t.stack = .lone (frames items).reverse (cursor items)
  handlers : t.handlers = ((entries items).map (·.sp)).reverse
  tryCatches : t.tryCatches = (scopes items).reverse
  stacked : Stacked items

namespace LaidOut

variable {t : ThreadState} {items : List StackItem} {r : RawFrame} {s : TryCatch}

theorem cursor_eq (h : t.LaidOut items) : t.stack.activeSegment.cursor = cursor items := by
  rw [h.stack]
  rfl

theorem activeFrames_eq (h : t.LaidOut items) : t.stack.activeFrames = frames items := by
  rw [h.stack]
  simp [SegmentedStack.activeFrames, StackSegment.innermostFirst]

theorem push (h : t.LaidOut items) {spec : FrameSpec} (built : spec.Built)
    (room : spec.extent ≤ t.stack.activeSegment.cursor) :
    (t.pushFrame spec).2.LaidOut (.frame (t.placed spec) :: items) := by
  have hcursor := h.cursor_eq
  rw [hcursor] at room
  obtain ⟨hfp, hsp⟩ := FrameSpec.place_bounds built room
  have hfixed : 0 < fixedSizeAboveFp := by decide
  have hbelow : (StackSegment.place (cursor items) spec).fp < cursor items := by lia
  have hhandler : (StackSegment.place (cursor items) spec).handler = none := built.handler_eq
  have hmarker : (StackSegment.place (cursor items) spec).marker = spec.frame.marker := rfl
  have hlength : t.handlers.length = (entries items).length := by simp [h.handlers]
  cases hentry : spec.frame.marker.isEntry with
  | false =>
    have hplaced : t.placed spec = StackSegment.place (cursor items) spec := by
      simp [placed, hentry, hcursor]
    have hpush : (t.pushFrame spec).2 = { t with stack := (t.stack.push spec).2 } := by
      simp [pushFrame, hentry]
    rw [hplaced, hpush]
    refine ⟨?_, ?_, h.tryCatches, ?_⟩
    · rw [h.stack, SegmentedStack.push_lone, frames_frame, List.reverse_cons]
      rfl
    · simp [hmarker, hentry, h.handlers]
    · refine .frame h.stacked rfl hbelow hsp ?_
      simp [hmarker, hentry, hhandler]
  | true =>
    have hplaced : t.placed spec = { StackSegment.place (cursor items) spec with
        handler := some (entries items).length } := by
      simp [placed, hentry, hcursor, hlength]
    have hstack : (t.pushFrame spec).2.stack = (t.stack.push spec).2.modifyActive fun g =>
        { g with frames := g.frames.dropLast ++ [t.placed spec] } := by
      simp only [pushFrame, hentry, placed, if_true]
      rfl
    rw [hplaced] at hstack ⊢
    refine ⟨?_, ?_, ?_, ?_⟩
    · rw [hstack, h.stack, SegmentedStack.push_lone,
        SegmentedStack.modifyFrames_lone (f := fun frames => frames.dropLast ++ [_]),
        List.dropLast_concat, frames_frame, List.reverse_cons]
      rfl
    · simp [pushFrame, hentry, hmarker, h.stack, h.handlers, SegmentedStack.push_lone]
    · simp [pushFrame, hentry, h.tryCatches]
    · refine .frame h.stacked rfl hbelow hsp ?_
      simp [hmarker, hentry]

theorem pop (h : t.LaidOut (.frame r :: items)) :
    t.popFrame.1 = some r ∧ t.popFrame.2.LaidOut items := by
  obtain ⟨hcaller, hhandler, hstacked⟩ : r.callerSp = cursor items ∧
      r.handler = (if r.marker.isEntry then some (entries items).length else none) ∧
      Stacked items := by
    cases h.stacked with
    | frame hstacked hcaller _ _ hhandler => exact ⟨hcaller, hhandler, hstacked⟩
  have hpop : t.stack.pop = (some r, .lone (frames items).reverse (cursor items)) := by
    rw [h.stack, frames_frame, List.reverse_cons, SegmentedStack.pop_lone, hcaller]
  have hhandlers := h.handlers
  cases hentry : r.marker.isEntry with
  | false =>
    rw [hentry, if_neg Bool.false_ne_true] at hhandler
    simp only [entries_frame, hentry, Bool.false_eq_true, if_false] at hhandlers
    refine ⟨by simp [popFrame, hpop], ⟨?_, ?_, ?_, hstacked⟩⟩
    · simp [popFrame, hpop]
    · simp [popFrame, hpop, hhandler, hhandlers]
    · simpa [popFrame, hpop] using h.tryCatches
  | true =>
    rw [hentry, if_pos rfl] at hhandler
    simp only [entries_frame, hentry, if_true, List.map_cons, List.reverse_cons] at hhandlers
    refine ⟨by simp [popFrame, hpop], ⟨?_, ?_, ?_, hstacked⟩⟩
    · simp [popFrame, hpop]
    · simp [popFrame, hpop, hhandler, hhandlers]
    · simpa [popFrame, hpop] using h.tryCatches

theorem popNothing (h : t.LaidOut items) (nothing : frames items = []) :
    t.popFrame = (none, t) := by
  have hpop : t.stack.pop = (none, t.stack) := by
    rw [h.stack, nothing]
    exact SegmentedStack.pop_lone_nil
  simp [popFrame, hpop]

theorem register (h : t.LaidOut items) (scope : TryCatch)
    (room : TryCatch.size ≤ t.stack.activeSegment.cursor) :
    (t.registerTryCatch scope).2.LaidOut (.scope (t.registerTryCatch scope).1 :: items) := by
  have haddress : (t.registerTryCatch scope).1.address = cursor items - TryCatch.size := by
    rw [← h.cursor_eq]
    rfl
  have hstack : (t.registerTryCatch scope).2.stack = (t.stack.reserveNative TryCatch.size).2 := rfl
  rw [h.cursor_eq] at room
  refine ⟨?_, h.handlers, ?_, ?_⟩
  · rw [hstack, h.stack, SegmentedStack.reserveNative_lone, ← haddress]
    rfl
  · simp [registerTryCatch, h.tryCatches]
  · refine .scope h.stacked ?_
    rw [haddress]
    exact Nat.sub_add_cancel room

theorem unregister (h : t.LaidOut (.scope s :: items)) :
    ∃ t', t.unregisterTryCatch s.id = .ok (s, t') ∧ t'.LaidOut items := by
  obtain ⟨haddress, hstacked⟩ : s.address + TryCatch.size = cursor items ∧ Stacked items := by
    cases h.stacked with
    | scope hstacked haddress => exact ⟨haddress, hstacked⟩
  refine ⟨{ t with
      tryCatches := t.tryCatches.dropLast
      stack := t.stack.releaseNative s.address TryCatch.size }, ?_, ?_, h.handlers, ?_, hstacked⟩
  · simp [unregisterTryCatch, h.tryCatches]
  · rw [h.stack, frames_scope, ← haddress]
    exact SegmentedStack.releaseNative_lone TryCatch.size
  · simp [h.tryCatches]

end LaidOut

variable {t : ThreadState} {items : List StackItem}

theorem Nested.laidOut (h : t.Nested items) : t.LaidOut items := by
  induction h with
  | empty stack handlers tryCatches => exact ⟨stack, handlers, tryCatches, .nil⟩
  | push _ built room ih => exact ih.push built room
  | pop _ ih => exact ih.pop.2
  | popNothing _ nothing ih =>
    rw [ih.popNothing nothing]
    exact ih
  | register _ scope room ih => exact ih.register scope room
  | unregister _ taken ih =>
    obtain ⟨t', htaken, hlaid⟩ := ih.unregister
    cases htaken.symm.trans taken
    exact hlaid

section HandlerType

variable {e : Value}

theorem LaidOut.managedHandler_eq (h : t.LaidOut items) :
    t.managedHandler = (entries items).head?.map (·.sp) := by
  rw [managedHandler, h.handlers, List.getLast?_reverse, List.head?_map]

theorem LaidOut.topTryCatch_eq (h : t.LaidOut items) :
    t.topTryCatch = (scopes items).head? := by
  rw [topTryCatch, h.tryCatches, List.getLast?_reverse]

theorem LaidOut.handlerType_none (h : t.LaidOut items) (he : e.isCatchable)
    (hnone : items.find? isHandler = none) : t.handlerType e = .none := by
  obtain ⟨hentries, hscopes⟩ := find?_isHandler_eq_none.mp hnone
  simp [handlerType, h.managedHandler_eq, h.topTryCatch_eq, he, hentries, hscopes]

theorem LaidOut.handlerType_scope (h : t.LaidOut items) (he : e.isCatchable) {s : TryCatch}
    (hfind : items.find? isHandler = some (.scope s)) : t.handlerType e = .external := by
  obtain ⟨-, newer, older, rfl, hnewer⟩ := List.find?_eq_some_iff_append.mp hfind
  have hnone : newer.find? isHandler = none := by simpa using hnewer
  obtain ⟨hentries, hscopes⟩ := find?_isHandler_eq_none.mp hnone
  have hbelow : ∀ r ∈ entries older, s.address < r.sp := fun r hr =>
    h.stacked.bottom_lt (mem_entries.mp hr).1
  unfold handlerType
  rw [h.managedHandler_eq, h.topTryCatch_eq]
  cases hr : entries older with
  | nil => simp [hentries, hscopes, hr]
  | cons r rest =>
    have hlt : s.address < r.sp := hbelow r (hr ▸ List.mem_cons_self)
    simp [hentries, hscopes, hr, he, Option.filter, hlt]

theorem LaidOut.handlerType_frame (h : t.LaidOut items) (he : e.isCatchable) {r : RawFrame}
    (hfind : items.find? isHandler = some (.frame r)) : t.handlerType e = .managed := by
  obtain ⟨hentry, newer, older, rfl, hnewer⟩ := List.find?_eq_some_iff_append.mp hfind
  have hnone : newer.find? isHandler = none := by simpa using hnewer
  obtain ⟨hentries, hscopes⟩ := find?_isHandler_eq_none.mp hnone
  have hmarker : r.marker.isEntry := by simpa [isHandler, isEntry, isScope] using hentry
  unfold handlerType
  rw [h.managedHandler_eq, h.topTryCatch_eq]
  cases hs : scopes older with
  | nil => simp [hentries, hscopes, hs, he, hmarker, Option.filter]
  | cons s rest =>
    have hmem : s ∈ scopes older := hs ▸ List.mem_cons_self
    have hlt : r.fp < s.address := h.stacked.bottom_lt (mem_scopes.mp hmem)
    have hle : r.sp ≤ r.fp := h.stacked.bottom_le_top (.frame r) (by simp)
    have hge : ¬s.address < r.sp := by lia
    simp [hentries, hscopes, hs, he, hmarker, Option.filter, hge]

theorem LaidOut.handlerType_uncatchable (h : t.LaidOut items) (he : e.isCatchable = false) :
    t.handlerType e = if scopes items = [] then .none else .external := by
  unfold handlerType
  rw [h.managedHandler_eq, h.topTryCatch_eq]
  cases scopes items <;> cases entries items <;> simp [he]

theorem LaidOut.handlerType_eq (h : t.LaidOut items) (he : e.isCatchable) :
    match items.find? isHandler with
    | some (.scope _) => t.handlerType e = .external
    | some (.frame _) => t.handlerType e = .managed
    | none => t.handlerType e = .none := by
  split
  case h_1 hfind => exact h.handlerType_scope he hfind
  case h_2 hfind => exact h.handlerType_frame he hfind
  case h_3 hfind => exact h.handlerType_none he hfind

end HandlerType

/-- Addresses tell the order of what lies on the stack. -/
structure AddressOrder (t : ThreadState) (items : List StackItem) : Prop where
  frames : t.stack.activeFrames = frames items
  scopes : t.tryCatches = (scopes items).reverse
  within : ∀ x ∈ items, x.bottom ≤ x.top
  descending : items.Pairwise fun newer older => newer.top < older.bottom
  cursor : t.stack.activeSegment.cursor = cursor items
  /-- Whatever newest item is taken away, the cursor is where it was before the item came. -/
  undoFrame : ∀ r older, items = .frame r :: older → ∃ t', t.popFrame = (some r, t') ∧
    t'.Nested older ∧ ∀ before : ThreadState, before.Nested older →
      t'.stack.activeSegment.cursor = before.stack.activeSegment.cursor
  undoScope : ∀ s older, items = .scope s :: older → ∃ t', t.unregisterTryCatch s.id = .ok (s, t') ∧
    t'.Nested older ∧ ∀ before : ThreadState, before.Nested older →
      t'.stack.activeSegment.cursor = before.stack.activeSegment.cursor
  external : ∀ e : Value, e.isCatchable →
    (t.handlerType e = .external ↔ ∃ s, items.find? isHandler = some (.scope s))
  managed : ∀ e : Value, e.isCatchable →
    (t.handlerType e = .managed ↔ ∃ r, items.find? isHandler = some (.frame r))
  none : ∀ e : Value, e.isCatchable →
    (t.handlerType e = .none ↔ items.find? isHandler = none)
  uncatchable : ∀ e : Value, e.isCatchable = false →
    (t.handlerType e = .external ↔ ∃ s, .scope s ∈ items)

theorem Nested.addressOrder (h : t.Nested items) : t.AddressOrder items where
  frames := h.laidOut.activeFrames_eq
  scopes := h.laidOut.tryCatches
  within := h.laidOut.stacked.bottom_le_top
  descending := h.laidOut.stacked.descending
  cursor := h.laidOut.cursor_eq
  undoFrame := by
    rintro r older rfl
    obtain ⟨hpopped, hrest⟩ := h.laidOut.pop
    refine ⟨t.popFrame.2, Prod.ext hpopped rfl, h.pop, fun before hbefore => ?_⟩
    rw [hrest.cursor_eq, hbefore.laidOut.cursor_eq]
  undoScope := by
    rintro s older rfl
    obtain ⟨t', htaken, hrest⟩ := h.laidOut.unregister
    refine ⟨t', htaken, h.unregister htaken, fun before hbefore => ?_⟩
    rw [hrest.cursor_eq, hbefore.laidOut.cursor_eq]
  external := by
    intro e he
    have hkind := h.laidOut.handlerType_eq he
    split at hkind <;> simp [*]
  managed := by
    intro e he
    have hkind := h.laidOut.handlerType_eq he
    split at hkind <;> simp [*]
  none := by
    intro e he
    have hkind := h.laidOut.handlerType_eq he
    split at hkind <;> simp [*]
  uncatchable := by
    intro e he
    rw [h.laidOut.handlerType_uncatchable he]
    simp [← mem_scopes, List.eq_nil_iff_forall_not_mem]

end ThreadState

namespace ThreadState.NestingExample

open StackItem

def code : Code := { number := 0, start := 4096, description := { kind := .builtin, size := 128 } }

def entered : ThreadState := (pushFrame {} (.entry code)).2

def guarded : ThreadState := (entered.registerTryCatch { id := 0 }).2

def frame : RawFrame := placed {} (.entry code)

def scope : TryCatch := (entered.registerTryCatch { id := 0 }).1

theorem nested_entered : entered.Nested [.frame frame] :=
  .push (.empty rfl rfl rfl) (.entry code) (by decide)

theorem nested_guarded : guarded.Nested [.scope scope, .frame frame] :=
  .register nested_entered { id := 0 } (by decide)

/-- The scope is innermost until it is taken away. -/
theorem addressOrder_scope_in_entry : guarded.handlerType (.smi 7) = .external ∧
    ∃ left, guarded.unregisterTryCatch 0 = .ok (scope, left) ∧
      left.stack.activeSegment.cursor = entered.stack.activeSegment.cursor ∧
      left.handlerType (.smi 7) = .managed := by
  have hguarded := nested_guarded.addressOrder
  obtain ⟨left, htaken, hleft, hcursor⟩ := hguarded.undoScope _ _ rfl
  have hmanaged := (hleft.addressOrder.managed (.smi 7) rfl).mpr ⟨frame, rfl⟩
  exact ⟨(hguarded.external (.smi 7) rfl).mpr ⟨scope, rfl⟩, left, htaken,
    hcursor entered nested_entered, hmanaged⟩

end ThreadState.NestingExample

end ScriptEngine

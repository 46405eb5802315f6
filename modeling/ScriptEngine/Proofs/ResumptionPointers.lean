import ScriptEngine.Proofs.FrameOrigins

namespace ScriptEngine

namespace FrameSpec

variable {s : FrameSpec}

theorem Built.isOptimized_eq (h : s.Built) (marker : s.frame.marker ≠ .managed) :
    s.isOptimized = false := by
  induction h with
  | optimized => exact absurd rfl marker
  | withReceiver _ _ ih => exact ih marker
  | withContext _ _ ih => exact ih marker
  | withRegister _ _ _ ih => exact ih marker
  | asConstructor _ ih => exact ih marker
  | _ => rfl

theorem Built.slots_of_stub (h : s.Built) (marker : s.frame.marker = .stub) :
    s.frame.slots = typedSlots := by
  induction h with
  | stub => rfl
  | withReceiver _ _ ih => exact ih marker
  | withContext _ _ ih => exact ih marker
  | withRegister _ _ _ ih => exact ih marker
  | asConstructor _ ih => exact ih marker
  | _ => cases marker

/-- Only frames that are described with bytecode have some, and room for its registers. -/
theorem Built.slots_of_bytecode {b : Bytecode} (h : s.Built)
    (bytecode : s.frame.bytecode = some b) :
    s.isOptimized = false ∧
      s.frame.slots = interpreterFixedSize / wordSize + b.registerCount := by
  induction h with
  | interpreted => cases bytecode; exact ⟨rfl, rfl⟩
  | baseline => cases bytecode; exact ⟨rfl, rfl⟩
  | withReceiver _ _ ih => exact ih bytecode
  | withContext _ _ ih => exact ih bytecode
  | withRegister _ _ _ ih => exact ih bytecode
  | asConstructor _ ih => exact ih bytecode
  | _ => cases bytecode

theorem extent_of_plain (h : s.isOptimized = false) :
    s.extent = fixedSizeAboveFp + s.frame.slots * wordSize := by
  simp [extent, h]

theorem extent_of_optimized (h : s.isOptimized = true) : s.extent = s.frame.slots * wordSize := by
  simp [extent, h]

end FrameSpec

/-- A frame ends its extent below the place where it starts. -/
theorem StackSegment.place_sp (cursor : Address) (s : FrameSpec) :
    (place cursor s).sp = (place cursor s).fp + fixedSizeAboveFp - s.extent := by
  cases h : s.isOptimized
  · rw [FrameSpec.extent_of_plain h]
    simp only [place, h, Bool.false_eq_true, if_false]
    rw [Nat.add_comm _ fixedSizeAboveFp, Nat.add_sub_add_left]
  · rw [FrameSpec.extent_of_optimized h]
    simp only [place, h, if_true]

namespace RawFrame.IsFrom

variable {r : RawFrame} {spec : FrameSpec} {cursor : Address}

theorem marker_eq (h : r.IsFrom spec cursor) : r.marker = spec.frame.marker :=
  (congrArg RawFrame.marker h.blank :)

theorem fp_eq (h : r.IsFrom spec cursor) : r.fp = (StackSegment.place cursor spec).fp :=
  (congrArg RawFrame.fp h.blank :)

theorem slots_eq (h : r.IsFrom spec cursor) : r.slots = spec.frame.slots :=
  (congrArg RawFrame.slots h.blank :)

theorem bytecode_eq (h : r.IsFrom spec cursor) : r.bytecode = spec.frame.bytecode :=
  (congrArg RawFrame.bytecode h.blank :)

/-- The frame ends where it ended when it was pushed. -/
theorem sp_eq (h : r.IsFrom spec cursor) : r.sp = (StackSegment.place cursor spec).sp :=
  (congrArg RawFrame.sp h.blank :)

end RawFrame.IsFrom

theorem Code.isManaged_managedKind (code : Code) : code.managedKind.isManaged := by
  unfold managedKind
  split <;> rfl

namespace Frame

/-- The space from the return address down that dispatch takes a frame to fill. -/
def assumedExtent (f : Frame) : Nat :=
  match f.kind with
  | .optimized | .stub => ((f.code.map (·.stackSlots)).getD 0) * wordSize
  | .interpreted | .baseline =>
    fixedSizeAboveFp + interpreterFixedSize + f.raw.registers.length * wordSize
  | _ => fixedSizeAboveFp + f.raw.slots * wordSize

variable {f : Frame} {c : DispatchContext} {codes : CodeRegistry} {handlers : List Address}
  {position segment : Nat} {r : RawFrame} {spec : FrameSpec} {cursor : Address}

/-- Only the code of managed frames has a say in what kind they are. -/
theorem marker_of_unmanaged (h : (Frame.of codes segment r).kind.isManaged = false) :
    r.marker ≠ .managed ∨ (Frame.of codes segment r).kind = .native := by
  unfold Frame.of at h ⊢
  cases hm : r.marker
  case managed =>
    simp only [hm] at h ⊢
    cases hcode : codes.lookup r.pc with
    | none => exact .inr rfl
    | some code =>
      rw [hcode] at h
      exact absurd (code.isManaged_managedKind.symm.trans h) nofun
  all_goals exact .inl nofun

/-- A frame goes on where the space ends that dispatch takes it to fill. -/
theorem Resumes.sp_eq {resumption : Resumption} (h : f.Resumes c handlers position resumption)
    (plain : ¬f.IsEntry)
    (own : f.kind = .continuationWithCatch → f.sp = f.fp + fixedSizeAboveFp - f.assumedExtent) :
    resumption.handler.fp = f.fp ∧
      resumption.handler.sp = f.fp + fixedSizeAboveFp - f.assumedExtent := by
  have hregisters : f.kind = .interpreted ∨ f.kind = .baseline →
      f.registersSp = f.fp + fixedSizeAboveFp - f.assumedExtent := by
    intro hk
    rcases hk with hk | hk <;>
    · simp only [assumedExtent, hk, registersSp]
      rw [Nat.sub_sub, Nat.add_assoc, Nat.add_comm f.fp, Nat.add_sub_add_left]
  cases h with
  | entry kind => exact absurd kind plain
  | optimized kind => exact ⟨rfl, by simp only [assumedExtent, kind, slotsSp]⟩
  | stub kind => exact ⟨rfl, by simp only [assumedExtent, kind, slotsSp]⟩
  | interpreted kind => exact ⟨rfl, hregisters (.inl kind)⟩
  | baseline kind => exact ⟨rfl, hregisters (.inr kind)⟩
  | continuation kind => exact ⟨rfl, own kind⟩

/-- The slots of the frame's code. -/
def codeSlots (f : Frame) : Nat := (f.code.map (·.stackSlots)).getD 0

/-- What tells dispatch the space of a frame is right: the code of an optimized or a stub frame has
its slots, which count the fixed part, or the frame has the registers that its bytecode declares. -/
def IsSized (f : Frame) (spec : FrameSpec) : Prop :=
  match f.kind with
  | .optimized =>
    f.codeSlots =
      if spec.isOptimized then f.raw.slots else f.raw.slots + fixedSizeAboveFp / wordSize
  | .stub => f.codeSlots = FrameSpec.typedSlots + fixedSizeAboveFp / wordSize
  | .interpreted | .baseline =>
    ∃ b, f.raw.bytecode = some b ∧ f.raw.registers.length = b.registerCount
  | _ => True

theorem assumedExtent_optimized (origin : r.IsFrom spec cursor)
    (kind : (Frame.of codes segment r).kind = .optimized) :
    (Frame.of codes segment r).assumedExtent = spec.extent ↔
      (Frame.of codes segment r).IsSized spec := by
  simp only [assumedExtent, IsSized, codeSlots, kind]
  cases hoptimized : spec.isOptimized
  · rw [FrameSpec.extent_of_plain hoptimized, ← origin.slots_eq]
    simp only [Frame.of, fixedSizeAboveFp, wordSize, Bool.false_eq_true, if_false]
    omega
  · rw [FrameSpec.extent_of_optimized hoptimized, ← origin.slots_eq]
    simp only [Frame.of, wordSize, if_true]
    omega

/-- All stub frames have the same slots. -/
theorem assumedExtent_stub (origin : r.IsFrom spec cursor)
    (kind : (Frame.of codes segment r).kind = .stub) :
    (Frame.of codes segment r).assumedExtent = spec.extent ↔
      (Frame.of codes segment r).IsSized spec := by
  have hmarker : spec.frame.marker = .stub := by
    rw [← origin.marker_eq]
    rcases marker_of_unmanaged (by rw [kind]; rfl) with hm | hk
    · revert kind hm
      unfold Frame.of
      cases r.marker <;> simp [kindOf]
    · cases kind.symm.trans hk
  rw [FrameSpec.extent_of_plain (origin.built.isOptimized_eq (by simp [hmarker])),
    origin.built.slots_of_stub hmarker]
  simp only [assumedExtent, IsSized, codeSlots, kind]
  simp only [Frame.of, fixedSizeAboveFp, wordSize, FrameSpec.typedSlots]
  omega

/-- The slots of a frame with bytecode are those of the registers that it declares. -/
theorem assumedExtent_unoptimized {b : Bytecode} (origin : r.IsFrom spec cursor)
    (kind : (Frame.of codes segment r).kind = .interpreted ∨
      (Frame.of codes segment r).kind = .baseline)
    (bytecode : r.bytecode = some b) :
    (Frame.of codes segment r).assumedExtent = spec.extent ↔
      (Frame.of codes segment r).IsSized spec := by
  obtain ⟨hplain, hslots⟩ := origin.built.slots_of_bytecode (origin.bytecode_eq ▸ bytecode)
  have hextent : fixedSizeAboveFp + interpreterFixedSize + r.registers.length * wordSize =
      spec.extent ↔ r.registers.length = b.registerCount := by
    rw [FrameSpec.extent_of_plain hplain, hslots]
    simp only [fixedSizeAboveFp, interpreterFixedSize, wordSize]
    omega
  have hregisters : (∃ b, (Frame.of codes segment r).raw.bytecode = some b ∧
      (Frame.of codes segment r).raw.registers.length = b.registerCount) ↔
      r.registers.length = b.registerCount := by
    simp [Frame.of, bytecode]
  rcases kind with kind | kind <;>
  · simp only [assumedExtent, IsSized, kind]
    rw [hregisters]
    exact hextent

/-- The size of any other frame without managed code is taken from the frame. -/
theorem assumedExtent_unmanaged (origin : r.IsFrom spec cursor)
    (marker : r.marker ≠ .managed)
    (assumed : (Frame.of codes segment r).assumedExtent =
      fixedSizeAboveFp + r.slots * wordSize) :
    (Frame.of codes segment r).assumedExtent = spec.extent := by
  rw [origin.marker_eq] at marker
  rw [assumed, FrameSpec.extent_of_plain (origin.built.isOptimized_eq marker), origin.slots_eq]

/-- Dispatch has a frame that handles right if it is sized, and then only. -/
theorem assumedExtent_eq_iff (origin : r.IsFrom spec cursor)
    (handles : (Frame.of codes segment r).Handles) :
    (Frame.of codes segment r).assumedExtent = spec.extent ↔
      (Frame.of codes segment r).IsSized spec := by
  have hunmanaged : (Frame.of codes segment r).kind.isManaged = false →
      (Frame.of codes segment r).kind ≠ .native → r.marker ≠ .managed := fun hk hn =>
    (marker_of_unmanaged hk).resolve_right hn
  unfold Handles at handles
  cases kind : (Frame.of codes segment r).kind <;> simp only [kind] at handles hunmanaged
  case optimized => exact assumedExtent_optimized origin kind
  case stub => exact assumedExtent_stub origin kind
  case interpreted =>
    obtain ⟨b, bytecode, -⟩ := handles
    exact assumedExtent_unoptimized origin (.inl kind) bytecode
  case baseline =>
    obtain ⟨b, bytecode, -⟩ := handles
    exact assumedExtent_unoptimized origin (.inr kind) bytecode
  all_goals
    rw [assumedExtent_unmanaged origin (hunmanaged rfl (by decide))
      (by simp only [assumedExtent, kind]; rfl)]
    simp only [IsSized, kind]

end Frame

/-- Execution goes on in a frame that was pushed so when the cursor was there. The stack pointer is
the frame's own if the frame is sized, and then only. It is not above the frame pointer if dispatch
takes the frame to have the fixed part at least, and not below the frame if it takes it to have no
more space than it has. -/
structure PendingHandler.GoesOnIn (h : PendingHandler) (f : Frame) (spec : FrameSpec)
    (cursor : Address) : Prop where
  fp : h.fp = f.fp
  own : spec.extent < cursor → (h.sp = f.sp ↔ f.IsSized spec)
  notAbove : h.sp ≤ h.fp ↔ fixedSizeAboveFp ≤ f.assumedExtent
  notBelow : spec.extent < cursor → (f.sp ≤ h.sp ↔ f.assumedExtent ≤ spec.extent)

theorem Frame.Resumes.goesOnIn {codes : CodeRegistry} {segment : Nat} {r : RawFrame}
    {spec : FrameSpec} {cursor : Address} {c : DispatchContext} {handlers : List Address}
    {position : Nat} {resumption : Frame.Resumption}
    (h : (Frame.of codes segment r).Resumes c handlers position resumption)
    (handles : (Frame.of codes segment r).Handles) (plain : ¬(Frame.of codes segment r).IsEntry)
    (origin : r.IsFrom spec cursor) :
    resumption.handler.GoesOnIn (.of codes segment r) spec cursor := by
  have hsp : (Frame.of codes segment r).sp = r.fp + fixedSizeAboveFp - spec.extent := by
    rw [show (Frame.of codes segment r).sp = r.sp from rfl, origin.sp_eq, StackSegment.place_sp,
      origin.fp_eq]
  obtain ⟨hfp, hresume⟩ := h.sp_eq plain fun kind => by
    rw [(assumedExtent_eq_iff origin handles).mpr (by simp only [IsSized, kind])]
    exact hsp
  have hroom : spec.extent < cursor → spec.extent < r.fp + fixedSizeAboveFp := by
    intro hroom
    have hplace := (FrameSpec.place_bounds origin.built (Nat.le_of_lt hroom)).1
    rwa [origin.fp_eq, hplace]
  -- Both ends are counted down from the same address; with room neither count is cut off.
  have hends : ∀ {top assumed extent : Nat}, extent < top →
      (top - assumed = top - extent ↔ assumed = extent) ∧
        (top - extent ≤ top - assumed ↔ assumed ≤ extent) := by omega
  have habove : ∀ {fp fixed assumed : Nat}, fp + fixed - assumed ≤ fp ↔ fixed ≤ assumed := by omega
  refine ⟨hfp, fun room => ?_, ?_, fun room => ?_⟩
  · rw [hresume, hsp, ← assumedExtent_eq_iff origin handles]
    exact (hends (hroom room)).1
  · rw [hresume, hfp]
    exact habove
  · rw [hresume, hsp]
    exact (hends (hroom room)).2

/-- A frame that is asked to restart breaks a rule if managed code may catch the exception. -/
theorem DispatchContext.matchCatchable_of_ok {c : DispatchContext} {restart : Option Address}
    {handlers : List Address} {visited : Nat} {f : Frame} {found : Option HandlerMatch}
    (catchable : c.catchable = true) (h : c.matchFrame restart handlers visited f = .ok found) :
    c.matchCatchable handlers visited f = .ok found := by
  unfold matchFrame at h
  rw [if_pos catchable] at h
  split at h
  · rw [restartFrame, if_pos catchable] at h
    cases h
  · exact h

namespace Isolate

open DispatchContext

variable {t : ThreadId} {i i' : Isolate} {data : ThreadData} {v w : Value}

/-- An exception that managed code may catch goes on in the first frame that handles it. In one
other than an entry frame the stack pointer is the one that the frame had when it was pushed if the
frame is sized as dispatch takes it to be, and then only. -/
theorem goesOnIn_of_unwind (arises : data.top.Arises) (attached : i.thread? t = some data)
    (pending : data.top.pending = some v) (catchable : v.isCatchable = true)
    (running : i.terminationRequested = false) (handled : (unwind t).outcome i = (.ok w, i')) :
    ∃ data' handler, i'.thread? t = some data' ∧ data'.top.pendingHandler = some handler ∧
      ∃ p r spec cursor, data.top.stack.HasAt p r ∧ r.IsFrom spec cursor ∧
        (Frame.of i.codes p.id r).Handles ∧
        (∀ q ∈ p.before data.top.stack, ∀ segment, ¬(Frame.of i.codes segment q).Handles) ∧
        (¬(Frame.of i.codes p.id r).IsEntry →
          handler.GoesOnIn (.of i.codes p.id r) spec cursor) := by
  rcases unwind_cases t i with ⟨⟨e, he⟩, -⟩ |
    ⟨builtins, data₁, v₁, d, -, hattached, hpending, hstart, hresult, hthread⟩
  · rw [handled] at he
    cases he
  cases attached.symm.trans hattached
  cases pending.symm.trans hpending
  have hc : (i.dispatchContext builtins v).catchable = true := by
    simp [dispatchContext, catchable, running]
  rw [hc] at hstart
  obtain rfl : d = i.dispatch data.top := hstart
  rw [handled] at hresult hthread
  split at hresult
  case h_2 => cases hresult
  case h_1 hsearch =>
    obtain ⟨piles, hpiles⟩ := arises.piled
    obtain ⟨landing, place, known, passed, handles⟩ := Dispatch.exists_lands hpiles rfl hsearch
    rename_i p r m visited
    rw [Dispatch.searchFor_here place known passed handles] at hthread
    have hframe : r ∈ data.top.stack.framesOf p.id := by
      rw [show data.top.stack.framesOf p.id = _ from place.frames]
      exact List.mem_append_right _ List.mem_cons_self
    obtain ⟨spec, cursor, origin⟩ := arises.isPushed.framesOf r hframe
    have hmatch := matchCatchable_of_ok hc handles
    have hcode := Frame.hasCode_of i.codes p.id r
    refine ⟨_, m.handler, hthread, rfl, p, r, spec, cursor, place, origin,
      handles_of_found hmatch, fun q hq segment => ?_, fun plain => ?_⟩
    · have hpassed := (Dispatch.search_passed passed).2 q hq
      exact (not_handles_of_passed (Frame.hasCode_of i.codes segment q)
        (matchCatchable_of_ok hc (hpassed.2 segment 0))).1
    · exact (resumes_of_found hcode hmatch).2.goesOnIn (handles_of_found hmatch) plain origin

namespace ResumptionExample

def entry : Code := ⟨0, 4096, Builtin.entry.description⟩
def stub : Code := ⟨1, 8192, Builtin.promiseConstructor.description⟩
def interpreter : Code := ⟨2, 12288, Builtin.interpreterEntry.description⟩

/-- Catches everywhere, with the context in its only register. -/
def catching : Bytecode where
  length := 16
  registerCount := 1
  handlers := { ranges := [⟨0, 16, 8, 0, .caught⟩] }

/-- A thread that has made some moves, and throws then. -/
def thrown (moves : List StackMove) : ThreadState :=
  { moves.foldl StackMove.on {} with pending := some (.smi 1) }

def throwing (moves : List StackMove) : Isolate where
  id := 1
  options := {}
  region := none
  blob := none
  codes := { codes := [entry, stub, interpreter] }
  builtins := some ⟨⟨[], []⟩, 0, 0⟩
  threads := [("main", { top := thrown moves, stackSize := 0 })]

/-- A call out of a function that catches. -/
def caught : List StackMove :=
  [.push (.entry entry) (.entry entry),
    .push (.interpreted interpreter .undefined catching 0) (.interpreted interpreter _ catching 0),
    .push (.native 0) (.native 0)]

/-- A stub that calls out where its table has a handler. -/
def stubbed : List StackMove :=
  [.push (.entry entry) (.entry entry), .push (.stub stub 40) (.stub stub 40)]

theorem arises_thrown (moves : List StackMove) : (thrown moves).Arises :=
  .elsewhere (.moves .new moves) rfl

theorem handled_of_toBool (ended : Except Failure Value × Isolate) (h : ended.1.toBool = true) :
    ∃ w i', ended = (.ok w, i') := by
  obtain ⟨e | w, i'⟩ := ended
  · cases h
  · exact ⟨w, i', rfl⟩

/-- The function goes on where it catches. -/
theorem goesOnIn_of_unwind_caught : ∃ w i' data' handler,
    (unwind "main").outcome (throwing caught) = (.ok w, i') ∧ i'.thread? "main" = some data' ∧
      data'.top.pendingHandler = some handler ∧
      ∃ p r spec cursor, (thrown caught).stack.HasAt p r ∧ r.IsFrom spec cursor ∧
        (Frame.of (throwing caught).codes p.id r).Handles ∧
        (∀ q ∈ p.before (thrown caught).stack, ∀ segment,
          ¬(Frame.of (throwing caught).codes segment q).Handles) ∧
        (¬(Frame.of (throwing caught).codes p.id r).IsEntry →
          handler.GoesOnIn (.of (throwing caught).codes p.id r) spec cursor) := by
  obtain ⟨w, i', hhandled⟩ :=
    handled_of_toBool ((unwind "main").outcome (throwing caught)) (by decide +kernel)
  obtain ⟨data', handler, hattached, hhandler, hframe⟩ :=
    goesOnIn_of_unwind (arises_thrown caught) rfl rfl rfl rfl hhandled
  exact ⟨w, i', data', handler, hhandled, hattached, hhandler, hframe⟩

/-- Where the thread goes on after unwinding. -/
def resumption (moves : List StackMove) : Option PendingHandler :=
  (((unwind "main").outcome (throwing moves)).2.thread? "main").bind (·.top.pendingHandler)

/-- The stub goes on above its frame pointer, right where the frame of its caller ends. -/
theorem stub_goesOn_in_caller : (thrown stubbed).Arises ∧ ∃ r rest handler,
    (thrown stubbed).stack.framesOf 0 = r :: rest ∧ r.marker = .stub ∧
      resumption stubbed = some handler ∧ handler.fp = r.fp ∧ handler.sp = r.callerSp ∧
      r.sp < handler.sp ∧ handler.fp < handler.sp := by
  have hresumption : resumption stubbed =
      some ⟨.undefined, 8312, 8352, 0x7fefffffffb0, 0x7fefffffffc0, 0⟩ := by decide +kernel
  exact ⟨arises_thrown stubbed, _, _, _, rfl, rfl, hresumption, rfl, rfl, by decide, by decide⟩

end ResumptionExample

end Isolate

end ScriptEngine

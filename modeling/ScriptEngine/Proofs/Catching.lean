import ScriptEngine.Proofs.PcMaps
import ScriptEngine.Proofs.Search

namespace ScriptEngine

theorem HandlerTable.lookupReturn_isSome {t : HandlerTable} {offset : Nat} :
    (t.lookupReturn offset).isSome ↔ ∃ e ∈ t.returns, e.offset = offset := by
  rw [lookupReturn, Option.isSome_map, t.ordered.search?_isSome]

theorem HandlerTable.lookupRange_isSome {t : HandlerTable} {offset : Nat} :
    (t.lookupRange offset).isSome ↔ ∃ r ∈ t.ranges, r.covers offset := by
  simp [lookupRange]

theorem Code.managedKind_eq_optimized {code : Code} :
    code.managedKind = .optimized ↔ code.kind = .maglev ∨ code.kind = .turbofan := by
  unfold managedKind
  split <;> simp_all

theorem Code.kind_of_interpreted {code : Code} (h : code.managedKind = .interpreted) :
    code.kind = .builtin := by
  unfold managedKind at h
  split at h <;> simp_all

namespace Frame

def IsEntry (f : Frame) : Prop := f.kind = .entry ∨ f.kind = .constructEntry

/-- The return table of some code has an entry for the frame's pc. -/
def GuardsReturn (f : Frame) (code : Code) : Prop :=
  ∃ e ∈ code.handlers.returns, e.offset = f.pcOffset

/-- The frame handles a catchable exception: it is an entry frame, its code or its bytecode has a
table entry for where it stands, or it continues a builtin that catches. -/
def Handles (f : Frame) : Prop :=
  match f.kind with
  | .entry | .constructEntry => True
  | .optimized => ∃ code, f.code = some code ∧ f.GuardsReturn code
  | .stub =>
    ∃ code, f.code = some code ∧ code.isBuiltin ∧ code.isTurbofanned ∧ f.GuardsReturn code
  | .interpreted | .baseline =>
    ∃ b, f.raw.bytecode = some b ∧ ∃ r ∈ b.handlers.ranges, r.covers f.bytecodeOffset
  | .continuationWithCatch => ∃ code, f.code = some code
  | .builtin | .exit | .native => False

/-- A builtin that is called like a function must not handle, but its return table has an entry
for the frame's pc. -/
def Misplaced (f : Frame) : Prop :=
  f.kind = .builtin ∧ ∃ code, f.code = some code ∧ f.GuardsReturn code

variable {f : Frame}

theorem coveringRange_isSome : f.coveringRange.isSome ↔
    ∃ b, f.raw.bytecode = some b ∧ ∃ r ∈ b.handlers.ranges, r.covers f.bytecodeOffset := by
  unfold coveringRange
  cases f.raw.bytecode with
  | none => simp
  | some b => simpa using HandlerTable.lookupRange_isSome

theorem exists_coveringRange : (∃ range, f.coveringRange = some range) ↔
    ∃ b, f.raw.bytecode = some b ∧ ∃ r ∈ b.handlers.ranges, r.covers f.bytecodeOffset := by
  rw [← coveringRange_isSome, Option.isSome_iff_exists]

theorem coveringRange_eq_none : f.coveringRange = none ↔
    ¬∃ b, f.raw.bytecode = some b ∧ ∃ r ∈ b.handlers.ranges, r.covers f.bytecodeOffset := by
  rw [← coveringRange_isSome, Option.not_isSome_iff_eq_none]

theorem lookupReturn_isSome {code : Code} :
    (code.handlers.lookupReturn f.pcOffset).isSome ↔ f.GuardsReturn code :=
  HandlerTable.lookupReturn_isSome

theorem returnHandler_isSome :
    f.returnHandler.isSome ↔ ∃ code, f.code = some code ∧ f.GuardsReturn code := by
  unfold returnHandler
  cases f.code with
  | none => simp
  | some code => simpa using lookupReturn_isSome

/-- A table with an entry is not empty, so that it need not be asked for. -/
theorem GuardsReturn.catchesInStub {code : Code} (h : f.GuardsReturn code) :
    code.catchesInStub ↔ code.isBuiltin ∧ code.isTurbofanned := by
  obtain ⟨e, he, _⟩ := h
  have hne : code.handlers.isEmpty = false := by
    cases hr : code.handlers.returns with
    | nil => simp [hr] at he
    | cons _ _ => simp [HandlerTable.isEmpty, hr]
  simp [Code.catchesInStub, hne]

theorem stubHandler_isSome : f.stubHandler.isSome ↔
    ∃ code, f.code = some code ∧ code.isBuiltin ∧ code.isTurbofanned ∧ f.GuardsReturn code := by
  unfold stubHandler
  cases f.code with
  | none => simp
  | some code =>
    constructor
    · intro h
      cases hs : code.catchesInStub with
      | false => simp [Option.filter, hs] at h
      | true =>
        have hg : f.GuardsReturn code :=
          lookupReturn_isSome.mp (by simpa [Option.filter, hs] using h)
        exact ⟨code, rfl, and_assoc.mp ⟨hg.catchesInStub.mp hs, hg⟩⟩
    · rintro ⟨_, ⟨⟩, hb, ht, hg⟩
      have hs := hg.catchesInStub.mpr ⟨hb, ht⟩
      simpa [Option.filter, hs] using lookupReturn_isSome.mpr hg

theorem lookupReturn_of_stubHandler {code : Code} {offset : Nat} (hc : f.code = some code)
    (h : f.stubHandler = some offset) : code.handlers.lookupReturn f.pcOffset = some offset := by
  unfold stubHandler at h
  rw [hc] at h
  cases hs : code.catchesInStub with
  | false => simp [Option.filter, hs] at h
  | true => simpa [Option.filter, hs] using h

/-- What a frame that handles has to have besides, with so many frames inside of it: an entry frame
its own handler and code to return to, an interpreted or a baseline frame the register of the
context, and a place to go on from. -/
def IsSound (f : Frame) (handlers : List Address) (position : Nat) : Prop :=
  match f.kind with
  | .entry | .constructEntry =>
    (∃ i, f.raw.handler = some i ∧ i < handlers.length) ∧
      ∃ code, f.code = some code ∧ ∃ e ∈ code.handlers.returns, e.offset = 0
  | .interpreted =>
    0 < position ∧ ∀ r, f.coveringRange = some r → r.contextRegister < f.raw.registers.length
  | .baseline =>
    ∀ r, f.coveringRange = some r → r.contextRegister < f.raw.registers.length ∧
      ∀ code, f.code = some code → ∃ entry ∈ code.description.pcMap, entry.1 = r.handler
  | _ => True

/-- How execution goes on in a frame. -/
structure Resumption where
  handler : PendingHandler
  /-- The frame then. -/
  raw : RawFrame
  /-- The handlers that stay installed. -/
  handlers : List Address
  /-- The frame is rebuilt first, and throws again. -/
  lazyThrow : Bool

/-- How a frame that handles goes on, by its kind. -/
inductive Resumes (c : DispatchContext) (handlers : List Address) (position : Nat) (f : Frame) :
    Resumption → Prop
  | entry {i offset : Nat} {address : Address} {code : Code}
      (kind : f.IsEntry) (own : f.raw.handler = some i)
      (installed : handlers[i]? = some address) (known : f.code = some code)
      (return0 : code.handlers.lookupReturn 0 = some offset) :
      Resumes c handlers position f
        { handler := ⟨.undefined, code.start + offset, code.constantPool, 0,
            address + stackHandlerSize, position⟩
          raw := f.raw, handlers := handlers.take i, lazyThrow := false }
  | optimized {code : Code} {offset : Nat} (kind : f.kind = .optimized)
      (known : f.code = some code) (guarded : code.handlers.lookupReturn f.pcOffset = some offset) :
      Resumes c handlers position f
        { handler := ⟨.undefined,
            code.start + (if c.codes.isMarked code then f.pcOffset else offset),
            code.constantPool, f.fp, f.slotsSp, position⟩
          raw := f.raw, handlers, lazyThrow := c.codes.isMarked code }
  | stub {code : Code} {offset : Nat} (kind : f.kind = .stub)
      (known : f.code = some code) (guarded : code.handlers.lookupReturn f.pcOffset = some offset) :
      Resumes c handlers position f
        { handler := ⟨.undefined, code.start + offset, code.constantPool, f.fp, f.slotsSp, position⟩
          raw := f.raw, handlers, lazyThrow := false }
  | interpreted {range : RangeEntry} {context : Value} (kind : f.kind = .interpreted)
      (covered : f.coveringRange = some range)
      (register : f.raw.registers[range.contextRegister]? = some context) :
      Resumes c handlers position f
        { handler := ⟨context, (c.builtins.code .interpreterEnterAtBytecode).start,
            (c.builtins.code .interpreterEnterAtBytecode).constantPool, f.fp, f.registersSp,
            position - 1⟩
          raw := { f.raw with bytecodeOffset := range.handler }, handlers, lazyThrow := false }
  | baseline {range : RangeEntry} {code : Code} {context : Value} {pc : Address}
      (kind : f.kind = .baseline) (covered : f.coveringRange = some range)
      (known : f.code = some code)
      (register : f.raw.registers[range.contextRegister]? = some context)
      (mapped : code.pcForBytecodeOffset range.handler = some pc) :
      Resumes c handlers position f
        { handler := ⟨.undefined, pc, code.constantPool, f.fp, f.registersSp, position⟩
          raw := { f.raw with context := context }, handlers, lazyThrow := false }
  | continuation {code : Code} (kind : f.kind = .continuationWithCatch)
      (known : f.code = some code) :
      Resumes c handlers position f
        { handler := ⟨.undefined, code.start, code.constantPool, f.fp, f.sp, position⟩
          raw := { f.raw with exception := c.exception }, handlers, lazyThrow := false }

/-- A frame that runs managed code has code of its kind. -/
def HasCode (f : Frame) : Prop :=
  f.kind.isManaged → ∃ code, f.code = some code ∧ code.managedKind = f.kind

theorem hasCode_of (codes : CodeRegistry) (segment : Nat) (r : RawFrame) :
    (Frame.of codes segment r).HasCode := by
  unfold HasCode Frame.of
  cases r.marker
  case managed =>
    cases codes.lookup r.pc with
    | none => intro h; cases h
    | some code => exact fun _ => ⟨code, rfl, rfl⟩
  all_goals intro h; cases h

end Frame

namespace FramePatch

def onFrame : FramePatch → RawFrame → RawFrame
  | .none, r => r
  | .handlers _, r => r
  | .bytecodeOffset _ offset, r => { r with bytecodeOffset := offset }
  | .context _ v, r => { r with context := v }
  | .exception _ v, r => { r with exception := v }

def onHandlers : FramePatch → List Address → List Address
  | .handlers kept, hs => hs.take kept
  | _, hs => hs

/-- The patch changes no frame, or the one with the frame pointer. -/
def IsFor (fp : Address) : FramePatch → Prop
  | .none => True
  | .handlers _ => True
  | .bytecodeOffset fp' _ => fp' = fp
  | .context fp' _ => fp' = fp
  | .exception fp' _ => fp' = fp

end FramePatch

def HandlerMatch.resumption (m : HandlerMatch) (r : RawFrame) (handlers : List Address) :
    Frame.Resumption where
  handler := m.handler
  raw := m.patch.onFrame r
  handlers := m.patch.onHandlers handlers
  lazyThrow := m.lazyThrow

namespace DispatchContext

variable {c : DispatchContext} {handlers : List Address} {position : Nat} {f : Frame}

/-- A frame that does not handle is passed, unless it is misplaced. -/
theorem matchCatchable_passes (hn : ¬f.Handles) (hm : ¬f.Misplaced) :
    c.matchCatchable handlers position f = .ok none := by
  unfold matchCatchable
  cases hk : f.kind <;> simp only [Frame.Handles, hk, not_true_eq_false] at hn
  case exit => rfl
  case native => rfl
  case optimized =>
    rw [← Frame.returnHandler_isSome, Option.not_isSome_iff_eq_none] at hn
    cases hc : f.code <;> simp [matchOptimized, hn, hc]
  case stub =>
    rw [← Frame.stubHandler_isSome, Option.not_isSome_iff_eq_none] at hn
    cases hc : f.code <;> simp [matchStub, hn, hc]
  case interpreted =>
    simp only [matchInterpreted, Frame.coveringRange_eq_none.mpr hn]
  case baseline =>
    simp only [matchBaseline, Frame.coveringRange_eq_none.mpr hn]
  case builtin =>
    cases hc : f.code with
    | none => simp only [checkBuiltin, hc]
    | some code =>
      have hr : ¬(code.handlers.lookupReturn f.pcOffset).isSome := fun h =>
        hm ⟨hk, code, hc, Frame.lookupReturn_isSome.mp h⟩
      simp only [checkBuiltin, hc, if_neg hr]
  case continuationWithCatch =>
    cases hc : f.code with
    | none => simp [matchContinuation, hc]
    | some code => exact absurd ⟨code, hc⟩ hn

theorem matchEntry_eq {i offset : Nat} {address : Address} {code : Code}
    (own : f.raw.handler = some i) (installed : handlers[i]? = some address)
    (known : f.code = some code) (return0 : code.handlers.lookupReturn 0 = some offset) :
    matchEntry handlers position f =
      .ok { handler := resumeIn code offset 0 (address + stackHandlerSize) position
            patch := .handlers i } := by
  simp only [matchEntry, own, installed, known, return0]

theorem matchEntry_resumes (hk : f.IsEntry)
    (hs : f.IsSound handlers position) :
    ∃ m, matchEntry handlers position f = .ok m ∧
      f.Resumes c handlers position (m.resumption f.raw handlers) ∧
      m.patch.IsFor f.fp ∧ m.clearsRestart = false := by
  have hs' : (∃ i, f.raw.handler = some i ∧ i < handlers.length) ∧
      ∃ code, f.code = some code ∧ ∃ e ∈ code.handlers.returns, e.offset = 0 := by
    rcases hk with hk | hk <;> simpa only [Frame.IsSound, hk] using hs
  obtain ⟨⟨i, hi, hlt⟩, code, hc, he⟩ := hs'
  obtain ⟨offset, ho⟩ := Option.isSome_iff_exists.mp (HandlerTable.lookupReturn_isSome.mpr he)
  have hh : handlers[i]? = some handlers[i] := List.getElem?_eq_getElem hlt
  exact ⟨_, matchEntry_eq hi hh hc ho, .entry hk hi hh hc ho, trivial, rfl⟩

/-- A frame that handles, and has what it needs, is where execution goes on. -/
theorem matchCatchable_resumes (hc : f.HasCode) (hh : f.Handles)
    (hs : f.IsSound handlers position) :
    ∃ m, c.matchCatchable handlers position f = .ok (some m) ∧
      f.Resumes c handlers position (m.resumption f.raw handlers) ∧
      m.patch.IsFor f.fp ∧ m.clearsRestart = false := by
  unfold matchCatchable
  cases hk : f.kind <;> simp only [Frame.Handles, hk] at hh
  case entry =>
    obtain ⟨m, hm, hr⟩ := matchEntry_resumes (c := c) (.inl hk) hs
    exact ⟨m, by rw [hm]; rfl, hr⟩
  case constructEntry =>
    obtain ⟨m, hm, hr⟩ := matchEntry_resumes (c := c) (.inr hk) hs
    exact ⟨m, by rw [hm]; rfl, hr⟩
  case optimized =>
    obtain ⟨offset, ho⟩ := Option.isSome_iff_exists.mp (Frame.returnHandler_isSome.mpr hh)
    obtain ⟨code, hcode, hkind⟩ := hc (by rw [hk]; rfl)
    have hopt : code.kind.isOptimized = true := by
      rcases Code.managedKind_eq_optimized.mp (hkind.trans hk) with h | h <;> rw [h] <;> rfl
    have hret : code.handlers.lookupReturn f.pcOffset = some offset := by
      simpa [Frame.returnHandler, hcode] using ho
    refine ⟨{ handler := resumeIn code (if c.codes.isMarked code then f.pcOffset else offset) f.fp
                f.slotsSp position
              lazyThrow := c.codes.isMarked code }, ?_, .optimized hk hcode hret, trivial, rfl⟩
    simp [matchOptimized, hcode, ho, hopt]
  case stub =>
    obtain ⟨offset, ho⟩ := Option.isSome_iff_exists.mp (Frame.stubHandler_isSome.mpr hh)
    obtain ⟨code, hcode, -⟩ := hh
    have hret := Frame.lookupReturn_of_stubHandler hcode ho
    refine ⟨{ handler := resumeIn code offset f.fp f.slotsSp position }, ?_,
      .stub hk hcode hret, trivial, rfl⟩
    simp [matchStub, hcode, ho]
  case interpreted =>
    obtain ⟨range, hr⟩ := Frame.exists_coveringRange.mpr hh
    simp only [Frame.IsSound, hk] at hs
    obtain ⟨hpos, hreg⟩ := hs
    have hlt := hreg range hr
    have hv := List.getElem?_eq_getElem hlt
    refine ⟨{ handler :=
                { resumeIn (c.builtins.code .interpreterEnterAtBytecode) 0 f.fp f.registersSp
                    (position - 1) with
                  context := f.raw.registers[range.contextRegister] }
              patch := .bytecodeOffset f.fp range.handler }, ?_, .interpreted hk hr hv, rfl, rfl⟩
    simp [matchInterpreted, hr, contextRegister, hv, Nat.ne_of_gt hpos, bind, Except.bind, pure,
      Except.pure]
  case baseline =>
    obtain ⟨range, hr⟩ := Frame.exists_coveringRange.mpr hh
    obtain ⟨code, hcode, -⟩ := hc (by rw [hk]; rfl)
    simp only [Frame.IsSound, hk] at hs
    obtain ⟨hreg, hmap⟩ := hs range hr
    have hv := List.getElem?_eq_getElem hreg
    obtain ⟨pc, hpc⟩ :=
      Option.isSome_iff_exists.mp (Code.pcForBytecodeOffset_isSome.mpr (hmap code hcode))
    have hstart : code.start + (pc - code.start) = pc :=
      Nat.add_sub_cancel' (Code.start_le_of_pcForBytecodeOffset hpc)
    refine ⟨{ handler := { resumeIn code 0 f.fp f.registersSp position with entry := pc }
              patch := .context f.fp f.raw.registers[range.contextRegister] }, ?_,
      .baseline hk hr hcode hv hpc, rfl, rfl⟩
    simp [matchBaseline, hr, hcode, contextRegister, hv, hpc, resumeIn, hstart, bind, Except.bind,
      pure, Except.pure]
  case continuationWithCatch =>
    obtain ⟨code, hcode⟩ := hh
    exact ⟨{ handler := resumeIn code 0 f.fp f.sp position, patch := .exception f.fp c.exception },
      by simp [matchContinuation, hcode], .continuation hk hcode, rfl, rfl⟩

theorem matchEntry_unsound (hk : f.IsEntry)
    (hs : ¬f.IsSound handlers position) :
    ∃ v, matchEntry handlers position f = .error (.invariantViolation v) := by
  have hs' : ¬((∃ i, f.raw.handler = some i ∧ i < handlers.length) ∧
      ∃ code, f.code = some code ∧ ∃ e ∈ code.handlers.returns, e.offset = 0) := by
    rcases hk with hk | hk <;> simpa only [Frame.IsSound, hk] using hs
  cases hi : f.raw.handler with
  | none => exact ⟨.entryWithoutHandler, by simp only [matchEntry, hi, breach]⟩
  | some i =>
    cases ha : handlers[i]? with
    | none => exact ⟨.entryHandlerNotInstalled i, by simp only [matchEntry, hi, ha, breach]⟩
    | some address =>
      cases hc : f.code with
      | none => exact ⟨.entryWithoutCode f.pc, by simp only [matchEntry, hi, ha, hc, breach]⟩
      | some code =>
        cases ho : code.handlers.lookupReturn 0 with
        | none => exact ⟨.entryWithoutReturn, by simp only [matchEntry, hi, ha, hc, ho, breach]⟩
        | some offset =>
          have hlt := (List.getElem?_eq_some_iff.mp ha).1
          have he := HandlerTable.lookupReturn_isSome.mp (Option.isSome_iff_exists.mpr ⟨_, ho⟩)
          exact absurd ⟨⟨i, hi, hlt⟩, code, hc, he⟩ hs'

/-- A frame that handles, but lacks what it needs, breaks a rule. -/
theorem matchCatchable_unsound (hc : f.HasCode) (hh : f.Handles)
    (hs : ¬f.IsSound handlers position) :
    ∃ v, c.matchCatchable handlers position f = .error (.invariantViolation v) := by
  unfold matchCatchable
  cases hk : f.kind <;> simp only [Frame.Handles, hk] at hh <;>
    try simp only [Frame.IsSound, hk, not_true_eq_false] at hs
  case entry =>
    obtain ⟨v, hv⟩ := matchEntry_unsound (.inl hk) (by simpa only [Frame.IsSound, hk] using hs)
    exact ⟨v, by rw [hv]; rfl⟩
  case constructEntry =>
    obtain ⟨v, hv⟩ := matchEntry_unsound (.inr hk) (by simpa only [Frame.IsSound, hk] using hs)
    exact ⟨v, by rw [hv]; rfl⟩
  case interpreted =>
    obtain ⟨range, hr⟩ := Frame.exists_coveringRange.mpr hh
    simp only [matchInterpreted, hr, contextRegister]
    cases hv : f.raw.registers[range.contextRegister]? with
    | none => exact ⟨_, rfl⟩
    | some context =>
      have hlt := (List.getElem?_eq_some_iff.mp hv).1
      have hpos : position = 0 := Nat.eq_zero_of_not_pos fun hp =>
        hs ⟨hp, fun r h => by cases hr.symm.trans h; exact hlt⟩
      exact ⟨.throwingFrameHandles, by simp [hpos, breach, bind, Except.bind]⟩
  case baseline =>
    obtain ⟨range, hr⟩ := Frame.exists_coveringRange.mpr hh
    obtain ⟨code, hcode, -⟩ := hc (by rw [hk]; rfl)
    simp only [matchBaseline, hr, hcode, contextRegister]
    cases hv : f.raw.registers[range.contextRegister]? with
    | none => exact ⟨_, rfl⟩
    | some context =>
      cases hpc : code.pcForBytecodeOffset range.handler with
      | none =>
        exact ⟨.handlerOffsetUnmapped range.handler, by simp [breach, bind, Except.bind]⟩
      | some pc =>
        refine absurd (fun r h => ?_) hs
        cases hr.symm.trans h
        refine ⟨(List.getElem?_eq_some_iff.mp hv).1, fun code' h' => ?_⟩
        cases hcode.symm.trans h'
        exact Code.pcForBytecodeOffset_isSome.mp (Option.isSome_iff_exists.mpr ⟨_, hpc⟩)

/-- A misplaced frame breaks a rule too. -/
theorem matchCatchable_misplaced (hm : f.Misplaced) :
    ∃ name, c.matchCatchable handlers position f =
      .error (.invariantViolation (.builtinFrameHandles name)) := by
  obtain ⟨hk, code, hcode, hg⟩ := hm
  have hr := Frame.lookupReturn_isSome.mpr hg
  refine ⟨(code.builtin.map (·.name)).getD "?", ?_⟩
  simp only [matchCatchable, hk, checkBuiltin, hcode, hr, if_true, breach]

/-- A frame that is passed neither handles nor is misplaced. -/
theorem not_handles_of_passed (hc : f.HasCode)
    (h : c.matchCatchable handlers position f = .ok none) : ¬f.Handles ∧ ¬f.Misplaced := by
  refine ⟨?_, ?_⟩
  · intro hh
    by_cases hs : f.IsSound handlers position
    · obtain ⟨m, hm, _⟩ := matchCatchable_resumes (c := c) hc hh hs
      rw [hm] at h
      cases h
    · obtain ⟨v, hv⟩ := matchCatchable_unsound (c := c) hc hh hs
      rw [hv] at h
      cases h
  · intro hm
    obtain ⟨name, hn⟩ := matchCatchable_misplaced hm
    rw [hn] at h
    cases h

theorem handles_of_found {m : HandlerMatch}
    (h : c.matchCatchable handlers position f = .ok (some m)) : f.Handles := by
  refine Classical.byContradiction fun hn => ?_
  by_cases hm : f.Misplaced
  · obtain ⟨name, hn⟩ := matchCatchable_misplaced hm
    rw [hn] at h
    cases h
  · rw [matchCatchable_passes hn hm] at h
    cases h

end DispatchContext

end ScriptEngine

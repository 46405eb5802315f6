import ScriptEngine.Proofs.PredictionAgrees
import ScriptEngine.Proofs.StackPlaces

namespace ScriptEngine

namespace Code

/-- The map of baseline code for some bytecode: in order, inside of the instructions, and with the
offset of every handler. -/
structure Maps (code : Code) (b : Bytecode) : Prop where
  kind : code.kind = .baseline
  increasing : code.description.pcMap.Pairwise fun x y => x.1 < y.1 ∧ x.2 < y.2
  inside : ∀ entry ∈ code.description.pcMap, entry.2 < code.size
  size : code.size < 4294967296
  handlers : ∀ range ∈ b.handlers.ranges, (code.pcForBytecodeOffset range.handler).isSome

variable {code : Code} {b : Bytecode}

theorem Maps.hasOrderedMap (h : code.Maps b) : code.HasOrderedMap where
  increasing := h.increasing
  narrow entry hentry := Nat.lt_trans (h.inside entry hentry) h.size

end Code

/-- The frame stands at a bytecode offset in baseline code. -/
structure RawFrame.IsBaseline (codes : CodeRegistry) (code : Code) (b : Bytecode) (offset : Nat)
    (r : RawFrame) : Prop where
  marker : r.marker = .managed
  lookup : codes.lookup r.pc = some code
  pc : code.pcForBytecodeOffset offset = some r.pc
  bytecode : r.bytecode = some b
  offset : r.bytecodeOffset = offset

/-- The frame that is described for an offset of the map stands there. -/
theorem FrameSpec.isBaseline_baseline {codes : CodeRegistry} {code : Code} {offset : Nat}
    {pc : Address} (function : Value) (b : Bytecode)
    (hpc : code.pcForBytecodeOffset offset = some pc) (hlookup : codes.lookup pc = some code) :
    (FrameSpec.baseline code function b offset).frame.IsBaseline codes code b offset := by
  have hframe : (FrameSpec.baseline code function b offset).frame.pc = pc := by
    rw [FrameSpec.baseline, hpc]
    rfl
  exact ⟨rfl, hframe.symm ▸ hlookup, hframe.symm ▸ hpc, rfl, rfl⟩

/-- The frame with another pc, as an interpreted frame has that of the interpreter. -/
def RawFrame.atPc (r : RawFrame) (pc : Address) : RawFrame := { r with pc }

section Frames

variable {codes : CodeRegistry} {code interpreter : Code} {b : Bytecode} {offset : Nat}
  {r : RawFrame} {pc : Address} {segment visited : Nat} {c : DispatchContext}
  {handlers : List Address} {range : RangeEntry}

theorem RawFrame.IsBaseline.kind (h : r.IsBaseline codes code b offset) (hm : code.Maps b) :
    (Frame.of codes segment r).kind = .baseline := by
  simp [Frame.of, h.marker, h.lookup, Frame.kindOf, Code.managedKind, hm.kind]

theorem RawFrame.IsBaseline.coveringRange (h : r.IsBaseline codes code b offset)
    (hm : code.Maps b) :
    (Frame.of codes segment r).coveringRange = b.handlers.lookupRange offset := by
  have hoffset : (Frame.of codes segment r).bytecodeOffset = offset := by
    simp [Frame.bytecodeOffset, Frame.of, h.lookup, hm.kind, Frame.pc,
      hm.hasOrderedMap.bytecodeOffsetForPc_pcForBytecodeOffset h.pc]
  have hraw : (Frame.of codes segment r).raw = r := rfl
  rw [Frame.coveringRange, hraw, h.bytecode, hoffset]
  rfl

theorem RawFrame.IsBaseline.kind_at (h : r.IsBaseline codes code b offset)
    (hcode : codes.lookup pc = some interpreter) (hkind : interpreter.managedKind = .interpreted) :
    (Frame.of codes segment (r.atPc pc)).kind = .interpreted := by
  simp [Frame.of, RawFrame.atPc, h.marker, hcode, Frame.kindOf, hkind]

theorem RawFrame.IsBaseline.coveringRange_at (h : r.IsBaseline codes code b offset)
    (hcode : codes.lookup pc = some interpreter) (hkind : interpreter.managedKind = .interpreted) :
    (Frame.of codes segment (r.atPc pc)).coveringRange = b.handlers.lookupRange offset := by
  have hbuiltin : interpreter.kind = .builtin := Code.kind_of_interpreted hkind
  have hoffset : (Frame.of codes segment (r.atPc pc)).bytecodeOffset = offset := by
    simp [Frame.bytecodeOffset, Frame.of, RawFrame.atPc, hcode, hbuiltin, h.offset]
  have hbytecode : (Frame.of codes segment (r.atPc pc)).raw.bytecode = some b := h.bytecode
  rw [Frame.coveringRange, hbytecode, hoffset]
  rfl

/-- Where the registers of the frame end. -/
def RawFrame.registersSp (r : RawFrame) : Address :=
  r.fp - interpreterFixedSize - r.registers.length * wordSize

/-- A baseline frame goes on at the code of the handler. -/
def RawFrame.baselineMatch (r : RawFrame) (code : Code) (target : Address) (context : Value)
    (visited : Nat) : HandlerMatch where
  handler := {
    context := .undefined
    entry := target
    constantPool := code.constantPool
    fp := r.fp
    sp := r.registersSp
    framesAbove := visited }
  patch := .context r.fp context

/-- The interpreter is entered again, and goes on at the handler's offset. -/
def RawFrame.interpretedMatch (r : RawFrame) (enter : Code) (handler : Nat) (context : Value)
    (visited : Nat) : HandlerMatch where
  handler := {
    context := context
    entry := enter.start
    constantPool := enter.constantPool
    fp := r.fp
    sp := r.registersSp
    framesAbove := visited - 1 }
  patch := .bytecodeOffset r.fp handler

/-- Both frames are asked, by the same table. -/
structure Tiers (c : DispatchContext) (code : Code) (b : Bytecode) (offset : Nat) (r : RawFrame)
    (pc : Address) : Prop where
  baseline : r.IsBaseline c.codes code b offset
  maps : code.Maps b
  interpreted : ∃ interpreter, c.codes.lookup pc = some interpreter ∧
    interpreter.managedKind = .interpreted
  catchable : c.catchable = true

namespace Tiers

variable (h : Tiers c code b offset r pc)
include h

theorem known : r.IsKnown c.codes := fun _ => ⟨code, h.baseline.lookup⟩

theorem known_atPc : (r.atPc pc).IsKnown c.codes := by
  obtain ⟨interpreter, hcode, -⟩ := h.interpreted
  exact fun _ => ⟨interpreter, hcode⟩

theorem matchFrame_baseline :
    c.matchFrame none handlers visited (.of c.codes segment r) =
      DispatchContext.matchBaseline visited (.of c.codes segment r) := by
  rw [Dispatch.matchFrame_none h.catchable, DispatchContext.matchCatchable,
    h.baseline.kind h.maps]

theorem matchFrame_interpreted :
    c.matchFrame none handlers visited (.of c.codes segment (r.atPc pc)) =
      c.matchInterpreted visited (.of c.codes segment (r.atPc pc)) := by
  obtain ⟨interpreter, hcode, hkind⟩ := h.interpreted
  rw [Dispatch.matchFrame_none h.catchable, DispatchContext.matchCatchable,
    h.baseline.kind_at hcode hkind]

theorem coveringRange_atPc : (Frame.of c.codes segment (r.atPc pc)).coveringRange =
    b.handlers.lookupRange offset := by
  obtain ⟨interpreter, hcode, hkind⟩ := h.interpreted
  exact h.baseline.coveringRange_at hcode hkind

/-- Without a range, both frames are passed. -/
theorem matchFrame_none (hrange : b.handlers.lookupRange offset = none) :
    c.matchFrame none handlers visited (.of c.codes segment r) = .ok none ∧
      c.matchFrame none handlers visited (.of c.codes segment (r.atPc pc)) = .ok none := by
  rw [h.matchFrame_baseline, h.matchFrame_interpreted, DispatchContext.matchBaseline,
    DispatchContext.matchInterpreted, h.baseline.coveringRange h.maps, h.coveringRange_atPc, hrange]
  exact ⟨rfl, rfl⟩

/-- Without the register for the context, both frames break the same rule. -/
theorem matchFrame_noRegister (hrange : b.handlers.lookupRange offset = some range)
    (hnone : r.registers[range.contextRegister]? = none) :
    c.matchFrame none handlers visited (.of c.codes segment r) =
        breach (.contextRegisterOutOfRange range.contextRegister r.registers.length) ∧
      c.matchFrame none handlers visited (.of c.codes segment (r.atPc pc)) =
        breach (.contextRegisterOutOfRange range.contextRegister r.registers.length) := by
  have hcode : (Frame.of c.codes segment r).code = some code := h.baseline.lookup
  have hregister : ∀ r' : RawFrame, r'.registers = r.registers →
      DispatchContext.contextRegister (.of c.codes segment r') range.contextRegister =
        breach (.contextRegisterOutOfRange range.contextRegister r.registers.length) := by
    intro r' hr
    simp [DispatchContext.contextRegister, Frame.of, hr, hnone]
  rw [h.matchFrame_baseline, h.matchFrame_interpreted, DispatchContext.matchBaseline,
    DispatchContext.matchInterpreted, h.baseline.coveringRange h.maps, h.coveringRange_atPc, hrange,
    hcode]
  simp only [hregister r rfl, hregister (r.atPc pc) rfl]
  exact ⟨rfl, rfl⟩

/-- The handler of the range is found in both. -/
theorem matchFrame_found (hrange : b.handlers.lookupRange offset = some range) {context : Value}
    (hcontext : r.registers[range.contextRegister]? = some context) (hvisited : visited ≠ 0) :
    ∃ target, code.pcForBytecodeOffset range.handler = some target ∧
      c.matchFrame none handlers visited (.of c.codes segment r) =
        .ok (some (r.baselineMatch code target context visited)) ∧
      c.matchFrame none handlers visited (.of c.codes segment (r.atPc pc)) =
        .ok (some (r.interpretedMatch (c.builtins.code .interpreterEnterAtBytecode) range.handler
          context visited)) := by
  have hmem : range ∈ b.handlers.ranges :=
    List.mem_reverse.mp (List.mem_of_find?_eq_some hrange)
  obtain ⟨target, htarget⟩ := Option.isSome_iff_exists.mp (h.maps.handlers range hmem)
  have hentry : code.start + (target - code.start) = target :=
    Nat.add_sub_cancel' (Code.start_le_of_pcForBytecodeOffset htarget)
  have hcode : (Frame.of c.codes segment r).code = some code := h.baseline.lookup
  have hregister : ∀ r' : RawFrame, r'.registers = r.registers →
      DispatchContext.contextRegister (.of c.codes segment r') range.contextRegister =
        .ok context := by
    intro r' hr
    simp [DispatchContext.contextRegister, Frame.of, hr, hcontext]
  refine ⟨target, htarget, ?_, ?_⟩
  · rw [h.matchFrame_baseline, DispatchContext.matchBaseline, h.baseline.coveringRange h.maps,
      hrange, hcode]
    simp only [hregister r rfl, htarget, DispatchContext.resumeIn, hentry]
    rfl
  · rw [h.matchFrame_interpreted, DispatchContext.matchInterpreted, h.coveringRange_atPc, hrange]
    simp only [hregister (r.atPc pc) rfl, bind, Except.bind, if_neg hvisited]
    rfl

end Tiers

end Frames

namespace SegmentedStack

variable {s : SegmentedStack} {r : RawFrame} {fp : Address} {edit : RawFrame → RawFrame}

theorem find?_modifyFirst (hedit : ∀ q, (edit q).fp = q.fp) (frames : List RawFrame) :
    (StackSegment.modifyFirst fp edit frames).find? (·.fp == fp) =
      (frames.find? (·.fp == fp)).map edit := by
  induction frames with
  | nil => rfl
  | cons q frames ih =>
    rw [StackSegment.modifyFirst]
    by_cases hq : q.fp = fp
    · simp [hq, hedit]
    · simp [hq, ih]

/-- The frame that is found by a frame pointer is the one that is changed. -/
theorem frameAt?_modifyFrame (hedit : ∀ q, (edit q).fp = q.fp) (hr : r ∈ s.framesOf s.active) :
    ∃ q, (s.modifyFrame s.active r.fp edit).activeSegment.frameAt? r.fp = some (edit q) := by
  rw [framesOf] at hr
  cases hg : s.segment? s.active with
  | none => simp [hg] at hr
  | some g =>
    rw [hg] at hr
    have hmodified : (s.modifyFrame s.active r.fp edit).segment?
        (s.modifyFrame s.active r.fp edit).active = some (g.modifyFrame r.fp edit) := by
      rw [segment?_modifyFrame]
      exact (if_pos rfl).trans (congrArg (Option.map _) hg)
    obtain ⟨q, hq⟩ : ∃ q, g.frames.find? (·.fp == r.fp) = some q := by
      rw [← Option.isSome_iff_exists, List.find?_isSome]
      exact ⟨r, List.mem_reverse.mp hr, by simp⟩
    refine ⟨q, ?_⟩
    rw [activeSegment_eq hmodified, StackSegment.frameAt?, StackSegment.modifyFrame,
      find?_modifyFirst hedit, hq]
    rfl

end SegmentedStack

namespace Dispatch

open SegmentedStack

variable {c : DispatchContext} {handlers : List Address} {frames : List RawFrame} {visited : Nat}

theorem search_found_isFor {m : HandlerMatch}
    (h : search c none handlers frames visited = .ok (.found m)) :
    ∃ k q, frames[k]? = some q ∧ m.handler.IsFor (visited + k) q := by
  have halike : SearchesAlike frames frames visited (search c none handlers frames visited)
      (search c none handlers frames visited) := search_alike rfl rfl
  rw [h] at halike
  cases halike with
  | @finds k q _ _ _ frame _ isFor => exact ⟨k, q, frame, isFor⟩

variable {d : Dispatch} {p : StackPlace} {r : RawFrame} {m : HandlerMatch}
  {result : Walk SearchResult}

theorem onFrame_fp (patch : FramePatch) (q : RawFrame) : (patch.onFrame q).fp = q.fp := by
  cases patch <;> rfl

/-- The frame with the frame pointer has the patch then. -/
theorem apply_patched (hs : d.thread.stack.HasAt p r) (hfor : m.patch.IsFor r.fp)
    (codes : CodeRegistry) :
    let after := ((d.atFrame codes p.left p.id p.inner).apply m).thread.stack
    (∃ q, after.activeSegment.frameAt? r.fp = some (m.patch.onFrame q)) ∧
      (d.thread.stack.FpsDistinct p.id →
        after.framesOf p.id = p.inner ++ m.patch.onFrame r :: p.rest) := by
  have hactive := SegmentedStack.active_returnedTo hs.chain
  have hstack : ((d.atFrame codes p.left p.id p.inner).apply m).thread.stack =
      (d.thread.stack.returnedTo p.left p.id).modifyFrame
        (d.thread.stack.returnedTo p.left p.id).active r.fp m.patch.onFrame := by
    rw [apply, applyPatch_eq hfor]
    rfl
  have hframes : (d.thread.stack.returnedTo p.left p.id).framesOf p.id =
      p.inner ++ r :: p.rest := (SegmentedStack.framesOf_returnedTo _ _ _).trans hs.frames
  dsimp only
  rw [hstack]
  refine ⟨SegmentedStack.frameAt?_modifyFrame (onFrame_fp m.patch) ?_, fun hdistinct => ?_⟩
  · rw [hactive, hframes]
    simp
  · rw [hactive]
    refine SegmentedStack.framesOf_modifyFrame hframes ?_
    rwa [SegmentedStack.FpsDistinct, SegmentedStack.framesOf_returnedTo]

/-- What a search through all frames means for dispatch. -/
theorem run_of_search {codes : CodeRegistry} {builtins : Builtins} {e : Value}
    (hp : d.thread.pending = some e) (he : e.isCatchable = true) (hr : d.restart = none)
    (hs : d.thread.stack.HasAt p r)
    (h : search { codes, builtins, exception := e, catchable := true } none d.thread.handlers
      (p.before d.thread.stack ++ r :: p.after d.thread.stack) 0 = result) :
    match result with
    | .error v => (run codes builtins false d).1 = .error (.fatal v)
    | .ok (.passed _) => (run codes builtins false d).1 = .error (.fatal .noHandlerFound)
    | .ok (.found m) => (run codes builtins false d).1 = .ok e ∧
        (run codes builtins false d).2.thread.pendingHandler = some m.handler := by
  obtain ⟨hresult, hfound⟩ := searchFor_chain
    { codes, builtins, exception := e, catchable := true } 0 hs.chain
    (Nat.le_succ_of_le hs.chain.length_le)
  rw [hs.frames_eq, hr, h] at hresult hfound
  rw [run_catchable hp he]
  match result with
  | .error v => simp [hresult, Except.bind]
  | .ok (.passed _) => simp [hresult, Except.bind, SearchResult.outcome]
  | .ok (.found m) =>
    obtain ⟨d', -, hstate⟩ := hfound m rfl
    simp [hresult, hstate, Except.bind, SearchResult.outcome, apply]

/-- Dispatch with the frame in either tier: it fails for the same reason, or goes on in another
frame in the same way, or in this frame at the same handler. -/
inductive TiersAgree (code enter : Code) (b : Bytecode) (offset : Nat) (s : SegmentedStack)
    (p : StackPlace) (r : RawFrame) (pc : Address) :
    Except Failure Value × Dispatch → Except Failure Value × Dispatch → Prop
  | fails (e : Failure) (d d' : Dispatch) :
      TiersAgree code enter b offset s p r pc (.error e, d) (.error e, d')
  | elsewhere (e : Value) {d d' : Dispatch} {k : Nat} {q : RawFrame} {h : PendingHandler}
      (frame : (p.before s ++ r :: p.after s)[k]? = some q) (other : k ≠ (p.before s).length)
      (isFor : h.IsFor k q) (chosen : d.thread.pendingHandler = some h)
      (chosen' : d'.thread.pendingHandler = some h) :
      TiersAgree code enter b offset s p r pc (.ok e, d) (.ok e, d')
  | here (e : Value) {d d' : Dispatch} {range : RangeEntry} {target : Address} {context : Value}
      (covers : b.handlers.lookupRange offset = some range)
      (register : r.registers[range.contextRegister]? = some context)
      (mapped : code.pcForBytecodeOffset range.handler = some target)
      (chosen : d.thread.pendingHandler = some {
        context := .undefined, entry := target, constantPool := code.constantPool
        fp := r.fp, sp := r.registersSp, framesAbove := (p.before s).length })
      (chosen' : d'.thread.pendingHandler = some {
        context := context, entry := enter.start, constantPool := enter.constantPool
        fp := r.fp, sp := r.registersSp, framesAbove := (p.before s).length - 1 })
      (patched : ∃ q : RawFrame,
        d.thread.stack.activeSegment.frameAt? r.fp = some { q with context })
      (patched' : ∃ q : RawFrame, d'.thread.stack.activeSegment.frameAt? r.fp =
        some { q with bytecodeOffset := range.handler })
      (alone : s.FpsDistinct p.id →
        d.thread.stack.framesOf p.id = p.inner ++ { r with context } :: p.rest ∧
        d'.thread.stack.framesOf p.id =
          p.inner ++ { r.atPc pc with bytecodeOffset := range.handler } :: p.rest) :
      TiersAgree code enter b offset s p r pc (.ok e, d) (.ok e, d')

theorem search_split {before after : List RawFrame} {r : RawFrame}
    (hbefore : search c none handlers before 0 = .ok (.passed visited)) (hk : r.IsKnown c.codes) :
    search c none handlers (before ++ r :: after) 0 =
      (c.matchFrame none handlers before.length (.of c.codes 0 r)).bind fun
        | some m => .ok (.found m)
        | none => search c none handlers after (before.length + 1) := by
  obtain ⟨rfl, -⟩ := search_passed hbefore
  rw [search_append, hbefore, Nat.zero_add]
  refine (search_cons r).trans ?_
  rw [Frame.view_eq_of hk]
  rfl

/-- A thrown exception, and a second stack where the interpreter has a baseline frame of the first
one. Some frame throws, so there is one above. -/
structure ThrownInTiers (codes : CodeRegistry) (builtins : Builtins) (e : Value) (d : Dispatch)
    (s' : SegmentedStack) (code : Code) (b : Bytecode) (offset : Nat) (p : StackPlace)
    (r : RawFrame) (pc : Address) : Prop where
  pending : d.thread.pending = some e
  catchable : e.isCatchable = true
  restart : d.restart = none
  tiers : Tiers { codes, builtins, exception := e, catchable := true } code b offset r pc
  hasAt : d.thread.stack.HasAt p r
  hasAt' : s'.HasAt p (r.atPc pc)
  others : ∀ j, j ≠ p.id → s'.framesOf j = d.thread.stack.framesOf j
  above : p.before d.thread.stack ≠ []

/-- Dispatch on the second stack. -/
def withStack (d : Dispatch) (s' : SegmentedStack) : Dispatch :=
  { d with thread := { d.thread with stack := s' } }

namespace ThrownInTiers

variable {codes : CodeRegistry} {builtins : Builtins} {e : Value} {s' : SegmentedStack}
  {code : Code} {b : Bytecode} {offset : Nat} {pc : Address} {range : RangeEntry}
  (h : ThrownInTiers codes builtins e d s' code b offset p r pc)
include h

/-- Equal ends of the searches, if any away from the place, are equal ends of dispatch. -/
theorem agree_of_search (result : Walk SearchResult)
    (hsearch : search { codes, builtins, exception := e, catchable := true } none d.thread.handlers
      (p.before d.thread.stack ++ r :: p.after d.thread.stack) 0 = result)
    (hsearch' : search { codes, builtins, exception := e, catchable := true } none
      d.thread.handlers (p.before d.thread.stack ++ r.atPc pc :: p.after d.thread.stack) 0 = result)
    (hfound : ∀ m, result = .ok (.found m) → ∃ k q,
      (p.before d.thread.stack ++ r :: p.after d.thread.stack)[k]? = some q ∧
      k ≠ (p.before d.thread.stack).length ∧ m.handler.IsFor k q) :
    TiersAgree code (builtins.code .interpreterEnterAtBytecode) b offset d.thread.stack p r pc
      (run codes builtins false d) (run codes builtins false (d.withStack s')) := by
  obtain ⟨hbefore, hafter⟩ := h.hasAt.around_eq h.others
  rw [← hbefore, ← hafter] at hsearch'
  have hrun := run_of_search h.pending h.catchable h.restart h.hasAt hsearch
  have hrun' := run_of_search (d := d.withStack s') h.pending h.catchable h.restart h.hasAt'
    hsearch'
  generalize run codes builtins false d = ended at *
  generalize run codes builtins false (d.withStack s') = ended' at *
  obtain ⟨value, after⟩ := ended
  obtain ⟨value', after'⟩ := ended'
  match result with
  | .error v =>
    cases hrun
    cases hrun'
    exact .fails _ _ _
  | .ok (.passed _) =>
    cases hrun
    cases hrun'
    exact .fails _ _ _
  | .ok (.found m) =>
    obtain ⟨hvalue, hchosen⟩ := hrun
    obtain ⟨hvalue', hchosen'⟩ := hrun'
    cases hvalue
    cases hvalue'
    obtain ⟨k, q, frame, other, isFor⟩ := hfound m rfl
    exact .elsewhere e frame other isFor hchosen hchosen'

/-- The search may end among the frames above. -/
theorem agree_above {result : Walk SearchResult}
    (hsearch : search { codes, builtins, exception := e, catchable := true } none d.thread.handlers
      (p.before d.thread.stack) 0 = result) (hends : ∀ visited, result ≠ .ok (.passed visited)) :
    TiersAgree code (builtins.code .interpreterEnterAtBytecode) b offset d.thread.stack p r pc
      (run codes builtins false d) (run codes builtins false (d.withStack s')) := by
  have hmore : ∀ q, search { codes, builtins, exception := e, catchable := true } none
      d.thread.handlers (p.before d.thread.stack ++ q :: p.after d.thread.stack) 0 = result := by
    intro q
    rw [search_append, hsearch]
    match result with
    | .error _ => rfl
    | .ok (.found _) => rfl
    | .ok (.passed visited) => exact absurd rfl (hends visited)
  refine h.agree_of_search result (hmore _) (hmore _) ?_
  rintro m rfl
  obtain ⟨k, q, hq, hfor⟩ := search_found_isFor hsearch
  obtain ⟨hlt, -⟩ := List.getElem?_eq_some_iff.mp hq
  refine ⟨k, q, ?_, Nat.ne_of_lt hlt, Nat.zero_add k ▸ hfor⟩
  rw [List.getElem?_append_left hlt, hq]

variable {visited : Nat} (hpassed : search { codes, builtins, exception := e, catchable := true }
  none d.thread.handlers (p.before d.thread.stack) 0 = .ok (.passed visited))
include hpassed

/-- It may pass the frame in both tiers. -/
theorem agree_passed (hrange : b.handlers.lookupRange offset = none) :
    TiersAgree code (builtins.code .interpreterEnterAtBytecode) b offset d.thread.stack p r pc
      (run codes builtins false d) (run codes builtins false (d.withStack s')) := by
  refine h.agree_of_search (search { codes, builtins, exception := e, catchable := true } none
    d.thread.handlers (p.after d.thread.stack) ((p.before d.thread.stack).length + 1)) ?_ ?_ ?_
  · rw [search_split hpassed h.tiers.known, (h.tiers.matchFrame_none hrange).1]
    rfl
  · rw [search_split hpassed h.tiers.known_atPc, (h.tiers.matchFrame_none hrange).2]
    rfl
  · intro m hm
    obtain ⟨k, q, hq, hfor⟩ := search_found_isFor hm
    refine ⟨_, q, ?_, by omega, hfor⟩
    rw [List.getElem?_append_right (by omega), Nat.add_assoc, Nat.add_sub_cancel_left,
      Nat.add_comm 1]
    exact hq

/-- The register for the context may be missing. -/
theorem agree_noRegister (hrange : b.handlers.lookupRange offset = some range)
    (hnone : r.registers[range.contextRegister]? = none) :
    TiersAgree code (builtins.code .interpreterEnterAtBytecode) b offset d.thread.stack p r pc
      (run codes builtins false d) (run codes builtins false (d.withStack s')) := by
  refine h.agree_of_search
    (breach (.contextRegisterOutOfRange range.contextRegister r.registers.length)) ?_ ?_ nofun
  · rw [search_split hpassed h.tiers.known, (h.tiers.matchFrame_noRegister hrange hnone).1]
    rfl
  · rw [search_split hpassed h.tiers.known_atPc, (h.tiers.matchFrame_noRegister hrange hnone).2]
    rfl

/-- Else the frame handles. -/
theorem agree_here (hrange : b.handlers.lookupRange offset = some range) {context : Value}
    (hcontext : r.registers[range.contextRegister]? = some context) :
    TiersAgree code (builtins.code .interpreterEnterAtBytecode) b offset d.thread.stack p r pc
      (run codes builtins false d) (run codes builtins false (d.withStack s')) := by
  obtain ⟨hbefore, -⟩ := h.hasAt.around_eq h.others
  have habove : (p.before d.thread.stack).length ≠ 0 := fun h0 =>
    h.above (List.eq_nil_of_length_eq_zero h0)
  obtain ⟨target, htarget, hm, hm'⟩ := h.tiers.matchFrame_found hrange hcontext habove
  have hrun := searchFor_here h.hasAt h.tiers.known (h.restart ▸ hpassed) (h.restart ▸ hm)
  rw [← hbefore] at hpassed hm'
  have hrun' := searchFor_here (d := d.withStack s') h.hasAt' h.tiers.known_atPc
    (h.restart ▸ hpassed) (h.restart ▸ hm')
  rw [hbefore] at hrun'
  rw [run_catchable h.pending h.catchable,
    run_catchable (d := d.withStack s') h.pending h.catchable, hrun, hrun']
  have hdistinct : d.thread.stack.FpsDistinct p.id → s'.FpsDistinct p.id := by
    unfold FpsDistinct
    rw [h.hasAt.frames, h.hasAt'.frames]
    simp [RawFrame.atPc]
  obtain ⟨hpatched, halone⟩ := apply_patched (m := r.baselineMatch code target context _)
    h.hasAt rfl codes
  obtain ⟨hpatched', halone'⟩ := apply_patched (d := d.withStack s')
    (m := r.interpretedMatch _ _ _ _) h.hasAt' rfl codes
  exact .here e hrange hcontext htarget rfl rfl hpatched hpatched'
    fun hd => ⟨halone hd, halone' (hdistinct hd)⟩

end ThrownInTiers

/-- An exception takes the same way through a stack if a baseline frame of it is an interpreted
one. -/
theorem run_tiers {codes : CodeRegistry} {builtins : Builtins} {e : Value} {s' : SegmentedStack}
    {code : Code} {b : Bytecode} {offset : Nat} {pc : Address}
    (h : ThrownInTiers codes builtins e d s' code b offset p r pc) :
    TiersAgree code (builtins.code .interpreterEnterAtBytecode) b offset d.thread.stack p r pc
      (run codes builtins false d) (run codes builtins false (d.withStack s')) := by
  cases hsearch : search { codes, builtins, exception := e, catchable := true } none
      d.thread.handlers (p.before d.thread.stack) 0 with
  | error v => exact h.agree_above hsearch nofun
  | ok found =>
    cases found with
    | found m => exact h.agree_above hsearch nofun
    | passed visited =>
      cases hrange : b.handlers.lookupRange offset with
      | none => exact h.agree_passed hsearch hrange
      | some range =>
        cases hregister : r.registers[range.contextRegister]? with
        | none => exact h.agree_noRegister hsearch hrange hregister
        | some context => exact h.agree_here hsearch hrange hregister

end Dispatch

namespace Dispatch.TiersExample

def bytecode : Bytecode where
  length := 10
  registerCount := 1
  handlers := { ranges := [⟨2, 8, 9, 0, .caught⟩] }

def interpreter : Code := ⟨0, 4096, Builtin.interpreterEntry.description⟩

def compiled : Code where
  number := 1
  start := 8192
  description := { kind := .baseline, size := 64, pcMap := [(2, 8), (4, 20), (9, 32)] }

def registry : CodeRegistry := { codes := [interpreter, compiled] }

def builtins : Builtins := ⟨⟨[], []⟩, 0, 0⟩

/-- A native frame calls from the frame that is described. -/
def called (spec : FrameSpec) : ThreadState :=
  let t : ThreadState := { pending := some (.smi 7) }
  ((t.pushFrame (spec.withRegister 0 .null)).2.pushFrame (.native 0)).2

def thrown : Dispatch where
  thread := called (.baseline compiled .undefined bytecode 4)
  materialized := []
  lazyThrow := false
  restart := none

def interpretedStack : SegmentedStack :=
  (called (.interpreted interpreter .undefined bytecode 4)).stack

def base : RawFrame :=
  ThreadState.placed {} ((FrameSpec.baseline compiled .undefined bytecode 4).withRegister 0 .null)

def place : StackPlace where
  left := []
  id := 0
  outer := []
  inner := thrown.thread.stack.activeFrames.take 1
  rest := []

theorem maps_compiled : compiled.Maps bytecode where
  kind := rfl
  increasing := by decide
  inside := by decide
  size := by decide
  handlers := by decide

theorem isBaseline_base : base.IsBaseline registry compiled bytecode 4 :=
  -- To place the frame changes nothing that counts here.
  { FrameSpec.isBaseline_baseline .undefined bytecode rfl rfl with }

theorem framesOf_of_lone {s : SegmentedStack} {g : StackSegment} (h : s.segments = [g]) {j : Nat}
    (hj : j ≠ g.id) : s.framesOf j = [] := by
  simp [SegmentedStack.framesOf, SegmentedStack.segment?, h, Ne.symm hj]

theorem thrownInTiers : ThrownInTiers registry builtins (.smi 7) thrown interpretedStack compiled
    bytecode 4 place base 4112 where
  pending := rfl
  catchable := rfl
  restart := rfl
  tiers := ⟨isBaseline_base, maps_compiled, ⟨interpreter, rfl, rfl⟩, rfl⟩
  hasAt := ⟨.root rfl rfl, rfl⟩
  hasAt' := ⟨.root rfl rfl, rfl⟩
  others := fun _ hj => (framesOf_of_lone rfl hj).trans (framesOf_of_lone rfl hj).symm
  above := List.cons_ne_nil _ _

/-- The handler stands at bytecode offset 9, and at offset 32 of the code. -/
theorem run_tiers_guarded :
    TiersAgree compiled (builtins.code .interpreterEnterAtBytecode) bytecode 4 thrown.thread.stack
      place base 4112 (run registry builtins false thrown)
      (run registry builtins false (thrown.withStack interpretedStack)) ∧
    (run registry builtins false thrown).2.thread.pendingHandler.map
      (fun h => (h.entry, h.framesAbove)) = some (8224, 1) ∧
    (run registry builtins false (thrown.withStack interpretedStack)).2.thread.pendingHandler.map
      (fun h => (h.context, h.framesAbove)) = some (.null, 0) :=
  ⟨run_tiers thrownInTiers, by decide +kernel, by decide +kernel⟩

end Dispatch.TiersExample

end ScriptEngine

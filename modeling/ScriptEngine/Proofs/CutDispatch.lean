import ScriptEngine.Proofs.CutStacks
import ScriptEngine.Proofs.Catching

namespace ScriptEngine

def Frame.unplaced (f : Frame) : Frame := f.stripped RawFrame.unplaced

def PendingHandler.unplaced (h : PendingHandler) : PendingHandler := { h with fp := 0, sp := 0 }

def FramePatch.unplaced : FramePatch → FramePatch
  | .none => .none
  | .handlers kept => .handlers kept
  | .bytecodeOffset _ offset => .bytecodeOffset 0 offset
  | .context _ v => .context 0 v
  | .exception _ v => .exception 0 v

def HandlerMatch.unplaced (m : HandlerMatch) : HandlerMatch :=
  { m with handler := m.handler.unplaced, patch := m.patch.unplaced }

namespace DispatchContext

variable {c : DispatchContext} {handlers : List Address} {visited : Nat} {f : Frame}

theorem matchEntry_unplaced :
    (some <$> matchEntry (handlers.map fun _ => 0) visited f.unplaced).map (·.map (·.unplaced)) =
      (some <$> matchEntry handlers visited f).map (·.map (·.unplaced)) := by
  have hhandler : f.unplaced.raw.handler = f.raw.handler := rfl
  have hcode : f.unplaced.code = f.code := rfl
  simp only [matchEntry, hhandler, hcode]
  cases f.raw.handler with
  | none => rfl
  | some i =>
    simp only [List.getElem?_map]
    cases handlers[i]? with
    | none => rfl
    | some address =>
      cases f.code with
      | none => rfl
      | some code =>
        simp only [Option.map_some]
        cases code.handlers.lookupReturn 0 <;> rfl

/-- A match is told by the frame up to addresses. -/
theorem matchCatchable_unplaced :
    (c.matchCatchable (handlers.map fun _ => 0) visited f.unplaced).map (·.map (·.unplaced)) =
      (c.matchCatchable handlers visited f).map (·.map (·.unplaced)) := by
  have hkind : f.unplaced.kind = f.kind := rfl
  have hcode : f.unplaced.code = f.code := rfl
  have hreturn : f.unplaced.returnHandler = f.returnHandler := rfl
  have hstub : f.unplaced.stubHandler = f.stubHandler := rfl
  have hrange : f.unplaced.coveringRange = f.coveringRange := rfl
  have hregister : contextRegister f.unplaced = contextRegister f := rfl
  unfold matchCatchable
  rw [hkind]
  cases f.kind
  case entry => exact matchEntry_unplaced
  case constructEntry => exact matchEntry_unplaced
  case exit => rfl
  case native => rfl
  case builtin => rfl
  case optimized =>
    simp only [matchOptimized, hcode, hreturn]
    cases f.code <;> cases f.returnHandler <;> rfl
  case stub =>
    simp only [matchStub, hcode, hstub]
    cases f.code <;> cases f.stubHandler <;> rfl
  case continuationWithCatch =>
    simp only [matchContinuation, hcode]
    cases f.code <;> rfl
  case interpreted =>
    simp only [matchInterpreted, hrange, hregister]
    cases f.coveringRange with
    | none => rfl
    | some range =>
      simp only
      cases contextRegister f range.contextRegister with
      | error e => rfl
      | ok context => by_cases hv : visited = 0 <;> simp only [hv] <;> rfl
  case baseline =>
    simp only [matchBaseline, hrange, hcode, hregister]
    cases f.coveringRange with
    | none => rfl
    | some range =>
      cases f.code with
      | none => rfl
      | some code =>
        simp only
        cases contextRegister f range.contextRegister with
        | error e => rfl
        | ok context => cases code.pcForBytecodeOffset range.handler <;> rfl

variable (c handlers visited f) in
theorem matchFrame_unplaced :
    (c.matchFrame none (handlers.map fun _ => 0) visited f.unplaced).map (·.map (·.unplaced)) =
      (c.matchFrame none handlers visited f).map (·.map (·.unplaced)) := by
  have hkind : f.unplaced.kind = f.kind := rfl
  simp only [matchFrame, reduceCtorEq, if_false]
  cases c.catchable with
  | true => exact matchCatchable_unplaced
  | false =>
    simp only [matchUncatchable, hkind]
    cases f.kind
    case entry => exact matchEntry_unplaced
    case constructEntry => exact matchEntry_unplaced
    all_goals rfl

variable (c visited) in
theorem matchFrame_alike {f' : Frame} {handlers' : List Address} (hf : f.unplaced = f'.unplaced)
    (hhandlers : handlers.length = handlers'.length) :
    (c.matchFrame none handlers visited f).map (·.map (·.unplaced)) =
      (c.matchFrame none handlers' visited f').map (·.map (·.unplaced)) := by
  have h := matchFrame_unplaced c handlers visited f
  have h' := matchFrame_unplaced c handlers' visited f'
  rw [List.map_const', hhandlers, hf] at h
  rw [List.map_const'] at h'
  exact h.symm.trans h'

theorem matchCatchable_of_matchFrame {m : HandlerMatch}
    (h : c.matchFrame none handlers visited f = .ok (some m)) :
    c.matchCatchable handlers visited f = .ok (some m) := by
  simp only [matchFrame, reduceCtorEq, if_false] at h
  cases hc : c.catchable with
  | true => simpa only [hc, if_true] using h
  | false =>
    simp only [hc, Bool.false_eq_true, if_false, matchUncatchable] at h
    unfold matchCatchable
    cases hk : f.kind <;> simp only [hk, Except.ok.injEq, reduceCtorEq] at h <;> exact h

theorem resumes_of_found (hc : f.HasCode) {m : HandlerMatch}
    (h : c.matchCatchable handlers visited f = .ok (some m)) :
    f.IsSound handlers visited ∧ f.Resumes c handlers visited (m.resumption f.raw handlers) := by
  by_cases hs : f.IsSound handlers visited
  · obtain ⟨m', hm, hresumes, _⟩ := matchCatchable_resumes (c := c) hc (handles_of_found h) hs
    cases hm.symm.trans h
    exact ⟨hs, hresumes⟩
  · obtain ⟨v, hv⟩ := matchCatchable_unsound (c := c) hc (handles_of_found h) hs
    cases hv.symm.trans h

end DispatchContext

/-- The frame pointer to go on with in a frame; entry frames have none. -/
def RawFrame.resumeFp (r : RawFrame) : Address := if r.marker.isEntry then 0 else r.fp

/-- Execution goes on in the frame that is number `k`; so many frames are given up for it, or one
less. -/
def PendingHandler.IsFor (h : PendingHandler) (k : Nat) (r : RawFrame) : Prop :=
  h.fp = r.resumeFp ∧ (h.framesAbove = k ∨ h.framesAbove + 1 = k)

theorem Frame.isEntry_of {codes : CodeRegistry} {segment : Nat} {r : RawFrame} :
    (Frame.of codes segment r).IsEntry ↔ r.marker.isEntry := by
  unfold IsEntry Frame.of
  cases r.marker
  case managed =>
    cases codes.lookup r.pc with
    | none => simp [kindOf, FrameMarker.isEntry]
    | some code =>
      simp only [kindOf, FrameMarker.isEntry, Bool.false_eq_true, iff_false]
      unfold Code.managedKind
      split <;> simp
  all_goals simp [kindOf, FrameMarker.isEntry]

theorem Frame.Resumes.isFor {c : DispatchContext} {handlers : List Address}
    {visited segment : Nat} {r : RawFrame} {resumption : Frame.Resumption}
    (hs : (Frame.of c.codes segment r).IsSound handlers visited)
    (h : (Frame.of c.codes segment r).Resumes c handlers visited resumption) :
    resumption.handler.IsFor visited r := by
  have hplain : ¬(Frame.of c.codes segment r).IsEntry → r.fp = r.resumeFp := fun hn =>
    (if_neg fun he => hn (Frame.isEntry_of.mpr he)).symm
  cases h with
  | entry kind => exact ⟨(if_pos (Frame.isEntry_of.mp kind)).symm, .inl rfl⟩
  | optimized kind => exact ⟨hplain (by simp [Frame.IsEntry, kind]), .inl rfl⟩
  | stub kind => exact ⟨hplain (by simp [Frame.IsEntry, kind]), .inl rfl⟩
  | baseline kind => exact ⟨hplain (by simp [Frame.IsEntry, kind]), .inl rfl⟩
  | continuation kind => exact ⟨hplain (by simp [Frame.IsEntry, kind]), .inl rfl⟩
  | interpreted kind =>
    simp only [Frame.IsSound, kind] at hs
    exact ⟨hplain (by simp [Frame.IsEntry, kind]), .inr (Nat.sub_add_cancel hs.1)⟩

theorem HandlerMatch.isFor {c : DispatchContext} {handlers : List Address} {visited segment : Nat}
    {r : RawFrame} {f : Frame} {m : HandlerMatch} (hv : Frame.view c.codes segment r = .ok f)
    (h : c.matchFrame none handlers visited f = .ok (some m)) : m.handler.IsFor visited r := by
  cases hv.symm.trans (Frame.view_eq_of (Frame.isKnown_of_view hv) segment)
  obtain ⟨hs, hresumes⟩ := DispatchContext.resumes_of_found (Frame.hasCode_of c.codes segment r)
    (DispatchContext.matchCatchable_of_matchFrame h)
  exact hresumes.isFor hs

namespace Dispatch

variable {c : DispatchContext} {restart : Option Address} {handlers handlers' : List Address}
  {visited : Nat} {frames frames' : List RawFrame}

/-- The search through frames, in whatever segments they lie. -/
def search (c : DispatchContext) (restart : Option Address) (handlers : List Address)
    (frames : List RawFrame) (visited : Nat) : Walk SearchResult :=
  (searchFrames c restart handlers 0 frames visited []).1

/-- Neither the number of a segment nor the objects made for frames matter to a search. -/
theorem searchFrames_fst (segment : Nat) (materialized : MaterializedObjects) :
    (searchFrames c restart handlers segment frames visited materialized).1 =
      search c restart handlers frames visited := by
  unfold search
  generalize [] = none
  induction frames generalizing visited materialized none with
  | nil => rfl
  | cons r frames ih =>
    have hview : Frame.view c.codes 0 r = (Frame.view c.codes segment r).map (.stripped id) :=
      Frame.view_strip RawFrame.keepsView_id c.codes segment r
    simp only [searchFrames, hview]
    cases Frame.view c.codes segment r with
    | error e => rfl
    | ok f =>
      have hmatch : c.matchFrame restart handlers visited (f.stripped id) =
        c.matchFrame restart handlers visited f := rfl
      simp only [Except.map, hmatch]
      cases c.matchFrame restart handlers visited f with
      | error e => rfl
      | ok m =>
        cases m with
        | none => exact ih _ _
        | some m => rfl

theorem search_cons (r : RawFrame) : search c restart handlers (r :: frames) visited =
    (Frame.view c.codes 0 r).bind fun f =>
      (c.matchFrame restart handlers visited f).bind fun
        | some m => .ok (.found m)
        | none => search c restart handlers frames (visited + 1) := by
  rw [search, searchFrames]
  cases Frame.view c.codes 0 r with
  | error e => rfl
  | ok f =>
    simp only [Except.bind]
    cases c.matchFrame restart handlers visited f with
    | error e => rfl
    | ok m =>
      cases m with
      | none => exact searchFrames_fst 0 _
      | some m => rfl

/-- A search goes on where one through the first frames passed them all. -/
theorem search_append (outer : List RawFrame) :
    search c restart handlers (frames ++ outer) visited =
      (search c restart handlers frames visited).bind fun
        | .found m => .ok (.found m)
        | .passed visited => search c restart handlers outer visited := by
  induction frames generalizing visited with
  | nil => rfl
  | cons r frames ih =>
    rw [List.cons_append, search_cons, search_cons]
    cases Frame.view c.codes 0 r with
    | error e => rfl
    | ok f =>
      simp only [Except.bind]
      cases c.matchFrame restart handlers visited f with
      | error e => rfl
      | ok m =>
        cases m with
        | none => exact ih
        | some m => rfl

/-- Two searches through frames end the same way: both fail, both pass all frames, or both find the
frame in the same place, with matches that are the same up to addresses. -/
inductive SearchesAlike (frames frames' : List RawFrame) (visited : Nat) :
    Walk SearchResult → Walk SearchResult → Prop
  | fails (e : FatalError) : SearchesAlike frames frames' visited (.error e) (.error e)
  | passes (visited' : Nat) :
      SearchesAlike frames frames' visited (.ok (.passed visited')) (.ok (.passed visited'))
  | finds {k : Nat} {r r' : RawFrame} {m m' : HandlerMatch}
      (frame : frames[k]? = some r) (frame' : frames'[k]? = some r')
      (isFor : m.handler.IsFor (visited + k) r) (isFor' : m'.handler.IsFor (visited + k) r')
      (same : m.unplaced = m'.unplaced) :
      SearchesAlike frames frames' visited (.ok (.found m)) (.ok (.found m'))

theorem SearchesAlike.cons {r r' : RawFrame} {result result' : Walk SearchResult}
    (h : SearchesAlike frames frames' (visited + 1) result result') :
    SearchesAlike (r :: frames) (r' :: frames') visited result result' := by
  cases h with
  | fails e => exact .fails e
  | passes visited' => exact .passes visited'
  | @finds k _ _ _ _ frame frame' isFor isFor' same =>
    rw [Nat.add_assoc, Nat.add_comm 1] at isFor isFor'
    exact .finds (k := k + 1) frame frame' isFor isFor' same

/-- A search is told by the frames up to addresses. -/
theorem search_alike (hframes : frames.map (·.unplaced) = frames'.map (·.unplaced))
    (hhandlers : handlers.length = handlers'.length) :
    SearchesAlike frames frames' visited (search c none handlers frames visited)
      (search c none handlers' frames' visited) := by
  induction frames generalizing frames' visited with
  | nil =>
    obtain rfl : frames' = [] := List.map_eq_nil_iff.mp hframes.symm
    exact .passes visited
  | cons r frames ih =>
    obtain ⟨r', frames', rfl, hr, hrest⟩ := List.map_eq_cons_iff.mp hframes.symm
    rw [search_cons, search_cons]
    rcases Frame.view_alike RawFrame.keepsView_unplaced c.codes 0 0 hr.symm with
      ⟨e, hv, hv'⟩ | ⟨f, f', hv, hv', hf⟩
    · rw [hv, hv']
      exact .fails e
    have hmatch := DispatchContext.matchFrame_alike c visited hf hhandlers
    rw [hv, hv']
    simp only [Except.bind]
    cases hm : c.matchFrame none handlers visited f <;>
      cases hm' : c.matchFrame none handlers' visited f' <;>
      simp only [hm, hm', Except.map, Except.ok.injEq, Except.error.injEq, reduceCtorEq] at hmatch
    case error.error e e' => exact hmatch ▸ .fails e
    case ok.ok m m' =>
      cases m <;> cases m' <;>
        simp only [Option.map_some, Option.map_none, Option.some.injEq, reduceCtorEq] at hmatch
      case none.none => exact (ih hrest.symm).cons
      case some.some =>
        exact .finds (k := 0) rfl rfl (HandlerMatch.isFor hv hm) (HandlerMatch.isFor hv' hm') hmatch

/-- What a search through all segments ends with. -/
def SearchResult.outcome : SearchResult → Walk Unit
  | .found _ => .ok ()
  | .passed _ => .error .noHandlerFound

variable (c visited) in
/-- The walk over the segments of a chain is a search through their frames. -/
theorem searchFor_chain {d : Dispatch} {ids : List Nat} {n : Nat}
    (chain : d.thread.stack.Chain d.thread.stack.active ids) (hn : ids.length ≤ n + 1) :
    let searched :=
      search c d.restart d.thread.handlers (ids.flatMap d.thread.stack.framesOf) visited
    (searchFor c n visited d).1 = searched.bind SearchResult.outcome ∧
      ∀ m, searched = .ok (.found m) → ∃ d' : Dispatch, d'.lazyThrow = d.lazyThrow ∧
        (searchFor c n visited d).2 = d'.apply m := by
  induction ids generalizing d n visited with
  | nil => cases chain
  | cons id ids ih =>
    obtain ⟨g, found⟩ := chain.found
    have hactive : d.thread.stack.active = id := by
      obtain ⟨_, he⟩ := chain.head
      exact (List.cons.inj he).1.symm
    have hframes : d.thread.stack.activeSegment.innermostFirst = d.thread.stack.framesOf id := by
      rw [SegmentedStack.framesOf_active found, hactive]
    rw [List.flatMap_cons, search_append,
      ← searchFrames_fst d.thread.stack.activeSegment.id d.materialized, searchFor, hframes]
    dsimp only
    rcases searchFrames c d.restart d.thread.handlers d.thread.stack.activeSegment.id
      (d.thread.stack.framesOf id) visited d.materialized with ⟨e | ⟨m | passed⟩, kept⟩
    · exact ⟨rfl, by rintro _ ⟨⟩⟩
    · refine ⟨rfl, ?_⟩
      rintro m' ⟨⟩
      exact ⟨{ d with materialized := kept }, rfl, rfl⟩
    · dsimp only [Except.bind]
      cases ids with
      | nil =>
        rw [chain.switchToParent_last]
        cases n <;> exact ⟨rfl, by rintro _ ⟨⟩⟩
      | cons next ids =>
        -- The walk goes on in the parent, whose chain is one segment shorter.
        obtain ⟨parent, -, rest, hswitch⟩ := chain.switchToParent (by simp)
        obtain ⟨n, rfl⟩ : ∃ k, n = k + 1 := ⟨n - 1, by simp at hn; omega⟩
        rw [hswitch]
        have hsame : (d.thread.stack.returnedTo [d.thread.stack.active] parent).framesOf =
            d.thread.stack.framesOf := funext (SegmentedStack.framesOf_returnedTo _ _)
        obtain ⟨hresult, hfound⟩ := ih passed (d := { d with
            materialized := kept
            thread := { d.thread with
              stack := d.thread.stack.returnedTo [d.thread.stack.active] parent } })
          (rest.returnedTo [d.thread.stack.active] parent) (Nat.le_of_succ_le_succ hn)
        rw [hsame] at hresult hfound
        exact ⟨hresult, hfound⟩

/-- Two runs of dispatch end the same way: they fail for the same reason, or go on in the same
frame in the same way, up to addresses. -/
inductive EndsAlike {ε α : Type} (frames frames' : List RawFrame) :
    Except ε α × Dispatch → Except ε α × Dispatch → Prop
  | fails (e : ε) (d d' : Dispatch) : EndsAlike frames frames' (.error e, d) (.error e, d')
  | goesOn (a : α) {d d' : Dispatch} {k : Nat} {r r' : RawFrame} {h h' : PendingHandler}
      (frame : frames[k]? = some r) (frame' : frames'[k]? = some r')
      (chosen : d.thread.pendingHandler = some h) (chosen' : d'.thread.pendingHandler = some h')
      (isFor : h.IsFor k r) (isFor' : h'.IsFor k r') (same : h.unplaced = h'.unplaced)
      (lazyThrow : d.lazyThrow = d'.lazyThrow) :
      EndsAlike frames frames' (.ok a, d) (.ok a, d')

variable {d d' : Dispatch}

theorem searchFor_alike (hs : d.thread.stack.Holds frames) (hs' : d'.thread.stack.Holds frames')
    (hframes : frames.map (·.unplaced) = frames'.map (·.unplaced))
    (hhandlers : d.thread.handlers.length = d'.thread.handlers.length)
    (hlazy : d.lazyThrow = d'.lazyThrow) (hr : d.restart = none) (hr' : d'.restart = none) :
    EndsAlike frames frames' (searchFor c d.thread.stack.segments.length 0 d)
      (searchFor c d'.thread.stack.segments.length 0 d') := by
  obtain ⟨ids, hc, rfl⟩ := hs.chain
  obtain ⟨ids', hc', rfl⟩ := hs'.chain
  have halike : SearchesAlike _ _ 0 _ _ := search_alike (c := c) hframes hhandlers
  obtain ⟨hresult, hfound⟩ := searchFor_chain c 0 hc (Nat.le_succ_of_le hc.length_le)
  obtain ⟨hresult', hfound'⟩ := searchFor_chain c 0 hc' (Nat.le_succ_of_le hc'.length_le)
  rw [hr] at hresult hfound
  rw [hr'] at hresult' hfound'
  generalize searchFor c d.thread.stack.segments.length 0 d = ended at *
  generalize searchFor c d'.thread.stack.segments.length 0 d' = ended' at *
  obtain ⟨result, after⟩ := ended
  obtain ⟨result', after'⟩ := ended'
  dsimp only at hresult hresult' hfound hfound'
  generalize search c none d.thread.handlers _ 0 = searched at *
  generalize search c none d'.thread.handlers _ 0 = searched' at *
  cases halike with
  | fails e =>
    cases hresult
    cases hresult'
    exact .fails e after after'
  | passes visited =>
    cases hresult
    cases hresult'
    exact .fails _ after after'
  | @finds k r r' m m' frame frame' isFor isFor' same =>
    cases hresult
    cases hresult'
    obtain ⟨before, hbefore, rfl⟩ := hfound m rfl
    obtain ⟨before', hbefore', rfl⟩ := hfound' m' rfl
    rw [Nat.zero_add] at isFor isFor'
    refine .goesOn () frame frame' rfl rfl isFor isFor' (congrArg (·.handler) same) ?_
    have hlazies : m.lazyThrow = m'.lazyThrow := congrArg (·.lazyThrow) same
    simp only [apply, hbefore, hbefore', hlazy, hlazies]

/-- Dispatch of one exception ends the same way on two stacks with the same frames. -/
theorem run_alike (codes : CodeRegistry) (builtins : Builtins) (termination : Bool)
    (hs : d.thread.stack.Holds frames) (hs' : d'.thread.stack.Holds frames')
    (hframes : frames.map (·.unplaced) = frames'.map (·.unplaced))
    (hhandlers : d.thread.handlers.length = d'.thread.handlers.length)
    (hpending : d.thread.pending = d'.thread.pending)
    (hlazy : d.lazyThrow = d'.lazyThrow) (hr : d.restart = none) (hr' : d'.restart = none) :
    EndsAlike frames frames' (run codes builtins termination d)
      (run codes builtins termination d') := by
  unfold run
  rw [← hpending]
  cases d.thread.pending with
  | none => exact .fails _ d d'
  | some exception =>
    dsimp only
    generalize (exception.isCatchable && !termination) = catchable
    let consulted (d : Dispatch) : Dispatch :=
      { d with thread := if catchable then d.thread else { d.thread with joins := [] } }
    let c : DispatchContext := { codes, builtins, exception, catchable }
    have halike : EndsAlike frames frames'
        (searchFor c (consulted d).thread.stack.segments.length 0 (consulted d))
        (searchFor c (consulted d').thread.stack.segments.length 0 (consulted d')) :=
      searchFor_alike (by cases catchable <;> exact hs) (by cases catchable <;> exact hs') hframes
        (by cases catchable <;> exact hhandlers) hlazy hr hr'
    simp only [consulted, c] at halike
    generalize searchFor _ _ _ _ = ended at halike ⊢
    generalize searchFor _ _ _ _ = ended' at halike ⊢
    cases halike with
    | fails e after after' => exact .fails _ after after'
    | goesOn a frame frame' chosen chosen' isFor isFor' same lazyThrow =>
      exact .goesOn exception frame frame' chosen chosen' isFor isFor' same lazyThrow

end Dispatch
end ScriptEngine

import ScriptEngine.Proofs.CutWalks
import ScriptEngine.Proofs.Nesting

namespace ScriptEngine

namespace Frame

/-- The frame's own handler says who catches. -/
def Decides (f : Frame) (heap : Heap) (p : HandlerPrediction) : Prop :=
  p ≠ .uncaught ∧
  match f.kind with
  | .interpreted | .baseline => f.Predicts heap p
  | .optimized => f.returnHandler.isSome ∧ f.Predicts heap p
  | .stub => ∃ code, f.code = some code ∧ code.catchesInStub ∧ code.prediction = p
  | .continuationWithCatch => ∃ code, f.code = some code ∧ code.prediction = p
  | _ => False

variable {f : Frame} {heap : Heap} {p : HandlerPrediction}

/-- The prediction of a frame by itself. -/
def ownPrediction (f : Frame) (heap : Heap) : HandlerPrediction :=
  match f.kind with
  | .interpreted | .baseline | .optimized => f.prediction heap
  | .stub => f.stubPrediction?.getD .uncaught
  | .continuationWithCatch => (f.code.map (·.prediction)).getD .uncaught
  | _ => .uncaught

theorem rangePrediction_eq (hp : p ≠ .uncaught) :
    f.rangePrediction = p ↔ ∃ range, f.coveringRange = some range ∧ range.prediction = p := by
  unfold rangePrediction
  cases f.coveringRange with
  | none => simp [hp.symm]
  | some range => simp

theorem inlinedPrediction_eq (hk : f.kind = .optimized) (hp : p ≠ .uncaught) :
    f.inlinedPrediction heap = p ↔ f.returnHandler.isSome ∧ f.Predicts heap p := by
  constructor
  · intro h
    have hreturn : f.returnHandler.isSome := by
      cases hr : f.returnHandler with
      | some _ => rfl
      | none => simp [inlinedPrediction, hr, hp.symm] at h
    obtain ⟨q, hq⟩ : ∃ q, f.Predicts heap q := exists_predicts_optimized hk
    have hhandles : f.Handles := by
      simp only [Handles, hk]
      exact returnHandler_isSome.mp hreturn
    rw [inlinedPrediction_of_predicts hk hhandles hq] at h
    exact ⟨hreturn, h ▸ hq⟩
  · rintro ⟨hreturn, hpredicts⟩
    refine inlinedPrediction_of_predicts hk ?_ hpredicts
    simp only [Handles, hk]
    exact returnHandler_isSome.mp hreturn

theorem decides_iff : f.Decides heap p ↔ p ≠ .uncaught ∧ f.ownPrediction heap = p := by
  refine and_congr_right fun hp => ?_
  unfold ownPrediction prediction
  cases hk : f.kind
  case interpreted | baseline => simp only [Predicts, hk, rangePrediction_eq hp]
  case optimized => simp only [inlinedPrediction_eq hk hp]
  case stub =>
    unfold stubPrediction?
    cases hc : f.code with
    | none => simp [hp.symm]
    | some code => cases hs : code.catchesInStub <;> simp [Option.filter, hs, hp.symm]
  case continuationWithCatch => cases f.code <;> simp [hp.symm]
  all_goals simp [hp.symm]

end Frame

def Undecided (env : Surroundings) (frames : List RawFrame) : Prop :=
  ∀ r ∈ frames, ∀ p, ¬(Frame.of env.codes 0 r).Decides env.heap p

/-- The innermost of the frames that decide says `p`. -/
def Decided (env : Surroundings) (frames : List RawFrame) (p : HandlerPrediction) : Prop :=
  ∃ inner r outer, frames = inner ++ r :: outer ∧ Undecided env inner ∧
    (Frame.of env.codes 0 r).Decides env.heap p

theorem decided_or_undecided (env : Surroundings) (frames : List RawFrame) :
    (∃ p, Decided env frames p) ∨ Undecided env frames := by
  induction frames with
  | nil => exact .inr fun _ h => absurd h List.not_mem_nil
  | cons r frames ih =>
    by_cases hr : ∃ p, (Frame.of env.codes 0 r).Decides env.heap p
    · obtain ⟨p, hp⟩ := hr
      exact .inl ⟨p, [], r, frames, rfl, fun _ h => absurd h List.not_mem_nil, hp⟩
    · have hnot : ∀ p, ¬(Frame.of env.codes 0 r).Decides env.heap p := fun p hp => hr ⟨p, hp⟩
      rcases ih with ⟨p, inner, q, outer, rfl, hinner, hq⟩ | hundecided
      · exact .inl ⟨p, r :: inner, q, outer, rfl, List.forall_mem_cons.mpr ⟨hnot, hinner⟩, hq⟩
      · exact .inr (List.forall_mem_cons.mpr ⟨hnot, hundecided⟩)

namespace StackItem

variable {items : List StackItem}

theorem exists_innermost_scope (h : scopes items ≠ []) : ∃ newer scope older,
    items = newer ++ .scope scope :: older ∧ scopes newer = [] := by
  induction items with
  | nil => exact absurd rfl h
  | cons x items ih =>
    cases x with
    | scope s => exact ⟨[], s, items, rfl, rfl⟩
    | frame r =>
      obtain ⟨newer, s, older, rfl, hnewer⟩ := ih h
      exact ⟨.frame r :: newer, s, older, rfl, hnewer⟩

theorem exists_oldest_entry (h : entries items ≠ []) : ∃ newer entry older,
    items = newer ++ .frame entry :: older ∧ entry.marker.isEntry ∧ entries older = [] := by
  induction items with
  | nil => exact absurd rfl h
  | cons x items ih =>
    by_cases hrest : entries items = []
    · cases x with
      | scope s => exact absurd hrest h
      | frame r =>
        cases hr : r.marker.isEntry with
        | true => exact ⟨[], r, items, rfl, hr, hrest⟩
        | false => simp [hr, hrest] at h
    · obtain ⟨newer, entry, older, rfl, hentry⟩ := ih hrest
      exact ⟨x :: newer, entry, older, rfl, hentry⟩

theorem find?_isHandler_of_entry {newer : List StackItem} (hscopes : scopes newer = [])
    (hentries : entries newer ≠ []) (older : List StackItem) :
    ∃ r, (newer ++ older).find? isHandler = some (.frame r) := by
  induction newer with
  | nil => exact absurd rfl hentries
  | cons x newer ih =>
    cases x with
    | scope s => cases hscopes
    | frame r =>
      cases hr : r.marker.isEntry with
      | true => exact ⟨r, by simp [isHandler, isEntry, hr]⟩
      | false =>
        have hrest : entries newer ≠ [] := by simpa [hr] using hentries
        simpa [isHandler, isEntry, isScope, hr] using ih hscopes hrest

theorem find?_isHandler_of_scope {newer older : List StackItem} {scope : TryCatch}
    (hscopes : scopes newer = []) (hentries : entries newer = []) :
    (newer ++ .scope scope :: older).find? isHandler = some (.scope scope) := by
  rw [List.find?_append, find?_isHandler_eq_none.mpr ⟨hentries, hscopes⟩]
  rfl

/-- There is no scope that can be asked: it is verbose, and an entry frame is newer. -/
def ScopesPassed (items : List StackItem) : Prop :=
  ∀ newer scope older, items = newer ++ .scope scope :: older → scopes newer = [] →
    scope.isVerbose ∧ entries newer ≠ []

end StackItem

open StackItem

/-- Who catches what is thrown above the items. -/
inductive CaughtBy (env : Surroundings) (items : List StackItem) : CatchPrediction → Prop
  /-- The innermost scope is newer than every entry frame. -/
  | scopeFirst {newer older : List StackItem} {scope : TryCatch}
      (split : items = newer ++ .scope scope :: older) (innermost : scopes newer = [])
      (first : entries newer = []) : CaughtBy env items .byExternal
  /-- A frame decides that is newer than the oldest of the entry frames newer than the scope. -/
  | frameBeforeScope {inner between older : List StackItem} {entry : RawFrame} {scope : TryCatch}
      {p : HandlerPrediction}
      (split : items = inner ++ .frame entry :: (between ++ .scope scope :: older))
      (innermost : scopes inner = [] ∧ scopes between = []) (quiet : scope.isVerbose = false)
      (isEntry : entry.marker.isEntry) (oldest : entries between = [])
      (decided : Decided env (frames inner) p) : CaughtBy env items p.toCatch
  /-- No frame does. -/
  | scopeBeforeFrame {inner between older : List StackItem} {entry : RawFrame} {scope : TryCatch}
      (split : items = inner ++ .frame entry :: (between ++ .scope scope :: older))
      (innermost : scopes inner = [] ∧ scopes between = []) (quiet : scope.isVerbose = false)
      (isEntry : entry.marker.isEntry) (oldest : entries between = [])
      (undecided : Undecided env (frames inner)) : CaughtBy env items .byExternal
  | frame {p : HandlerPrediction} (passed : ScopesPassed items)
      (decided : Decided env (frames items) p) : CaughtBy env items p.toCatch
  | nobody (passed : ScopesPassed items) (undecided : Undecided env (frames items)) :
      CaughtBy env items .notCaught

theorem exists_caughtBy (env : Surroundings) (items : List StackItem) :
    ∃ p, CaughtBy env items p := by
  by_cases hpassed : ScopesPassed items
  · rcases decided_or_undecided env (frames items) with ⟨p, hp⟩ | hundecided
    · exact ⟨_, .frame hpassed hp⟩
    · exact ⟨_, .nobody hpassed hundecided⟩
  · simp only [ScopesPassed, not_forall] at hpassed
    obtain ⟨newer, scope, older, rfl, hscopes, hheard⟩ := hpassed
    by_cases hfirst : entries newer = []
    · exact ⟨_, .scopeFirst rfl hscopes hfirst⟩
    · have hquiet : scope.isVerbose = false := by simpa [hfirst] using hheard
      obtain ⟨inner, entry, between, rfl, hentry, holdest⟩ := exists_oldest_entry hfirst
      have hsplit : (inner ++ .frame entry :: between) ++ .scope scope :: older =
          inner ++ .frame entry :: (between ++ .scope scope :: older) := by simp
      have hinnermost : scopes inner = [] ∧ scopes between = [] := by simpa using hscopes
      rcases decided_or_undecided env (frames inner) with ⟨p, hp⟩ | hundecided
      · exact ⟨_, .frameBeforeScope hsplit hinnermost hquiet hentry holdest hp⟩
      · exact ⟨_, .scopeBeforeFrame hsplit hinnermost hquiet hentry holdest hundecided⟩

namespace ThreadState

variable {t : ThreadState} {env : Surroundings} {items : List StackItem}

section Frames

variable {f : Frame} {heap : Heap} {p : HandlerPrediction}

theorem predictAt_eq (hf : ¬f.IsEntry) : t.predictAt heap f = (f.ownPrediction heap).toCatch := by
  unfold predictAt Frame.ownPrediction Frame.prediction
  cases hk : f.kind
  case entry => exact absurd (.inl hk) hf
  case constructEntry => exact absurd (.inr hk) hf
  case stub => cases f.stubPrediction? <;> rfl
  case continuationWithCatch => cases f.code <;> rfl
  all_goals rfl

theorem catcherAt_of_decides (h : f.Decides heap p) : t.catcherAt heap f = some p.toCatch := by
  have hf : ¬f.IsEntry := by
    rintro (hk | hk) <;> exact absurd h.2 (by simp [hk])
  obtain ⟨hp, hown⟩ := Frame.decides_iff.mp h
  rw [catcherAt_of_prediction (predictAt_eq hf), hown, HandlerPrediction.definite?_of_ne hp]
  rfl

theorem catcherAt_entry (hf : f.IsEntry) :
    t.catcherAt heap f = if t.externalCatchesAt f then some .byExternal else none := by
  unfold catcherAt predictAt
  rcases hf with hk | hk <;> rw [hk] <;> dsimp only <;> cases t.externalCatchesAt f <;> rfl

theorem catcherAt_of_undecided (hentry : f.IsEntry → t.externalCatchesAt f = false)
    (h : ∀ p, ¬f.Decides heap p) : t.catcherAt heap f = none := by
  by_cases hf : f.IsEntry
  · simp [catcherAt_entry hf, hentry hf]
  · have hown : f.ownPrediction heap = .uncaught := by
      by_contra hp
      exact h _ (Frame.decides_iff.mpr ⟨hp, rfl⟩)
    rw [catcherAt_of_prediction (predictAt_eq hf), hown]
    rfl

end Frames

section Entries

variable {codes : CodeRegistry} {newer older between : List StackItem} {entry : RawFrame}
  {scope : TryCatch}

/-- The handler that an entry frame installed comes after those of the older ones. -/
theorem LaidOut.handler_eq (h : t.LaidOut (newer ++ .frame entry :: older))
    (hentry : entry.marker.isEntry) : entry.handler = some (entries older).length := by
  cases h.stacked.of_append with
  | frame _ _ _ _ handler => rw [handler, if_pos hentry]

theorem LaidOut.handlers_getElem? (h : t.LaidOut (newer ++ .frame entry :: older))
    {next : RawFrame} {rest : List RawFrame} (hnext : entries older = next :: rest) :
    t.handlers[rest.length]? = some next.sp := by
  have hlist : entries (newer ++ .frame entry :: older) =
      entries newer ++ entries [.frame entry] ++ next :: rest := by
    rw [← hnext, ← entries_append, ← entries_append]
    simp
  rw [h.handlers, hlist]
  simp

/-- The scope is asked if the next older entry frame, when there is one, is older than it. -/
theorem LaidOut.externalCatchesAt_eq (h : t.LaidOut (newer ++ .frame entry :: older))
    (hentry : entry.marker.isEntry) (htop : t.topTryCatch = some scope)
    (hquiet : scope.isVerbose = false) : t.externalCatchesAt (.of codes 0 entry) =
      (entries older).head?.all fun next => scope.address < next.sp := by
  have hhandler : (Frame.of codes 0 entry).raw.handler = some (entries older).length :=
    h.handler_eq hentry
  unfold externalCatchesAt
  simp only [htop, hquiet, hhandler, Bool.false_eq_true, if_false]
  cases hnext : entries older with
  | nil => rfl
  | cons next rest =>
    simp only [List.length_cons, h.handlers_getElem? hnext]
    rfl

theorem LaidOut.topTryCatch_of_split (h : t.LaidOut (newer ++ .scope scope :: older))
    (hnewer : scopes newer = []) : t.topTryCatch = some scope := by
  simp [h.topTryCatch_eq, hnewer]

/-- The oldest of the entry frames newer than the scope lets it catch. -/
theorem LaidOut.externalCatchesAt_oldest
    (h : t.LaidOut (newer ++ .frame entry :: (between ++ .scope scope :: older)))
    (hentry : entry.marker.isEntry) (htop : t.topTryCatch = some scope)
    (hquiet : scope.isVerbose = false) (holdest : entries between = []) :
    t.externalCatchesAt (.of codes 0 entry) := by
  rw [h.externalCatchesAt_eq hentry htop hquiet]
  have hstacked : Stacked (between ++ .scope scope :: older) := h.stacked.of_append.tail
  cases hnext : entries older with
  | nil => simp [holdest, hnext]
  | cons next rest =>
    have hmem : next ∈ entries older := hnext ▸ List.mem_cons_self
    have hlt : scope.address < next.sp := hstacked.bottom_lt (mem_entries.mp hmem).1
    simp [holdest, hnext, hlt]

/-- Those that are newer still do not. -/
theorem LaidOut.externalCatchesAt_newer
    (h : t.LaidOut (newer ++ .frame entry :: (between ++ .scope scope :: older)))
    (hentry : entry.marker.isEntry) (htop : t.topTryCatch = some scope)
    (hquiet : scope.isVerbose = false) (hbetween : entries between ≠ []) :
    t.externalCatchesAt (.of codes 0 entry) = false := by
  rw [h.externalCatchesAt_eq hentry htop hquiet]
  have hstacked : Stacked (between ++ .scope scope :: older) := h.stacked.of_append.tail
  cases hnext : entries between with
  | nil => exact absurd hnext hbetween
  | cons next rest =>
    have hmem : .frame next ∈ between :=
      (mem_entries.mp (hnext ▸ List.mem_cons_self : next ∈ entries between)).1
    have hle : next.sp ≤ next.fp :=
      hstacked.bottom_le_top (.frame next) (List.mem_append_left _ hmem)
    have hlt : next.fp < scope.address :=
      (List.pairwise_append.mp hstacked.descending).2.2 _ hmem (.scope scope) List.mem_cons_self
    have hge : ¬scope.address < next.sp := by lia
    simp [hnext, hge]

theorem LaidOut.externalCatchesAt_passed (h : t.LaidOut items) (hpassed : ScopesPassed items)
    (f : Frame) : t.externalCatchesAt f = false := by
  unfold externalCatchesAt
  by_cases hscopes : scopes items = []
  · simp [h.topTryCatch_eq, hscopes]
  · obtain ⟨newer, scope, older, rfl, hnewer⟩ := exists_innermost_scope hscopes
    simp [h.topTryCatch_of_split hnewer, (hpassed _ _ _ rfl hnewer).1]

theorem LaidOut.handlerType_passed (h : t.LaidOut items) (hpassed : ScopesPassed items) :
    t.handlerType .undefined ≠ .external := by
  have hkind := h.handlerType_eq (e := .undefined) rfl
  split at hkind
  case h_1 s hfind =>
    obtain ⟨-, newer, older, rfl, hnewer⟩ := List.find?_eq_some_iff_append.mp hfind
    have hnone : newer.find? isHandler = none := by simpa using hnewer
    obtain ⟨hentries, hscopes⟩ := find?_isHandler_eq_none.mp hnone
    exact absurd hentries (hpassed _ _ _ rfl hscopes).2
  case h_2 => simp [hkind]
  case h_3 => simp [hkind]

end Entries

theorem LaidOut.predictCatcher_of_answer (h : t.LaidOut items) (answer : Option CatchPrediction)
    (htype : t.handlerType .undefined ≠ .external)
    (hanswer : Frame.firstAnswer env.codes 0 (t.catcherAt env.heap) (frames items) = .ok answer) :
    t.predictCatcher env = .ok (answer.getD .notCaught) := by
  have hid : t.stack.activeSegment.id = 0 := by
    rw [h.stack]
    rfl
  rw [predictCatcher_eq htype, h.activeFrames_eq, hid, hanswer]
  rfl

theorem predictCatcher_of_external (h : t.handlerType .undefined = .external) :
    t.predictCatcher env = .ok .byExternal := by
  unfold predictCatcher
  rw [h]
  rfl

section Walk

variable {asked : List RawFrame}

theorem firstAnswer_decided (hk : ∀ r ∈ asked, r.IsKnown env.codes)
    (hentries : ∀ r ∈ asked, r.marker.isEntry →
      t.externalCatchesAt (.of env.codes 0 r) = false)
    {p : HandlerPrediction} (hdecided : Decided env asked p) (behind : List RawFrame) :
    Frame.firstAnswer env.codes 0 (t.catcherAt env.heap) (asked ++ behind) =
      .ok (some p.toCatch) := by
  obtain ⟨inner, r, outer, rfl, hinner, hr⟩ := hdecided
  rw [List.append_assoc, List.cons_append]
  refine firstAnswer_found (fun q hq => hk q ?_) (fun q hq => ?_) (catcherAt_of_decides hr)
  · rcases List.mem_append.mp hq with hq | hq <;> simp_all
  · have hmem : q ∈ inner ++ r :: outer := List.mem_append_left _ hq
    exact catcherAt_of_undecided (fun hf => hentries q hmem (Frame.isEntry_of.mp hf)) (hinner q hq)

theorem catcherAt_undecided (hundecided : Undecided env asked)
    (hentries : ∀ r ∈ asked, r.marker.isEntry →
      t.externalCatchesAt (.of env.codes 0 r) = false) :
    ∀ r ∈ asked, t.catcherAt env.heap (.of env.codes 0 r) = none := fun r hr =>
  catcherAt_of_undecided (fun hf => hentries r hr (Frame.isEntry_of.mp hf)) (hundecided r hr)

theorem firstAnswer_nothing {α : Type} {codes : CodeRegistry} {answer : Frame → Option α}
    (hk : ∀ r ∈ asked, r.IsKnown codes) (hnone : ∀ r ∈ asked, answer (.of codes 0 r) = none) :
    Frame.firstAnswer codes 0 answer asked = .ok none := by
  induction asked with
  | nil => rfl
  | cons r asked ih =>
    rw [Frame.firstAnswer, Frame.view_eq_of (hk r List.mem_cons_self)]
    simp only [bind, Except.bind, hnone r List.mem_cons_self]
    exact ih (fun q hq => hk q (List.mem_cons_of_mem _ hq))
      (fun q hq => hnone q (List.mem_cons_of_mem _ hq))

end Walk

section Asked

variable {inner between older : List StackItem} {entry : RawFrame} {scope : TryCatch}

/-- With entry frames on both sides, those inside let the scope catch nothing. -/
theorem LaidOut.externalCatchesAt_inner
    (h : t.LaidOut (inner ++ .frame entry :: (between ++ .scope scope :: older)))
    (htop : t.topTryCatch = some scope) (hquiet : scope.isVerbose = false)
    (hentry : entry.marker.isEntry) : ∀ r ∈ frames inner, r.marker.isEntry →
      t.externalCatchesAt (.of env.codes 0 r) = false := by
  intro r hr hmarker
  obtain ⟨newer, rest, rfl⟩ := List.append_of_mem (mem_frames.mp hr)
  have hsplit : (newer ++ .frame r :: rest) ++ .frame entry :: (between ++ .scope scope :: older) =
      newer ++ .frame r :: ((rest ++ .frame entry :: between) ++ .scope scope :: older) := by simp
  rw [hsplit] at h
  exact h.externalCatchesAt_newer hmarker htop hquiet (by simp [hentry])

theorem LaidOut.handlerType_inner
    (h : t.LaidOut (inner ++ .frame entry :: (between ++ .scope scope :: older)))
    (innermost : scopes inner = [] ∧ scopes between = []) (hentry : entry.marker.isEntry) :
    t.handlerType .undefined ≠ .external := by
  have hsplit : inner ++ .frame entry :: (between ++ .scope scope :: older) =
      (inner ++ .frame entry :: between) ++ .scope scope :: older := by simp
  have hentries : entries (inner ++ .frame entry :: between) ≠ [] := by simp [hentry]
  obtain ⟨r, hfind⟩ := find?_isHandler_of_entry (by simpa using innermost) hentries
    (.scope scope :: older)
  rw [← hsplit] at hfind
  rw [h.handlerType_frame rfl hfind]
  exact nofun

theorem LaidOut.topTryCatch_inner
    (h : t.LaidOut (inner ++ .frame entry :: (between ++ .scope scope :: older)))
    (innermost : scopes inner = [] ∧ scopes between = []) : t.topTryCatch = some scope := by
  simp [h.topTryCatch_eq, innermost]

end Asked

theorem LaidOut.predictCatcher_of_caughtBy (h : t.LaidOut items)
    (known : ∀ r, .frame r ∈ items → r.IsKnown env.codes) {p : CatchPrediction}
    (hcaught : CaughtBy env items p) : t.predictCatcher env = .ok p := by
  have hknown : ∀ r ∈ frames items, r.IsKnown env.codes := fun r hr => known r (mem_frames.mp hr)
  cases hcaught with
  | scopeFirst split innermost first =>
    subst split
    exact predictCatcher_of_external
      (h.handlerType_scope rfl (find?_isHandler_of_scope innermost first))
  | @frameBeforeScope inner _ _ _ _ q split innermost quiet isEntry oldest decided =>
    subst split
    have htop := h.topTryCatch_inner innermost
    refine h.predictCatcher_of_answer (some q.toCatch) (h.handlerType_inner innermost isEntry) ?_
    rw [frames_append] at hknown ⊢
    exact firstAnswer_decided (fun r hr => hknown r (List.mem_append_left _ hr))
      (h.externalCatchesAt_inner htop quiet isEntry) decided _
  | @scopeBeforeFrame inner _ _ entry _ split innermost quiet isEntry oldest undecided =>
    subst split
    have htop := h.topTryCatch_inner innermost
    refine h.predictCatcher_of_answer (some .byExternal) (h.handlerType_inner innermost isEntry) ?_
    have hentry : (Frame.of env.codes 0 entry).IsEntry := Frame.isEntry_of.mpr isEntry
    have hcatches : t.catcherAt env.heap (.of env.codes 0 entry) = some .byExternal := by
      simp [catcherAt_entry hentry, h.externalCatchesAt_oldest isEntry htop quiet oldest]
    rw [frames_append, frames_frame, List.append_cons] at hknown
    rw [frames_append, frames_frame]
    exact firstAnswer_found (fun r hr => hknown r (List.mem_append_left _ hr))
      (catcherAt_undecided undecided (h.externalCatchesAt_inner htop quiet isEntry)) hcatches
  | @frame q passed decided =>
    refine h.predictCatcher_of_answer (some q.toCatch) (h.handlerType_passed passed) ?_
    rw [← List.append_nil (frames items)]
    exact firstAnswer_decided hknown (fun r _ _ => h.externalCatchesAt_passed passed _) decided []
  | nobody passed undecided =>
    refine h.predictCatcher_of_answer none (h.handlerType_passed passed) ?_
    exact firstAnswer_nothing hknown
      (catcherAt_undecided undecided fun r _ _ => h.externalCatchesAt_passed passed _)

/-- The prediction finds the innermost scope where it stands among the frames. -/
theorem Nested.predictCatcher_iff (h : t.Nested items)
    (known : ∀ r, .frame r ∈ items → r.IsKnown env.codes) (p : CatchPrediction) :
    t.predictCatcher env = .ok p ↔ CaughtBy env items p := by
  constructor
  · intro hp
    obtain ⟨q, hq⟩ := exists_caughtBy env items
    cases hp.symm.trans (h.laidOut.predictCatcher_of_caughtBy known hq)
    exact hq
  · exact h.laidOut.predictCatcher_of_caughtBy known

end ThreadState

namespace ThreadState.NestingExample

def reentered : ThreadState := (guarded.pushFrame (.entry code)).2

def bytecode : Bytecode where
  length := 10
  registerCount := 1
  handlers := { ranges := [⟨2, 8, 9, 0, .promise⟩] }

def spec : FrameSpec := .interpreted code .undefined bytecode 4

def running : ThreadState := (reentered.pushFrame spec).2

theorem nested_reentered : reentered.Nested
    [.frame (guarded.placed (.entry code)), .scope scope, .frame frame] :=
  .push nested_guarded (.entry code) (by decide)

theorem nested_running : running.Nested [.frame (reentered.placed spec),
    .frame (guarded.placed (.entry code)), .scope scope, .frame frame] :=
  .push nested_reentered (.interpreted code .undefined bytecode 4) (by decide)

theorem isKnown_reentered : ∀ r, .frame r ∈ [StackItem.frame (guarded.placed (.entry code)),
    .scope scope, .frame frame] → r.IsKnown Example.surroundings.codes := by
  intro r hr
  simp only [List.mem_cons, StackItem.frame.injEq, reduceCtorEq, List.not_mem_nil, or_false,
    false_or] at hr
  rcases hr with rfl | rfl <;> exact nofun

theorem isKnown_running : ∀ r, .frame r ∈ [StackItem.frame (reentered.placed spec),
    .frame (guarded.placed (.entry code)), .scope scope, .frame frame] →
    r.IsKnown Example.surroundings.codes := by
  intro r hr
  rcases List.mem_cons.mp hr with hr | hr
  · cases hr
    exact fun _ => ⟨_, rfl⟩
  · exact isKnown_reentered r hr

theorem decided_spec : Decided Example.surroundings [reentered.placed spec] .promise :=
  ⟨[], _, [], rfl, fun _ h => absurd h List.not_mem_nil, nofun, ⟨2, 8, 9, 0, .promise⟩, rfl, rfl⟩

/-- The interpreted frame is asked before the scope, and the inner entry frame asks the scope. -/
theorem predictCatcher_between_entries :
    running.predictCatcher Example.surroundings = .ok .byPromise ∧
    reentered.predictCatcher Example.surroundings = .ok .byExternal := by
  constructor
  · refine (nested_running.predictCatcher_iff isKnown_running .byPromise).mpr ?_
    exact @CaughtBy.frameBeforeScope _ _ [_] [] _ _ _ .promise rfl ⟨rfl, rfl⟩ rfl rfl rfl
      decided_spec
  · refine (nested_reentered.predictCatcher_iff isKnown_reentered .byExternal).mpr ?_
    exact @CaughtBy.scopeBeforeFrame _ _ [] [] _ _ _ rfl ⟨rfl, rfl⟩ rfl rfl rfl
      fun _ h => absurd h List.not_mem_nil

end ThreadState.NestingExample

end ScriptEngine

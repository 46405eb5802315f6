import ScriptEngine.Proofs.Piles
import ScriptEngine.Proofs.StackPlaces

namespace ScriptEngine

/-- Dispatch did not find the handler that an entry frame should have. -/
def FatalError.MissesHandler : FatalError → Prop
  | .invariantViolation .entryWithoutHandler => True
  | .invariantViolation (.entryHandlerNotInstalled _) => True
  | _ => False

theorem Frame.view_error {codes : CodeRegistry} {segment : Nat} {r : RawFrame} {e : FatalError}
    (h : view codes segment r = .error e) :
    e = .invariantViolation (.managedFrameWithoutCode r.pc) := by
  dsimp only [view] at h
  split at h <;> cases h
  rfl

/-- Where execution goes on after dispatch: in a segment, with so many of its frames. -/
structure Landing where
  segment : Nat
  depth : Nat

/-- The frames above are popped. -/
def Landing.isReached (l : Landing) (t : ThreadState) : Bool :=
  t.stack.active == l.segment && t.stack.activeSegment.frames.length ≤ l.depth

namespace Dispatch

open SegmentedStack

/-- Dispatch lands at the first frame that it does not go past, if that one handles. An entry frame
itself is given up, too. -/
inductive Lands (c : DispatchContext) (d : Dispatch) : Landing → Prop
  | at {p : StackPlace} {r : RawFrame} {m : HandlerMatch} {visited : Nat}
      (place : d.thread.stack.HasAt p r) (known : r.IsKnown c.codes)
      (passed : search c d.restart d.thread.handlers (p.before d.thread.stack) 0 =
        .ok (.passed visited))
      (handles : c.matchFrame d.restart d.thread.handlers (p.before d.thread.stack).length
        (.of c.codes p.id r) = .ok (some m)) :
      Lands c d ⟨p.id, if r.marker.isEntry then p.rest.length else p.rest.length + 1⟩

end Dispatch

namespace DispatchContext

variable {c : DispatchContext} {restart : Option Address} {handlers : List Address}
  {visited segment : Nat} {r : RawFrame} {m : HandlerMatch} {e : FatalError}

theorem matchFrame_restart_ne {f : Frame} (h : restart ≠ some f.fp) :
    c.matchFrame restart handlers visited f = c.matchFrame none handlers visited f := by
  simp [matchFrame, h]

theorem restartFrame_ok {f : Frame} (h : c.restartFrame visited f = .ok m) :
    ¬f.IsEntry ∧ m.patch = .none := by
  unfold restartFrame at h
  split at h
  · cases h
  split at h
  · cases h
  rename_i hmanaged
  refine ⟨?_, ?_⟩
  · rintro (hk | hk) <;> simp [Frame.isManaged, FrameKind.isManaged, hk] at hmanaged
  · split at h
    · split at h
      · cases h
      · split at h <;> cases h
        rfl
    · cases h
      rfl

/-- The match of an entry frame drops the handlers from its own on, any other match none. -/
theorem matchFrame_handlers
    (h : c.matchFrame restart handlers visited (.of c.codes segment r) = .ok (some m)) :
    m.patch.IsFor r.fp ∧
      ((r.marker.isEntry ∧ ∃ i, r.handler = some i ∧
          m.patch.onHandlers handlers = handlers.take i) ∨
        (r.marker.isEntry = false ∧ m.patch.onHandlers handlers = handlers)) := by
  have hplain : ¬(Frame.of c.codes segment r).IsEntry → r.marker.isEntry = false := fun hn =>
    Bool.eq_false_iff.mpr fun he => hn (Frame.isEntry_of.mpr he)
  by_cases hr : restart = some (Frame.of c.codes segment r).fp
  · rw [matchFrame, if_pos hr] at h
    cases hm : c.restartFrame visited (Frame.of c.codes segment r) with
    | error e => simp [hm] at h
    | ok m' =>
      rw [hm] at h
      cases h
      obtain ⟨hentry, hpatch⟩ := restartFrame_ok hm
      rw [hpatch]
      exact ⟨trivial, .inr ⟨hplain hentry, rfl⟩⟩
  · rw [matchFrame_restart_ne hr] at h
    have hfound := matchCatchable_of_matchFrame h
    have hcode := Frame.hasCode_of c.codes segment r
    obtain ⟨hsound, hresumes⟩ := resumes_of_found hcode hfound
    obtain ⟨m', hm', -, hfor, -⟩ :=
      matchCatchable_resumes (c := c) hcode (handles_of_found hfound) hsound
    cases hm'.symm.trans hfound
    refine ⟨hfor, ?_⟩
    generalize hres :
      m.resumption (Frame.of c.codes segment r).raw handlers = resumption at hresumes
    have hhandlers : m.patch.onHandlers handlers = resumption.handlers := by rw [← hres]; rfl
    rw [hhandlers]
    cases hresumes with
    | entry kind own => exact .inl ⟨Frame.isEntry_of.mp kind, _, own, rfl⟩
    | optimized kind => exact .inr ⟨hplain (by simp [Frame.IsEntry, kind]), rfl⟩
    | stub kind => exact .inr ⟨hplain (by simp [Frame.IsEntry, kind]), rfl⟩
    | interpreted kind => exact .inr ⟨hplain (by simp [Frame.IsEntry, kind]), rfl⟩
    | baseline kind => exact .inr ⟨hplain (by simp [Frame.IsEntry, kind]), rfl⟩
    | continuation kind => exact .inr ⟨hplain (by simp [Frame.IsEntry, kind]), rfl⟩

section Missing

variable {f : Frame}

theorem contextRegister_missing {register : Nat} (h : contextRegister f register = .error e) :
    ¬e.MissesHandler := by
  unfold contextRegister at h
  split at h <;> cases h
  exact id

theorem restartFrame_missing (h : c.restartFrame visited f = .error e) : ¬e.MissesHandler := by
  unfold restartFrame at h
  repeat' split at h
  all_goals
    cases h
    try exact id

theorem matchInterpreted_missing (h : c.matchInterpreted visited f = .error e) :
    ¬e.MissesHandler := by
  unfold matchInterpreted at h
  split at h
  · cases h
  · rename_i range _
    cases hregister : contextRegister f range.contextRegister with
    | error e' =>
      rw [hregister] at h
      cases h
      exact contextRegister_missing hregister
    | ok context =>
      rw [hregister] at h
      simp only [bind, Except.bind] at h
      split at h <;> cases h
      exact id

theorem matchBaseline_missing (h : matchBaseline visited f = .error e) : ¬e.MissesHandler := by
  unfold matchBaseline at h
  split at h
  · rename_i range _ _ _
    cases hregister : contextRegister f range.contextRegister with
    | error e' =>
      rw [hregister] at h
      cases h
      exact contextRegister_missing hregister
    | ok context =>
      rw [hregister] at h
      simp only [bind, Except.bind] at h
      split at h <;> cases h
      exact id
  · cases h

theorem checkBuiltin_missing (h : checkBuiltin f = .error e) : ¬e.MissesHandler := by
  unfold checkBuiltin at h
  repeat' split at h
  all_goals
    cases h
    try exact id

theorem matchEntry_missing {i : Nat} {address : Address} (own : f.raw.handler = some i)
    (installed : handlers[i]? = some address)
    (h : some <$> matchEntry handlers visited f = .error e) : ¬e.MissesHandler := by
  simp only [matchEntry, own, installed] at h
  cases hcode : f.code with
  | none =>
    rw [hcode] at h
    cases h
    exact id
  | some code =>
    rw [hcode] at h
    dsimp only at h
    split at h <;> cases h
    exact id

/-- Only an entry frame without its handler makes dispatch miss one. -/
theorem matchFrame_missing
    (installed : f.IsEntry → ∃ i address, f.raw.handler = some i ∧ handlers[i]? = some address)
    (h : c.matchFrame restart handlers visited f = .error e) : ¬e.MissesHandler := by
  have hentry : f.IsEntry → some <$> matchEntry handlers visited f = .error e →
      ¬e.MissesHandler := by
    intro hf h
    obtain ⟨i, address, own, hinstalled⟩ := installed hf
    exact matchEntry_missing own hinstalled h
  unfold matchFrame at h
  split at h
  · cases hr : c.restartFrame visited f with
    | error e' =>
      rw [hr] at h
      cases h
      exact restartFrame_missing hr
    | ok m =>
      rw [hr] at h
      cases h
  split at h
  · unfold matchCatchable at h
    cases hk : f.kind <;> simp only [hk] at h
    case entry => exact hentry (.inl hk) h
    case constructEntry => exact hentry (.inr hk) h
    case interpreted => exact matchInterpreted_missing h
    case baseline => exact matchBaseline_missing h
    case builtin => exact checkBuiltin_missing h
    all_goals cases h
  · unfold matchUncatchable at h
    cases hk : f.kind <;> simp only [hk] at h
    case entry => exact hentry (.inl hk) h
    case constructEntry => exact hentry (.inr hk) h
    all_goals cases h

end Missing

end DispatchContext

namespace Dispatch

open SegmentedStack

variable {c : DispatchContext} {d : Dispatch} {n visited : Nat} {e : FatalError}
  {piles : List Pile}

/-- Dispatch consults no joins, and gives them up for an exception that managed code may not
catch. -/
def consulted (d : Dispatch) (catchable : Bool) : Dispatch :=
  { d with thread := if catchable then d.thread else { d.thread with joins := [] } }

theorem consulted_thread (catchable : Bool) : ∃ joins,
    (d.consulted catchable).thread = { d.thread with joins := joins } := by
  cases catchable with
  | true => exact ⟨d.thread.joins, rfl⟩
  | false => exact ⟨[], rfl⟩

theorem length_consulted (catchable : Bool) :
    (d.consulted catchable).thread.stack.segments.length = d.thread.stack.segments.length := by
  cases catchable <;> rfl

theorem run_pending {codes : CodeRegistry} {builtins : Builtins} {termination : Bool} {v : Value}
    (hp : d.thread.pending = some v) :
    run codes builtins termination d =
      let catchable := v.isCatchable && !termination
      let ended := searchFor { codes, builtins, exception := v, catchable }
        (d.consulted catchable).thread.stack.segments.length 0 (d.consulted catchable)
      (match ended.1 with
        | .ok () => .ok v
        | .error e => .error (.fatal e), ended.2) := by
  dsimp only
  rw [length_consulted]
  unfold run
  rw [hp, ← length_consulted (v.isCatchable && !termination)]
  unfold consulted
  dsimp only
  generalize searchFor _ _ _ _ = ended
  obtain ⟨result | result, after⟩ := ended <;> rfl

/-- Dispatch that finds no handler leaves segments, and nothing else of the thread. -/
theorem searchFor_failed (h : (searchFor c n visited d).1 = .error e)
    (hpiles : d.thread.stack.Piled piles) :
    ∃ left rest stack, piles = left ++ rest ∧ stack.Piled rest ∧
      (searchFor c n visited d).2.thread = { d.thread with stack := stack } := by
  have hhere : ∃ left rest stack, piles = left ++ rest ∧ stack.Piled rest ∧
      d.thread = { d.thread with stack := stack } :=
    ⟨[], piles, d.thread.stack, rfl, hpiles, rfl⟩
  induction n generalizing visited d piles with
  | zero =>
    rw [searchFor] at h ⊢
    generalize searchFrames _ _ _ _ _ _ _ = searched at h ⊢
    obtain ⟨e' | ⟨m | passed⟩, kept⟩ := searched
    · exact hhere
    · cases h
    · exact hhere
  | succ n ih =>
    rw [searchFor] at h ⊢
    generalize searchFrames _ _ _ _ _ _ _ = searched at h ⊢
    obtain ⟨e' | ⟨m | passed⟩, kept⟩ := searched
    · exact hhere
    · cases h
    · dsimp only at h ⊢
      obtain ⟨posts, rest, rfl⟩ := hpiles.exists_cons
      cases rest with
      | nil =>
        have hlast : d.thread.stack.switchToParent = none := hpiles.leave_last .retired
        rw [hlast] at h ⊢
        exact hhere
      | cons p rest =>
        -- The search goes on in the parent, and fails there.
        obtain ⟨parent, stack, hswitch, hparent⟩ := hpiles.leave (by simp) .retired
        rw [switchToParent, hswitch] at h ⊢
        dsimp only at h ⊢
        obtain ⟨left, rest', stack', hsplit, hrest, hthread⟩ :=
          ih h hparent ⟨[], _, stack, rfl, hparent, rfl⟩
        exact ⟨_ :: left, rest', stack', congrArg _ hsplit, hrest, hthread⟩

/-- A search through all segments that finds a match lands somewhere. -/
theorem exists_lands {k : Nat} (hpiles : d.thread.stack.Piled piles)
    (hk : d.thread.stack.segments.length = k)
    (h : (searchFor c k 0 d).1 = .ok ()) : ∃ landing, Lands c d landing := by
  subst hk
  have hchain := hpiles.chain
  obtain ⟨hresult, -⟩ := searchFor_chain c 0 hchain (Nat.le_succ_of_le hchain.length_le)
  rw [h] at hresult
  cases hs : search c d.restart d.thread.handlers
      ((piles.map (·.segment)).flatMap d.thread.stack.framesOf) 0 with
  | error e => simp [hs, Except.bind] at hresult
  | ok found =>
    cases found with
    | passed visited => simp [hs, Except.bind, SearchResult.outcome] at hresult
    | found m =>
      obtain ⟨before, r, after, hsplit, hknown, hbefore, hmatch⟩ := search_found hs
      obtain ⟨p, hplace, rfl, rfl⟩ := exists_place hchain hsplit
      rw [Nat.zero_add] at hmatch
      exact ⟨_, .at hplace hknown hbefore hmatch⟩

theorem post_onFrame (patch : FramePatch) (r : RawFrame) : (patch.onFrame r).post = r.post := by
  cases patch <;> rfl

/-- What is left of the handlers after a landing: all of them, or those before the handler of the
entry frame that was given up. -/
def LeavesHandlers (handlers handlers' : List Address) (posts : List Post) (depth : Nat) : Prop :=
  (handlers' = handlers ∧ depth ≤ posts.length) ∨
    ∃ inner x outer i, posts = inner ++ x :: outer ∧ outer.length = depth ∧ x.handler = some i ∧
      handlers' = handlers.take i

/-- Dispatch leaves the segments above the landing, and none of the posts of those below. -/
theorem Lands.searchFor_eq {landing : Landing} (h : Lands c d landing)
    (hpiles : d.thread.stack.Piled piles) :
    ∃ left posts rest d', piles = left ++ ⟨landing.segment, posts⟩ :: rest ∧
      searchFor c d.thread.stack.segments.length 0 d = (.ok (), d') ∧
      d'.thread.stack.Piled (⟨landing.segment, posts⟩ :: rest) ∧ d'.thread.pending = none ∧
      LeavesHandlers d.thread.handlers d'.thread.handlers posts landing.depth := by
  obtain ⟨place, known, passed, handles⟩ := h
  rename_i p r m visited
  have hids := hpiles.chain.unique place.chain
  obtain ⟨left, more, rfl, hleft, hmore⟩ := List.map_eq_append_iff.mp hids
  obtain ⟨pile, rest, rfl, hid, -⟩ := List.map_eq_cons_iff.mp hmore
  obtain ⟨hfor, hhandlers⟩ := DispatchContext.matchFrame_handlers handles
  have hposts : pile.posts = p.inner.map (·.post) ++ r.post :: p.rest.map (·.post) := by
    rw [← hpiles.posts pile (by simp), hid, place.frames]
    simp
  have hpile : pile = ⟨p.id, pile.posts⟩ := by rw [← hid]
  have hreturned : (d.thread.stack.returnedTo p.left p.id).Piled (pile :: rest) := by
    rw [← hleft, ← hid]
    exact hpiles.returnedTo
  refine ⟨left, pile.posts, rest, (d.atFrame c.codes p.left p.id p.inner).apply m,
    by rw [← hpile], searchFor_here place known passed handles, ?_, rfl, ?_⟩
  · rw [← hpile, apply, applyPatch_eq hfor]
    exact hreturned.modifyFrame (post_onFrame m.patch)
  · have hafter : ((d.atFrame c.codes p.left p.id p.inner).apply m).thread.handlers =
        m.patch.onHandlers d.thread.handlers := by
      rw [apply, applyPatch_eq hfor]
      rfl
    rw [hafter, hposts]
    rcases hhandlers with ⟨hentry, i, hi, htake⟩ | ⟨hentry, hsame⟩
    · rw [hentry, if_pos rfl]
      exact .inr ⟨_, r.post, _, i, rfl, by simp, hi, htake⟩
    · rw [hentry]
      exact .inl ⟨hsame, by simp⟩

/-- A search through all segments does not miss a handler if the entry frames in reach have
theirs. -/
theorem searchFor_missing (hpiles : d.thread.stack.Piled piles)
    (installed : ∀ p ∈ piles.flatMap (·.posts), p.isEntry →
      ∃ i address, p.handler = some i ∧ d.thread.handlers[i]? = some address)
    (h : (searchFor c d.thread.stack.segments.length 0 d).1 = .error e) : ¬e.MissesHandler := by
  obtain ⟨frames, ⟨-, ids, hchain, rfl⟩, hposts⟩ := hpiles.holds
  obtain ⟨hresult, -⟩ := searchFor_chain c 0 hchain (Nat.le_succ_of_le hchain.length_le)
  rw [h] at hresult
  cases hs : search c d.restart d.thread.handlers (ids.flatMap d.thread.stack.framesOf) 0 with
  | ok found =>
    rw [hs] at hresult
    cases found with
    | found m => simp [Except.bind, SearchResult.outcome] at hresult
    | passed visited =>
      simp only [Except.bind, SearchResult.outcome, Except.error.injEq] at hresult
      rw [hresult]
      exact id
  | error e' =>
    rw [hs] at hresult
    cases hresult
    obtain ⟨r, hr, hview | ⟨visited, hmatch⟩⟩ := search_error hs
    · rw [Frame.view_error hview]
      exact id
    · refine DispatchContext.matchFrame_missing (fun hentry => ?_) hmatch
      have hpost : r.post ∈ piles.flatMap (·.posts) := by
        rw [← hposts]
        exact List.mem_map.mpr ⟨r, hr, rfl⟩
      exact installed r.post hpost (Frame.isEntry_of.mp hentry)

end Dispatch

end ScriptEngine

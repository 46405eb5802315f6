import Mathlib.Data.List.Forall2
import ScriptEngine.Proofs.Catching

namespace ScriptEngine

namespace Frame

/-- Frames of one kind whose code has the same extent. The tables, marks and registers that tell
how managed code handles an exception may differ; entry frames return in the same way. -/
structure SameButMetadata (f f' : Frame) : Prop where
  kind : f'.kind = f.kind
  fp : f'.fp = f.fp
  handler : f'.raw.handler = f.raw.handler
  code : Option.Rel (fun c c' => c'.start = c.start ∧ c'.size = c.size ∧ c'.kind = c.kind)
    f.code f'.code
  returns : f.IsEntry → f'.code.map (·.handlers) = f.code.map (·.handlers)

theorem SameButMetadata.isTurbofan {f f' : Frame} (h : f.SameButMetadata f') :
    f'.isTurbofan = f.isTurbofan := by
  unfold Frame.isTurbofan
  rw [h.kind]
  have hcode := h.code
  generalize f.code = known, f'.code = known' at hcode ⊢
  cases hcode with
  | none => rfl
  | some hc => rw [Option.all_some, Option.all_some, hc.2.2]

end Frame

namespace Dispatch

variable {codes codes' : CodeRegistry} {builtins builtins' : Builtins} {d d' : Dispatch}
  {ids : List Nat} {e : Value} {termination : Bool}

/-- The innermost entry frame of a chain: its own handler is installed, and its code has a place
to return to. -/
structure InnermostEntry (codes : CodeRegistry) (d : Dispatch) (ids : List Nat)
    (before : List Frame) (f : Frame) (after : List Frame) (i : Nat) (address : Address)
    (code : Code) (offset : Nat) : Prop where
  split : d.thread.stack.frames codes ids = before ++ f :: after
  innermost : ∀ g ∈ before, ¬g.IsEntry
  isEntry : f.IsEntry
  own : f.raw.handler = some i
  installed : d.thread.handlers[i]? = some address
  known : f.code = some code
  return0 : code.handlers.lookupReturn 0 = some offset

/-- Dispatch with the joins in progress given up. -/
def withoutJoins (d : Dispatch) : Dispatch := { d with thread := { d.thread with joins := [] } }

theorem run_of_uncatchable (hp : d.thread.pending = some e)
    (hu : e = .termination ∨ termination = true) :
    run codes builtins termination d =
      (match (searchFor { codes, builtins, exception := e, catchable := false }
          d.withoutJoins.thread.stack.segments.length 0 d.withoutJoins).1 with
        | .ok () => .ok e
        | .error v => .error (.fatal v),
      (searchFor { codes, builtins, exception := e, catchable := false }
        d.withoutJoins.thread.stack.segments.length 0 d.withoutJoins).2) := by
  have hc : (e.isCatchable && !termination) = false := by
    rcases hu with rfl | rfl
    · rfl
    · simp
  simp only [run, hp, hc, Bool.false_eq_true, if_false, withoutJoins]
  split <;> simp_all

theorem matchFrame_uncatchable {c : DispatchContext} {restart : Option Address}
    {handlers : List Address} {visited : Nat} {f : Frame} (hr : restart ≠ some f.fp)
    (hc : c.catchable = false) :
    c.matchFrame restart handlers visited f =
      DispatchContext.matchUncatchable handlers visited f := by
  rw [DispatchContext.matchFrame, if_neg hr, hc, if_neg Bool.false_ne_true]

theorem matchUncatchable_entry {handlers : List Address} {visited : Nat} {f : Frame}
    (hf : f.IsEntry) : DispatchContext.matchUncatchable handlers visited f =
      some <$> DispatchContext.matchEntry handlers visited f := by
  rcases hf with hk | hk <;> rw [DispatchContext.matchUncatchable, hk]

theorem matchUncatchable_passes {handlers : List Address} {visited : Nat} {f : Frame}
    (hf : ¬f.IsEntry) : DispatchContext.matchUncatchable handlers visited f = .ok none := by
  unfold DispatchContext.matchUncatchable
  cases hk : f.kind <;> first | rfl | exact absurd (by simp [Frame.IsEntry, hk]) hf

/-- Dispatch that went on in the entry frame `f`, behind the frames `before`: it returned to the
segment of that frame and dropped handlers, and left all frames as they are. -/
def enteredAt (d : Dispatch) (left : List Nat) (before : List Frame) (f : Frame) (i : Nat)
    (address : Address) (code : Code) (offset : Nat) : Dispatch :=
  { d with
    thread := { d.thread with
      pending := none
      pendingHandler := some
        ⟨.undefined, code.start + offset, code.constantPool, 0, address + stackHandlerSize,
          before.length⟩
      handlers := d.thread.handlers.take i
      joins := []
      stack := d.thread.stack.returnedTo left f.segment }
    materialized := forgetAll d.materialized before }

section Search

variable {before after : List Frame} {f : Frame} {m : HandlerMatch}

/-- Dispatch that stopped at the frame `f`, behind the frames `before`, and has changed nothing
there yet. -/
def stoppedAt (d : Dispatch) (left : List Nat) (before : List Frame) (f : Frame) : Dispatch :=
  { d with
    thread := { d.thread with joins := [], stack := d.thread.stack.returnedTo left f.segment }
    materialized := forgetAll d.materialized before }

/-- Frames that are no entry frames, and not to be restarted, are passed. -/
theorem run_found_behind (builtins : Builtins) (hp : d.thread.pending = some e)
    (hu : e = .termination ∨ termination = true)
    (chain : d.thread.stack.Chain d.thread.stack.active ids)
    (known : ∀ g ∈ d.thread.stack.frames codes ids, g.raw.IsKnown codes)
    (split : d.thread.stack.frames codes ids = before ++ f :: after)
    (hbefore : ∀ g ∈ before, ¬g.IsEntry ∧ d.restart ≠ some g.fp)
    (hm : ({ codes, builtins, exception := e, catchable := false } : DispatchContext).matchFrame
      d.restart d.thread.handlers before.length f = .ok (some m)) :
    ∃ left outer, ids = left ++ f.segment :: outer ∧
      run codes builtins termination d = (.ok e, (d.stoppedAt left before f).apply m) := by
  let c : DispatchContext := { codes, builtins, exception := e, catchable := false }
  obtain ⟨left, outer, inner, rest, hids, hframes, hview, rfl, rfl⟩ :=
    SegmentedStack.frames_split split
  have hreach : Reaches c d.withoutJoins left f.segment inner f.raw := by
    refine .of_split (d := d.withoutJoins) chain hids hframes known ?_
    intro g hg visited
    obtain ⟨hentry, hrestart⟩ := hbefore g hg
    exact (matchFrame_uncatchable hrestart rfl).trans (matchUncatchable_passes hentry)
  have hfound : c.matchFrame d.withoutJoins.restart d.withoutJoins.thread.handlers
      ((d.thread.stack.frames codes left).length + inner.length) (.of codes f.segment f.raw) =
      .ok (some m) := by
    rw [← hview, ← hm, List.length_append, List.length_map]
    rfl
  refine ⟨left, outer, hids, ?_⟩
  rw [run_of_uncatchable hp hu, hreach.searchFor_found hfound]
  rfl

end Search

section InnermostEntry

variable {before after : List Frame} {f : Frame} {i : Nat} {address : Address} {code : Code}
  {offset : Nat}

/-- Dispatch goes on in the innermost entry frame, if no frame up to it is to be restarted. -/
theorem InnermostEntry.run_eq_of (builtins : Builtins) (hp : d.thread.pending = some e)
    (hu : e = .termination ∨ termination = true)
    (chain : d.thread.stack.Chain d.thread.stack.active ids)
    (known : ∀ g ∈ d.thread.stack.frames codes ids, g.raw.IsKnown codes)
    (hf : d.InnermostEntry codes ids before f after i address code offset)
    (hr : ∀ g ∈ before ++ [f], d.restart ≠ some g.fp) :
    ∃ left outer, ids = left ++ f.segment :: outer ∧
      run codes builtins termination d =
        (.ok e, d.enteredAt left before f i address code offset) := by
  obtain ⟨left, outer, hids, hrun⟩ :=
    run_found_behind builtins
      (m := { handler := DispatchContext.resumeIn code offset 0 (address + stackHandlerSize)
                before.length
              patch := .handlers i })
      hp hu chain known hf.split
      (fun g hg => ⟨hf.innermost g hg, hr g (List.mem_append_left _ hg)⟩) (by
        rw [matchFrame_uncatchable (hr f (by simp)) rfl, matchUncatchable_entry hf.isEntry,
          DispatchContext.matchEntry_eq hf.own hf.installed hf.known hf.return0]
        rfl)
  refine ⟨left, outer, hids, ?_⟩
  rw [hrun]
  simp only [enteredAt, stoppedAt, apply, applyPatch, DispatchContext.resumeIn, Bool.or_false]
  rfl

/-- Dispatch goes on in the innermost entry frame. -/
theorem InnermostEntry.run_eq (builtins : Builtins) (hp : d.thread.pending = some e)
    (hu : e = .termination ∨ termination = true) (h : d.IsWalkable codes ids)
    (hf : d.InnermostEntry codes ids before f after i address code offset) :
    ∃ left outer, ids = left ++ f.segment :: outer ∧
      run codes builtins termination d =
        (.ok e, d.enteredAt left before f i address code offset) := by
  apply hf.run_eq_of builtins hp hu h.chain h.known
  intro g hg
  apply h.noRestart g
  rw [hf.split]
  rcases List.mem_append.1 hg with hg | hg
  · exact List.mem_append_left _ hg
  · rw [List.mem_singleton.1 hg]
    simp

/-- Two states of dispatch that differ in metadata of managed code at most, among what dispatch
consults. -/
structure SameButMetadata (codes : CodeRegistry) (d : Dispatch) (ids : List Nat)
    (codes' : CodeRegistry) (d' : Dispatch) : Prop where
  pending : d'.thread.pending = d.thread.pending
  handlers : d'.thread.handlers = d.thread.handlers
  materialized : d'.materialized = d.materialized
  frames : List.Forall₂ Frame.SameButMetadata (d.thread.stack.frames codes ids)
    (d'.thread.stack.frames codes' ids)

theorem forall₂_append_cons {α β : Type} {R : α → β → Prop} {xs ys : List α} {a : α} {zs : List β}
    (h : List.Forall₂ R (xs ++ a :: ys) zs) :
    ∃ xs' b ys', zs = xs' ++ b :: ys' ∧ List.Forall₂ R xs xs' ∧ R a b := by
  induction xs generalizing zs with
  | nil =>
    cases h with
    | cons hab _ => exact ⟨[], _, _, rfl, .nil, hab⟩
  | cons x xs ih =>
    cases h with
    | cons hx hrest =>
      obtain ⟨xs', b, ys', rfl, hxs, hab⟩ := ih hrest
      exact ⟨_ :: xs', b, ys', rfl, .cons hx hxs, hab⟩

theorem forgetAll_congr {xs ys : List Frame} (h : List.Forall₂ Frame.SameButMetadata xs ys)
    (materialized : MaterializedObjects) :
    forgetAll materialized ys = forgetAll materialized xs := by
  have hany : ∀ fp : Address, (ys.any fun f => f.isTurbofan && f.fp == fp) =
      xs.any fun f => f.isTurbofan && f.fp == fp := by
    intro fp
    induction h with
    | nil => rfl
    | cons hab _ ih => rw [List.any_cons, List.any_cons, ih, hab.isTurbofan, hab.fp]
  unfold forgetAll
  simp only [hany]

theorem not_isEntry_of_forall₂ {xs ys : List Frame}
    (h : List.Forall₂ Frame.SameButMetadata xs ys) (hx : ∀ g ∈ xs, ¬g.IsEntry) :
    ∀ g ∈ ys, ¬g.IsEntry := by
  induction h with
  | nil => exact hx
  | cons hab _ ih =>
    rw [List.forall_mem_cons] at hx ⊢
    refine ⟨?_, ih hx.2⟩
    rw [Frame.IsEntry, hab.kind]
    exact hx.1

/-- The innermost entry frame of one such state is that of the other. -/
theorem InnermostEntry.of_same (h : d.SameButMetadata codes ids codes' d')
    (hf : d.InnermostEntry codes ids before f after i address code offset) :
    ∃ before' f' after' code', List.Forall₂ Frame.SameButMetadata before before' ∧
      code'.start = code.start ∧ code'.size = code.size ∧
      d'.InnermostEntry codes' ids before' f' after' i address code' offset := by
  have hframes := h.frames
  rw [hf.split] at hframes
  obtain ⟨before', f', after', split, hbefore, hsame⟩ := forall₂_append_cons hframes
  obtain ⟨code', hcode', hstart, hsize⟩ : ∃ code', f'.code = some code' ∧
      code'.start = code.start ∧ code'.size = code.size := by
    have hcode := hsame.code
    rw [hf.known] at hcode
    generalize f'.code = known' at hcode
    cases hcode with
    | some hc => exact ⟨_, rfl, hc.1, hc.2.1⟩
  have hhandlers : code'.handlers = code.handlers := by
    have := hsame.returns hf.isEntry
    rw [hcode', hf.known] at this
    exact Option.some.inj this
  refine ⟨before', f', after', code', hbefore, hstart, hsize, split,
    not_isEntry_of_forall₂ hbefore hf.innermost, ?_, ?_, ?_, hcode', ?_⟩
  · rw [Frame.IsEntry, hsame.kind]
    exact hf.isEntry
  · rw [hsame.handler, hf.own]
  · rw [h.handlers, hf.installed]
  · rw [hhandlers, hf.return0]

/-- An exception that managed code may not catch goes to the innermost entry frame of the chain.
Where execution goes on does not depend on the metadata of managed code. -/
theorem run_uncatchable (hp : d.thread.pending = some e)
    (hu : e = .termination ∨ termination = true) (h : d.IsWalkable codes ids)
    (hf : d.InnermostEntry codes ids before f after i address code offset) :
    (∃ left outer, ids = left ++ f.segment :: outer ∧
      (d.thread.stack.returnedTo left f.segment).frames codes ids = before ++ f :: after ∧
      run codes builtins termination d =
        (.ok e, d.enteredAt left before f i address code offset)) ∧
    ∀ codes' builtins' d', d'.IsWalkable codes' ids → d.SameButMetadata codes ids codes' d' →
      (run codes' builtins' termination d').1 = (run codes builtins termination d).1 ∧
      (run codes' builtins' termination d').2.thread.pendingHandler =
        (run codes builtins termination d).2.thread.pendingHandler ∧
      (run codes' builtins' termination d').2.thread.handlers =
        (run codes builtins termination d).2.thread.handlers ∧
      (run codes' builtins' termination d').2.materialized =
        (run codes builtins termination d).2.materialized := by
  obtain ⟨left, outer, hids, hrun⟩ := hf.run_eq builtins hp hu h
  refine ⟨⟨left, outer, hids, ?_, hrun⟩, ?_⟩
  · rw [SegmentedStack.frames_returnedTo, hf.split]
  · intro codes' builtins' d' h' hsame
    obtain ⟨before', f', after', code', hbefore, hstart, hsize, hf'⟩ := hf.of_same hsame
    obtain ⟨left', outer', _, hrun'⟩ :=
      hf'.run_eq builtins' (hsame.pending.trans hp) hu h'
    -- Both runs are known by now; what they share is read off the two states.
    rw [hrun, hrun']
    refine ⟨rfl, ?_, ?_, ?_⟩
    · simp only [enteredAt, Code.constantPool, Code.stop, hstart, hsize, hbefore.length_eq]
    · simp only [enteredAt, hsame.handlers]
    · simp only [enteredAt, hsame.materialized, forgetAll_congr hbefore]

end InnermostEntry

end Dispatch

namespace Dispatch.EntryExample

def entryCode : Code where
  number := 0
  start := 4096
  description := { kind := .builtin, size := 128, builtin := some .entry
                   handlers := { returns := [⟨0, 96⟩] } }

def codes : CodeRegistry where
  codes := [entryCode, ⟨1, 8192, Builtin.interpreterEntry.description⟩]

def builtins : Builtins := ⟨⟨[], []⟩, 0, 0⟩

def entry (fp handler : Nat) : RawFrame :=
  { marker := .entry, fp, pc := 4096, handler := some handler, slots := 6 }

/-- Stands in a guarded range, but may have no register for the context. -/
def guarded (registers : List Value) : RawFrame where
  marker := .managed
  fp := 600
  pc := 8208
  registers := registers
  bytecode := some {
    length := 10
    registerCount := 1
    handlers := { ranges := [⟨2, 8, 9, 0, .caught⟩] } }
  bytecodeOffset := 4
  slots := 5

/-- Dispatch of an exception with two frames on one segment. -/
def dispatch (exception : Value) (outer inner : RawFrame) : Dispatch where
  thread := {
    pending := some exception
    handlers := [700]
    stack := { segments := [{ id := 0, base := 1000, cursor := 0, frames := [outer, inner] }] } }
  materialized := []
  lazyThrow := false
  restart := none

theorem isWalkable_dispatch (exception : Value) {outer inner : RawFrame}
    (ho : outer.IsKnown codes) (hi : inner.IsKnown codes) :
    (dispatch exception outer inner).IsWalkable codes [0] where
  chain := .root rfl rfl
  known := by
    intro f hf
    have he : (dispatch exception outer inner).thread.stack.frames codes [0] =
        [.of codes 0 inner, .of codes 0 outer] := rfl
    simp only [he, List.mem_cons, List.not_mem_nil, or_false] at hf
    rcases hf with rfl | rfl
    · exact hi
    · exact ho
  noRestart := by
    intro f _ h
    cases h

theorem isKnown_entry (fp handler : Nat) : (entry fp handler).IsKnown codes := by
  intro h
  cases h

theorem isKnown_guarded (registers : List Value) : (guarded registers).IsKnown codes :=
  fun _ => ⟨_, rfl⟩

/-- Whether or not the guarded frame has the register, execution goes on in the entry frame. -/
theorem run_uncatchable_past_guard :
    let d := dispatch (.smi 7) (entry 800 0) (guarded [])
    let d' := dispatch (.smi 7) (entry 800 0) (guarded [.null])
    (run codes builtins true d).1 = .ok (.smi 7) ∧
    (run codes builtins true d).2.thread.pendingHandler =
      some ⟨.undefined, 4096 + 96, 4096 + 128, 0, 716, 1⟩ ∧
    (run codes builtins true d').2.thread.pendingHandler =
      (run codes builtins true d).2.thread.pendingHandler := by
  intro d d'
  have hwalk : ∀ registers,
      (dispatch (.smi 7) (entry 800 0) (guarded registers)).IsWalkable codes [0] := fun registers =>
    isWalkable_dispatch _ (isKnown_entry 800 0) (isKnown_guarded registers)
  have hsame : d.SameButMetadata codes [0] codes d' := by
    refine ⟨rfl, rfl, rfl, .cons ?_ (.cons ?_ .nil)⟩
    · exact ⟨rfl, rfl, rfl, .some ⟨rfl, rfl, rfl⟩, fun _ => rfl⟩
    · exact ⟨rfl, rfl, rfl, .some ⟨rfl, rfl, rfl⟩, fun _ => rfl⟩
  have hentry : d.InnermostEntry codes [0] [.of codes 0 (guarded [])] (.of codes 0 (entry 800 0))
      [] 0 700 entryCode 96 := by
    refine ⟨rfl, ?_, .inl rfl, rfl, rfl, rfl, rfl⟩
    intro g hg
    rw [List.mem_singleton.mp hg]
    rintro (h | h) <;> cases h
  obtain ⟨⟨left, outer, _, _, hrun⟩, htwo⟩ :=
    @run_uncatchable codes builtins d [0] (.smi 7) true _ _ _ _ _ _ _ rfl (.inr rfl) (hwalk [])
      hentry
  refine ⟨?_, ?_, (htwo codes builtins d' (hwalk [.null]) hsame).2.1⟩
  · rw [hrun]
  · rw [hrun]
    rfl

/-- An entry frame further out is of no help to one that lost its handler. -/
theorem not_run_uncatchable_of_some_entry :
    ¬∀ (codes : CodeRegistry) (builtins : Builtins) (d : Dispatch) (ids : List Nat) (e : Value)
      (termination : Bool), d.thread.pending = some e → (e = .termination ∨ termination = true) →
      d.IsWalkable codes ids →
      (∃ f ∈ d.thread.stack.frames codes ids, f.IsEntry ∧ ∃ i address code offset,
        f.raw.handler = some i ∧ d.thread.handlers[i]? = some address ∧ f.code = some code ∧
        code.handlers.lookupReturn 0 = some offset) →
      (run codes builtins termination d).1 = .ok e := by
  intro h
  let d := dispatch .termination (entry 800 0) (entry 700 1)
  have hwalk : d.IsWalkable codes [0] :=
    isWalkable_dispatch _ (isKnown_entry 800 0) (isKnown_entry 700 1)
  have hentry : Frame.of codes 0 (entry 800 0) ∈ d.thread.stack.frames codes [0] :=
    List.mem_of_getElem? (i := 1) rfl
  have hok := h codes builtins d [0] .termination false rfl (.inl rfl) hwalk
    ⟨_, hentry, .inl rfl, 0, 700, entryCode, 96, rfl, rfl, rfl, rfl⟩
  have hfails : (run codes builtins false d).1 =
      .error (.fatal (.invariantViolation (.entryHandlerNotInstalled 1))) := by cbv
  rw [hfails] at hok
  cases hok

end Dispatch.EntryExample

end ScriptEngine

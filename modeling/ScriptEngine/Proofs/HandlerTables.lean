import Mathlib.Data.List.Nodup
import ScriptEngine.Code.HandlerTable

namespace ScriptEngine

/-- Of two items of a list one comes behind the other, unless they are one. -/
theorem eq_or_behind {α : Type} {a b : α} {l r l' r' : List α}
    (h : l ++ a :: r = l' ++ b :: r') : a = b ∨ b ∈ r ∨ a ∈ r' := by
  rcases List.append_eq_append_iff.mp h with ⟨more, -, hrest⟩ | ⟨more, -, hrest⟩
  · cases more with
    | nil => exact .inl (List.cons.inj hrest).1
    | cons c more =>
      cases hrest
      exact .inr (.inl (List.mem_append_right _ List.mem_cons_self))
  · cases more with
    | nil => exact .inl (List.cons.inj hrest).1.symm
    | cons c more =>
      cases hrest
      exact .inr (.inr (List.mem_append_right _ List.mem_cons_self))

namespace RangeEntry

variable {a b : RangeEntry} {offset : Nat}

theorem covers_iff : a.covers offset ↔ a.start ≤ offset ∧ offset < a.stop := by
  simp [covers]

def Within (inner outer : RangeEntry) : Prop := ∀ offset, inner.covers offset → outer.covers offset

def Apart (a b : RangeEntry) : Prop := ∀ offset, a.covers offset → ¬b.covers offset

/-- The two guard the same offsets by the same bounds. -/
def SameBounds (a b : RangeEntry) : Prop := a.start = b.start ∧ a.stop = b.stop

/-- A range is within each one that was added before it, or apart from it. -/
def Nested (ranges : List RangeEntry) : Prop :=
  ranges.Pairwise fun earlier later => later.Within earlier ∨ later.Apart earlier

theorem SameBounds.covers (h : a.SameBounds b) : a.covers offset ↔ b.covers offset := by
  rw [covers_iff, covers_iff, h.1, h.2]

/-- Ranges that hold each other are the same, unless they are empty. -/
theorem Within.sameBounds (h : a.Within b) (h' : b.Within a) (hcovers : a.covers offset) :
    a.SameBounds b := by
  have hbounds : ∀ {c d : RangeEntry}, c.Within d → c.covers offset →
      d.start ≤ c.start ∧ c.stop ≤ d.stop := by
    intro c d hwithin hc
    rw [covers_iff] at hc
    have hfirst := covers_iff.mp (hwithin c.start (covers_iff.mpr ⟨Nat.le_refl _, by omega⟩))
    have hlast := covers_iff.mp (hwithin (c.stop - 1) (covers_iff.mpr ⟨by omega, by omega⟩))
    omega
  have hinner := hbounds h hcovers
  have houter := hbounds h' (h offset hcovers)
  exact ⟨Nat.le_antisymm houter.1 hinner.1, Nat.le_antisymm hinner.2 houter.2⟩

/-- The range is within all others that cover the offset, and of those with its bounds it was added
last. -/
structure IsInnermost (ranges : List RangeEntry) (offset : Nat) (e : RangeEntry) : Prop where
  covers : e.covers offset
  within : ∀ d ∈ ranges, d.covers offset → e.Within d
  latest : ∃ before after, ranges = before ++ e :: after ∧ ∀ d ∈ after, ¬d.SameBounds e

variable {ranges before after : List RangeEntry} {e : RangeEntry}

/-- Of nested ranges the last one that covers an offset is the innermost one. -/
theorem Nested.isInnermost (nested : Nested ranges) (split : ranges = before ++ e :: after)
    (covers : e.covers offset) (last : ∀ d ∈ after, ¬d.covers offset) :
    IsInnermost ranges offset e where
  covers := covers
  within d hd hcovers := by
    subst split
    rcases List.mem_append.mp hd with hbefore | hd
    · have hacross := (List.pairwise_append.mp nested).2.2 d hbefore e List.mem_cons_self
      exact hacross.resolve_right fun hapart => hapart offset covers hcovers
    rcases List.mem_cons.mp hd with rfl | hafter
    · exact fun _ h => h
    · exact absurd hcovers (last d hafter)
  latest := ⟨before, after, split, fun d hd hsame => last d hd (hsame.covers.mpr covers)⟩

theorem IsInnermost.mem (h : IsInnermost ranges offset e) : e ∈ ranges := by
  obtain ⟨before, after, rfl, -⟩ := h.latest
  exact List.mem_append_right _ List.mem_cons_self

theorem IsInnermost.unique (h : IsInnermost ranges offset e) {d : RangeEntry}
    (h' : IsInnermost ranges offset d) : e = d := by
  have hsame : e.SameBounds d := (h.within d h'.mem h'.covers).sameBounds
    (h'.within e h.mem h.covers) h.covers
  obtain ⟨before, after, hsplit, hlatest⟩ := h.latest
  obtain ⟨before', after', hsplit', hlatest'⟩ := h'.latest
  rcases eq_or_behind (hsplit.symm.trans hsplit') with heq | hmem | hmem
  · exact heq
  · exact absurd ⟨hsame.1.symm, hsame.2.symm⟩ (hlatest d hmem)
  · exact absurd hsame (hlatest' e hmem)

end RangeEntry

namespace HandlerTable

variable {t : HandlerTable} {offset : Nat} {e : RangeEntry}

theorem lookupRange_eq_none :
    t.lookupRange offset = none ↔ ∀ e ∈ t.ranges, ¬e.covers offset := by
  simp [lookupRange]

theorem lookupRange_eq_some : t.lookupRange offset = some e ↔ e.covers offset ∧
    ∃ before after, t.ranges = before ++ e :: after ∧ ∀ d ∈ after, ¬d.covers offset := by
  rw [lookupRange, List.find?_eq_some_iff_append]
  refine and_congr_right fun _ => ?_
  constructor
  · rintro ⟨after, before, hreverse, hafter⟩
    refine ⟨before.reverse, after.reverse, ?_, fun d hd => ?_⟩
    · rw [List.reverse_eq_iff.mp hreverse]
      simp
    · simpa using hafter d (List.mem_reverse.mp hd)
  · rintro ⟨before, after, hranges, hafter⟩
    refine ⟨after.reverse, before.reverse, ?_, fun d hd => ?_⟩
    · rw [hranges]
      simp
    · simpa using hafter d (List.mem_reverse.mp hd)

/-- An offset finds the innermost of nested ranges around it. -/
theorem lookupRange_eq_some_iff_innermost (nested : RangeEntry.Nested t.ranges) :
    t.lookupRange offset = some e ↔ RangeEntry.IsInnermost t.ranges offset e := by
  have hinnermost : ∀ {d}, t.lookupRange offset = some d →
      RangeEntry.IsInnermost t.ranges offset d := by
    intro d hd
    obtain ⟨hcovers, before, after, hsplit, hlast⟩ := lookupRange_eq_some.mp hd
    exact nested.isInnermost hsplit hcovers hlast
  refine ⟨hinnermost, fun h => ?_⟩
  cases hfound : t.lookupRange offset with
  | none => exact absurd h.covers (lookupRange_eq_none.mp hfound e h.mem)
  | some d => rw [h.unique (hinnermost hfound)]

end HandlerTable

namespace ReturnEntry

theorem perm_insert (entries : List ReturnEntry) (e : ReturnEntry) :
    (insert entries e).Perm (entries ++ [e]) := by
  refine List.perm_middle.trans ?_
  rw [List.take_append_drop]
  exact (List.perm_append_singleton e entries).symm

/-- The search finds the one entry of an offset. -/
theorem Ordered.search?_eq_some {entries : List ReturnEntry} (h : Ordered entries)
    (distinct : (entries.map (·.offset)).Nodup) {offset : Nat} {e : ReturnEntry} :
    search? entries offset = some e ↔ e ∈ entries ∧ e.offset = offset := by
  refine ⟨mem_of_search?, ?_⟩
  rintro ⟨hmem, hoffset⟩
  obtain ⟨found, hfound⟩ := Option.isSome_iff_exists.mp (h.search?_isSome.mpr ⟨e, hmem, hoffset⟩)
  obtain ⟨hmem', hoffset'⟩ := mem_of_search? hfound
  have heq := List.inj_on_of_nodup_map distinct hmem' hmem (hoffset'.trans hoffset.symm)
  rw [hfound, heq]

end ReturnEntry

namespace HandlerTable

/-- Tables with what was added to them, in the order of additions. -/
inductive Built : HandlerTable → List RangeEntry → List ReturnEntry → Prop
  | empty : Built {} [] []
  | ofRanges (ranges : List RangeEntry) : Built (.ofRanges ranges) ranges []
  | ofReturns (returns : List ReturnEntry) : Built (.ofReturns returns) [] returns
  | pushRange {t : HandlerTable} {ranges : List RangeEntry} {returns : List ReturnEntry}
      (built : Built t ranges returns) (e : RangeEntry) :
      Built (t.pushRange e) (ranges ++ [e]) returns
  | pushReturn {t : HandlerTable} {ranges : List RangeEntry} {returns : List ReturnEntry}
      (built : Built t ranges returns) (e : ReturnEntry) :
      Built (t.pushReturn e) ranges (returns ++ [e])

variable {t : HandlerTable} {ranges : List RangeEntry} {returns : List ReturnEntry}

/-- Ranges stay in the order of additions. -/
theorem Built.ranges_eq (h : Built t ranges returns) : t.ranges = ranges := by
  induction h with
  | empty => rfl
  | ofRanges ranges => rfl
  | ofReturns returns => rfl
  | pushRange _ e ih => exact congrArg (· ++ [e]) ih
  | pushReturn _ _ ih => exact ih

theorem Built.perm_returns (h : Built t ranges returns) : t.returns.Perm returns := by
  induction h with
  | empty => exact .refl _
  | ofRanges ranges => exact .refl _
  | ofReturns returns => exact List.mergeSort_perm _ _
  | pushRange _ _ ih => exact ih
  | pushReturn _ e ih => exact (ReturnEntry.perm_insert _ e).trans (ih.append_right [e])

/-- A table has an entry for each addition. The handler of a return offset is the one that was
added for it, whatever the order of additions. If every range is nested in the earlier ones or
apart from them, an offset finds nothing where no range covers it, and the innermost range around
it everywhere else. -/
theorem Built.answers_additions (h : Built t ranges returns) :
    t.ranges.length = ranges.length ∧ t.returns.length = returns.length ∧
      ((returns.map (·.offset)).Nodup → ∀ offset handler,
        t.lookupReturn offset = some handler ↔ ⟨offset, handler⟩ ∈ returns) ∧
      (RangeEntry.Nested ranges → ∀ offset,
        (t.lookupRange offset = none ↔ ∀ e ∈ ranges, ¬e.covers offset) ∧
        ∀ e, t.lookupRange offset = some e ↔ RangeEntry.IsInnermost ranges offset e) := by
  have hperm := h.perm_returns
  obtain rfl := h.ranges_eq
  refine ⟨rfl, hperm.length_eq, fun distinct offset handler => ?_, fun nested offset => ?_⟩
  · have hdistinct : (t.returns.map (·.offset)).Nodup :=
      (hperm.map (·.offset)).nodup_iff.mpr distinct
    rw [lookupReturn, Option.map_eq_some_iff]
    simp only [t.ordered.search?_eq_some hdistinct, hperm.mem_iff]
    constructor
    · rintro ⟨e, ⟨hmem, rfl⟩, rfl⟩
      exact hmem
    · exact fun hmem => ⟨⟨offset, handler⟩, ⟨hmem, rfl⟩, rfl⟩
  · exact ⟨lookupRange_eq_none, fun e => lookupRange_eq_some_iff_innermost nested⟩

/-- Returns are added out of order, and of two ranges with the same bounds the later one counts. -/
theorem Built.answers_additions_mixed :
    let outer : RangeEntry := ⟨0, 40, 44, 1, .caught⟩
    let inner : RangeEntry := ⟨10, 20, 24, 2, .promise⟩
    let again : RangeEntry := ⟨10, 20, 28, 3, .uncaught⟩
    let t := ((((HandlerTable.ofReturns [⟨36, 92⟩, ⟨12, 80⟩]).pushRange outer).pushReturn
      ⟨24, 84⟩).pushRange inner).pushRange again
    t.Built [outer, inner, again] [⟨36, 92⟩, ⟨12, 80⟩, ⟨24, 84⟩] ∧
      t.returns.length = 3 ∧ t.lookupReturn 24 = some 84 ∧ t.lookupReturn 36 = some 92 ∧
      t.lookupReturn 13 = none ∧ RangeEntry.IsInnermost [outer, inner, again] 15 again ∧
      RangeEntry.IsInnermost [outer, inner, again] 20 outer ∧ t.lookupRange 40 = none := by
  intro outer inner again t
  have built : t.Built [outer, inner, again] [⟨36, 92⟩, ⟨12, 80⟩, ⟨24, 84⟩] :=
    ((((Built.ofReturns _).pushRange outer).pushReturn ⟨24, 84⟩).pushRange inner).pushRange again
  have hwithin : ∀ a b : RangeEntry, b.start ≤ a.start ∧ a.stop ≤ b.stop → a.Within b := by
    intro a b hbounds offset ha
    rw [RangeEntry.covers_iff] at ha ⊢
    omega
  have nested : RangeEntry.Nested [outer, inner, again] := by
    simp only [RangeEntry.Nested, List.pairwise_cons, List.forall_mem_cons, List.not_mem_nil,
      false_implies, implies_true, and_true, List.Pairwise.nil]
    refine ⟨⟨.inl (hwithin _ _ ?_), .inl (hwithin _ _ ?_)⟩, .inl (hwithin _ _ ?_)⟩ <;> decide
  obtain ⟨-, hlength, hreturns, hranges⟩ := built.answers_additions
  have hlookup := hreturns (by decide)
  have hmissing : ∀ handler, ¬t.lookupReturn 13 = some handler := fun handler h =>
    absurd ((hlookup 13 handler).mp h) (by simp)
  refine ⟨built, hlength, (hlookup 24 84).mpr (by decide), (hlookup 36 92).mpr (by decide),
    Option.eq_none_iff_forall_not_mem.mpr hmissing, ((hranges nested 15).2 again).mp ?_,
    ((hranges nested 20).2 outer).mp ?_, (hranges nested 40).1.mpr (by decide)⟩
  · rfl
  · rfl

end HandlerTable

end ScriptEngine

import ScriptEngine.Proofs.ExceptionSlots
import ScriptEngine.Proofs.RootVisits

namespace ScriptEngine

variable {σ α : Type}

/-- Overwrites every value by its image, and notes on the way what it sees. -/
def RootVisitor.overwriting (f : Value → Value) (note : RootKind → String → Value → σ → σ) :
    RootVisitor (StateM σ) := fun kind description v => do
  modify (note kind description v)
  return f v

theorem RootVisitor.maps_overwriting (f : Value → Value)
    (note : RootKind → String → Value → σ → σ) : (overwriting f note).Maps f :=
  fun _ _ _ _ => rfl

/-- Every value blanked: what is left are the parts that hold no value, and where values stand. -/
def blanked : Value → Value := fun _ => .undefined

/-- Shape and values tell things apart. Values of one thing may be followed by those of others; it
is known where they end. -/
def Told (map : (Value → Value) → α → α) (values : α → List Value) : Prop :=
  ∀ ⦃a b : α⦄ ⦃xs ys : List Value⦄, map blanked a = map blanked b →
    values a ++ xs = values b ++ ys → a = b ∧ xs = ys

theorem told_option : Told Option.map Option.toList := by
  intro a b xs ys hshape hvalues
  cases a <;> cases b <;> simp_all

theorem told_list : Told List.map id := by
  intro a b xs ys hshape hvalues
  have hlength : a.length = b.length := by simpa using congrArg List.length hshape
  exact List.append_inj hvalues hlength

theorem Told.list {map : (Value → Value) → α → α} {values : α → List Value}
    (h : Told map values) : Told (fun f => List.map (map f)) (List.flatMap values) := by
  intro as bs xs ys hshape hvalues
  induction as generalizing bs with
  | nil =>
    cases bs with
    | nil => exact ⟨rfl, hvalues⟩
    | cons b bs => cases hshape
  | cons a as ih =>
    cases bs with
    | nil => cases hshape
    | cons b bs =>
      obtain ⟨hfirst, hrest⟩ := List.cons.inj hshape
      rw [List.flatMap_cons, List.flatMap_cons, List.append_assoc, List.append_assoc] at hvalues
      obtain ⟨rfl, hmore⟩ := h hfirst hvalues
      obtain ⟨rfl, hends⟩ := ih hrest hmore
      exact ⟨rfl, hends⟩

theorem told_tryCatch : Told TryCatch.mapValues TryCatch.values := by
  intro a b xs ys hshape hvalues
  obtain ⟨_, _, _, _, exception, message, _, _, _⟩ := a
  obtain ⟨_, _, _, _, exception', message', _, _, _⟩ := b
  simp only [TryCatch.mapValues, TryCatch.mk.injEq] at hshape
  obtain ⟨rfl, rfl, rfl, rfl, hexception, hmessage, rfl, rfl, rfl⟩ := hshape
  simp only [TryCatch.values, List.append_assoc] at hvalues
  obtain ⟨rfl, hmore⟩ := told_option hexception hvalues
  obtain ⟨rfl, hends⟩ := told_option hmessage hmore
  exact ⟨rfl, hends⟩

theorem told_frame : Told RawFrame.mapValues RawFrame.values := by
  intro a b xs ys hshape hvalues
  obtain ⟨_, _, _, _, _, function, receiver, context, registers, _, _, _, exception, _, _⟩ := a
  obtain ⟨_, _, _, _, _, _, _, _, registers', _, _, _, _, _, _⟩ := b
  simp only [RawFrame.mapValues, RawFrame.mk.injEq] at hshape
  obtain ⟨rfl, rfl, rfl, rfl, rfl, -, -, -, hregisters, rfl, rfl, rfl, -, rfl, rfl⟩ := hshape
  simp only [RawFrame.values, List.cons_append, List.cons.injEq] at hvalues
  obtain ⟨rfl, rfl, rfl, rfl, hmore⟩ := hvalues
  obtain ⟨rfl, hends⟩ := told_list hregisters hmore
  exact ⟨rfl, hends⟩

theorem told_segment : Told StackSegment.mapValues StackSegment.values := by
  intro a b xs ys hshape hvalues
  obtain ⟨_, _, _, frames, _, _⟩ := a
  obtain ⟨_, _, _, frames', _, _⟩ := b
  simp only [StackSegment.mapValues, StackSegment.mk.injEq] at hshape
  obtain ⟨rfl, rfl, rfl, hframes, rfl, rfl⟩ := hshape
  obtain ⟨rfl, hends⟩ := told_frame.list hframes hvalues
  exact ⟨rfl, hends⟩

theorem told_pendingHandler : Told (fun f => Option.map (PendingHandler.mapValues f))
    (fun h => (h.map (·.context)).toList) := by
  intro a b xs ys hshape hvalues
  obtain _ | ⟨⟨context, _, _, _, _, _⟩⟩ := a <;> obtain _ | ⟨⟨context', _, _, _, _, _⟩⟩ := b <;>
    simp_all [PendingHandler.mapValues]

namespace ThreadState

/-- What a visit leaves: which slots are filled, addresses, offsets, handlers, flags and the states
of segments. -/
def shape (t : ThreadState) : ThreadState := t.mapValues blanked

theorem eq_of_shape_of_values {t u : ThreadState} (hshape : t.shape = u.shape)
    (hvalues : t.values = u.values) : t = u := by
  obtain ⟨_, _, _, _, _, _, _, _, _, ⟨_, _⟩, _, _, _⟩ := t
  obtain ⟨_, _, _, _, _, _, _, _, _, ⟨_, _⟩, _, _, _⟩ := u
  simp only [shape, mapValues, ThreadState.mk.injEq, SegmentedStack.mk.injEq] at hshape
  obtain ⟨hpending, hscheduled, hmessage, -, rfl, rfl, rfl, htryCatches, hpendingHandler,
    ⟨hsegments, rfl⟩, hpromises, -, hjoins⟩ := hshape
  have hall := congrArg (· ++ []) hvalues
  simp only [values, List.append_assoc, List.cons_append, List.nil_append] at hall
  -- The values come in the order of the visit.
  obtain ⟨rfl, h₁⟩ := told_option hpending hall
  obtain ⟨rfl, h₂⟩ := told_option hmessage h₁
  obtain ⟨rfl, h₃⟩ := List.cons.inj h₂
  obtain ⟨rfl, h₄⟩ := told_option hscheduled h₃
  obtain ⟨rfl, h₅⟩ := List.cons.inj h₄
  obtain ⟨rfl, h₆⟩ := told_pendingHandler hpendingHandler h₅
  obtain ⟨rfl, h₇⟩ := told_list hjoins h₆
  obtain ⟨rfl, h₈⟩ := told_tryCatch.list htryCatches h₇
  obtain ⟨rfl, h₉⟩ := told_list hpromises h₈
  obtain ⟨rfl, -⟩ := told_segment.list hsegments h₉
  rfl

theorem shape_mapValues (f : Value → Value) (t : ThreadState) :
    (t.mapValues f).shape = t.shape := by
  have hvalue : blanked ∘ f = blanked := rfl
  have hframe : RawFrame.mapValues blanked ∘ RawFrame.mapValues f = RawFrame.mapValues blanked := by
    funext frame
    simp only [Function.comp_apply, RawFrame.mapValues, List.map_map, hvalue, blanked]
  have hsegment : StackSegment.mapValues blanked ∘ StackSegment.mapValues f =
      StackSegment.mapValues blanked := by
    funext g
    simp only [Function.comp_apply, StackSegment.mapValues, List.map_map, hframe]
  have hscope : TryCatch.mapValues blanked ∘ TryCatch.mapValues f = TryCatch.mapValues blanked := by
    funext s
    simp only [Function.comp_apply, TryCatch.mapValues, Option.map_map, hvalue]
  have hhandler : PendingHandler.mapValues blanked ∘ PendingHandler.mapValues f =
      PendingHandler.mapValues blanked := rfl
  simp only [shape, mapValues, List.map_map, Option.map_map, hvalue, hsegment, hscope, hhandler,
    blanked]

/-- A visit that overwrites values by their images, whatever it notes on the way, applies the map
once to each value of the thread. The values are those of the thread one by one mapped, and all
else is as it was: there is no other thread with this shape and these values. -/
theorem visitRoots_pointwise (t : ThreadState) (f : Value → Value)
    (note : RootKind → String → Value → σ → σ) (s : σ) :
    let visited g := ((t.visitRoots (RootVisitor.overwriting g note)).run s).1
    visited f = t.mapValues f ∧
      (∀ u, u = visited f ↔ u.shape = t.shape ∧ u.values = t.values.map f) ∧
      visited id = t ∧ ((visited f).Exclusive ↔ t.Exclusive) := by
  intro visited
  have hmaps : ∀ g, visited g = t.mapValues g :=
    fun g => t.yields_visitRoots (RootVisitor.maps_overwriting g note) s
  have htold : ∀ g u, u = t.mapValues g ↔ u.shape = t.shape ∧ u.values = t.values.map g := by
    intro g u
    rw [← shape_mapValues g t, ← values_mapValues]
    constructor
    · rintro rfl
      exact ⟨rfl, rfl⟩
    · rintro ⟨hshape, hvalues⟩
      exact eq_of_shape_of_values hshape hvalues
  have hid : t = t.mapValues id := (htold id t).mpr ⟨rfl, (List.map_id _).symm⟩
  rw [hmaps, hmaps]
  refine ⟨rfl, htold f, hid.symm, ?_⟩
  unfold Exclusive mapValues
  rw [Option.map_eq_none_iff, Option.map_eq_none_iff]

end ThreadState

end ScriptEngine

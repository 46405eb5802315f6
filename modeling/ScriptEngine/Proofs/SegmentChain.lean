import ScriptEngine.Stack.Segment

namespace ScriptEngine.SegmentedStack

/-- The ids of a segment, of the one that it returns to, and so on up to one without a parent. -/
inductive Chain (s : SegmentedStack) : Nat → List Nat → Prop
  | root {id : Nat} {g : StackSegment}
      (found : s.segment? id = some g) (last : g.parent = none) : Chain s id [id]
  | child {id parent : Nat} {g : StackSegment} {ids : List Nat}
      (found : s.segment? id = some g) (next : g.parent = some parent)
      (rest : Chain s parent ids) : Chain s id (id :: ids)

/-- The frames of a segment, innermost first. -/
def framesOf (s : SegmentedStack) (id : Nat) : List RawFrame :=
  ((s.segment? id).map (·.innermostFirst)).getD []

/-- The frame pointers of a segment tell its frames apart. -/
def FpsDistinct (s : SegmentedStack) (id : Nat) : Prop := ((s.framesOf id).map (·.fp)).Nodup

variable {s s' : SegmentedStack} {id : Nat} {ids : List Nat}

theorem Chain.found (h : Chain s id ids) : ∃ g, s.segment? id = some g := by
  cases h with
  | root found _ => exact ⟨_, found⟩
  | child found _ _ => exact ⟨_, found⟩

theorem Chain.head (h : Chain s id ids) : ∃ rest, ids = id :: rest := by
  cases h with
  | root _ _ => exact ⟨[], rfl⟩
  | child _ _ _ => exact ⟨_, rfl⟩

theorem Chain.next {first : Nat} (h : Chain s id (first :: ids)) (hne : ids ≠ []) :
    id = first ∧ ∃ g parent, s.segment? first = some g ∧ g.parent = some parent ∧
      Chain s parent ids := by
  cases h with
  | root _ _ => exact absurd rfl hne
  | child found next rest => exact ⟨rfl, _, _, found, next, rest⟩

theorem segment?_id {g : StackSegment} (h : s.segment? id = some g) : g.id = id := by
  simpa using List.find?_some h

/-- A segment has one chain at most. -/
theorem Chain.unique (h : Chain s id ids) {ids' : List Nat} (h' : Chain s id ids') :
    ids = ids' := by
  induction h generalizing ids' with
  | root found last =>
    cases h' with
    | root _ _ => rfl
    | child found' next _ =>
      rw [found] at found'
      cases found'
      rw [last] at next
      cases next
  | child found next rest ih =>
    cases h' with
    | root found' last =>
      rw [found] at found'
      cases found'
      rw [last] at next
      cases next
    | child found' next' rest' =>
      rw [found] at found'
      cases found'
      rw [next] at next'
      cases next'
      rw [ih rest']

/-- Every segment of a chain has a chain of its own, which is not longer. -/
theorem Chain.suffix (h : Chain s id ids) {j : Nat} (hj : j ∈ ids) :
    ∃ js, Chain s j js ∧ js.length ≤ ids.length := by
  induction h with
  | root found last =>
    rcases List.mem_singleton.mp hj with rfl
    exact ⟨_, .root found last, Nat.le_refl _⟩
  | child found next rest ih =>
    rcases List.mem_cons.mp hj with rfl | hj
    · exact ⟨_, .child found next rest, Nat.le_refl _⟩
    · obtain ⟨js, hc, hl⟩ := ih hj
      exact ⟨js, hc, Nat.le_succ_of_le hl⟩

/-- No segment returns to itself. -/
theorem Chain.nodup (h : Chain s id ids) : ids.Nodup := by
  induction h with
  | root _ _ => simp
  | child found next rest ih =>
    refine List.nodup_cons.mpr ⟨?_, ih⟩
    intro hm
    -- The rest would hold a chain of the same segment, shorter than the chain it is a part of.
    obtain ⟨js, hc, hl⟩ := rest.suffix hm
    have he := (Chain.child found next rest).unique hc
    rw [← he, List.length_cons] at hl
    omega

/-- The last segment of a chain returns nowhere. -/
theorem Chain.last {left : List Nat} {j : Nat} (h : Chain s id (left ++ [j])) :
    ∃ g, s.segment? j = some g ∧ g.parent = none := by
  induction left generalizing id with
  | nil =>
    cases h with
    | root found last => exact ⟨_, found, last⟩
    | child _ _ rest => cases rest
  | cons first left ih =>
    obtain ⟨_, _, _, _, _, rest⟩ := h.next (by simp)
    exact ih rest

/-- What comes from a segment on is its own chain. -/
theorem Chain.drop {left outer : List Nat} {j : Nat} (h : Chain s id (left ++ j :: outer)) :
    Chain s j (j :: outer) := by
  induction left generalizing id with
  | nil =>
    obtain ⟨_, he⟩ := h.head
    cases he
    exact h
  | cons first left ih =>
    obtain ⟨_, _, _, _, _, rest⟩ := h.next (by simp)
    exact ih rest

theorem Chain.length_le (h : Chain s id ids) : ids.length ≤ s.segments.length := by
  have hs : ids ⊆ s.segments.map (·.id) := by
    intro j hj
    obtain ⟨js, hc, _⟩ := h.suffix hj
    obtain ⟨g, hg⟩ := hc.found
    exact List.mem_map.mpr ⟨g, List.mem_of_find?_eq_some hg, segment?_id hg⟩
  simpa using List.Nodup.length_le_of_subset h.nodup hs

/-- There are segments enough to count the first ones of a chain by. -/
theorem Chain.fuel {left outer : List Nat} (h : Chain s id (left ++ outer)) :
    ∃ k, s.segments.length = left.length + k := by
  have := h.length_le
  rw [List.length_append] at this
  exact ⟨s.segments.length - left.length, by omega⟩

/-- A chain depends on the parents alone. -/
theorem Chain.congr (h : Chain s id ids)
    (hp : ∀ j ∈ ids, (s'.segment? j).map (·.parent) = (s.segment? j).map (·.parent)) :
    Chain s' id ids := by
  induction h with
  | @root j g found last =>
    have he := hp j List.mem_cons_self
    rw [found, Option.map_some, Option.map_eq_some_iff] at he
    obtain ⟨g, hg, hparent⟩ := he
    exact .root hg (hparent.trans last)
  | @child j parent g ids found next rest ih =>
    have he := hp j List.mem_cons_self
    rw [found, Option.map_some, Option.map_eq_some_iff] at he
    obtain ⟨g, hg, hparent⟩ := he
    exact .child hg (hparent.trans next) (ih fun k hk => hp k (List.mem_cons_of_mem _ hk))

/-- Changes every segment, and makes one active. -/
def mapSegments (s : SegmentedStack) (f : StackSegment → StackSegment) (active : Nat) :
    SegmentedStack :=
  { segments := s.segments.map f, active }

theorem segment?_mapSegments {f : StackSegment → StackSegment} (hf : ∀ g, (f g).id = g.id)
    (active j : Nat) : (s.mapSegments f active).segment? j = (s.segment? j).map f := by
  have hp : (fun g : StackSegment => g.id == j) ∘ f = fun g => g.id == j := by
    funext g
    simp only [Function.comp_apply, hf]
  simp only [segment?, mapSegments, List.find?_map, hp]

theorem segment?_modifySegment {f : StackSegment → StackSegment} {i : Nat}
    (hf : ∀ g : StackSegment, g.id = i → (f g).id = i) (j : Nat) :
    (s.modifySegment i f).segment? j =
      if j = i then (s.segment? j).map f else s.segment? j := by
  have hid : ∀ g : StackSegment, (if g.id = i then f g else g).id = g.id := by
    intro g
    split
    case isTrue hi => exact (hf g hi).trans hi.symm
    case isFalse => rfl
  have hm := segment?_mapSegments (s := s) hid s.active j
  simp only [mapSegments] at hm
  rw [modifySegment, hm]
  cases hg : s.segment? j with
  | none => simp
  | some g =>
    have hj : g.id = j := segment?_id hg
    by_cases h : j = i <;> simp [hj, h]

theorem activeSegment_eq {g : StackSegment} (h : s.segment? s.active = some g) :
    s.activeSegment = g := by
  simp [activeSegment, h]

theorem framesOf_active {g : StackSegment} (h : s.segment? s.active = some g) :
    s.activeSegment.innermostFirst = s.framesOf s.active := by
  rw [activeSegment_eq h, framesOf, h]
  rfl

/-- The state of a segment once control has returned through the segments `left` to `id`. -/
def stateAfter (left : List Nat) (id : Nat) (g : StackSegment) : SegmentState :=
  if g.id = id then .active else if g.id ∈ left then .retired else g.state

/-- The stack once control has returned through the segments `left` to `id`. -/
def returnedTo (s : SegmentedStack) : List Nat → Nat → SegmentedStack
  | [], _ => s
  | first :: more, id =>
    s.mapSegments (fun g => { g with state := stateAfter (first :: more) id g }) id

theorem segment?_returnedTo (left : List Nat) (id j : Nat) :
    ∃ state : StackSegment → SegmentState,
      (s.returnedTo left id).segment? j =
        (s.segment? j).map fun g => { g with state := state g } := by
  cases left with
  | nil => exact ⟨(·.state), by simp [returnedTo]⟩
  | cons first more =>
    refine ⟨stateAfter (first :: more) id, ?_⟩
    rw [returnedTo, segment?_mapSegments]
    exact fun _ => rfl

theorem framesOf_returnedTo (left : List Nat) (id j : Nat) :
    (s.returnedTo left id).framesOf j = s.framesOf j := by
  obtain ⟨state, h⟩ := segment?_returnedTo (s := s) left id j
  rw [framesOf, framesOf, h, Option.map_map]
  rfl

theorem Chain.returnedTo (h : Chain s id ids) (left : List Nat) (j : Nat) :
    Chain (s.returnedTo left j) id ids := by
  apply h.congr
  intro k _
  obtain ⟨state, he⟩ := segment?_returnedTo (s := s) left j k
  rw [he, Option.map_map]
  rfl

theorem active_returnedTo {left outer : List Nat} (h : Chain s s.active (left ++ id :: outer)) :
    (s.returnedTo left id).active = id := by
  cases left with
  | nil =>
    obtain ⟨rest, he⟩ := h.head
    exact (List.cons.inj he).1.symm
  | cons first more => rfl

/-- The segment that control returned to, which is the last one if none comes after it. -/
theorem activeSegment_returnedTo {left outer : List Nat}
    (h : Chain s s.active (left ++ id :: outer)) :
    (s.returnedTo left id).activeSegment.id = id ∧
      (s.returnedTo left id).activeSegment.innermostFirst = s.framesOf id ∧
      (outer = [] → (s.returnedTo left id).activeSegment.parent = none) := by
  have hactive := active_returnedTo h
  obtain ⟨_, hsuffix, _⟩ := h.suffix (j := id) (by simp)
  obtain ⟨g, hg⟩ := (hsuffix.returnedTo left id).found
  have hg' : (s.returnedTo left id).segment? (s.returnedTo left id).active = some g := by
    rw [hactive]
    exact hg
  rw [activeSegment_eq hg']
  refine ⟨segment?_id hg, ?_, ?_⟩
  · rw [← activeSegment_eq hg', framesOf_active hg', hactive, framesOf_returnedTo]
  · rintro rfl
    obtain ⟨g', hlast, hnone⟩ := (h.returnedTo left id).last
    cases hg.symm.trans hlast
    exact hnone

/-- Returning to the parent is returning through the active segment. -/
theorem switchToParent_eq {g : StackSegment} {parent : Nat} {ids : List Nat}
    (found : s.segment? s.active = some g) (next : g.parent = some parent)
    (rest : Chain s parent ids) (hne : s.active ≠ parent) :
    s.switchToParent = some (parent, s.returnedTo [s.active] parent) := by
  obtain ⟨p, hp⟩ := rest.found
  have hs : ((s.modifyActive fun g => { g with state := .retired }).modifySegment parent
      fun g => { g with state := .active }).segments =
      (s.returnedTo [s.active] parent).segments := by
    simp only [modifyActive, modifySegment, SegmentedStack.returnedTo, mapSegments, List.map_map]
    apply List.map_congr_left
    intro q _
    by_cases ha : q.id = s.active
    · have hq : q.id ≠ parent := fun he => hne (ha.symm.trans he)
      simp [stateAfter, ha, hne]
    · by_cases hq : q.id = parent <;> simp [stateAfter, ha, hq, Ne.symm hne]
  simp only [switchToParent, leave, activeSegment_eq found, next, hp, bind, Option.bind, pure, hs]
  rfl

theorem Chain.switchToParent_last (h : Chain s s.active [id]) : s.switchToParent = none := by
  cases h with
  | root found last => simp [switchToParent, leave, activeSegment_eq found, last]
  | child _ _ rest => cases rest

theorem Chain.switchToParent (h : Chain s s.active (id :: ids)) (hne : ids ≠ []) :
    ∃ parent, ids.head? = some parent ∧ Chain s parent ids ∧
      s.switchToParent = some (parent, s.returnedTo [s.active] parent) := by
  obtain ⟨hactive, g, parent, found, next, rest⟩ := h.next hne
  obtain ⟨more, rfl⟩ := rest.head
  have hnot : s.active ≠ parent := by
    intro he
    have := h.nodup
    simp [← hactive, he] at this
  rw [← hactive] at found
  exact ⟨parent, rfl, rest, switchToParent_eq found next rest hnot⟩

/-- Returning step by step is returning at once. -/
theorem returnedTo_cons {first parent : Nat} {left : List Nat}
    (hd : (left ++ [id]).head? = some parent) (hl : first ∉ left) (hne : first ≠ id) :
    (s.returnedTo [first] parent).returnedTo left id = s.returnedTo (first :: left) id := by
  cases left with
  | nil =>
    cases hd
    rfl
  | cons second more =>
    cases hd
    have hf : first ≠ parent := fun he => hl (he ▸ List.mem_cons_self)
    simp only [SegmentedStack.returnedTo, mapSegments, List.map_map, SegmentedStack.mk.injEq,
      and_true]
    apply List.map_congr_left
    intro q _
    by_cases hi : q.id = id
    · simp [stateAfter, hi]
    · by_cases ha : q.id = first
      · simp [stateAfter, ha, hf, hl, hne]
      · by_cases hp : q.id = parent <;> simp [stateAfter, ha, hp, hi]

end ScriptEngine.SegmentedStack

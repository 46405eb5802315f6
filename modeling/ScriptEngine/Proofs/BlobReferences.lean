import ScriptEngine.Blob.Registry
import ScriptEngine.Proofs.Evolution

namespace ScriptEngine

/-- The blob of a handle that counts as a reference. -/
def BlobHandle.shared? : BlobHandle → Option PlacedBlob
  | binary _ => none
  | shared b => some b

namespace BlobRegistry

open ScriptEngine.Action

variable {r r' : BlobRegistry} {b own : PlacedBlob} {held : Option BlobHandle} {handle : BlobHandle}

/-- Where a new sticky blob is put. -/
def nextBlob (r : BlobRegistry) : PlacedBlob := Blob.create.place r.nextAddress

/-- With a new sticky blob, which is current. -/
def withNextBlob (r : BlobRegistry) : BlobRegistry :=
  { r with
    sticky := some r.nextBlob
    refs := r.refs + 1
    nextAddress := r.nextAddress + Blob.span }.setCurrent r.nextBlob

/-- The registry after a reference to its sticky blob has come back. -/
def withReturned (r : BlobRegistry) : BlobRegistry :=
  if r.refs - 1 = 0 && r.isCounting then { r with refs := r.refs - 1 }.free
  else { r with refs := r.refs - 1 }

/-- The ways in which a new isolate gets its first blob. -/
theorem acquire_cases (r : BlobRegistry) :
    (∃ b, r.sticky = some b ∧
      r.acquire = (some (.shared b), { r with refs := r.refs + 1 }.setCurrent b)) ∨
    (∃ b, r.sticky = none ∧ r.default = some b ∧ r.acquire = (some (.binary b), r.setCurrent b)) ∨
    (r.sticky = none ∧ r.default = none ∧ r.acquire = (none, r)) := by
  unfold acquire
  cases hs : r.sticky with
  | some b => exact .inl ⟨b, rfl, rfl⟩
  | none =>
    cases hd : r.default with
    | some b => exact .inr (.inl ⟨b, rfl, rfl, rfl⟩)
    | none => exact .inr (.inr ⟨rfl, rfl, rfl⟩)

section Create

/-- Whoever holds no shared blob gets another reference to the sticky one. -/
theorem createAndSet_join (hs : r.sticky = some b) (hheld : held.bind (·.shared?) = none) :
    (createAndSet held).outcome r =
      (.ok (.shared b), { r with refs := r.refs + 1 }.setCurrent b) := by
  obtain _ | (own | own) := held
  · simp only [createAndSet, outcome_get_bind, hs]; rfl
  · simp only [createAndSet, outcome_get_bind, hs]; rfl
  · simp [BlobHandle.shared?] at hheld

/-- Whoever holds the sticky blob keeps its reference. -/
theorem createAndSet_keep (hs : r.sticky = some b) (hown : own.codeAddress = b.codeAddress) :
    (createAndSet (some (.shared own))).outcome r = (.ok (.shared b), r.setCurrent b) := by
  simp only [createAndSet, outcome_get_bind, hs, hown, ne_eq, not_true, if_false]
  rfl

theorem createAndSet_foreign (hs : r.sticky = some b) (hown : own.codeAddress ≠ b.codeAddress) :
    (createAndSet (some (.shared own))).outcome r =
      (.error (.fatal (.blobMismatch .heldNotSticky)), r) := by
  simp only [createAndSet, outcome_get_bind, hs, ne_eq, hown, not_false_eq_true, if_true]
  rfl

theorem createAndSet_orphan (hs : r.sticky = none) :
    (createAndSet (some (.shared own))).outcome r =
      (.error (.fatal (.blobMismatch .heldWithoutSticky)), r) := by
  simp only [createAndSet, outcome_get_bind, hs]
  rfl

/-- A new blob is made only when no reference is counted. -/
theorem createAndSet_blocked (hs : r.sticky = none) (hheld : held.bind (·.shared?) = none)
    (hrefs : r.refs ≠ 0) :
    (createAndSet held).outcome r =
      (.error (.fatal (.blobMismatch (.outstandingReferences r.refs))), r) := by
  obtain _ | (own | own) := held
  · simp only [createAndSet, outcome_get_bind, hs, ne_eq, hrefs, not_false_eq_true, if_true]; rfl
  · simp only [createAndSet, outcome_get_bind, hs, ne_eq, hrefs, not_false_eq_true, if_true]; rfl
  · simp [BlobHandle.shared?] at hheld

theorem createAndSet_new (hs : r.sticky = none) (hheld : held.bind (·.shared?) = none)
    (hrefs : r.refs = 0) :
    (createAndSet held).outcome r = (.ok (.shared r.nextBlob), r.withNextBlob) := by
  obtain ⟨default, nextAddress, current, sticky, isCounting, refs, frees⟩ := r
  cases hs
  cases hrefs
  obtain _ | (own | own) := held
  · rfl
  · rfl
  · simp [BlobHandle.shared?] at hheld

/-- What asking for a shared blob comes to. -/
theorem createAndSet_cases (held : Option BlobHandle) (r : BlobRegistry) :
    (∃ b own, r.sticky = some b ∧ held = some (.shared own) ∧ own.codeAddress = b.codeAddress ∧
      (createAndSet held).outcome r = (.ok (.shared b), r.setCurrent b)) ∨
    (∃ b, r.sticky = some b ∧ held.bind (·.shared?) = none ∧
      (createAndSet held).outcome r =
        (.ok (.shared b), { r with refs := r.refs + 1 }.setCurrent b)) ∨
    (r.sticky = none ∧ r.refs = 0 ∧ held.bind (·.shared?) = none ∧
      (createAndSet held).outcome r = (.ok (.shared r.nextBlob), r.withNextBlob)) ∨
    ∃ misuse, (createAndSet held).outcome r = (.error (.fatal (.blobMismatch misuse)), r) := by
  cases hheld : held.bind (·.shared?) with
  | none =>
    obtain hs | ⟨b, hs⟩ := Option.eq_none_or_eq_some r.sticky
    · by_cases hrefs : r.refs = 0
      · exact .inr (.inr (.inl ⟨hs, hrefs, rfl, createAndSet_new hs hheld hrefs⟩))
      · exact .inr (.inr (.inr ⟨_, createAndSet_blocked hs hheld hrefs⟩))
    · exact .inr (.inl ⟨b, hs, rfl, createAndSet_join hs hheld⟩)
  | some own =>
    obtain rfl : held = some (.shared own) := by
      obtain _ | (c | c) := held <;> simp [BlobHandle.shared?] at hheld ⊢
      exact hheld
    obtain hs | ⟨b, hs⟩ := Option.eq_none_or_eq_some r.sticky
    · exact .inr (.inr (.inr ⟨_, createAndSet_orphan hs⟩))
    · by_cases hown : own.codeAddress = b.codeAddress
      · exact .inl ⟨b, own, hs, rfl, hown, createAndSet_keep hs hown⟩
      · exact .inr (.inr (.inr ⟨_, createAndSet_foreign hs hown⟩))

/-- The ways in which an isolate gets a shared blob. -/
theorem createAndSet_ok (h : (createAndSet held).outcome r = (.ok handle, r')) :
    (∃ b own, r.sticky = some b ∧ held = some (.shared own) ∧ own.codeAddress = b.codeAddress ∧
      handle = .shared b ∧ r' = r.setCurrent b) ∨
    (∃ b, r.sticky = some b ∧ held.bind (·.shared?) = none ∧ handle = .shared b ∧
      r' = { r with refs := r.refs + 1 }.setCurrent b) ∨
    (r.sticky = none ∧ r.refs = 0 ∧ held.bind (·.shared?) = none ∧ handle = .shared r.nextBlob ∧
      r' = r.withNextBlob) := by
  obtain ⟨b, own, hs, hheld, hown, ho⟩ | ⟨b, hs, hheld, ho⟩ | ⟨hs, hrefs, hheld, ho⟩ |
      ⟨misuse, ho⟩ :=
    createAndSet_cases held r
  all_goals rw [ho] at h; cases h
  · exact .inl ⟨b, own, hs, hheld, hown, rfl, rfl⟩
  · exact .inr (.inl ⟨b, hs, hheld, rfl, rfl⟩)
  · exact .inr (.inr ⟨hs, hrefs, hheld, rfl, rfl⟩)

/-- Getting a shared blob fails by misuse only. -/
theorem createAndSet_error {e : Failure} (h : (createAndSet held).outcome r = (.error e, r')) :
    ∃ misuse, e = .fatal (.blobMismatch misuse) := by
  obtain ⟨b, own, -, -, -, ho⟩ | ⟨b, -, -, ho⟩ | ⟨-, -, -, ho⟩ | ⟨misuse, ho⟩ :=
    createAndSet_cases held r
  all_goals rw [ho] at h; cases h
  exact ⟨misuse, rfl⟩

/-- References without a sticky blob leave no way to get one. -/
theorem createAndSet_ne_ok (hs : r.sticky = none) (hrefs : r.refs ≠ 0) :
    (createAndSet held).outcome r ≠ (.ok handle, r') := by
  intro h
  obtain ⟨b, own, hsome, -⟩ | ⟨b, hsome, -⟩ | ⟨-, hzero, -⟩ := createAndSet_ok h
  · cases hs.symm.trans hsome
  · cases hs.symm.trans hsome
  · exact hrefs hzero

end Create

section Release

@[simp]
theorem release_binary : (release (.binary b)).outcome r = (.ok (), r) := rfl

theorem release_without_sticky (hs : r.sticky = none) :
    (release (.shared b)).outcome r = (.ok (), r) := by
  simp only [release, outcome_get_bind, hs]
  rfl

theorem release_sticky (hs : r.sticky = some b) (hown : own.codeAddress = b.codeAddress)
    (hrefs : r.refs ≠ 0) : (release (.shared own)).outcome r = (.ok (), r.withReturned) := by
  obtain ⟨default, nextAddress, current, sticky, isCounting, refs, frees⟩ := r
  cases hs
  have hsticky : isSticky ⟨default, nextAddress, current, some b, isCounting, refs, frees⟩ own :=
    by simp [isSticky, hown]
  simp only [release, outcome_get_bind, hsticky, hrefs, Bool.not_true, Bool.false_eq_true,
    if_false]
  rfl

theorem release_foreign (hs : r.sticky = some b) (hown : own.codeAddress ≠ b.codeAddress) :
    (release (.shared own)).outcome r =
      (.error (.fatal (.blobMismatch .releasedNotSticky)), r) := by
  have hsticky : r.isSticky own = false := by
    simpa [isSticky, hs] using fun h => hown h.symm
  simp only [release, outcome_get_bind, hs, hsticky, Bool.not_false, if_true]
  rfl

theorem release_underflow (hs : r.sticky = some b) (hown : own.codeAddress = b.codeAddress)
    (hrefs : r.refs = 0) : (release (.shared own)).outcome r =
      (.error (.fatal (.blobMismatch .refcountUnderflow)), r) := by
  have hsticky : r.isSticky own = true := by simp [isSticky, hs, hown]
  simp only [release, outcome_get_bind, hs, hsticky, hrefs, Bool.not_true, Bool.false_eq_true,
    if_false, if_true]
  rfl

/-- What giving a shared blob back comes to. -/
theorem release_cases (own : PlacedBlob) (r : BlobRegistry) :
    (r.sticky = none ∧ (release (.shared own)).outcome r = (.ok (), r)) ∨
    (∃ b, r.sticky = some b ∧ own.codeAddress = b.codeAddress ∧ r.refs ≠ 0 ∧
      (release (.shared own)).outcome r = (.ok (), r.withReturned)) ∨
    ∃ misuse, (release (.shared own)).outcome r = (.error (.fatal (.blobMismatch misuse)), r) := by
  cases hs : r.sticky with
  | none => exact .inl ⟨rfl, release_without_sticky hs⟩
  | some b =>
    by_cases hown : own.codeAddress = b.codeAddress
    · by_cases hrefs : r.refs = 0
      · exact .inr (.inr ⟨_, release_underflow hs hown hrefs⟩)
      · exact .inr (.inl ⟨b, rfl, hown, hrefs, release_sticky hs hown hrefs⟩)
    · exact .inr (.inr ⟨_, release_foreign hs hown⟩)

/-- The ways in which a shared blob can come back. -/
theorem release_ok (h : (release (.shared own)).outcome r = (.ok (), r')) :
    (r.sticky = none ∧ r' = r) ∨
    (∃ b, r.sticky = some b ∧ own.codeAddress = b.codeAddress ∧ r.refs ≠ 0 ∧
      r' = r.withReturned) := by
  obtain ⟨hs, ho⟩ | ⟨b, hs, hown, hrefs, ho⟩ | ⟨misuse, ho⟩ := release_cases own r
  all_goals rw [ho] at h; cases h
  · exact .inl ⟨hs, rfl⟩
  · exact .inr ⟨b, hs, hown, hrefs, rfl⟩

/-- Giving a blob back fails by misuse only. -/
theorem release_error {e : Failure} (h : (release handle).outcome r = (.error e, r')) :
    ∃ misuse, e = .fatal (.blobMismatch misuse) := by
  obtain b | own := handle
  · cases h
  obtain ⟨-, ho⟩ | ⟨b, -, -, -, ho⟩ | ⟨misuse, ho⟩ := release_cases own r
  all_goals rw [ho] at h; cases h
  exact ⟨misuse, rfl⟩

end Release

section Manual

theorem freeCurrent_counting (hc : r.isCounting = true) :
    freeCurrent.outcome r = (.error (.fatal (.blobMismatch .refcountingEnabled)), r) := by
  simp only [freeCurrent, outcome_get_bind, hc, if_true]
  rfl

theorem freeCurrent_without_sticky (hc : r.isCounting = false) (hs : r.sticky = none) :
    freeCurrent.outcome r = (.ok (), r) := by
  simp only [freeCurrent, outcome_get_bind, hc, hs]
  rfl

theorem freeCurrent_sticky (hc : r.isCounting = false) (hs : r.sticky = some b)
    (hcur : r.current.code = b.codeAddress) : freeCurrent.outcome r = (.ok (), r.free) := by
  simp only [freeCurrent, outcome_get_bind, hc, hs, hcur, ne_eq, not_true, if_false]
  rfl

theorem freeCurrent_foreign (hc : r.isCounting = false) (hs : r.sticky = some b)
    (hcur : r.current.code ≠ b.codeAddress) :
    freeCurrent.outcome r =
      (.error (.fatal (.blobMismatch .currentNotSticky)), { r with sticky := none }) := by
  simp only [freeCurrent, outcome_get_bind, hc, hs, ne_eq, hcur, not_false_eq_true, if_true]
  rfl

/-- The ways in which a blob is freed by hand. -/
theorem freeCurrent_ok (h : freeCurrent.outcome r = (.ok (), r')) :
    r.isCounting = false ∧
      ((r.sticky = none ∧ r' = r) ∨ (∃ b, r.sticky = some b ∧ r' = r.free)) := by
  cases hc : r.isCounting with
  | true =>
    rw [freeCurrent_counting hc] at h
    cases h
  | false =>
    refine ⟨rfl, ?_⟩
    cases hs : r.sticky with
    | none =>
      rw [freeCurrent_without_sticky hc hs] at h
      cases h
      exact .inl ⟨rfl, rfl⟩
    | some b =>
      by_cases hcur : r.current.code = b.codeAddress
      · rw [freeCurrent_sticky hc hs hcur] at h
        cases h
        exact .inr ⟨b, rfl, rfl⟩
      · rw [freeCurrent_foreign hc hs hcur] at h
        cases h

end Manual

section Fields

@[simp] theorem setCurrent_sticky : (r.setCurrent b).sticky = r.sticky := rfl
@[simp] theorem setCurrent_refs : (r.setCurrent b).refs = r.refs := rfl
@[simp] theorem withNextBlob_sticky : r.withNextBlob.sticky = some r.nextBlob := rfl
@[simp] theorem withNextBlob_refs : r.withNextBlob.refs = r.refs + 1 := rfl
@[simp] theorem free_sticky : r.free.sticky = none := rfl
@[simp] theorem free_refs : r.free.refs = r.refs := rfl

@[simp]
theorem withReturned_refs : r.withReturned.refs = r.refs - 1 := by
  unfold withReturned
  split <;> rfl

theorem withReturned_sticky :
    r.withReturned.sticky = if r.refs - 1 = 0 && r.isCounting then none else r.sticky := by
  unfold withReturned
  split <;> rfl

end Fields

end BlobRegistry

end ScriptEngine

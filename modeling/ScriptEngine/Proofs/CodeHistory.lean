import Mathlib.Logic.Relation
import ScriptEngine.Proofs.CodeLookup

namespace ScriptEngine

/-- The addresses of a reservation. -/
def Reservation.extent (m : Reservation) : Set Nat := Set.Ico m.base (m.base + m.size)

theorem le_alignUp (n : Nat) : n ≤ alignUp n := by
  unfold alignUp codeAlignment
  omega

theorem dvd_alignUp (n : Nat) : codeAlignment ∣ alignUp n := Nat.dvd_mul_left _ _

theorem alignUp_add {n : Nat} (h : codeAlignment ∣ n) (k : Nat) :
    alignUp (n + k) = n + alignUp k := by
  unfold alignUp codeAlignment at *
  omega

/-- Instructions, the word behind them, and the memory of the range that they come from. -/
structure CodeBlock where
  start : Address
  /-- Bytes of instructions. -/
  size : Nat
  range : Reservation

namespace CodeBlock

variable {b b' : CodeBlock}

def stop (b : CodeBlock) : Nat := b.start + b.size + constantPoolSize

def extent (b : CodeBlock) : Set Nat := Set.Ico b.start b.stop

/-- Blocks lie in their range, a multiple of the alignment behind its start. -/
structure IsPlaced (b : CodeBlock) : Prop where
  aligned : ∃ k, b.start = b.range.base + codeAlignment * k
  inside : b.extent ⊆ b.range.extent

theorem start_lt_stop (b : CodeBlock) : b.start < b.stop := by
  unfold stop constantPoolSize
  lia

/-- A range that a block came from has addresses. -/
theorem IsPlaced.not_disjoint (h : b.IsPlaced) : ¬ Disjoint b.range.extent b.range.extent := by
  intro hself
  have hmem : b.start ∈ b.range.extent := h.inside ⟨le_rfl, b.start_lt_stop⟩
  exact Set.disjoint_left.1 hself hmem hmem

end CodeBlock

namespace CodeRange

/-- The block that comes next from a range, for some bytes of instructions. -/
def block (r : CodeRange) (size : Nat) : CodeBlock := ⟨r.base + r.next, size, r.reservation⟩

/-- The range after that. -/
def after (r : CodeRange) (size : Nat) : CodeRange :=
  { r with next := alignUp (r.next + (size + constantPoolSize)) }

def hasRoom (r : CodeRange) (size : Nat) : Prop := (r.after size).next ≤ r.size

variable {r : CodeRange} {size : Nat}

theorem allocate_of_room (h : r.hasRoom size) :
    r.allocate (size + constantPoolSize) = (some (r.block size).start, r.after size) := by
  have hmax : max (size + constantPoolSize) 1 = size + constantPoolSize :=
    max_eq_left (Nat.le_add_left _ _)
  unfold hasRoom after at h
  simp [allocate, hmax, h, block, after]

theorem allocate_full (h : ¬ r.hasRoom size) :
    r.allocate (size + constantPoolSize) = (none, r) := by
  have hmax : max (size + constantPoolSize) 1 = size + constantPoolSize :=
    max_eq_left (Nat.le_add_left _ _)
  unfold hasRoom after at h
  simpa [allocate, hmax] using h

theorem stop_block_le (r : CodeRange) (size : Nat) :
    (r.block size).stop ≤ r.base + (r.after size).next := by
  have hle := le_alignUp (r.next + (size + constantPoolSize))
  unfold block CodeBlock.stop after
  lia

theorem next_le_after (r : CodeRange) (size : Nat) : r.next ≤ (r.after size).next :=
  (Nat.le_add_right _ _).trans (le_alignUp _)

theorem isPlaced_block (haligned : codeAlignment ∣ r.next) (h : r.hasRoom size) :
    (r.block size).IsPlaced := by
  obtain ⟨k, hk⟩ := haligned
  refine ⟨⟨k, congrArg (r.base + ·) hk⟩, ?_⟩
  apply Set.Ico_subset_Ico (Nat.le_add_right _ _)
  exact (r.stop_block_le size).trans (Nat.add_le_add_left h _)

end CodeRange

namespace Code

def block (c : Code) (range : Reservation) : CodeBlock := ⟨c.start, c.size, range⟩

theorem place_subset_block (c : Code) (range : Reservation) : c.place ⊆ (c.block range).extent := by
  apply Set.Ico_subset_Ico_right
  unfold CodeBlock.stop block constantPoolSize stop
  lia

end Code

namespace CodeRegistry

variable {r : CodeRegistry} {d : CodeDescription} {range : CodeRange}

theorem install_of_room (hrange : r.range = some range) (room : range.hasRoom d.size) :
    r.install d =
      (some (r.insertAt d (range.block d.size).start).1,
        ({ r with range := some (range.after d.size) }.insertAt d
          (range.block d.size).start).2) := by
  simp only [install, hrange, CodeRange.allocate_of_room room]
  rfl

/-- Without a range that has room, an installation fails and changes nothing. -/
theorem install_full (full : ∀ range, r.range = some range → ¬ range.hasRoom d.size) :
    r.install d = (none, r) := by
  unfold install
  cases hrange : r.range with
  | none => rfl
  | some range =>
    simp only [CodeRange.allocate_full (full range hrange)]
    rw [← hrange]

/-- An installation fails if there is no range or the range has no room. -/
theorem install_eq_none_iff :
    (r.install d).1 = none ↔ ∀ range, r.range = some range → ¬ range.hasRoom d.size := by
  constructor
  · intro hnone range hrange room
    rw [install_of_room hrange room] at hnone
    cases hnone
  · intro full
    rw [install_full full]

end CodeRegistry

inductive CodeEvent
  /-- Code in a block of the range at hand. -/
  | installed (c : Code) (range : Reservation)
  /-- Code at an address of the caller's choice. -/
  | placed (c : Code)
  | removed (start : Address)
  | cleared
  /-- A block that went to another registry. -/
  | lent (b : CodeBlock)

def CodeEvent.block? : CodeEvent → Option CodeBlock
  | installed c range => some (c.block range)
  | lent b => some b
  | _ => none

/-- Whether code is registered after some events, the latest first: it came in, and since then
nothing came in at its start, was removed there, or cleared everything. -/
def Code.IsRegistered (c : Code) : List CodeEvent → Prop
  | [] => False
  | .installed d _ :: before => c = d ∨ c.IsRegistered before ∧ c.start ≠ d.start
  | .placed d :: before => c = d ∨ c.IsRegistered before ∧ c.start ≠ d.start
  | .removed start :: before => c.IsRegistered before ∧ c.start ≠ start
  | .cleared :: _ => False
  | .lent _ :: before => c.IsRegistered before

/-- A registry with what happened to it and to its ranges so far. -/
structure CodeHistory where
  registry : CodeRegistry := {}
  /-- Ranges that the registry does not have, but may get. -/
  aside : List CodeRange := []
  /-- The memory of every range that was ever made. -/
  ranges : List Reservation := []
  /-- The latest first. -/
  events : List CodeEvent := []

/-- What is done with a registry, and with ranges while it does not have them. Looking up only
reads. -/
inductive CodeOperation
  | makeRange (memory : Reservation)
  /-- Another registry takes a block from a range. -/
  | lend (range : CodeRange) (size : Nat)
  /-- The range that the registry had is gone. -/
  | setRange (range : CodeRange)
  | takeRange
  | install (d : CodeDescription)
  | insertAt (d : CodeDescription) (start : Address)
  | remove (start : Address)
  | clear

namespace CodeHistory

/-- Every block handed out so far, the latest first. -/
def blocks (s : CodeHistory) : List CodeBlock := s.events.filterMap CodeEvent.block?

/-- The ranges aside without a certain one. -/
def others (s : CodeHistory) (range : CodeRange) : List CodeRange :=
  s.aside.filter (·.reservation ≠ range.reservation)

def perform (s : CodeHistory) : CodeOperation → CodeHistory
  | .makeRange memory =>
    { s with aside := { reservation := memory } :: s.aside, ranges := memory :: s.ranges }
  | .lend range size =>
    let (start, after) := range.allocate (size + constantPoolSize)
    let lent := start.map fun start => .lent ⟨start, size, range.reservation⟩
    { s with aside := after :: s.others range, events := lent.toList ++ s.events }
  | .setRange range =>
    { s with registry := s.registry.setRange range, aside := s.others range }
  | .takeRange =>
    { s with
      registry := s.registry.takeRange.2
      aside := s.aside ++ s.registry.takeRange.1.toList }
  | .install d =>
    let (code, registry) := s.registry.install d
    let installed := s.registry.range.bind fun range => code.map (.installed · range.reservation)
    { s with registry := registry, events := installed.toList ++ s.events }
  | .insertAt d start =>
    { s with
      registry := (s.registry.insertAt d start).2
      events := .placed (s.registry.insertAt d start).1 :: s.events }
  | .remove start =>
    { s with registry := (s.registry.remove start).2, events := .removed start :: s.events }
  | .clear => { s with registry := s.registry.clear, events := .cleared :: s.events }

/-- A new range is apart from all ranges before it and from code placed by hand. Code placed by
hand is apart from all ranges; it takes the place of code with the same start, and otherwise
neither it nor other code starts among the instructions of the other. -/
def Allows (s : CodeHistory) : CodeOperation → Prop
  | .makeRange memory =>
    (∀ m ∈ s.ranges, Disjoint m.extent memory.extent) ∧
    ∀ c ∈ s.registry.codes, .placed c ∈ s.events → Disjoint c.place memory.extent
  | .lend range _ => range ∈ s.aside
  | .setRange range => range ∈ s.aside
  | .insertAt d start =>
    let c := (s.registry.insertAt d start).1
    (∀ m ∈ s.ranges, Disjoint c.place m.extent) ∧
    ∀ other ∈ s.registry.codes, other.start ≠ start →
      ¬ other.contains start ∧ ¬ c.contains other.start
  | .takeRange | .install _ | .remove _ | .clear => True

/-- Operations one after the other, each of them allowed. -/
abbrev Run : CodeHistory → CodeHistory → Prop :=
  Relation.ReflTransGen fun s s' => ∃ op, s.Allows op ∧ s' = s.perform op

/-- Ranges that blocks can still come from. -/
def inUse (s : CodeHistory) : List CodeRange := s.aside ++ s.registry.range.toList

def Apart (r r' : CodeRange) : Prop := Disjoint r.reservation.extent r'.reservation.extent

/-- Blocks are in place and apart, and what they come from next is free. -/
structure Parcelled (s : CodeHistory) : Prop where
  placed : ∀ b ∈ s.blocks, b.range ∈ s.ranges ∧ b.IsPlaced
  blocks : s.blocks.Pairwise fun b b' => Disjoint b.extent b'.extent
  ranges : ∀ m ∈ s.ranges, ∀ m' ∈ s.ranges, m ≠ m' → Disjoint m.extent m'.extent
  known : ∀ range ∈ s.inUse, range.reservation ∈ s.ranges ∧ codeAlignment ∣ range.next
  free : ∀ range ∈ s.inUse, ∀ b ∈ s.blocks, b.range = range.reservation →
    b.stop ≤ range.base + range.next
  apart : s.inUse.Pairwise Apart

/-- Code is in a block, or was placed by hand outside of all ranges. -/
def Stems (s : CodeHistory) (c : Code) : Prop :=
  (∃ range, c.block range ∈ s.blocks) ∨
    .placed c ∈ s.events ∧ ∀ m ∈ s.ranges, Disjoint c.place m.extent

structure Sound (s : CodeHistory) : Prop extends Parcelled s where
  ordered : s.registry.codes.Pairwise Code.Before
  registered (c : Code) : c ∈ s.registry.codes ↔ c.IsRegistered s.events
  origin : ∀ c ∈ s.registry.codes, s.Stems c

variable {s : CodeHistory} {range : CodeRange} {memory : Reservation} {d : CodeDescription}
  {start : Address} {size : Nat}

/-- The code that comes next from a range. -/
def nextCode (s : CodeHistory) (range : CodeRange) (d : CodeDescription) : Code :=
  ⟨s.registry.installed, (range.block d.size).start, d⟩

theorem perform_install (hrange : s.registry.range = some range) (room : range.hasRoom d.size) :
    s.perform (.install d) =
      { s with
        registry := ({ s.registry with range := some (range.after d.size) }.insertAt d
          (range.block d.size).start).2
        events := .installed (s.nextCode range d) range.reservation :: s.events } := by
  simp only [perform, CodeRegistry.install_of_room hrange room, hrange]
  rfl

theorem perform_install_none (h : (s.registry.install d).1 = none) :
    s.perform (.install d) = s := by
  simp only [perform, CodeRegistry.install_full (CodeRegistry.install_eq_none_iff.1 h)]
  cases s.registry.range <;> rfl

theorem perform_lend (room : range.hasRoom size) :
    s.perform (.lend range size) =
      { s with
        aside := range.after size :: s.others range
        events := .lent (range.block size) :: s.events } := by
  simp only [perform, CodeRange.allocate_of_room room]
  rfl

theorem perform_lend_full (full : ¬ range.hasRoom size) :
    s.perform (.lend range size) = { s with aside := range :: s.others range } := by
  simp only [perform, CodeRange.allocate_full full]
  rfl

theorem sound_empty : Sound {} where
  placed := by simp [CodeHistory.blocks]
  blocks := .nil
  ranges := by simp
  known := by simp [inUse]
  free := by simp [inUse]
  apart := .nil
  ordered := .nil
  registered _ := by simp [Code.IsRegistered]
  origin := by simp

section Parcels

variable {others : List CodeRange}

theorem Apart.symm {r r' : CodeRange} (h : Apart r r') : Apart r' r := Disjoint.symm h

instance : Std.Symm Apart := ⟨fun _ _ => Apart.symm⟩

theorem Parcelled.makeRange (h : s.Parcelled)
    (hnew : ∀ m ∈ s.ranges, Disjoint m.extent memory.extent) :
    (s.perform (.makeRange memory)).Parcelled where
  placed := by
    intro b hb
    obtain ⟨hknown, hplaced⟩ := h.placed b hb
    exact ⟨List.mem_cons_of_mem _ hknown, hplaced⟩
  blocks := h.blocks
  ranges := by
    intro m hm m' hm' hne
    rcases List.mem_cons.1 hm with rfl | hbefore
    · rcases List.mem_cons.1 hm' with rfl | hbefore'
      · exact absurd rfl hne
      · exact (hnew m' hbefore').symm
    · rcases List.mem_cons.1 hm' with rfl | hbefore'
      · exact hnew m hbefore
      · exact h.ranges m hbefore m' hbefore' hne
  known := by
    intro range hrange
    rcases List.mem_cons.1 hrange with rfl | hrange
    · exact ⟨List.mem_cons_self, Nat.dvd_zero _⟩
    · obtain ⟨hknown, hdvd⟩ := h.known range hrange
      exact ⟨List.mem_cons_of_mem _ hknown, hdvd⟩
  free := by
    intro range hrange b hb hsame
    rcases List.mem_cons.1 hrange with rfl | hrange
    · -- Nothing came from memory that is apart from all before.
      obtain ⟨hknown, hplaced⟩ := h.placed b hb
      obtain rfl : b.range = memory := hsame
      exact absurd (hnew _ hknown) hplaced.not_disjoint
    · exact h.free range hrange b hb hsame
  apart := by
    refine List.pairwise_cons.2 ⟨?_, h.apart⟩
    intro range hrange
    exact (hnew _ (h.known range hrange).1).symm

/-- Ranges can change hands, or go. -/
theorem Parcelled.of_inUse (h : s.Parcelled) (s' : CodeHistory) (hblocks : s'.blocks = s.blocks)
    (hranges : s'.ranges = s.ranges) (hsub : ∀ r ∈ s'.inUse, r ∈ s.inUse)
    (hapart : s'.inUse.Pairwise Apart) : s'.Parcelled where
  placed := by
    rw [hblocks, hranges]
    exact h.placed
  blocks := by
    rw [hblocks]
    exact h.blocks
  ranges := by
    rw [hranges]
    exact h.ranges
  known := by
    rw [hranges]
    exact fun r hr => h.known r (hsub r hr)
  free := by
    rw [hblocks]
    exact fun r hr => h.free r (hsub r hr)
  apart := hapart

theorem Parcelled.offers (h : s.Parcelled) (hrange : range ∈ s.inUse)
    (room : range.hasRoom size) :
    (range.block size).IsPlaced ∧
      ∀ b ∈ s.blocks, Disjoint (range.block size).extent b.extent := by
  obtain ⟨hknown, hdvd⟩ := h.known range hrange
  have hplaced := CodeRange.isPlaced_block hdvd room
  refine ⟨hplaced, ?_⟩
  intro b hb
  by_cases hsame : b.range = range.reservation
  · have hfree := h.free range hrange b hb hsame
    apply Disjoint.symm
    apply Set.Ico_disjoint_Ico.2
    exact (min_le_left _ _).trans (hfree.trans (le_max_right _ _))
  · obtain ⟨hother, hin⟩ := h.placed b hb
    exact (h.ranges b.range hother range.reservation hknown hsame).symm.mono
      hplaced.inside hin.inside

/-- A block is handed out from a range, whoever gets it. -/
theorem Parcelled.handOut (h : s.Parcelled) (s' : CodeHistory) (hrange : range ∈ s.inUse)
    (room : range.hasRoom size) (hothers : ∀ r ∈ others, r ∈ s.inUse)
    (hapart : (range :: others).Pairwise Apart)
    (hblocks : s'.blocks = range.block size :: s.blocks) (hranges : s'.ranges = s.ranges)
    (hinUse : s'.inUse.Perm (range.after size :: others)) : s'.Parcelled := by
  obtain ⟨hplaced, hfresh⟩ := h.offers hrange room
  obtain ⟨hfirst, hrest⟩ := List.pairwise_cons.1 hapart
  have hmoved : (range.after size :: others).Pairwise Apart :=
    List.pairwise_cons.2 ⟨hfirst, hrest⟩
  refine ⟨?_, ?_, hranges ▸ h.ranges, ?_, ?_, (hinUse.pairwise_iff Apart.symm).2 hmoved⟩
  · rw [hblocks, hranges]
    exact List.forall_mem_cons.2 ⟨⟨(h.known range hrange).1, hplaced⟩, h.placed⟩
  · rw [hblocks]
    exact List.pairwise_cons.2 ⟨hfresh, h.blocks⟩
  · rw [hranges]
    intro r hr
    rcases List.mem_cons.1 (hinUse.subset hr) with rfl | hr
    · exact ⟨(h.known range hrange).1, dvd_alignUp _⟩
    · exact h.known r (hothers r hr)
  · rw [hblocks]
    intro r hr b hb hsame
    rcases List.mem_cons.1 (hinUse.subset hr) with rfl | hr
    · rcases List.mem_cons.1 hb with rfl | hb
      · exact range.stop_block_le size
      · have hfree := h.free range hrange b hb hsame
        have hmore := range.next_le_after size
        exact hfree.trans (Nat.add_le_add_left hmore _)
    · rcases List.mem_cons.1 hb with rfl | hb
      · -- The block came from one of the other ranges, which are apart from its own.
        have hself := hfirst r hr
        unfold Apart at hself
        rw [← hsame] at hself
        exact absurd hself hplaced.not_disjoint
      · exact h.free r (hothers r hr) b hb hsame

theorem mem_inUse_of_others {r : CodeRange} (h : r ∈ s.others range) : r ∈ s.inUse :=
  List.mem_append_left _ (List.mem_filter.1 h).1

/-- A range keeps apart from the other ranges aside, and from the one that the registry has. -/
theorem Parcelled.others_apart (h : s.Parcelled) (hrange : range ∈ s.aside) :
    (range :: (s.others range ++ s.registry.range.toList)).Pairwise Apart := by
  obtain ⟨haside, hcurrent, hcross⟩ := List.pairwise_append.1 h.apart
  refine List.pairwise_cons.2 ⟨?_, List.pairwise_append.2 ⟨haside.filter _, hcurrent, ?_⟩⟩
  · intro r hr
    rcases List.mem_append.1 hr with hr | hr
    · obtain ⟨hr, hne⟩ := List.mem_filter.1 hr
      apply haside.forall hrange hr
      rintro rfl
      simp at hne
    · exact hcross range hrange r hr
  · intro r hr
    exact hcross r (List.mem_filter.1 hr).1

end Parcels

section Codes

variable {c : Code} {e : CodeEvent}

/-- Code keeps its origin whatever happens, other than a new range. -/
theorem Stems.next (h : s.Stems c) (s' : CodeHistory) (hevents : s'.events = e :: s.events)
    (hranges : s'.ranges = s.ranges) : s'.Stems c := by
  have hmore : s.events ⊆ s'.events := by
    rw [hevents]
    exact List.subset_cons_self _ _
  rcases h with ⟨memory, hblock⟩ | ⟨hby, houtside⟩
  · exact .inl ⟨memory, List.filterMap_subset _ hmore hblock⟩
  · refine .inr ⟨hmore hby, ?_⟩
    rw [hranges]
    exact houtside

theorem Sound.makeRange (h : s.Sound) (allowed : s.Allows (.makeRange memory)) :
    (s.perform (.makeRange memory)).Sound where
  toParcelled := h.toParcelled.makeRange allowed.1
  ordered := h.ordered
  registered := h.registered
  origin := by
    intro c hc
    rcases h.origin c hc with hblock | ⟨hby, houtside⟩
    · exact .inl hblock
    · exact .inr ⟨hby, List.forall_mem_cons.2 ⟨allowed.2 c hc hby, houtside⟩⟩

theorem Sound.setRange (h : s.Sound) (hrange : range ∈ s.aside) :
    (s.perform (.setRange range)).Sound where
  toParcelled := by
    have hall := (List.pairwise_cons.1 (h.others_apart hrange))
    have hothers := (List.pairwise_append.1 hall.2).1
    refine h.toParcelled.of_inUse _ rfl rfl ?_ ?_
    · intro r hr
      rcases List.mem_append.1 hr with hr | hr
      · exact mem_inUse_of_others hr
      · obtain rfl := List.mem_singleton.1 hr
        exact List.mem_append_left _ hrange
    · refine List.pairwise_append.2 ⟨hothers, List.pairwise_singleton _ _, ?_⟩
      intro r hr current hcurrent
      obtain rfl := List.mem_singleton.1 hcurrent
      exact (hall.1 r (List.mem_append_left _ hr)).symm
  ordered := h.ordered
  registered := h.registered
  origin := h.origin

theorem Sound.takeRange (h : s.Sound) : (s.perform .takeRange).Sound where
  toParcelled := by
    have hsame : (s.perform .takeRange).inUse = s.inUse := List.append_nil _
    exact h.toParcelled.of_inUse _ rfl rfl (fun _ hr => hsame ▸ hr) (hsame ▸ h.apart)
  ordered := h.ordered
  registered := h.registered
  origin := h.origin

theorem Sound.lend (h : s.Sound) (hrange : range ∈ s.aside) :
    (s.perform (.lend range size)).Sound := by
  have hinUse : range ∈ s.inUse := List.mem_append_left _ hrange
  by_cases room : range.hasRoom size
  · rw [perform_lend room]
    refine ⟨?_, h.ordered, h.registered, ?_⟩
    · refine h.toParcelled.handOut _ hinUse room ?_ (h.others_apart hrange) rfl rfl (.refl _)
      intro r hr
      rcases List.mem_append.1 hr with hr | hr
      · exact mem_inUse_of_others hr
      · exact List.mem_append_right _ hr
    · intro c hc
      exact (h.origin c hc).next _ rfl rfl
  · rw [perform_lend_full room]
    refine ⟨?_, h.ordered, h.registered, h.origin⟩
    refine h.toParcelled.of_inUse _ rfl rfl ?_ (h.others_apart hrange)
    intro r hr
    rcases List.mem_append.1 hr with hr | hr
    · rcases List.mem_cons.1 hr with rfl | hr
      · exact hinUse
      · exact mem_inUse_of_others hr
    · exact List.mem_append_right _ hr

/-- Code that is apart from all that starts elsewhere can come in. -/
theorem Sound.comeIn (h : s.Sound)
    (hapart : ∀ other ∈ s.registry.codes, other.start ≠ c.start → c.Apart other) :
    (CodeRegistry.insertByStart c s.registry.codes).Pairwise Code.Before ∧
      ∀ d, d ∈ CodeRegistry.insertByStart c s.registry.codes ↔
        d = c ∨ d.IsRegistered s.events ∧ d.start ≠ c.start := by
  refine ⟨CodeRegistry.pairwise_insertByStart h.ordered hapart, ?_⟩
  intro d
  rw [CodeRegistry.mem_insertByStart h.ordered, h.registered]

/-- What is in a free block is apart from all code. -/
theorem Sound.nextCode_apart (h : s.Sound) (hrange : range ∈ s.inUse)
    (room : range.hasRoom d.size) :
    ∀ other ∈ s.registry.codes, (s.nextCode range d).Apart other := by
  obtain ⟨hplaced, hfresh⟩ := h.offers hrange room
  intro other hother
  rw [Code.apart_iff]
  apply Disjoint.mono_left ((s.nextCode range d).place_subset_block range.reservation)
  rcases h.origin other hother with ⟨memory, hblock⟩ | ⟨-, houtside⟩
  · exact (hfresh _ hblock).mono_right (other.place_subset_block memory)
  · exact ((houtside _ (h.known range hrange).1).mono_right hplaced.inside).symm

theorem Sound.install (h : s.Sound) (hrange : s.registry.range = some range)
    (room : range.hasRoom d.size) : (s.perform (.install d)).Sound := by
  have hinUse : range ∈ s.inUse := by simp [inUse, hrange]
  obtain ⟨hordered, hregistered⟩ :=
    h.comeIn fun other hother _ => h.nextCode_apart hinUse room other hother
  rw [perform_install hrange room]
  refine ⟨?_, hordered, hregistered, ?_⟩
  · have hall : (s.aside ++ [range]).Pairwise Apart := by
      simpa [inUse, hrange] using h.apart
    have hfirst : (range :: s.aside).Pairwise Apart :=
      List.perm_append_comm.pairwise hall Apart.symm
    refine h.toParcelled.handOut _ hinUse room ?_ hfirst rfl rfl List.perm_append_comm
    exact fun r hr => List.mem_append_left _ hr
  · intro c hc
    rcases (CodeRegistry.mem_insertByStart h.ordered).1 hc with rfl | ⟨hc, -⟩
    · exact .inl ⟨range.reservation, List.mem_cons_self⟩
    · exact (h.origin c hc).next _ rfl rfl

theorem Sound.insertAt (h : s.Sound) (allowed : s.Allows (.insertAt d start)) :
    (s.perform (.insertAt d start)).Sound := by
  obtain ⟨houtside, hothers⟩ := allowed
  have hapart : ∀ other ∈ s.registry.codes, other.start ≠ start →
      (s.registry.insertAt d start).1.Apart other := by
    intro other hother hne
    obtain ⟨hstart, hnew⟩ := hothers other hother hne
    have hsame : (s.registry.insertAt d start).1.start = start := rfl
    rw [Code.contains_iff] at hstart hnew
    unfold Code.Apart Code.Before
    lia
  obtain ⟨hordered, hregistered⟩ := h.comeIn (c := (s.registry.insertAt d start).1) hapart
  refine ⟨h.toParcelled.of_inUse _ rfl rfl (fun _ hr => hr) h.apart, hordered, hregistered, ?_⟩
  intro c hc
  rcases (CodeRegistry.mem_insertByStart h.ordered).1 hc with rfl | ⟨hc, -⟩
  · exact .inr ⟨List.mem_cons_self, houtside⟩
  · exact (h.origin c hc).next _ rfl rfl

theorem Sound.remove (h : s.Sound) (start : Address) : (s.perform (.remove start)).Sound where
  toParcelled := h.toParcelled.of_inUse _ rfl rfl (fun _ hr => hr) h.apart
  ordered := h.ordered.filter _
  registered c := by
    have hbefore := h.registered c
    simp [perform, CodeRegistry.remove, Code.IsRegistered, hbefore]
  origin := by
    intro c hc
    have hbefore := List.mem_filter.1 hc
    exact (h.origin c hbefore.1).next _ rfl rfl

theorem Sound.clear (h : s.Sound) : (s.perform .clear).Sound where
  toParcelled := h.toParcelled.of_inUse _ rfl rfl (fun _ hr => hr) h.apart
  ordered := .nil
  registered _ := by simp [perform, CodeRegistry.clear, Code.IsRegistered]
  origin := by simp [perform, CodeRegistry.clear]

end Codes

theorem Sound.perform (h : s.Sound) {op : CodeOperation} (allowed : s.Allows op) :
    (s.perform op).Sound := by
  cases op with
  | makeRange memory => exact h.makeRange allowed
  | lend range size => exact h.lend allowed
  | setRange range => exact h.setRange allowed
  | takeRange => exact h.takeRange
  | install d =>
    by_cases hnone : (s.registry.install d).1 = none
    · rw [perform_install_none hnone]
      exact h
    · obtain ⟨range, hrange, room⟩ : ∃ range, s.registry.range = some range ∧
          range.hasRoom d.size := by
        simpa [CodeRegistry.install_eq_none_iff] using hnone
      exact h.install hrange room
  | insertAt d start => exact h.insertAt allowed
  | remove start => exact h.remove start
  | clear => exact h.clear

theorem Run.sound {s' : CodeHistory} (h : Run s s') (hs : s.Sound) : s'.Sound := by
  induction h with
  | refl => exact hs
  | tail _ step ih =>
    obtain ⟨op, allowed, rfl⟩ := step
    exact ih.perform allowed

theorem Run.andThen {s' : CodeHistory} (h : Run s s') (op : CodeOperation)
    (allowed : s'.Allows op) : Run s (s'.perform op) :=
  h.tail ⟨op, allowed, rfl⟩

/-- Blocks are aligned, lie in their range and never overlap; an installation fails just where the
rest of the range is too small, and then changes nothing; and a look-up finds just the registered
code that holds the address, as a scan of all code does. -/
theorem Run.lookup_exact (h : Run {} s) :
    (∀ b ∈ s.blocks, b.IsPlaced) ∧
    s.blocks.Pairwise (fun b b' => Disjoint b.extent b'.extent) ∧
    (∀ d, (s.registry.install d).1 = none ↔ ∀ range, s.registry.range = some range →
      range.size < range.next + alignUp (d.size + constantPoolSize)) ∧
    (∀ d, (s.registry.install d).1 = none →
      (s.registry.install d).2 = s.registry ∧ s.perform (.install d) = s) ∧
    (∀ pc c, s.registry.lookup pc = some c ↔ c.IsRegistered s.events ∧ c.contains pc) ∧
    ∀ pc, s.registry.lookup pc = s.registry.codes.find? (·.contains pc) := by
  have hs : s.Sound := h.sound sound_empty
  refine ⟨?_, hs.blocks, ?_, ?_, ?_, CodeRegistry.lookup_eq_find? hs.ordered⟩
  · intro b hb
    exact (hs.placed b hb).2
  · intro d
    have hfull : ∀ range, s.registry.range = some range →
        (¬ range.hasRoom d.size ↔
          range.size < range.next + alignUp (d.size + constantPoolSize)) := by
      intro range hrange
      obtain ⟨-, hdvd⟩ := hs.known range (by simp [inUse, hrange])
      rw [← alignUp_add hdvd]
      exact Nat.not_le
    rw [CodeRegistry.install_eq_none_iff]
    exact forall₂_congr hfull
  · intro d hnone
    have hfull := CodeRegistry.install_full (CodeRegistry.install_eq_none_iff.1 hnone)
    exact ⟨congrArg Prod.snd hfull, perform_install_none hnone⟩
  · intro pc c
    rw [← hs.registered c]
    exact CodeRegistry.lookup_eq_some_iff hs.ordered

section Example

/-- Room for a block of one unit and one of two. -/
def threeUnits : Reservation := ⟨4096, 96⟩

def stub : CodeDescription where
  kind := .stub
  size := 16

def small : CodeDescription where
  kind := .maglev
  size := 24

def large : CodeDescription where
  kind := .turbofan
  size := 40

/-- One range, and a stub elsewhere. -/
def equipped : CodeHistory :=
  ({} : CodeHistory)
    |>.perform (.makeRange threeUnits)
    |>.perform (.setRange { reservation := threeUnits })
    |>.perform (.insertAt stub 8192)

/-- Two blocks take up the range, and the code of the first one is removed. -/
def usedUp : CodeHistory :=
  equipped
    |>.perform (.install small)
    |>.perform (.install large)
    |>.perform (.remove 4096)

theorem run_equipped : Run {} equipped := by
  have hmade := Run.andThen (s := {}) .refl (.makeRange threeUnits) ⟨by simp, by simp⟩
  have hset := hmade.andThen (.setRange { reservation := threeUnits }) List.mem_cons_self
  refine hset.andThen (.insertAt stub 8192) ⟨?_, by simp [perform, CodeRegistry.setRange]⟩
  intro m hm
  obtain rfl : m = threeUnits := by simpa [perform] using hm
  exact Set.Ico_disjoint_Ico.2 (by decide)

theorem run_usedUp : Run {} usedUp :=
  ((run_equipped.andThen (.install small) trivial).andThen (.install large) trivial).andThen
    (.remove 4096) trivial

/-- The unit of the removed code is not handed out again, and a look-up of its addresses finds
nothing. -/
theorem lookup_exact_usedUp :
    Run {} usedUp ∧ usedUp.blocks.length = 2 ∧
    (usedUp.registry.install small).1 = none ∧ usedUp.perform (.install small) = usedUp ∧
    usedUp.registry.lookup 4100 = none ∧
    usedUp.registry.lookup 4160 = some ⟨2, 4128, large⟩ := by
  obtain ⟨-, -, hfull, hsame, hlookup, -⟩ := Run.lookup_exact run_usedUp
  have hnone : (usedUp.registry.install small).1 = none := by
    rw [hfull]
    rintro range ⟨rfl⟩
    decide
  refine ⟨run_usedUp, rfl, hnone, (hsame _ hnone).2, ?_, ?_⟩
  · rw [Option.eq_none_iff_forall_ne_some]
    intro c hc
    obtain ⟨hregistered, hin⟩ := (hlookup _ _).1 hc
    rcases hregistered with ⟨rfl | ⟨rfl | ⟨rfl | hnone, -⟩, -⟩, hkept⟩
    · exact absurd hin (by decide)
    · exact hkept rfl
    · exact absurd hin (by decide)
    · exact hnone.1
  · apply (hlookup _ _).2
    exact ⟨⟨.inl rfl, by decide⟩, by decide⟩

end Example

end CodeHistory

end ScriptEngine

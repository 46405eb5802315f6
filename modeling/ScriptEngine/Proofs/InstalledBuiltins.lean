import ScriptEngine.Code.Builtins
import ScriptEngine.Proofs.BlobFormat
import ScriptEngine.Proofs.CodeHistory

namespace ScriptEngine

namespace Builtin

theorem size_pos (b : Builtin) : 0 < b.size := by
  cases b <;> decide

theorem all_getElem?_index (b : Builtin) : all[b.index]? = some b := by
  cases b <;> rfl

theorem index_of_getElem? {i : Nat} {b : Builtin} (h : all[i]? = some b) : b.index = i := by
  obtain ⟨hi, rfl⟩ := List.getElem?_eq_some_iff.1 h
  have hnodup : all.Nodup := by decide
  exact hnodup.idxOf_getElem i hi

theorem index_injective {b b' : Builtin} (h : b.index = b'.index) : b = b' := by
  have hb := all_getElem?_index b
  rw [h, all_getElem?_index b'] at hb
  exact (Option.some.inj hb).symm

end Builtin

namespace CodeRegistry

variable {codes new : List Code} {c d : Code}

def insertAll (new codes : List Code) : List Code :=
  new.foldl (fun codes c => insertByStart c codes) codes

theorem mem_of_mem_insertByStart (h : d ∈ insertByStart c codes) : d = c ∨ d ∈ codes := by
  induction codes with
  | nil => simpa [insertByStart] using h
  | cons e rest ih =>
    unfold insertByStart at h
    split at h
    · simpa using h
    · split at h
      · rcases List.mem_cons.1 h with rfl | h
        · exact .inl rfl
        · exact .inr (List.mem_cons_of_mem _ h)
      · rcases List.mem_cons.1 h with rfl | h
        · exact .inr List.mem_cons_self
        · exact (ih h).imp_right (List.mem_cons_of_mem _)

theorem mem_of_mem_insertAll (h : d ∈ insertAll new codes) : d ∈ new ∨ d ∈ codes := by
  induction new generalizing codes with
  | nil => exact .inr h
  | cons c new ih =>
    rcases ih h with hnew | hcodes
    · exact .inl (List.mem_cons_of_mem _ hnew)
    · rcases mem_of_mem_insertByStart hcodes with rfl | hcodes
      · exact .inl List.mem_cons_self
      · exact .inr hcodes

theorem mem_insertByStart_apart (hcodes : codes.Pairwise Code.Before)
    (hc : ∀ d ∈ codes, c.Apart d) : d ∈ insertByStart c codes ↔ d = c ∨ d ∈ codes := by
  rw [mem_insertByStart hcodes]
  constructor
  · exact Or.imp_right And.left
  · rintro (rfl | hd)
    · exact .inl rfl
    · refine .inr ⟨hd, ?_⟩
      rcases hc d hd with ⟨hlt, -⟩ | ⟨hlt, -⟩
      · exact Nat.ne_of_gt hlt
      · exact Nat.ne_of_lt hlt

/-- Code that is apart from all other code can be added one after the other. -/
theorem insertAll_apart (hcodes : codes.Pairwise Code.Before) (hnew : new.Pairwise Code.Apart)
    (hcross : ∀ c ∈ new, ∀ d ∈ codes, c.Apart d) :
    (insertAll new codes).Pairwise Code.Before ∧
      ∀ d, d ∈ insertAll new codes ↔ d ∈ new ∨ d ∈ codes := by
  induction new generalizing codes with
  | nil => exact ⟨hcodes, by simp [insertAll]⟩
  | cons c new ih =>
    obtain ⟨hfirst, hrest⟩ := List.pairwise_cons.1 hnew
    have hc : ∀ d ∈ codes, c.Apart d := hcross c List.mem_cons_self
    have hafter := pairwise_insertByStart hcodes fun d hd _ => hc d hd
    have hlater : ∀ c' ∈ new, ∀ d ∈ insertByStart c codes, c'.Apart d := by
      intro c' hc' d hd
      rcases (mem_insertByStart_apart hcodes hc).1 hd with rfl | hd
      · exact (hfirst c' hc').symm
      · exact hcross c' (List.mem_cons_of_mem _ hc') d hd
    obtain ⟨hordered, hall⟩ := ih hafter hrest hlater
    refine ⟨hordered, ?_⟩
    intro d
    have hd := hall d
    unfold insertAll at hd ⊢
    rw [List.foldl_cons, hd, mem_insertByStart_apart hcodes hc, List.mem_cons]
    tauto

end CodeRegistry

namespace Blob

variable {blob : Blob} {builtins : List Builtin} {b : Builtin} {i j : Nat}

/-- Where a table puts a builtin. -/
def extent (blob : Blob) (b : Builtin) : Set Nat :=
  Set.Ico (blob.offsetOf b) (blob.offsetOf b + b.size)

/-- The table puts every builtin in the code section, and no two at one place. -/
structure TableFits (blob : Blob) : Prop where
  inside (b : Builtin) : blob.extent b ⊆ Set.Ico 0 blob.code.length
  apart (b b' : Builtin) : b ≠ b' → Disjoint (blob.extent b) (blob.extent b')

theorem extent_subset_iff {n : Nat} :
    blob.extent b ⊆ Set.Ico 0 n ↔ blob.offsetOf b + b.size ≤ n := by
  have hpos := b.size_pos
  unfold extent
  rw [Set.Ico_subset_Ico_iff (by omega)]
  exact ⟨And.right, fun h => ⟨Nat.zero_le _, h⟩⟩

/-- Bytes that builtins take up in a code section, each with what fills the gap behind it. -/
def layoutSize : List Builtin → Nat
  | [] => 0
  | b :: rest => alignUp b.size + layoutSize rest

theorem layoutSize_append (before after : List Builtin) :
    layoutSize (before ++ after) = layoutSize before + layoutSize after := by
  induction before with
  | nil => exact (Nat.zero_add _).symm
  | cons b before ih => rw [List.cons_append, layoutSize, layoutSize, ih, Nat.add_assoc]

theorem layoutSize_take_le (builtins : List Builtin) (i : Nat) :
    layoutSize (builtins.take i) ≤ layoutSize builtins := by
  conv => rhs; rw [← List.take_append_drop i builtins, layoutSize_append]
  exact Nat.le_add_right _ _

theorem layoutSize_take_mono (builtins : List Builtin) (h : i ≤ j) :
    layoutSize (builtins.take i) ≤ layoutSize (builtins.take j) := by
  have hle := layoutSize_take_le (builtins.take j) i
  rwa [List.take_take, Nat.min_eq_left h] at hle

theorem layoutSize_take_succ (h : builtins[i]? = some b) :
    layoutSize (builtins.take (i + 1)) = layoutSize (builtins.take i) + alignUp b.size := by
  rw [List.take_add_one, h, layoutSize_append]
  rfl

theorem length_flatMap_padded (builtins : List Builtin) :
    (builtins.flatMap padded).length = layoutSize builtins := by
  induction builtins with
  | nil => rfl
  | cons b rest ih =>
    have hpos := b.size_pos
    have hle := le_alignUp b.size
    rw [List.flatMap_cons, List.length_append, ih, layoutSize]
    simp only [padded, instructions, List.length_append, List.length_replicate, List.length_cons,
      List.length_nil]
    omega

theorem getElem?_layout (start : Nat) (h : builtins[i]? = some b) :
    (layout start builtins)[i]? = some (start + layoutSize (builtins.take i), b.size) := by
  induction builtins generalizing start i with
  | nil => cases h
  | cons c rest ih =>
    cases i with
    | zero =>
      obtain rfl : c = b := Option.some.inj h
      rfl
    | succ i =>
      have hrest : rest[i]? = some b := h
      rw [layout, List.getElem?_cons_succ, ih _ hrest, List.take_succ_cons, layoutSize,
        Nat.add_assoc]

theorem slice_append_left {bytes after : List UInt8} {start size : Nat}
    (h : start + size ≤ bytes.length) :
    slice (bytes ++ after) start size = slice bytes start size := by
  unfold slice
  rw [List.drop_append_of_le_length (by omega), List.take_append_of_le_length]
  rw [List.length_drop]
  omega

theorem layoutSize_all_lt : layoutSize Builtin.all < 4294967296 := by decide

/-- The table of a created blob puts builtins one after the other. -/
theorem offsetOf_of_table (h : table <+: blob.data.drop headerSize) (b : Builtin) :
    blob.offsetOf b = layoutSize (Builtin.all.take b.index) := by
  obtain ⟨rest, hrest⟩ := h
  have hb := b.index_lt_count
  have hentry := getElem?_layout 0 b.all_getElem?_index
  have hsmall := (layoutSize_take_le Builtin.all b.index).trans_lt layoutSize_all_lt
  rw [offsetOf_eq, ← hrest, slice_append_left, table, ← encode, (slice_encode hentry).1,
    leNat_le32, Nat.zero_add]
  · rwa [Nat.zero_add]
  · rw [length_table]
    unfold entrySize
    omega

/-- The table of a created blob fits code sections that are at least as long. -/
theorem fits_of_table (h : table <+: blob.data.drop headerSize)
    (hcode : create.code.length ≤ blob.code.length) : blob.TableFits := by
  have hstop : ∀ b, blob.offsetOf b + b.size ≤ layoutSize (Builtin.all.take (b.index + 1)) := by
    intro b
    rw [offsetOf_of_table h, layoutSize_take_succ b.all_getElem?_index]
    exact Nat.add_le_add_left (le_alignUp _) _
  have hlater : ∀ b b' : Builtin, b.index < b'.index →
      blob.offsetOf b + b.size ≤ blob.offsetOf b' := by
    intro b b' hlt
    rw [offsetOf_of_table h b']
    exact (hstop b).trans (layoutSize_take_mono _ hlt)
  constructor
  · intro b
    rw [extent_subset_iff]
    have hcreated : create.code.length = layoutSize Builtin.all := length_flatMap_padded _
    rw [hcreated] at hcode
    exact (hstop b).trans ((layoutSize_take_le _ _).trans hcode)
  · intro b b' hne
    apply Set.Ico_disjoint_Ico.2
    rcases Nat.lt_or_gt_of_ne (fun hsame => hne (Builtin.index_injective hsame)) with hlt | hgt
    · exact (min_le_left _ _).trans ((hlater b b' hlt).trans (le_max_right _ _))
    · exact (min_le_right _ _).trans ((hlater b' b hgt).trans (le_max_left _ _))

end Blob

namespace Builtins

open CodeRegistry

variable {blob : Blob} {base : Address} {registry : CodeRegistry}

/-- Installing numbers the code on from the first, as the table does. -/
theorem codes_foldl_insertAt (t : Builtins) {builtins : List Builtin}
    (hnumbers : ∀ i b, builtins[i]? = some b → registry.installed + i = t.firstNumber + b.index) :
    (builtins.foldl (fun r b => (r.insertAt b.description (t.code b).start).2) registry).codes =
      insertAll (builtins.map t.code) registry.codes := by
  induction builtins generalizing registry with
  | nil => rfl
  | cons b rest ih =>
    have hb : (⟨registry.installed, (t.code b).start, b.description⟩ : Code) = t.code b := by
      have hnumber := hnumbers 0 b rfl
      rw [Nat.add_zero] at hnumber
      rw [hnumber]
      rfl
    rw [List.foldl_cons, ih]
    · rw [insertAt, hb]
      rfl
    · intro i c hc
      have hnumber := hnumbers (i + 1) c hc
      rw [← hnumber, insertAt]
      dsimp only
      omega

theorem codes_install (blob : Blob) (base : Address) (registry : CodeRegistry) :
    (install blob base registry).2.codes =
      insertAll (install blob base registry).1.codes registry.codes := by
  apply codes_foldl_insertAt
  intro i b hb
  rw [Builtin.index_of_getElem? hb]

/-- Every builtin is registered, inside of the code section, and no two codes overlap. -/
structure SafelyIn (t : Builtins) (registry : CodeRegistry) : Prop where
  registered (b : Builtin) : t.code b ∈ registry.codes
  inside (b : Builtin) : (t.code b).extent ⊆ Set.Ico t.base (t.base + t.blob.code.length)
  apart : ∀ c ∈ registry.codes, ∀ d ∈ registry.codes, c ≠ d → Disjoint c.extent d.extent

theorem extent_code_subset_iff (t : Builtins) (b : Builtin) :
    (t.code b).extent ⊆ Set.Ico t.base (t.base + t.blob.code.length) ↔
      t.blob.extent b ⊆ Set.Ico 0 t.blob.code.length := by
  have hpos := b.size_pos
  have hstop : (t.code b).stop = t.base + t.blob.offsetOf b + b.size := rfl
  rw [Blob.extent_subset_iff, Code.extent, hstop, Set.Ico_subset_Ico_iff (by simp [code, hpos])]
  constructor
  · rintro ⟨-, h⟩
    lia
  · intro h
    exact ⟨Nat.le_add_right _ _, by lia⟩

theorem disjoint_code_iff (t : Builtins) (b b' : Builtin) :
    Disjoint (t.code b).extent (t.code b').extent ↔
      Disjoint (t.blob.extent b) (t.blob.extent b') := by
  have hstop : ∀ b, (t.code b).stop = t.base + (t.blob.offsetOf b + b.size) :=
    fun b => Nat.add_assoc _ _ _
  unfold Code.extent Blob.extent
  rw [Set.Ico_disjoint_Ico, Set.Ico_disjoint_Ico, hstop, hstop]
  unfold code
  lia

theorem place_code (t : Builtins) (b : Builtin) : (t.code b).place = (t.code b).extent := by
  have hpos := b.size_pos
  have hstop : (t.code b).stop = (t.code b).start + b.size := rfl
  unfold Code.place Code.extent
  rw [max_eq_left (by lia)]

/-- Installed builtins are in place just if the table fits. -/
theorem safelyIn_iff_fits (hordered : registry.codes.Pairwise Code.Before)
    (houtside : ∀ c ∈ registry.codes,
      Disjoint c.place (Set.Ico base (base + blob.code.length))) :
    (install blob base registry).1.SafelyIn (install blob base registry).2 ↔ blob.TableFits := by
  constructor
  · intro h
    constructor
    · intro b
      exact (extent_code_subset_iff _ b).1 (h.inside b)
    · intro b b' hne
      apply (disjoint_code_iff (install blob base registry).1 b b').1
      apply h.apart _ (h.registered b) _ (h.registered b')
      intro hsame
      have hbuiltin := congrArg (·.builtin) hsame
      exact hne (Option.some.inj hbuiltin)
  · intro h
    have hinside : ∀ b, ((install blob base registry).1.code b).extent ⊆
        Set.Ico base (base + blob.code.length) := by
      intro b
      exact (extent_code_subset_iff (install blob base registry).1 b).2 (h.inside b)
    have hnew : (install blob base registry).1.codes.Pairwise Code.Apart := by
      have hnodup : Builtin.all.Nodup := by decide
      apply List.pairwise_map.2
      apply hnodup.imp
      intro b b' hne
      rw [Code.apart_iff, place_code, place_code, disjoint_code_iff]
      exact h.apart b b' hne
    have hcross : ∀ c ∈ (install blob base registry).1.codes, ∀ d ∈ registry.codes,
        c.Apart d := by
      intro c hc d hd
      obtain ⟨b, -, rfl⟩ := List.mem_map.1 hc
      rw [Code.apart_iff, place_code]
      exact ((houtside d hd).mono_right (hinside b)).symm
    obtain ⟨hafter, hmem⟩ := insertAll_apart hordered hnew hcross
    rw [← codes_install] at hafter hmem
    refine ⟨?_, hinside, ?_⟩
    · intro b
      exact (hmem _).2 (.inl (List.mem_map_of_mem b.mem_all))
    · intro c hc d hd hne
      have hapart := Code.apart_iff.1 (apart_of_ne hafter hc hd hne)
      exact hapart.mono c.extent_subset_place d.extent_subset_place

end Builtins

namespace Blob

theorem create_fits : create.TableFits := by
  apply fits_of_table _ (Nat.le_refl _)
  have hdrop : create.data.drop headerSize = table := drop_dataFor Sha256.length_digest _ _
  exact ⟨[], by rw [List.append_nil, hdrop]⟩

/-- What is accepted can be installed safely just if its table fits, which the table of a created
blob does. Nothing but builtins is installed, each where the table says. -/
theorem accepted_safelyIn_iff {digest : List UInt8 → List UInt8} {code data : List UInt8}
    {blob : Blob} (haccepted : ofSections digest code data = .ok blob) {base : Address}
    {registry : CodeRegistry} (hordered : registry.codes.Pairwise Code.Before)
    (houtside : ∀ c ∈ registry.codes, Disjoint c.place (Set.Ico base (base + code.length))) :
    (∀ c ∈ (Builtins.install blob base registry).2.codes, c ∈ registry.codes ∨
      ∃ b, c.description = b.description ∧ c.start = base + blob.offsetOf b) ∧
    ((Builtins.install blob base registry).1.SafelyIn (Builtins.install blob base registry).2 ↔
      blob.TableFits) ∧
    (table <+: data.drop headerSize → create.code.length ≤ code.length → blob.TableFits) := by
  obtain rfl : blob = ⟨code, data⟩ := eq_of_ofSections haccepted
  refine ⟨?_, Builtins.safelyIn_iff_fits hordered houtside, ?_⟩
  · intro c hc
    rw [Builtins.codes_install] at hc
    rcases CodeRegistry.mem_of_mem_insertAll hc with hc | hc
    · obtain ⟨b, -, rfl⟩ := List.mem_map.1 hc
      exact .inr ⟨b, rfl, rfl⟩
    · exact .inl hc
  · intro htable hcode
    exact fits_of_table htable hcode

theorem accepted_safelyIn_created :
    (Builtins.install create 4096 {}).1.SafelyIn (Builtins.install create 4096 {}).2 :=
  (accepted_safelyIn_iff (ofSections_createFor Sha256.length_digest) .nil (by simp)).2.1.2
    create_fits

/-- No code, and a table of zeros. -/
def zeroed : Blob :=
  ⟨[], dataFor Sha256.digest [] (List.replicate (Builtin.count * entrySize) 0)⟩

theorem offsetOf_zeroed (b : Builtin) : zeroed.offsetOf b = 0 := by
  have hdrop : zeroed.data.drop headerSize = List.replicate (Builtin.count * entrySize) 0 :=
    drop_dataFor Sha256.length_digest _ _
  rw [offsetOf_eq, hdrop]
  cases b <;> rfl

/-- The digests are right where there is no code for builtins and all of them are at one place. -/
theorem accepted_without_code :
    ofSections Sha256.digest [] zeroed.data = .ok zeroed ∧
    ¬ zeroed.extent .entry ⊆ Set.Ico 0 zeroed.code.length ∧
    ¬ Disjoint (zeroed.extent .entry) (zeroed.extent .constructEntry) := by
  refine ⟨?_, ?_, ?_⟩
  · apply (ofSections_eq_ok_iff Sha256.length_digest).2
    exact ⟨rfl, _, Nat.le_of_eq List.length_replicate.symm, rfl⟩
  · rw [extent_subset_iff, offsetOf_zeroed]
    decide
  · unfold extent
    rw [Set.Ico_disjoint_Ico, offsetOf_zeroed, offsetOf_zeroed]
    decide

end Blob

end ScriptEngine

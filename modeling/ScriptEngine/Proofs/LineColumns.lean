import ScriptEngine.Script

namespace ScriptEngine

namespace Script

variable {s : Script} {p q i : Nat}

/-- A newline character starts at the byte offset. -/
def NewlineAt (s : Script) (offset : Nat) : Prop :=
  ∃ before after : String, s.source = before ++ "\n" ++ after ∧ before.utf8ByteSize = offset

theorem utf8ByteSize_ofList_cons (c : Char) (cs : List Char) :
    (String.ofList (c :: cs)).utf8ByteSize = c.utf8Size + (String.ofList cs).utf8ByteSize := by
  have hsplit : String.ofList (c :: cs) = String.singleton c ++ String.ofList cs := by
    rw [← String.toList_inj]
    simp
  rw [hsplit, String.utf8ByteSize_append, String.utf8ByteSize_singleton]

theorem mem_newlines {start : Nat} {cs : List Char} : i ∈ newlines start cs ↔
    ∃ before after, cs = before ++ '\n' :: after ∧
      start + (String.ofList before).utf8ByteSize = i := by
  induction cs generalizing start with
  | nil => simp [newlines]
  | cons c cs ih =>
    have hcons : i ∈ newlines start (c :: cs) ↔
        (c = '\n' ∧ i = start) ∨ i ∈ newlines (start + c.utf8Size) cs := by
      rw [newlines]
      by_cases hc : c = '\n' <;> simp [hc]
    rw [hcons, ih]
    constructor
    · rintro (⟨rfl, rfl⟩ | ⟨before, after, rfl, rfl⟩)
      · exact ⟨[], cs, rfl, by simp⟩
      · exact ⟨c :: before, after, rfl, by rw [utf8ByteSize_ofList_cons, Nat.add_assoc]⟩
    · rintro ⟨before, after, hsplit, rfl⟩
      cases before with
      | nil =>
        cases hsplit
        exact .inl ⟨rfl, by simp⟩
      | cons d before =>
        cases hsplit
        exact .inr ⟨before, after, rfl, by rw [utf8ByteSize_ofList_cons, Nat.add_assoc]⟩

theorem pairwise_newlines (start : Nat) (cs : List Char) :
    (newlines start cs).Pairwise (· < ·) := by
  induction cs generalizing start with
  | nil => exact .nil
  | cons c cs ih =>
    unfold newlines
    split
    · refine List.pairwise_cons.mpr ⟨?_, ih _⟩
      intro j hj
      obtain ⟨before, after, -, rfl⟩ := mem_newlines.mp hj
      have hsize := c.utf8Size_pos
      omega
    · exact ih _

theorem mem_newlines_source : i ∈ newlines 0 s.source.toList ↔ s.NewlineAt i := by
  rw [mem_newlines]
  constructor
  · rintro ⟨before, after, hsplit, rfl⟩
    refine ⟨String.ofList before, String.ofList after, ?_, by simp⟩
    rw [← String.toList_inj, hsplit]
    simp
  · rintro ⟨before, after, hsplit, rfl⟩
    refine ⟨before.toList, after.toList, ?_, by simp⟩
    rw [hsplit]
    simp

theorem NewlineAt.lt (h : s.NewlineAt i) : i < s.source.utf8ByteSize := by
  obtain ⟨before, after, hsplit, rfl⟩ := h
  have hnewline : "\n".utf8ByteSize = 1 := rfl
  rw [hsplit, String.utf8ByteSize_append, String.utf8ByteSize_append, hnewline]
  omega

/-- In a source of less than 4 GiB no offset is cut. -/
theorem lineEnds_eq (short : s.source.utf8ByteSize < 4294967296) :
    s.lineEnds = newlines 0 s.source.toList := by
  have hkept : ∀ i ∈ newlines 0 s.source.toList, i % 4294967296 = i := by
    intro i hi
    exact Nat.mod_eq_of_lt (Nat.lt_trans (mem_newlines_source.mp hi).lt short)
  exact (List.map_congr_left hkept).trans (List.map_id' _)

/-- The position of a line and a column. -/
def position (s : Script) (line column : Nat) : Nat :=
  match line - 1 with
  | 0 => column - 1
  | n + 1 => s.lineEnds[n]?.elim 0 (· + 1) + (column - 1)

section Short

variable (short : s.source.utf8ByteSize < 4294967296)
include short

theorem leads_lineEnds (p : Nat) : BinarySearch.Leads (· < p) s.lineEnds := by
  rw [lineEnds_eq short]
  refine (pairwise_newlines 0 s.source.toList).imp ?_
  intro a b hab hb
  exact decide_eq_true (Nat.lt_trans hab (of_decide_eq_true hb))

/-- A position lies behind the start of its line. -/
theorem last?_lt {last : Nat} (h : BinarySearch.last? (· < p) s.lineEnds = some last) :
    last < p := by
  rw [(leads_lineEnds short p).last?_eq] at h
  exact of_decide_eq_true (List.mem_filter.mp (List.mem_of_getLast? h)).2

theorem position_lineAndColumn (p : Nat) :
    s.position (s.lineAndColumn p).1 (s.lineAndColumn p).2 = p := by
  have hlast : ∀ last, BinarySearch.last? (· < p) s.lineEnds = some last → last < p :=
    fun _ => last?_lt short
  unfold position lineAndColumn
  unfold BinarySearch.last? at hlast ⊢
  cases hpoint : BinarySearch.partitionPoint (· < p) s.lineEnds with
  | zero => simp
  | succ n =>
    simp only [hpoint] at hlast ⊢
    cases hend : s.lineEnds[n]? with
    | none => simp [hend]
    | some last =>
      have hlt := hlast last hend
      simp only [Nat.add_sub_cancel, hend, Option.elim_some]
      omega

/-- No fewer newlines are before a later position. -/
theorem partitionPoint_mono (hle : p ≤ q) : BinarySearch.partitionPoint (· < p) s.lineEnds ≤
    BinarySearch.partitionPoint (· < q) s.lineEnds := by
  rw [(leads_lineEnds short p).partitionPoint_eq, (leads_lineEnds short q).partitionPoint_eq]
  rw [← List.countP_eq_length_filter, ← List.countP_eq_length_filter]
  apply List.countP_mono_left
  intro a _ ha
  exact decide_eq_true (Nat.lt_of_lt_of_le (of_decide_eq_true ha) hle)

theorem lineAndColumn_lt (hlt : p < q) :
    Prod.Lex (· < ·) (· < ·) (s.lineAndColumn p) (s.lineAndColumn q) := by
  have hlast : ∀ last, BinarySearch.last? (· < p) s.lineEnds = some last → last < p :=
    fun _ => last?_lt short
  rw [Prod.lex_def]
  rcases Nat.lt_or_eq_of_le (partitionPoint_mono short (Nat.le_of_lt hlt)) with hline | hline
  · exact .inl (Nat.succ_lt_succ hline)
  · -- Both are in one line, which starts before the first of them.
    refine .inr ⟨congrArg (· + 1) hline, ?_⟩
    have hstart :
        BinarySearch.last? (· < p) s.lineEnds = BinarySearch.last? (· < q) s.lineEnds := by
      unfold BinarySearch.last?
      rw [hline]
    unfold lineAndColumn
    rw [← hstart]
    cases hend : BinarySearch.last? (· < p) s.lineEnds with
    | none => simpa using hlt
    | some last =>
      have hbefore := hlast last hend
      simp only
      omega

/-- The newlines before a position, in order, give its line and column. -/
theorem exists_newlines (p : Nat) : ∃ ends : List Nat,
    ends.Pairwise (· < ·) ∧ (∀ i, i ∈ ends ↔ s.NewlineAt i ∧ i < p) ∧
      ends.getLast?.elim 0 (· + 1) ≤ p ∧
      s.lineAndColumn p = (ends.length + 1, p - ends.getLast?.elim 0 (· + 1) + 1) := by
  have hleads := leads_lineEnds short p
  have hends : ∀ i, i ∈ s.lineEnds.filter (· < p) ↔ s.NewlineAt i ∧ i < p := by
    intro i
    rw [List.mem_filter, lineEnds_eq short, mem_newlines_source, decide_eq_true_eq]
  refine ⟨s.lineEnds.filter (· < p), ?_, hends, ?_, ?_⟩
  · rw [lineEnds_eq short]
    exact (pairwise_newlines 0 _).filter _
  · rw [← hleads.last?_eq]
    cases hlast : BinarySearch.last? (· < p) s.lineEnds with
    | none => exact Nat.zero_le p
    | some last => exact last?_lt short hlast
  · rw [← hleads.last?_eq, ← hleads.partitionPoint_eq, lineAndColumn]
    cases BinarySearch.last? (· < p) s.lineEnds <;> rfl

theorem lineAndColumn_le (p : Nat) :
    (s.lineAndColumn p).1 ≤ p + 1 ∧ (s.lineAndColumn p).2 ≤ p + 1 := by
  obtain ⟨ends, hordered, hmem, -, heq⟩ := exists_newlines short p
  have hlength : ends.length ≤ p := by
    have hsubset : ends ⊆ List.range p := fun i hi => List.mem_range.mpr ((hmem i).mp hi).2
    have hnodup : ends.Nodup := hordered.imp Nat.ne_of_lt
    simpa using List.Nodup.length_le_of_subset hnodup hsubset
  rw [heq]
  omega

/-- A line number is one more than the number of newlines before the position, and a column is one
more than the distance from the last of them. The two tell the position, they grow with it, and
they are 32 bits wide if it is. -/
theorem lineAndColumn_identifies :
    (∀ p, ∃ ends : List Nat, ends.Pairwise (· < ·) ∧
      (∀ i, i ∈ ends ↔ s.NewlineAt i ∧ i < p) ∧ ends.getLast?.elim 0 (· + 1) ≤ p ∧
      s.lineAndColumn p = (ends.length + 1, p - ends.getLast?.elim 0 (· + 1) + 1)) ∧
    (∀ p, s.position (s.lineAndColumn p).1 (s.lineAndColumn p).2 = p) ∧
    (∀ p q, p < q → Prod.Lex (· < ·) (· < ·) (s.lineAndColumn p) (s.lineAndColumn q)) ∧
    (∀ p q, s.lineAndColumn p = s.lineAndColumn q → p = q) ∧
    ∀ p < 4294967295,
      (s.lineAndColumn p).1 < 4294967296 ∧ (s.lineAndColumn p).2 < 4294967296 := by
  refine ⟨exists_newlines short, position_lineAndColumn short, ?_, ?_, ?_⟩
  · intro p q hlt
    exact lineAndColumn_lt short hlt
  · intro p q heq
    rw [← position_lineAndColumn short p, heq, position_lineAndColumn short q]
  · intro p hp
    obtain ⟨hline, hcolumn⟩ := lineAndColumn_le short p
    omega

omit short in
/-- A newline belongs to the line that it ends; the first character takes two bytes. -/
theorem lineAndColumn_identifies_accented :
    let s : Script := ⟨"a.js", "é\nab\n"⟩
    s.source.utf8ByteSize < 4294967296 ∧ s.lineAndColumn 2 = (1, 3) ∧ s.lineAndColumn 3 = (2, 1) ∧
      s.position 2 1 = 3 ∧ Prod.Lex (· < ·) (· < ·) (s.lineAndColumn 2) (s.lineAndColumn 3) := by
  intro s
  have short : s.source.utf8ByteSize < 4294967296 := by decide
  obtain ⟨-, hposition, hlt, -⟩ := lineAndColumn_identifies short
  have hsecond : s.lineAndColumn 3 = (2, 1) := by decide
  have hback := hposition 3
  rw [hsecond] at hback
  exact ⟨short, by decide, hsecond, hback, hlt 2 3 (by decide)⟩

end Short

end Script

end ScriptEngine

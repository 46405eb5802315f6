import ScriptEngine.Blob.Format

namespace ScriptEngine

namespace Sha256

theorem length_bigEndian (count n : Nat) : (bigEndian count n).length = count := by
  induction count generalizing n with
  | zero => rfl
  | succ count ih => simp [bigEndian, ih]

theorem length_compress (state : List UInt32) (block : List UInt8) :
    (compress state block).length = min state.length 8 := by
  simp [compress, Registers.toList]

theorem length_foldl_compress (blocks : List (List UInt8)) {state : List UInt32}
    (h : state.length = 8) : (blocks.foldl compress state).length = 8 := by
  induction blocks generalizing state with
  | nil => exact h
  | cons block blocks ih =>
    apply ih
    rw [length_compress, h]
    rfl

theorem length_digest (message : List UInt8) : (digest message).length = Blob.digestSize := by
  have hwords : ∀ words : List UInt32,
      (words.flatMap fun w => bigEndian 4 w.toNat).length = 4 * words.length := by
    intro words
    induction words with
    | nil => rfl
    | cons w words ih =>
      rw [List.flatMap_cons, List.length_append, length_bigEndian, ih, List.length_cons]
      lia
  unfold digest
  rw [hwords, length_foldl_compress _ rfl]
  rfl

end Sha256

namespace Builtin

theorem mem_all (b : Builtin) : b ∈ all := by
  cases b <;> decide

theorem index_lt_count (b : Builtin) : b.index < count :=
  List.idxOf_lt_length_of_mem b.mem_all

end Builtin

namespace Blob

theorem length_littleEndian (count n : Nat) : (littleEndian count n).length = count := by
  induction count generalizing n with
  | zero => rfl
  | succ count ih => simp [littleEndian, ih]

theorem littleEndian_leNat (bytes : List UInt8) :
    littleEndian bytes.length (leNat bytes) = bytes := by
  induction bytes with
  | nil => rfl
  | cons b bytes ih =>
    have hlow : UInt8.ofNat (b.toNat + 256 * leNat bytes) = b := by
      apply UInt8.toNat.inj
      have hb := b.toNat_lt
      simp only [UInt8.toNat_ofNat']
      omega
    have hhigh : (b.toNat + 256 * leNat bytes) / 256 = leNat bytes := by
      have hb := b.toNat_lt
      omega
    simp only [List.length_cons, littleEndian, leNat, hlow, hhigh, ih]

theorem leNat_le32 {n : Nat} (h : n < 4294967296) : leNat (le32 n) = n := by
  simp only [le32, littleEndian, leNat, UInt8.toNat_ofNat']
  omega

/-- Four bytes spell a number just if they are the bytes of the number. -/
theorem leNat_eq_iff {bytes : List UInt8} {n : Nat} (hlength : bytes.length = 4)
    (hn : n < 4294967296) : leNat bytes = n ↔ bytes = le32 n := by
  constructor
  · rintro rfl
    unfold le32
    rw [← hlength, littleEndian_leNat]
  · rintro rfl
    exact leNat_le32 hn

theorem slice_append {before part after : List UInt8} {start size : Nat}
    (hstart : before.length = start) (hsize : part.length = size) :
    slice (before ++ (part ++ after)) start size = part := by
  unfold slice
  rw [List.drop_left' hstart, List.take_left' hsize]

theorem length_slice {bytes : List UInt8} {start size : Nat} (h : start + size ≤ bytes.length) :
    (slice bytes start size).length = size := by
  rw [slice, List.length_take, List.length_drop]
  omega

theorem slice_append_drop (bytes : List UInt8) (start size : Nat) :
    slice bytes start size ++ bytes.drop (start + size) = bytes.drop start := by
  rw [slice, ← List.drop_drop]
  exact List.take_append_drop _ _

theorem checkDigest_bind {digest : List UInt8 → List UInt8} {part : String}
    {expected bytes : List UInt8} {next : Unit → Except BlobError Unit} :
    (checkDigest digest part expected bytes >>= next) =
      if digest bytes = expected then next ()
      else .error
        (.checksumMismatch part (Text.hexBytes expected) (Text.hexBytes (digest bytes))) := by
  unfold checkDigest
  split
  · rfl
  · rfl

end Blob

/-- A data section that is long enough for a header, part by part. -/
structure DataSection where
  magic : List UInt8
  version : List UInt8
  count : List UInt8
  codeDigest : List UInt8
  tableDigest : List UInt8
  table : List UInt8
  length_magic : magic.length = 8
  length_version : version.length = 4
  length_count : count.length = 4
  length_codeDigest : codeDigest.length = Blob.digestSize
  length_tableDigest : tableDigest.length = Blob.digestSize

namespace DataSection

open Blob

variable (s : DataSection)

def bytes : List UInt8 :=
  s.magic ++ (s.version ++ (s.count ++ (s.codeDigest ++ (s.tableDigest ++ s.table))))

theorem length_bytes : s.bytes.length = headerSize + s.table.length := by
  simp only [bytes, List.length_append, s.length_magic, s.length_version, s.length_count,
    s.length_codeDigest, s.length_tableDigest, headerSize]
  omega

theorem exists_bytes_eq {data : List UInt8} (h : headerSize ≤ data.length) :
    ∃ s : DataSection, s.bytes = data := by
  unfold headerSize digestSize at h
  refine ⟨⟨slice data 0 8, slice data 8 4, slice data 12 4, slice data 16 digestSize,
    slice data 48 digestSize, data.drop headerSize, length_slice (by omega),
    length_slice (by omega), length_slice (by omega), length_slice ?_, length_slice ?_⟩, ?_⟩
  · unfold digestSize
    omega
  · unfold digestSize
    omega
  · have hparts := slice_append_drop data
    unfold bytes headerSize digestSize
    rw [hparts 48 32, hparts 16 32, hparts 12 4, hparts 8 4, hparts 0 8]
    rfl

theorem slice_magic : slice s.bytes 0 8 = s.magic :=
  List.take_left' s.length_magic

theorem slice_version : slice s.bytes 8 4 = s.version :=
  slice_append s.length_magic s.length_version

theorem slice_count : slice s.bytes 12 4 = s.count := by
  rw [bytes, ← List.append_assoc]
  apply slice_append _ s.length_count
  simp [s.length_magic, s.length_version]

theorem slice_codeDigest : slice s.bytes 16 digestSize = s.codeDigest := by
  rw [bytes, ← List.append_assoc, ← List.append_assoc]
  apply slice_append _ s.length_codeDigest
  simp [s.length_magic, s.length_version, s.length_count]

theorem slice_tableDigest : slice s.bytes (16 + digestSize) digestSize = s.tableDigest := by
  rw [bytes, ← List.append_assoc, ← List.append_assoc, ← List.append_assoc]
  apply slice_append _ s.length_tableDigest
  simp [s.length_magic, s.length_version, s.length_count, s.length_codeDigest]
  rfl

theorem drop_bytes : s.bytes.drop headerSize = s.table := by
  simp only [bytes, ← List.append_assoc]
  apply List.drop_left'
  simp [s.length_magic, s.length_version, s.length_count, s.length_codeDigest,
    s.length_tableDigest]
  rfl

variable {digest : List UInt8 → List UInt8} {code : List UInt8}

/-- What has to hold of the parts, in the order in which they are looked at, and what is reported
otherwise. -/
def checks (digest : List UInt8 → List UInt8) (code : List UInt8) : List (Bool × BlobError) :=
  [(s.magic = Blob.magic, .invalidMagic),
   (leNat s.version = Blob.version, .unsupportedVersion (leNat s.version)),
   (leNat s.count = Builtin.count, .builtinCountMismatch Builtin.count (leNat s.count)),
   (dataSize ≤ s.bytes.length, .truncated dataSize s.bytes.length),
   (digest code = s.codeDigest,
    .checksumMismatch "code" (Text.hexBytes s.codeDigest) (Text.hexBytes (digest code))),
   (digest s.table = s.tableDigest,
    .checksumMismatch "data" (Text.hexBytes s.tableDigest) (Text.hexBytes (digest s.table)))]

/-- What the first failing check reports. -/
def fault? (digest : List UInt8 → List UInt8) (code : List UInt8) : Option BlobError :=
  ((s.checks digest code).find? (!·.1)).map (·.2)

theorem verify_bytes :
    verify digest ⟨code, s.bytes⟩ = (s.fault? digest code).elim (.ok ()) .error := by
  have hheader : ¬ s.bytes.length < headerSize := by
    rw [s.length_bytes]
    omega
  have hfirst : ∀ (p : Prop) [Decidable p] (e : BlobError) (rest : List (Bool × BlobError)),
      ((((decide p, e) :: rest).find? (!·.1)).map (·.2)).elim (.ok ()) Except.error =
        if p then ((rest.find? (!·.1)).map (·.2)).elim (.ok ()) Except.error else .error e := by
    intro p _ e rest
    by_cases hp : p
    · simp [hp]
    · simp [hp]
  unfold verify fault? checks
  simp only [hfirst, s.slice_magic, s.slice_version, s.slice_count, s.slice_codeDigest,
    s.slice_tableDigest, s.drop_bytes, if_neg hheader, ite_not, ← Nat.not_lt, checkDigest_bind]
  rfl

/-- A section is built from a table just if its parts are. -/
theorem bytes_eq_dataFor_iff (hdigest : ∀ bytes, (digest bytes).length = digestSize)
    {table : List UInt8} :
    s.bytes = dataFor digest code table ↔
      s.magic = Blob.magic ∧ s.version = le32 Blob.version ∧ s.count = le32 Builtin.count ∧
        s.codeDigest = digest code ∧ s.tableDigest = digest table ∧ s.table = table := by
  constructor
  · intro h
    simp only [bytes, dataFor, List.append_assoc] at h
    obtain ⟨hmagic, h⟩ := List.append_inj h s.length_magic
    obtain ⟨hversion, h⟩ := List.append_inj h s.length_version
    obtain ⟨hcount, h⟩ := List.append_inj h s.length_count
    obtain ⟨hcode, h⟩ := List.append_inj h (s.length_codeDigest.trans (hdigest code).symm)
    obtain ⟨htable, h⟩ := List.append_inj h (s.length_tableDigest.trans (hdigest table).symm)
    exact ⟨hmagic, hversion, hcount, hcode, htable, h⟩
  · rintro ⟨hmagic, hversion, hcount, hcode, htable, h⟩
    simp only [bytes, dataFor, List.append_assoc, hmagic, hversion, hcount, hcode, htable, h]

theorem fault?_eq_none_iff (hdigest : ∀ bytes, (digest bytes).length = digestSize) :
    s.fault? digest code = none ↔
      Builtin.count * entrySize ≤ s.table.length ∧ s.bytes = dataFor digest code s.table := by
  have hsize : dataSize ≤ s.bytes.length ↔ Builtin.count * entrySize ≤ s.table.length := by
    rw [s.length_bytes]
    exact Nat.add_le_add_iff_left
  rw [s.bytes_eq_dataFor_iff hdigest, ← leNat_eq_iff s.length_version (by decide),
    ← leNat_eq_iff s.length_count (by decide), ← hsize]
  simp only [fault?, checks, Option.map_eq_none_iff, List.find?_eq_none, List.forall_mem_cons,
    Bool.not_eq_true, Bool.not_eq_false', decide_eq_true_eq]
  constructor
  · rintro ⟨hmagic, hversion, hcount, hlong, hcode, htable, -⟩
    exact ⟨hlong, hmagic, hversion, hcount, hcode.symm, htable.symm, trivial⟩
  · rintro ⟨hlong, hmagic, hversion, hcount, hcode, htable, -⟩
    refine ⟨hmagic, hversion, hcount, hlong, hcode.symm, htable.symm, ?_⟩
    simp

end DataSection

namespace Blob

variable {digest : List UInt8 → List UInt8} {blob : Blob} {bytes : List UInt8} {start size : Nat}

/-- A slice, unless it reaches out of the bytes. -/
def slice? (bytes : List UInt8) (start size : Nat) : Option (List UInt8) :=
  if start + size ≤ bytes.length then some (slice bytes start size) else none

theorem slice?_eq (h : start + size ≤ bytes.length) :
    slice? bytes start size = some (slice bytes start size) := if_pos h

/-- The checks with every read guarded. There is no result if a read reaches out of the section. -/
def verify? (digest : List UInt8 → List UInt8) (blob : Blob) :
    Option (Except BlobError Unit) := do
  if blob.data.length < headerSize then
    return .error (.truncated dataSize blob.data.length)
  if (← slice? blob.data 0 8) ≠ magic then
    return .error .invalidMagic
  let found := leNat (← slice? blob.data 8 4)
  if found ≠ version then
    return .error (.unsupportedVersion found)
  let count := leNat (← slice? blob.data 12 4)
  if count ≠ Builtin.count then
    return .error (.builtinCountMismatch Builtin.count count)
  if blob.data.length < dataSize then
    return .error (.truncated dataSize blob.data.length)
  let codeDigest ← slice? blob.data 16 digestSize
  match checkDigest digest "code" codeDigest blob.code with
  | .error e => return .error e
  | .ok () =>
    let tableDigest ← slice? blob.data (16 + digestSize) digestSize
    let table ← slice? blob.data headerSize (blob.data.length - headerSize)
    return checkDigest digest "data" tableDigest table

theorem verify?_eq : verify? digest blob = some (verify digest blob) := by
  unfold verify? verify
  by_cases hheader : blob.data.length < headerSize
  · simp [hheader]
  · have hlength : headerSize ≤ blob.data.length := Nat.le_of_not_lt hheader
    have hread : ∀ start size, start + size ≤ headerSize →
        slice? blob.data start size = some (slice blob.data start size) := by
      intro start size hin
      exact slice?_eq (Nat.le_trans hin hlength)
    -- The table is read up to the end, whatever its length.
    have hrest : slice? blob.data headerSize (blob.data.length - headerSize) =
        some (blob.data.drop headerSize) := by
      rw [slice?_eq (by omega), slice, List.take_of_length_le (by simp)]
    rw [hread 0 8 (by decide), hread 8 4 (by decide), hread 12 4 (by decide),
      hread 16 digestSize (by decide), hread (16 + digestSize) digestSize (by decide), hrest]
    simp only [hheader, if_false, Option.bind_eq_bind, Option.bind_some, apply_ite some]
    cases checkDigest digest "code" (slice blob.data 16 digestSize) blob.code with
    | error e => rfl
    | ok _ => rfl

/-- The entry of a builtin, unless it reaches out of the section. -/
def entry? (blob : Blob) (b : Builtin) : Option (Nat × Nat) := do
  let offset ← slice? blob.data (headerSize + b.index * entrySize) 4
  let size ← slice? blob.data (headerSize + b.index * entrySize + 4) 4
  return (leNat offset, leNat size)

theorem entry?_eq (h : dataSize ≤ blob.data.length) (b : Builtin) :
    entry? blob b = some (blob.offsetOf b, blob.sizeOf b) := by
  have hb := b.index_lt_count
  unfold dataSize at h
  unfold entry?
  rw [slice?_eq, slice?_eq]
  · rfl
  · unfold entrySize at *
    omega
  · unfold entrySize at *
    omega

/-- Entries are in what follows the header. -/
theorem offsetOf_eq (blob : Blob) (b : Builtin) :
    blob.offsetOf b = leNat (slice (blob.data.drop headerSize) (b.index * entrySize) 4) := by
  rw [offsetOf, slice, slice, List.drop_drop]

theorem sizeOf_eq (blob : Blob) (b : Builtin) :
    blob.sizeOf b = leNat (slice (blob.data.drop headerSize) (b.index * entrySize + 4) 4) := by
  rw [sizeOf, slice, slice, List.drop_drop, Nat.add_assoc]

theorem ofSections_eq {code data : List UInt8} :
    ofSections digest code data = (verify digest ⟨code, data⟩).map fun _ => ⟨code, data⟩ := by
  unfold ofSections
  dsimp only
  cases verify digest ⟨code, data⟩ with
  | error e => rfl
  | ok _ => rfl

/-- Whatever is accepted stays as it is. -/
theorem eq_of_ofSections {code data : List UInt8} (h : ofSections digest code data = .ok blob) :
    blob = ⟨code, data⟩ := by
  rw [ofSections_eq] at h
  cases hverify : verify digest ⟨code, data⟩ with
  | error e =>
    rw [hverify] at h
    cases h
  | ok _ =>
    rw [hverify] at h
    cases h
    rfl

theorem ofSections_bytes (s : DataSection) (code : List UInt8) :
    ofSections digest code s.bytes = (s.fault? digest code).elim (.ok ⟨code, s.bytes⟩) .error := by
  rw [ofSections_eq, s.verify_bytes]
  cases s.fault? digest code with
  | none => rfl
  | some e => rfl

theorem ofSections_short {code data : List UInt8} (h : data.length < headerSize) :
    ofSections digest code data = .error (.truncated dataSize data.length) := by
  rw [ofSections_eq]
  simp only [verify, h, if_true]
  rfl

theorem length_dataFor (hdigest : ∀ bytes, (digest bytes).length = digestSize)
    (code table : List UInt8) :
    (dataFor digest code table).length = headerSize + table.length := by
  simp only [dataFor, List.length_append, hdigest, le32, length_littleEndian]
  rfl

theorem drop_dataFor (hdigest : ∀ bytes, (digest bytes).length = digestSize)
    (code table : List UInt8) : (dataFor digest code table).drop headerSize = table := by
  apply List.drop_left'
  simp only [List.length_append, hdigest, le32, length_littleEndian]
  rfl

theorem ofSections_eq_ok_iff (hdigest : ∀ bytes, (digest bytes).length = digestSize)
    {code data : List UInt8} :
    ofSections digest code data = .ok blob ↔
      blob = ⟨code, data⟩ ∧ ∃ table, Builtin.count * entrySize ≤ table.length ∧
        data = dataFor digest code table := by
  constructor
  · intro hok
    have hheader : headerSize ≤ data.length := by
      apply Nat.le_of_not_lt
      intro hshort
      rw [ofSections_short hshort] at hok
      cases hok
    obtain ⟨s, rfl⟩ := DataSection.exists_bytes_eq hheader
    rw [ofSections_bytes] at hok
    cases hfault : s.fault? digest code with
    | some e =>
      rw [hfault] at hok
      cases hok
    | none =>
      rw [hfault] at hok
      cases hok
      exact ⟨rfl, s.table, (s.fault?_eq_none_iff hdigest).1 hfault⟩
  · rintro ⟨rfl, table, hsize, hdata⟩
    have hheader : headerSize ≤ data.length := by
      rw [hdata, length_dataFor hdigest]
      exact Nat.le_add_right _ _
    obtain ⟨s, rfl⟩ := DataSection.exists_bytes_eq hheader
    obtain rfl : s.table = table := ((s.bytes_eq_dataFor_iff hdigest).1 hdata).2.2.2.2.2
    rw [ofSections_bytes, (s.fault?_eq_none_iff hdigest).2 ⟨hsize, hdata⟩]
    rfl

/-- The bytes of table entries. -/
def encode (entries : List (Nat × Nat)) : List UInt8 :=
  entries.flatMap fun (offset, size) => le32 offset ++ le32 size

theorem length_encode (entries : List (Nat × Nat)) :
    (encode entries).length = entries.length * entrySize := by
  induction entries with
  | nil => rfl
  | cons e entries ih =>
    unfold encode at ih ⊢
    rw [List.flatMap_cons, List.length_append, ih, List.length_cons, Nat.succ_mul, Nat.add_comm]
    rfl

/-- Entries are found at multiples of their size. -/
theorem drop_encode (entries : List (Nat × Nat)) (i : Nat) :
    (encode entries).drop (i * entrySize) = encode (entries.drop i) := by
  induction entries generalizing i with
  | nil => simp [encode]
  | cons e entries ih =>
    cases i with
    | zero => simp
    | succ i =>
      have hcons : encode (e :: entries) = (le32 e.1 ++ le32 e.2) ++ encode entries := rfl
      have hentry : (le32 e.1 ++ le32 e.2).length = entrySize := rfl
      rw [hcons, Nat.succ_mul, Nat.add_comm, ← List.drop_drop, List.drop_left' hentry, ih,
        List.drop_succ_cons]

theorem slice_encode {entries : List (Nat × Nat)} {i : Nat} {e : Nat × Nat}
    (h : entries[i]? = some e) :
    slice (encode entries) (i * entrySize) 4 = le32 e.1 ∧
      slice (encode entries) (i * entrySize + 4) 4 = le32 e.2 := by
  obtain ⟨hi, rfl⟩ := List.getElem?_eq_some_iff.1 h
  have hdrop := drop_encode entries i
  rw [List.drop_eq_getElem_cons hi] at hdrop
  constructor
  · rw [slice, hdrop]
    rfl
  · rw [slice, ← List.drop_drop, hdrop]
    rfl

theorem length_layout (start : Nat) (builtins : List Builtin) :
    (layout start builtins).length = builtins.length := by
  induction builtins generalizing start with
  | nil => rfl
  | cons b rest ih => rw [layout, List.length_cons, ih, List.length_cons]

theorem length_table : table.length = Builtin.count * entrySize := by
  rw [table, ← encode, length_encode, length_layout]
  rfl

theorem ofSections_createFor (hdigest : ∀ bytes, (digest bytes).length = digestSize) :
    ofSections digest (createFor digest).code (createFor digest).data = .ok (createFor digest) :=
  (ofSections_eq_ok_iff hdigest).2 ⟨rfl, table, Nat.le_of_eq length_table.symm, rfl⟩

/-- Every read is inside the section. The sections that are accepted are those that are built from
a table with an entry for every builtin; both stay as they are, and entries come from the table.
Of anything else, the first check that fails is reported. -/
theorem ofSections_exact (hdigest : ∀ bytes, (digest bytes).length = digestSize)
    (code data : List UInt8) :
    verify? digest ⟨code, data⟩ = some (verify digest ⟨code, data⟩) ∧
    (∀ blob, ofSections digest code data = .ok blob ↔
      blob = ⟨code, data⟩ ∧ ∃ table, Builtin.count * entrySize ≤ table.length ∧
        data = dataFor digest code table) ∧
    (∀ table blob b, Builtin.count * entrySize ≤ table.length →
      blob = ⟨code, dataFor digest code table⟩ →
      entry? blob b = some (blob.offsetOf b, blob.sizeOf b) ∧
        blob.offsetOf b = leNat (slice table (b.index * entrySize) 4) ∧
        blob.sizeOf b = leNat (slice table (b.index * entrySize + 4) 4)) ∧
    (data.length < headerSize →
      ofSections digest code data = .error (.truncated dataSize data.length)) ∧
    (headerSize ≤ data.length → ∃ s : DataSection, s.bytes = data ∧
      ∀ e, ofSections digest code data = .error e ↔ s.fault? digest code = some e) ∧
    ofSections digest (createFor digest).code (createFor digest).data = .ok (createFor digest) := by
  refine ⟨verify?_eq, fun blob => ofSections_eq_ok_iff hdigest, ?_, ofSections_short, ?_,
    ofSections_createFor hdigest⟩
  · rintro table blob b hsize rfl
    refine ⟨entry?_eq ?_ b, ?_, ?_⟩
    · rw [length_dataFor hdigest]
      exact Nat.add_le_add_left hsize _
    · rw [offsetOf_eq, drop_dataFor hdigest]
    · rw [sizeOf_eq, drop_dataFor hdigest]
  · intro hheader
    obtain ⟨s, rfl⟩ := DataSection.exists_bytes_eq hheader
    refine ⟨s, rfl, ?_⟩
    intro e
    rw [ofSections_bytes]
    cases s.fault? digest code with
    | none => simp
    | some e' => simp

/-- With the digest of the library, the blob that is created is accepted, and an empty section is
not. -/
theorem ofSections_exact_sha256 :
    (∀ message, (Sha256.digest message).length = digestSize) ∧
    ofSections Sha256.digest create.code create.data = .ok create ∧
    ofSections Sha256.digest [] [] = .error (.truncated dataSize 0) := by
  obtain ⟨-, -, -, hshort, -, hcreate⟩ := ofSections_exact Sha256.length_digest [] []
  exact ⟨Sha256.length_digest, hcreate, hshort (by decide)⟩

end Blob

end ScriptEngine

import Nostalux.Fs.Types

/-!
# `kernel/fs.c`: the on-disk structures

The packed structures `fs_disk_record`, `fs_disk_table` and `fs_disk_header` and their images as
bytes.  `toBytes` is the memory image of a structure and `ofBytes` reads the structure at a memory
image; they are inverse to each other, so that a structure written to the disk and read back is the
same structure, and so that comparing or checksumming memory is comparing or checksumming
structures.

The header of a slot carries the generation that orders the slots.  `fsGenerationIsNewer` is the
serial-number comparison and `fsCommitHeader` is the header a commit writes.
-/

namespace Nostalux.Fs

open Buffer

/-- `FS_DISK_RECORD_BYTES`. -/
abbrev fsDiskRecordBytes : ℕ := 1 + fsMaxFilename + 4 + fsDiskDataBytes

/-- `FS_DISK_TABLE_BYTES`. -/
abbrev fsDiskTableBytes : ℕ := fsDiskRecordBytes * fsMaxFiles

/-- `FS_DISK_TABLE_SECTORS`. -/
abbrev fsDiskTableSectors : ℕ := (fsDiskTableBytes + 511) / 512

/-- `FS_SLOT_SECTORS`. -/
abbrev fsSlotSectors : ℕ := 1 + fsDiskTableSectors

/-- The bytes of one sector. -/
abbrev Sector := Buffer 512

/-! ### Records -/

/-- `struct fs_disk_record`. -/
structure FsDiskRecord where
  inUse : UInt8
  name : Buffer 32
  size : UInt32
  data : Buffer 1024
  deriving DecidableEq

namespace FsDiskRecord

/-- The record of zero bytes. -/
def zero : FsDiskRecord := ⟨0, Buffer.zero, 0, Buffer.zero⟩

instance : Inhabited FsDiskRecord := ⟨zero⟩

/-- The byte at an offset of the packed record. -/
def byte (r : FsDiskRecord) (k : ℕ) : UInt8 :=
  if k = 0 then r.inUse
  else if k < 33 then r.name.byte (k - 1)
  else if k < 37 then Buffer.byteOfWord r.size (k - 33)
  else r.data.byte (k - 37)

/-- The record whose packed bytes are given. -/
def ofBytes (f : ℕ → UInt8) : FsDiskRecord where
  inUse := f 0
  name := Buffer.ofFn fun j => f (1 + j)
  size := Buffer.wordAt f 33
  data := Buffer.ofFn fun j => f (37 + j)

theorem ofBytes_congr {f g : ℕ → UInt8} (h : ∀ k < fsDiskRecordBytes, f k = g k) :
    ofBytes f = ofBytes g := by
  have h' : ∀ k < 1061, f k = g k := h
  unfold ofBytes
  congr 1
  · exact h' 0 (by omega)
  · exact ofFn_congr fun i hi => h' _ (by omega)
  · unfold wordAt
    rw [h' 33 (by omega), h' 34 (by omega), h' 35 (by omega), h' 36 (by omega)]
  · exact ofFn_congr fun i hi => h' _ (by omega)

theorem ofBytes_byte (r : FsDiskRecord) : ofBytes r.byte = r := by
  cases r with
  | mk inUse name size data =>
    unfold ofBytes
    congr 1
    · refine ext fun i hi => ?_
      rw [byte_ofFn_of_lt _ hi, byte, if_neg (by omega), if_pos (by omega), Nat.add_sub_cancel_left]
    · refine wordAt_of_bytes fun k hk => ?_
      rw [byte, if_neg (by omega), if_neg (by omega), if_pos (by omega), Nat.add_sub_cancel_left]
    · refine ext fun i hi => ?_
      rw [byte_ofFn_of_lt _ hi, byte, if_neg (by omega), if_neg (by omega),
        if_neg (by omega), Nat.add_sub_cancel_left]

end FsDiskRecord

/-! ### The record table -/

/-- `struct fs_disk_table`. -/
structure FsDiskTable where
  records : List FsDiskRecord
  padding : Buffer 352
  length_records : records.length = fsMaxFiles
  deriving DecidableEq

/-- The memory image of a table. -/
abbrev TableBytes := Buffer 34304

namespace FsDiskTable

theorem ext {a b : FsDiskTable} (hr : a.records = b.records) (hp : a.padding = b.padding) :
    a = b := by
  cases a
  cases b
  cases hr
  cases hp
  rfl

/-- The table of zero bytes. -/
def zero : FsDiskTable := ⟨List.replicate fsMaxFiles FsDiskRecord.zero, Buffer.zero, by simp⟩

/-- The record at an index. -/
def record (t : FsDiskTable) (i : ℕ) : FsDiskRecord := t.records.getD i FsDiskRecord.zero

/-- Change the record at an index. -/
def modify (t : FsDiskTable) (i : ℕ) (f : FsDiskRecord → FsDiskRecord) : FsDiskTable :=
  { t with records := t.records.modify i f, length_records := by simpa using t.length_records }

/-- The memory image of a table. -/
def toBytes (t : FsDiskTable) : TableBytes := Buffer.ofFn fun b =>
  if b < fsDiskTableBytes then (t.record (b / fsDiskRecordBytes)).byte (b % fsDiskRecordBytes)
  else t.padding.byte (b - fsDiskTableBytes)

/-- The table at a memory image. -/
def ofBytes (b : TableBytes) : FsDiskTable where
  records := (List.range fsMaxFiles).map fun i =>
    FsDiskRecord.ofBytes fun k => b.byte (fsDiskRecordBytes * i + k)
  padding := Buffer.ofFn fun j => b.byte (fsDiskTableBytes + j)
  length_records := by simp

theorem byte_toBytes_record (t : FsDiskTable) {i k : ℕ} (hi : i < fsMaxFiles)
    (hk : k < fsDiskRecordBytes) :
    t.toBytes.byte (fsDiskRecordBytes * i + k) = (t.record i).byte k := by
  have hi' : i < 32 := hi
  have hk' : k < 1061 := hk
  have hdiv : (1061 * i + k) / 1061 = i := by omega
  have hmod : (1061 * i + k) % 1061 = k := by omega
  rw [toBytes, byte_ofFn_of_lt _ (by show 1061 * i + k < 34304; omega),
    if_pos (by show 1061 * i + k < 33952; omega)]
  show (t.record ((1061 * i + k) / 1061)).byte ((1061 * i + k) % 1061) = _
  rw [hdiv, hmod]

/-- A table read back from its memory image is the table. -/
theorem ofBytes_toBytes (t : FsDiskTable) : ofBytes t.toBytes = t := by
  apply ext
  · refine List.ext_getElem (by simp [ofBytes, t.length_records]) fun i h1 h2 => ?_
    have hi : i < fsMaxFiles := t.length_records ▸ h2
    have hrec : t.record i = t.records[i] := by simp [record, h2]
    simp only [ofBytes, List.getElem_map, List.getElem_range]
    rw [← hrec, ← FsDiskRecord.ofBytes_byte (t.record i)]
    exact FsDiskRecord.ofBytes_congr fun k hk => byte_toBytes_record t hi hk
  · refine Buffer.ext fun j hj => ?_
    show (ofFn fun j => t.toBytes.byte (33952 + j) : Buffer 352).byte j = _
    rw [byte_ofFn_of_lt _ hj, toBytes, byte_ofFn_of_lt _ (by show 33952 + j < 34304; omega),
      if_neg (by show ¬ 33952 + j < 33952; omega)]
    exact congrArg _ (Nat.add_sub_cancel_left ..)

end FsDiskTable

/-! ### Checksums -/

/-- One step of the FNV-1a hash. -/
def fnvStep (value : UInt32) (b : UInt8) : UInt32 := (value ^^^ b.toUInt32) * 16777619

/-- `fs_checksum` of a memory image. -/
def fsChecksum {n : ℕ} (b : Buffer n) : UInt32 :=
  (List.range n).foldl (fun value i => fnvStep value (b.byte i)) 2166136261

/-! ### Headers -/

/-- `FS_MAGIC_VAL`. -/
abbrev fsMagicVal : UInt32 := 0xBA5EBA11

/-- `struct fs_disk_header`. -/
structure FsDiskHeader where
  magic : UInt32
  version : UInt32
  tableBytes : UInt32
  checksum : UInt32
  generation : UInt32
  headerChecksum : UInt32
  reserved : Buffer 488
  deriving DecidableEq

namespace FsDiskHeader

/-- The header of zero bytes. -/
def zero : FsDiskHeader := ⟨0, 0, 0, 0, 0, 0, Buffer.zero⟩

instance : Inhabited FsDiskHeader := ⟨zero⟩

/-- The byte at an offset of the packed header. -/
def byte (h : FsDiskHeader) (k : ℕ) : UInt8 :=
  if k < 4 then Buffer.byteOfWord h.magic k
  else if k < 8 then Buffer.byteOfWord h.version (k - 4)
  else if k < 12 then Buffer.byteOfWord h.tableBytes (k - 8)
  else if k < 16 then Buffer.byteOfWord h.checksum (k - 12)
  else if k < 20 then Buffer.byteOfWord h.generation (k - 16)
  else if k < 24 then Buffer.byteOfWord h.headerChecksum (k - 20)
  else h.reserved.byte (k - 24)

/-- The memory image of a header. -/
def toBytes (h : FsDiskHeader) : Sector := Buffer.ofFn h.byte

/-- The header at a memory image. -/
def ofBytes (b : Sector) : FsDiskHeader where
  magic := Buffer.wordAt b.byte 0
  version := Buffer.wordAt b.byte 4
  tableBytes := Buffer.wordAt b.byte 8
  checksum := Buffer.wordAt b.byte 12
  generation := Buffer.wordAt b.byte 16
  headerChecksum := Buffer.wordAt b.byte 20
  reserved := Buffer.ofFn fun j => b.byte (24 + j)

/-- A header read back from its memory image is the header. -/
theorem ofBytes_toBytes (h : FsDiskHeader) : ofBytes h.toBytes = h := by
  have hb : ∀ k < 512, h.toBytes.byte k = h.byte k := fun k hk => byte_ofFn_of_lt _ hk
  cases h with
  | mk magic version tableBytes checksum generation headerChecksum reserved =>
    unfold ofBytes
    congr 1
    · refine wordAt_of_bytes fun k hk => ?_
      rw [hb _ (by omega), byte, if_pos (by omega), Nat.zero_add]
    · refine wordAt_of_bytes fun k hk => ?_
      rw [hb _ (by omega), byte, if_neg (by omega), if_pos (by omega), Nat.add_sub_cancel_left]
    · refine wordAt_of_bytes fun k hk => ?_
      rw [hb _ (by omega), byte, if_neg (by omega), if_neg (by omega), if_pos (by omega),
        Nat.add_sub_cancel_left]
    · refine wordAt_of_bytes fun k hk => ?_
      rw [hb _ (by omega), byte, if_neg (by omega), if_neg (by omega), if_neg (by omega),
        if_pos (by omega), Nat.add_sub_cancel_left]
    · refine wordAt_of_bytes fun k hk => ?_
      rw [hb _ (by omega), byte, if_neg (by omega), if_neg (by omega), if_neg (by omega),
        if_neg (by omega), if_pos (by omega), Nat.add_sub_cancel_left]
    · refine wordAt_of_bytes fun k hk => ?_
      rw [hb _ (by omega), byte, if_neg (by omega), if_neg (by omega), if_neg (by omega),
        if_neg (by omega), if_neg (by omega), if_pos (by omega), Nat.add_sub_cancel_left]
    · refine ext fun j hj => ?_
      rw [byte_ofFn_of_lt _ hj, hb _ (by omega), byte, if_neg (by omega), if_neg (by omega),
        if_neg (by omega), if_neg (by omega), if_neg (by omega), if_neg (by omega),
        Nat.add_sub_cancel_left]

/-- The memory image of a header read from memory is that memory. -/
theorem toBytes_ofBytes (b : Sector) : (ofBytes b).toBytes = b := by
  refine ext fun k hk => ?_
  rw [toBytes, byte_ofFn_of_lt _ hk, byte, ofBytes]
  split_ifs with h1 h2 h3 h4 h5 h6
  · rw [byteOfWord_wordAt _ _ (by omega), Nat.zero_add]
  · rw [byteOfWord_wordAt _ _ (by omega), show 4 + (k - 4) = k by omega]
  · rw [byteOfWord_wordAt _ _ (by omega), show 8 + (k - 8) = k by omega]
  · rw [byteOfWord_wordAt _ _ (by omega), show 12 + (k - 12) = k by omega]
  · rw [byteOfWord_wordAt _ _ (by omega), show 16 + (k - 16) = k by omega]
  · rw [byteOfWord_wordAt _ _ (by omega), show 20 + (k - 20) = k by omega]
  · rw [byte_ofFn_of_lt _ (by omega), show 24 + (k - 24) = k by omega]

end FsDiskHeader

/-- `fs_header_checksum`: the checksum field counts as zero. -/
def fsHeaderChecksum (header : FsDiskHeader) : UInt32 :=
  (List.range 512).foldl
    (fun value i => fnvStep value (if 20 ≤ i ∧ i < 24 then 0 else header.toBytes.byte i)) 2166136261

/-- `fs_header_is_valid`. -/
def fsHeaderIsValid (header : FsDiskHeader) : Bool :=
  if header.magic ≠ fsMagicVal ||
      (header.version ≠ 1 && header.version ≠ 2 && header.version ≠ 3 && header.version ≠ 4 &&
        header.version ≠ 5) ||
      header.tableBytes ≠ UInt32.ofNat fsDiskTableBytes then
    false
  else header.version < 4 || header.headerChecksum = fsHeaderChecksum header

/-- `fs_bytes_are_blank`. -/
def fsBytesAreBlank {n : ℕ} (b : Buffer n) : Bool := decide b.Blank

theorem fsBytesAreBlank_iff {n : ℕ} (b : Buffer n) : fsBytesAreBlank b = true ↔ b.Blank :=
  decide_eq_true_iff

/-- `fs_header_is_blank`. -/
def fsHeaderIsBlank (header : FsDiskHeader) : Bool := fsBytesAreBlank header.toBytes

/-- A header of zero bytes is not valid. -/
theorem fsHeaderIsValid_of_blank {b : Sector} (h : b.Blank) :
    fsHeaderIsValid (FsDiskHeader.ofBytes b) = false := by
  have hmagic : (FsDiskHeader.ofBytes b).magic = 0 := by
    refine wordAt_of_bytes fun k hk => ?_
    rw [h _ (by omega)]
    apply UInt8.toNat_inj.1
    rw [toNat_byteOfWord]
    simp
  have hne : decide ((0 : UInt32) ≠ fsMagicVal) = true := by decide
  rw [fsHeaderIsValid, hmagic, hne, Bool.true_or, Bool.true_or, if_pos rfl]

/-- `fs_header_generation`. -/
def fsHeaderGeneration (header : FsDiskHeader) : UInt32 :=
  if header.version = 1 then 0 else header.generation

/-- `fs_generation_is_newer`. -/
def fsGenerationIsNewer (lhs rhs : UInt32) : Bool :=
  let distance := lhs - rhs
  distance ≠ 0 && distance < 0x80000000

/-- The header written by the commit of a table. -/
def fsCommitHeader (table : FsDiskTable) (generation : UInt32) : FsDiskHeader :=
  let header : FsDiskHeader :=
    { magic := fsMagicVal
      version := 5
      tableBytes := UInt32.ofNat fsDiskTableBytes
      checksum := fsChecksum table.toBytes
      generation := generation
      headerChecksum := 0
      reserved := Buffer.zero }
  { header with headerChecksum := fsHeaderChecksum header }

/-- The checksum of a header does not depend on its checksum field. -/
theorem fsHeaderChecksum_set (header : FsDiskHeader) (c : UInt32) :
    fsHeaderChecksum { header with headerChecksum := c } = fsHeaderChecksum header := by
  refine List.foldl_ext _ _ _ fun value i hi => ?_
  have hi' : i < 512 := List.mem_range.1 hi
  by_cases h : 20 ≤ i ∧ i < 24
  · rw [if_pos h, if_pos h]
  · rw [if_neg h, if_neg h, FsDiskHeader.toBytes, FsDiskHeader.toBytes,
      byte_ofFn_of_lt _ hi', byte_ofFn_of_lt _ hi']
    congr 1
    unfold FsDiskHeader.byte
    split_ifs with h1 h2 h3 h4 h5 h6
    all_goals first | rfl | omega

/-- The header of a commit is valid. -/
theorem fsHeaderIsValid_fsCommitHeader (table : FsDiskTable) (generation : UInt32) :
    fsHeaderIsValid (fsCommitHeader table generation) = true := by
  have h : (fsCommitHeader table generation).headerChecksum =
      fsHeaderChecksum (fsCommitHeader table generation) := by
    unfold fsCommitHeader
    rw [fsHeaderChecksum_set]
  unfold fsHeaderIsValid
  rw [if_neg (by simp [fsCommitHeader])]
  simp [h]

/-- The successor of a generation is newer, also at the wrap from `0xFFFFFFFF` to `0`. -/
theorem fsGenerationIsNewer_succ (g : UInt32) : fsGenerationIsNewer (g + 1) g = true := by
  have h : g + 1 - g = 1 := by grind
  simp [fsGenerationIsNewer, h]

/-- A generation is not newer than its successor. -/
theorem fsGenerationIsNewer_pred (g : UInt32) : fsGenerationIsNewer g (g + 1) = false := by
  have h : g - (g + 1) = 0xFFFFFFFF := by grind
  simp [fsGenerationIsNewer, h]

end Nostalux.Fs

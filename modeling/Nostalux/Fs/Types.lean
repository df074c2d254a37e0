import Nostalux.Kstring
import Nostalux.Library.SlotMap

/-!
# `kernel/fs.c`: file names, the file table and its represented map

The mounted view of the filesystem is the static array `FILES` of `fsMaxFiles` cells.  A cell in use
holds a name, a size and a data array; `FsFile.entry` reads off the name and the first `size` bytes,
and `FileTable.fileMap` is the finite map from names to contents that the table stands for.

`FileTable.WellFormed` is the representation invariant: valid and distinct names, sizes below
`fsMaxFileSize` with a terminating NUL after the contents, and few enough extent records to fit the
on-disk table.
-/

namespace Nostalux.Fs

open List

/-- `FS_MAX_FILES`. -/
abbrev fsMaxFiles : ℕ := 32

/-- `FS_MAX_FILENAME`. -/
abbrev fsMaxFilename : ℕ := 32

/-- `FS_MAX_FILE_SIZE`. -/
abbrev fsMaxFileSize : ℕ := 8192

/-- `FS_DISK_DATA_BYTES`. -/
abbrev fsDiskDataBytes : ℕ := 1024

/-! ### File names -/

/-- The characters refused in a file name: blank, tab, slash and backslash. -/
def fsNameCharIsForbidden (c : UInt8) : Bool := c = 32 || c = 9 || c = 47 || c = 92

/-- The scanning loop of `fs_is_valid_name`, with the number of bytes already accepted. -/
def fsIsValidNameLoop : List UInt8 → ℕ → Bool
  | [], _ => true
  | c :: rest, length =>
    if fsNameCharIsForbidden c then false
    else if fsMaxFilename ≤ length + 1 then false
    else fsIsValidNameLoop rest (length + 1)

/-- `fs_is_valid_name` of a non-null pointer. -/
def fsIsValidText (name : CString) : Bool :=
  if name.bytes = [] then false else fsIsValidNameLoop name.bytes 0

/-- `fs_is_valid_name`; `none` is the null pointer. -/
def fsIsValidName : Option CString → Bool
  | none => false
  | some name => fsIsValidText name

/-- The names reserved for the operating system. -/
def fsSystemManagedNames : List CString :=
  ["hello.elf", "fault-probe.elf", "hang-probe.elf", "rflags-probe.elf", "stack-probe.elf",
    "calculator.elf", "notepad.elf", "image-viewer.elf", "ai-assistant.elf", "browser.elf",
    "system-apps.db"].map CString.ofString

/-- `fs_name_is_system_managed`. -/
def fsNameIsSystemManaged : Option CString → Bool
  | none => false
  | some name => fsSystemManagedNames.any fun managed => kstrcmp name managed = 0

/-- The name of the virtual log file. -/
def systemLogName : CString := CString.ofString "system.log"

/-- `fs_name_is_system_log`. -/
def fsNameIsSystemLog : Option CString → Bool
  | none => false
  | some name => kstrcmp name systemLogName = 0

/-- The scratch file of the self-test. -/
def selfTestScratchName : CString := CString.ofString "__fs_self_test__"

/-- The name the self-test renames its scratch file to. -/
def selfTestRenamedName : CString := CString.ofString "__fs_self_renamed__"

/-- `fs_name_is_self_test_file`. -/
def fsNameIsSelfTestFile : Option CString → Bool
  | none => false
  | some name => kstrcmp name selfTestScratchName = 0 || kstrcmp name selfTestRenamedName = 0

theorem fsIsValidNameLoop_iff (l : List UInt8) (n : ℕ) (hn : n < fsMaxFilename) :
    fsIsValidNameLoop l n = true ↔
      (∀ c ∈ l, fsNameCharIsForbidden c = false) ∧ n + l.length < fsMaxFilename := by
  induction l generalizing n with
  | nil => simp [fsIsValidNameLoop, hn]
  | cons c l ih =>
    rw [fsIsValidNameLoop]
    cases hc : fsNameCharIsForbidden c with
    | true => simp [hc]
    | false =>
      by_cases hlen : fsMaxFilename ≤ n + 1
      · simp [hlen]
        omega
      · rw [if_neg (by simp), if_neg hlen, ih (n + 1) (by omega)]
        simp only [mem_cons, forall_eq_or_imp, hc, true_and, length_cons]
        rw [show n + 1 + l.length = n + (l.length + 1) by omega]

/-- A valid name is non-empty, shorter than the name array and free of forbidden characters. -/
theorem fsIsValidText_iff (name : CString) :
    fsIsValidText name = true ↔ name.bytes ≠ [] ∧
      (∀ c ∈ name.bytes, fsNameCharIsForbidden c = false) ∧ name.length < fsMaxFilename := by
  unfold fsIsValidText
  by_cases h : name.bytes = []
  · simp [h]
  · rw [if_neg h, fsIsValidNameLoop_iff _ 0 (by decide), Nat.zero_add]
    simp [h, CString.length]

variable {name : CString}

theorem length_lt_of_fsIsValidText (h : fsIsValidText name = true) : name.length < fsMaxFilename :=
  ((fsIsValidText_iff name).1 h).2.2

theorem fsNameIsSystemLog_some (name : CString) :
    fsNameIsSystemLog (some name) = true ↔ name = systemLogName := by
  simp [fsNameIsSystemLog, kstrcmp_eq_zero_iff]

/-! ### Files -/

/-- `struct fs_file`. -/
structure FsFile where
  inUse : Bool
  name : CString
  size : ℕ
  data : Buffer 8192
  deriving DecidableEq

namespace FsFile

/-- A zero-initialized cell. -/
def zero : FsFile := ⟨false, CString.empty, 0, Buffer.zero⟩

instance : Inhabited FsFile := ⟨zero⟩

/-- The contents of a file: its first `size` bytes. -/
def contents (f : FsFile) : List UInt8 := f.data.bytes 0 f.size

@[simp] theorem length_contents (f : FsFile) : f.contents.length = f.size :=
  Buffer.length_bytes _ _ _

/-- What a cell of the file table holds. -/
def entry (f : FsFile) : Option (CString × List UInt8) :=
  if f.inUse then some (f.name, f.contents) else none

variable {f : FsFile}

theorem entry_of_inUse (h : f.inUse = true) : entry f = some (f.name, f.contents) := by
  simp [entry, h]

theorem entry_of_not_inUse (h : f.inUse = false) : entry f = none := by
  simp [entry, h]

theorem entry_eq_some_iff {n : CString} {c : List UInt8} :
    entry f = some (n, c) ↔ f.inUse = true ∧ f.name = n ∧ f.contents = c := by
  cases h : f.inUse <;> simp [entry, h]

theorem key_entry_eq_some_iff {n : CString} :
    SlotMap.key entry f = some n ↔ f.inUse = true ∧ f.name = n := by
  cases h : f.inUse <;> simp [SlotMap.key, entry, h]

theorem entry_eq_none_iff : entry f = none ↔ f.inUse = false := by
  cases h : f.inUse <;> simp [entry, h]

end FsFile

/-- `fs_clear`. -/
def fsClear (f : FsFile) : FsFile :=
  { f with inUse := false, name := CString.empty, size := 0, data := f.data.put 0 0 }

/-- `fs_copy_name`: the name array keeps room for the terminator. -/
def fsCopyName (f : FsFile) : Option CString → FsFile
  | none => f
  | some name => { f with name := name.take (fsMaxFilename - 1) }

theorem fsCopyName_some {f : FsFile} (h : name.length < fsMaxFilename) :
    fsCopyName f (some name) = { f with name } := by
  rw [fsCopyName, CString.take_of_length_le (Nat.le_sub_one_of_lt h)]

/-- `fs_disk_records_needed`. -/
def fsDiskRecordsNeeded (size : ℕ) : ℕ :=
  if size = 0 then 1 else (size + fsDiskDataBytes - 1) / fsDiskDataBytes

theorem fsDiskRecordsNeeded_pos (size : ℕ) : 0 < fsDiskRecordsNeeded size := by
  unfold fsDiskRecordsNeeded fsDiskDataBytes
  split_ifs <;> omega

theorem fsDiskRecordsNeeded_le_one {size : ℕ} (h : size ≤ fsDiskDataBytes) :
    fsDiskRecordsNeeded size ≤ 1 := by
  unfold fsDiskRecordsNeeded fsDiskDataBytes at *
  split_ifs <;> omega

/-- The number of extent records a cell takes on disk. -/
def FsFile.records (f : FsFile) : ℕ := if f.inUse then fsDiskRecordsNeeded f.size else 0

/-! ### The file table -/

/-- The array `FILES`. -/
structure FileTable where
  cells : List FsFile
  length_cells : cells.length = fsMaxFiles
  deriving DecidableEq

namespace FileTable

theorem ext {a b : FileTable} (h : a.cells = b.cells) : a = b := by
  cases a
  cases b
  cases h
  rfl

/-- The table before initialization. -/
def zero : FileTable := ⟨List.replicate fsMaxFiles FsFile.zero, by simp⟩

instance : Inhabited FileTable := ⟨zero⟩

/-- Overwrite one cell. -/
def set (t : FileTable) (i : ℕ) (f : FsFile) : FileTable :=
  ⟨t.cells.set i f, by simpa using t.length_cells⟩

/-- The cell at an index. -/
def get (t : FileTable) (i : ℕ) : FsFile := t.cells.getD i FsFile.zero

@[simp] theorem cells_set (t : FileTable) (i : ℕ) (f : FsFile) :
    (t.set i f).cells = t.cells.set i f := rfl

variable {t : FileTable} {i : ℕ}

theorem get_of_getElem? {f : FsFile} (h : t.cells[i]? = some f) : t.get i = f := by
  simp [get, h]

theorem set_get {f : FsFile} (h : t.cells[i]? = some f) : t.set i f = t := by
  apply ext
  obtain ⟨hi, hf⟩ := List.getElem?_eq_some_iff.1 h
  rw [cells_set, ← hf, set_getElem_self]

@[simp] theorem set_set (t : FileTable) (i : ℕ) (f g : FsFile) : (t.set i f).set i g = t.set i g :=
  ext (by simp)

/-- The cells read as optional entries. -/
def entries (t : FileTable) : List (Option (CString × List UInt8)) := t.cells.map FsFile.entry

/-- The files of the table in order: name and contents. -/
def listing (t : FileTable) : List (CString × List UInt8) := t.cells.filterMap FsFile.entry

/-- The map from names to contents that the table represents. -/
def fileMap (t : FileTable) : CString → Option (List UInt8) := SlotMap.lookup FsFile.entry t.cells

/-- The map depends on the listed files only. -/
theorem fileMap_congr {t t' : FileTable} (h : t.listing = t'.listing) : t.fileMap = t'.fileMap :=
  funext fun name => SlotMap.lookup_congr h name

theorem listing_eq_filterMap (t : FileTable) : t.listing = t.entries.filterMap id := by
  rw [entries, filterMap_map]
  rfl

/-- The number of extent records the whole table takes on disk. -/
def recordsNeeded (t : FileTable) : ℕ := (t.cells.map FsFile.records).sum

/-- What the invariant says of one cell. -/
structure CellOk (f : FsFile) : Prop where
  name_valid : fsIsValidText f.name = true
  size_lt : f.size < fsMaxFileSize
  nul : f.data.byte f.size = 0

/-- The representation invariant of `FILES`. -/
structure WellFormed (t : FileTable) : Prop where
  cellOk : ∀ f ∈ t.cells, f.inUse = true → CellOk f
  distinct : SlotMap.Distinct FsFile.entry t.cells
  budget : t.recordsNeeded ≤ fsMaxFiles

theorem recordsNeeded_set {a : FsFile} (h : t.cells[i]? = some a)
    (b : FsFile) : (t.set i b).recordsNeeded + a.records = t.recordsNeeded + b.records := by
  obtain ⟨hi, rfl⟩ := List.getElem?_eq_some_iff.1 h
  have hsum : t.cells = t.cells.take i ++ t.cells[i] :: t.cells.drop (i + 1) := by simp
  rw [recordsNeeded, recordsNeeded, cells_set, set_eq_take_append_cons_drop, if_pos hi]
  conv_rhs => rw [hsum]
  simp only [map_append, map_cons, sum_append, sum_cons]
  omega

/-- Overwriting a cell keeps the invariant when the new cell is sound, its name is not held by
another cell and the records still fit. -/
theorem WellFormed.set {b : FsFile} (h : t.WellFormed)
    (hok : b.inUse = true → CellOk b) (hfresh : SlotMap.FreshAt FsFile.entry t.cells i b)
    (hbudget : (t.set i b).recordsNeeded ≤ fsMaxFiles) : (t.set i b).WellFormed := by
  refine ⟨fun f hf => ?_, h.distinct.set hfresh, hbudget⟩
  rcases mem_or_eq_of_mem_set hf with hf | rfl
  · exact h.cellOk f hf
  · exact hok

theorem wellFormed_of_unused (h : ∀ f ∈ t.cells, f.inUse = false) : t.WellFormed := by
  refine ⟨fun f hf hu => ?_, fun i j a b k hi _ ha _ => ?_, ?_⟩
  · rw [h f hf] at hu
    cases hu
  · rw [FsFile.key_entry_eq_some_iff, h a (mem_of_getElem? hi)] at ha
    cases ha.1
  · have hzero : ∀ f ∈ t.cells, f.records = 0 := fun f hf => by simp [FsFile.records, h f hf]
    rw [recordsNeeded, map_congr_left hzero]
    simp

theorem wellFormed_zero : zero.WellFormed :=
  wellFormed_of_unused fun f hf => by rw [eq_of_mem_replicate hf]; rfl

end FileTable

/-- `fs_find_mutable`: the index of the cell in use with the given name. -/
def fsFindMutable (t : FileTable) : Option CString → Option ℕ
  | none => none
  | some name => t.cells.findIdx? fun f => f.inUse && kstrcmp f.name name = 0

/-- `fs_allocate_slot`: the index of the first free cell. -/
def fsAllocateSlot (t : FileTable) : Option ℕ := t.cells.findIdx? fun f => !f.inUse

variable {t : FileTable}

theorem fsFindMutable_eq_some {i : ℕ} (h : fsFindMutable t (some name) = some i) :
    ∃ f, t.cells[i]? = some f ∧ f.inUse = true ∧ f.name = name := by
  obtain ⟨hi, hp, -⟩ := findIdx?_eq_some_iff_getElem.1 h
  rw [Bool.and_eq_true, decide_eq_true_iff, kstrcmp_eq_zero_iff] at hp
  exact ⟨t.cells[i], getElem?_eq_getElem hi, hp⟩

theorem fsFindMutable_eq_some_iff (hd : SlotMap.Distinct FsFile.entry t.cells) {i : ℕ} :
    fsFindMutable t (some name) = some i ↔
      ∃ f, t.cells[i]? = some f ∧ f.inUse = true ∧ f.name = name := by
  refine ⟨fsFindMutable_eq_some, ?_⟩
  rintro ⟨f, hf, huse, rfl⟩
  obtain ⟨hi, rfl⟩ := List.getElem?_eq_some_iff.1 hf
  rw [fsFindMutable, findIdx?_eq_some_iff_getElem]
  refine ⟨hi, by simp [huse, kstrcmp_eq_zero_iff], fun j hj hp => ?_⟩
  rw [Bool.and_eq_true, decide_eq_true_iff, kstrcmp_eq_zero_iff] at hp
  -- an earlier cell with the name would share its key
  have hlt : j < t.cells.length := hj.trans hi
  have heq := hd j i _ _ _ (getElem?_eq_getElem hlt) hf (FsFile.key_entry_eq_some_iff.2 hp)
    (FsFile.key_entry_eq_some_iff.2 ⟨huse, rfl⟩)
  exact hj.ne heq

theorem fsFindMutable_eq_none_iff : fsFindMutable t (some name) = none ↔ t.fileMap name = none := by
  rw [fsFindMutable, findIdx?_eq_none_iff, FileTable.fileMap, SlotMap.lookup_eq_none_iff]
  refine forall₂_congr fun f _ => ?_
  rw [ne_eq, FsFile.key_entry_eq_some_iff, ← kstrcmp_eq_zero_iff]
  simp

theorem fsAllocateSlot_eq_some {i : ℕ} (h : fsAllocateSlot t = some i) :
    ∃ f, t.cells[i]? = some f ∧ f.inUse = false := by
  obtain ⟨hi, hp, -⟩ := findIdx?_eq_some_iff_getElem.1 h
  exact ⟨t.cells[i], getElem?_eq_getElem hi, by simpa using hp⟩

end Nostalux.Fs

import Nostalux.Fs.Extents

/-!
# Writing a file table and mounting it again

`fs_serialize` writes the extents of the files in use one after the other; `extentOf` is the extent
of one file.

* `fsSerialize_eq`: what serializing writes, and that it succeeds exactly when the records fit;
* `extents_fileRecords_append`: the reader finds the extent of a file again, whatever follows it;
* `valid_extentOf` and `entry_extentOf`: it accepts that extent and reads the same name and bytes;
* `fsDeserializeCurrent_fsSerialize`: the round trip of a whole table.
-/

namespace Nostalux.Fs

open List FsFile UInt32 SlotMap CString

/-! ### The records written for one file -/

/-- The continuation records of a file from the byte `copied` on. -/
def continuationRecords (f : FsFile) (copied : ℕ) : List FsDiskRecord :=
  if copied < f.size then
    let chunk := min (f.size - copied) fsDiskDataBytes
    fsWriteContinuation f copied chunk FsDiskRecord.zero :: continuationRecords f (copied + chunk)
  else []
termination_by f.size - copied
decreasing_by
  have : 0 < min (f.size - copied) fsDiskDataBytes := by simp; omega
  omega

/-- The head record of a file. -/
def headRecord (f : FsFile) : FsDiskRecord := fsWriteHead f FsDiskRecord.zero

/-- The records of a file. -/
def fileRecords (f : FsFile) : List FsDiskRecord :=
  headRecord f :: continuationRecords f (min f.size fsDiskDataBytes)

theorem length_continuationRecords (f : FsFile) (copied : ℕ) :
    (continuationRecords f copied).length = (f.size - copied + 1023) / 1024 := by
  fun_induction continuationRecords f copied with
  | case1 copied h chunk ih =>
    have hc : chunk = min (f.size - copied) 1024 := rfl
    rw [length_cons, ih]
    omega
  | case2 copied h =>
    rw [length_nil]
    omega

theorem length_fileRecords (f : FsFile) : (fileRecords f).length = fsDiskRecordsNeeded f.size := by
  rw [fileRecords, length_cons, length_continuationRecords]
  unfold fsDiskRecordsNeeded fsDiskDataBytes
  split_ifs <;> omega

/-! ### What `fs_serialize` writes -/

/-- The table with the given first records and zero bytes after them. -/
def FsDiskTable.ofRecords (l : List FsDiskRecord) : FsDiskTable :=
  ⟨(l ++ List.replicate fsMaxFiles FsDiskRecord.zero).take fsMaxFiles, Buffer.zero, by simp⟩

theorem FsDiskTable.records_ofRecords {l : List FsDiskRecord} (h : l.length ≤ fsMaxFiles) :
    (ofRecords l).records = l ++ replicate (fsMaxFiles - l.length) FsDiskRecord.zero := by
  show (l ++ replicate fsMaxFiles FsDiskRecord.zero).take fsMaxFiles = _
  rw [take_append, take_of_length_le h, take_replicate]
  congr 2
  omega

theorem modify_length_append {α : Type*} (l : List α) (a : α) (rest : List α) (g : α → α) :
    (l ++ a :: rest).modify l.length g = l ++ g a :: rest := by
  induction l with
  | nil => rfl
  | cons b l ih => simp [ih]

theorem FsDiskTable.modify_ofRecords {l : List FsDiskRecord} (h : l.length < fsMaxFiles)
    (g : FsDiskRecord → FsDiskRecord) :
    (ofRecords l).modify l.length g = ofRecords (l ++ [g FsDiskRecord.zero]) := by
  refine FsDiskTable.ext ?_ rfl
  show (ofRecords l).records.modify l.length g = _
  rw [records_ofRecords h.le, records_ofRecords (by simpa using h)]
  obtain ⟨m, hm⟩ : ∃ m, fsMaxFiles - l.length = m + 1 := ⟨fsMaxFiles - l.length - 1, by omega⟩
  rw [hm, replicate_succ, modify_length_append, append_assoc, singleton_append,
    length_append, length_singleton, show fsMaxFiles - (l.length + 1) = m by omega]

theorem fsSerializeContinuations_eq (f : FsFile) (copied : ℕ) (l : List FsDiskRecord)
    (h : l.length + (continuationRecords f copied).length ≤ fsMaxFiles) :
    fsSerializeContinuations f copied l.length (FsDiskTable.ofRecords l) =
      (l.length + (continuationRecords f copied).length,
        FsDiskTable.ofRecords (l ++ continuationRecords f copied)) := by
  induction hn : f.size - copied using Nat.strong_induction_on generalizing copied l with
  | _ n ih =>
    rw [fsSerializeContinuations, continuationRecords] at *
    by_cases hlt : copied < f.size
    · simp only [if_pos hlt, length_cons] at h ⊢
      have hchunk : 0 < min (f.size - copied) fsDiskDataBytes := by simp; omega
      have hrec := ih (f.size - (copied + min (f.size - copied) fsDiskDataBytes)) (by omega)
        (copied + min (f.size - copied) fsDiskDataBytes)
        (l ++ [fsWriteContinuation f copied (min (f.size - copied) fsDiskDataBytes)
          FsDiskRecord.zero]) (by simp; omega) rfl
      rw [FsDiskTable.modify_ofRecords (by omega)]
      rw [length_append, length_singleton] at hrec
      rw [hrec]
      simp only [append_assoc, singleton_append, Prod.mk.injEq, and_true]
      omega
    · simp [if_neg hlt]

/-- The records of the files in use, in order. -/
def tableRecords (files : List FsFile) : List FsDiskRecord :=
  (files.filter FsFile.inUse).flatMap fileRecords

variable (files : List FsFile)

theorem length_tableRecords : (tableRecords files).length = (files.map records).sum := by
  induction files with
  | nil => rfl
  | cons f files ih =>
    cases hf : f.inUse with
    | true =>
      simp only [tableRecords, filter_cons_of_pos hf, flatMap_cons, length_append,
        map_cons, sum_cons, records, hf, if_true] at ih ⊢
      rw [length_fileRecords, ih]
    | false =>
      have hf' : ¬ f.inUse = true := by simp [hf]
      simp only [tableRecords, filter_cons_of_neg hf', map_cons, sum_cons,
        records, if_neg hf', Nat.zero_add] at ih ⊢
      exact ih

theorem fsSerializeLoop_eq (l : List FsDiskRecord) (hl : l.length ≤ fsMaxFiles) :
    fsSerializeLoop files l.length (FsDiskTable.ofRecords l) =
      if l.length + (tableRecords files).length ≤ fsMaxFiles then
        some (FsDiskTable.ofRecords (l ++ tableRecords files)) else none := by
  induction files generalizing l with
  | nil => simp [fsSerializeLoop, tableRecords, hl]
  | cons f files ih =>
    cases hf : f.inUse with
    | false =>
      have hf' : ¬ f.inUse = true := by simp [hf]
      rw [fsSerializeLoop, hf, Bool.not_false, if_pos rfl, ih l hl]
      simp [tableRecords, filter_cons_of_neg hf']
    | true =>
      have hrec : tableRecords (f :: files) = fileRecords f ++ tableRecords files := by
        simp [tableRecords, filter_cons_of_pos hf]
      rw [fsSerializeLoop, hf, Bool.not_true, if_neg (by simp), hrec, length_append,
        ← length_fileRecords]
      by_cases hfit : fsMaxFiles - l.length < (fileRecords f).length
      · rw [if_pos hfit, if_neg (by omega)]
      · have hcons : (fileRecords f).length =
            (continuationRecords f (min f.size fsDiskDataBytes)).length + 1 := rfl
        have hcont := fsSerializeContinuations_eq f (min f.size fsDiskDataBytes)
          (l ++ [headRecord f]) (by simp; omega)
        rw [length_append, length_singleton] at hcont
        rw [if_neg hfit, FsDiskTable.modify_ofRecords (by omega), ← headRecord, hcont]
        have hlen : l.length + 1 + (continuationRecords f (min f.size fsDiskDataBytes)).length =
            (l ++ fileRecords f).length := by
          rw [length_append, hcons]
          omega
        have happ : l ++ [headRecord f] ++ continuationRecords f (min f.size fsDiskDataBytes) =
            l ++ fileRecords f := by simp [fileRecords]
        simp only [hlen, happ]
        rw [ih _ (by rw [length_append]; omega), length_append, append_assoc, Nat.add_assoc]

/-- **What serializing does**: the extents of the files in use, one after the other, when they fit
the record table, and a failure otherwise. -/
theorem fsSerialize_eq (files : FileTable) :
    fsSerialize files =
      if files.recordsNeeded ≤ fsMaxFiles then
        some (FsDiskTable.ofRecords (tableRecords files.cells)) else none := by
  have h := fsSerializeLoop_eq files.cells [] (by simp)
  rw [length_nil, Nat.zero_add, length_tableRecords, nil_append] at h
  exact h

theorem fsSerialize_isSome_iff (files : FileTable) :
    (fsSerialize files).isSome = true ↔ files.recordsNeeded ≤ fsMaxFiles := by
  rw [fsSerialize_eq]
  split_ifs with h <;> simp [h]

/-! ### What the reader finds -/

/-- The extent of a file. -/
def extentOf (f : FsFile) : Extent :=
  ⟨headRecord f, continuationRecords f (min f.size fsDiskDataBytes)⟩

variable {f : FsFile}

theorem size_extentOf (h : f.size < fsMaxFileSize) : (extentOf f).size = f.size := by
  have h' : f.size < 8192 := h
  show (ofNat f.size).toNat = f.size
  rw [toNat_ofNat']
  omega

theorem extents_fileRecords_append (h : f.size < fsMaxFileSize) (rest : List FsDiskRecord) :
    extents (fileRecords f ++ rest) = extentOf f :: extents rest := by
  have hlen := length_fileRecords f
  have hsize : (headRecord f).size.toNat = f.size := size_extentOf h
  rw [fileRecords, length_cons] at hlen
  rw [fileRecords, cons_append, extents, if_neg (by simp [headRecord, fsWriteHead]), hsize,
    ← hlen, Nat.add_sub_cancel, take_left, drop_left]
  rfl

theorem extents_replicate_zero (n : ℕ) : extents (replicate n FsDiskRecord.zero) = [] := by
  induction n with
  | zero => rw [replicate_zero, extents]
  | succ n ih => rw [replicate_succ, extents, if_pos (by rfl), ih]

theorem extents_tableRecords_append (n : ℕ)
    (h : ∀ f ∈ files, f.inUse = true → f.size < fsMaxFileSize) :
    extents (tableRecords files ++ replicate n FsDiskRecord.zero) =
      (files.filter inUse).map extentOf := by
  induction files with
  | nil => exact extents_replicate_zero n
  | cons f files ih =>
    rw [forall_mem_cons] at h
    cases hf : f.inUse with
    | true =>
      rw [filter_cons_of_pos hf, map_cons, ← ih h.2, tableRecords,
        filter_cons_of_pos hf, flatMap_cons, append_assoc,
        extents_fileRecords_append (h.1 hf)]
      rfl
    | false =>
      have hf' : ¬ f.inUse = true := by simp [hf]
      rw [filter_cons_of_neg hf', ← ih h.2, tableRecords, filter_cons_of_neg hf']
      rfl

theorem byte_name_headRecord (h : f.name.length < fsMaxFilename) (i : ℕ) :
    (headRecord f).name.byte i = f.name.char i := by
  have h' : f.name.length < 32 := h
  have hmin : min f.name.length (fsMaxFilename - 1) = f.name.length := by
    omega
  show (Buffer.blit Buffer.zero 0 f.name.char (min f.name.length (fsMaxFilename - 1))).byte i = _
  rw [hmin, Buffer.byte_blit]
  split_ifs with hi
  · rfl
  · rw [Buffer.byte_zero, char_of_length_le (by omega)]

theorem text_headRecord (h : f.name.length < fsMaxFilename) : (headRecord f).text = f.name := by
  have h' : f.name.bytes.length < 32 := h
  have hbytes : (headRecord f).name.bytes 0 32 =
      f.name.bytes ++ 0 :: replicate (31 - f.name.bytes.length) 0 := by
    refine ext_getElem (by simp; omega) fun i h1 h2 => ?_
    simp only [Buffer.bytes, getElem_map, getElem_range, Nat.zero_add]
    rw [byte_name_headRecord h, getElem_append]
    split_ifs with hi
    · exact char_of_lt hi
    · rw [char_of_length_le (not_lt.1 hi)]
      simp [← replicate_succ]
  rw [FsDiskRecord.text, hbytes, ofBytes_append]

theorem toNat_chunk (left : ℕ) : (ofNat (min left 1024)).toNat = min left 1024 := by
  rw [toNat_ofNat']
  omega

theorem continuationsValid_continuationRecords (f : FsFile) (copied : ℕ) :
    continuationsValid (continuationRecords f copied) (f.size - copied) = true := by
  fun_induction continuationRecords f copied with
  | case1 copied h chunk ih =>
    have hc : chunk = min (f.size - copied) 1024 := rfl
    rw [continuationsValid, Bool.and_eq_true, fsDiskContinuationIsValid_iff]
    refine ⟨⟨rfl, toNat_chunk _, fun i _ => Buffer.byte_zero i⟩, ?_⟩
    rwa [show f.size - copied - min (f.size - copied) fsDiskDataBytes = f.size - (copied + chunk) by
      omega]
  | case2 copied h =>
    rw [continuationsValid, decide_eq_true_iff]
    omega

theorem flatMap_continuationRecords (f : FsFile) (copied : ℕ) :
    ((continuationRecords f copied).flatMap fun r => r.data.bytes 0 r.size.toNat) =
      f.data.bytes copied (f.size - copied) := by
  fun_induction continuationRecords f copied with
  | case1 copied h chunk ih =>
    have hc : chunk = min (f.size - copied) 1024 := rfl
    have hblit := Buffer.bytes_blit (Buffer.zero : Buffer 1024)
      (fun j => f.data.byte (copied + j)) (show 0 + chunk ≤ 1024 by omega)
    rw [Nat.zero_add, Buffer.bytes_zero_length, nil_append] at hblit
    rw [flatMap_cons, ih, show f.size - copied = chunk + (f.size - (copied + chunk)) by omega,
      Buffer.bytes_append]
    congr 1
    show ((Buffer.zero : Buffer 1024).blit 0 (fun j => f.data.byte (copied + j)) chunk).bytes 0
      (ofNat chunk).toNat = _
    rw [hc, toNat_chunk, ← hc]
    exact hblit
  | case2 copied h => simp [show f.size - copied = 0 by omega]

theorem valid_extentOf (h : FileTable.CellOk f) : (extentOf f).Valid := by
  have hname := length_lt_of_fsIsValidText h.name_valid
  have hsize := size_extentOf h.size_lt
  refine ⟨?_, ?_, ?_⟩
  · rw [fsHeadIsValid_iff]
    refine ⟨rfl, hsize.trans_lt h.size_lt, ?_, ?_⟩
    · rw [extentOf, byte_name_headRecord hname]
      exact char_of_length_le (Nat.le_sub_one_of_lt hname)
    · rw [extentOf, text_headRecord hname]
      exact h.name_valid
  · have hlen := length_fileRecords f
    rw [hsize, ← hlen]
    rfl
  · have hv := continuationsValid_continuationRecords f (min f.size fsDiskDataBytes)
    rw [show f.size - min f.size fsDiskDataBytes = f.size - fsDiskDataBytes by omega] at hv
    rw [hsize]
    exact hv

theorem entry_extentOf (h : FileTable.CellOk f) : (extentOf f).entry = (f.name, f.contents) := by
  have hmin : min f.size fsDiskDataBytes + (f.size - min f.size fsDiskDataBytes) =
      f.size := by omega
  have hblit := Buffer.bytes_blit (Buffer.zero : Buffer 1024) f.data.byte
    (show 0 + min f.size fsDiskDataBytes ≤ 1024 by
      have : fsDiskDataBytes = 1024 := rfl
      omega)
  rw [Nat.zero_add, Buffer.bytes_zero_length, nil_append] at hblit
  rw [Extent.entry, Extent.bytes, size_extentOf h.size_lt]
  congr 1
  · exact text_headRecord (length_lt_of_fsIsValidText h.name_valid)
  · rw [extentOf, flatMap_continuationRecords, contents]
    conv_rhs => rw [← hmin, Buffer.bytes_append, Nat.zero_add]
    congr 1
    show ((Buffer.zero : Buffer 1024).blit 0 f.data.byte (min f.size fsDiskDataBytes)).bytes 0
      (min f.size fsDiskDataBytes) = _
    rw [hblit]
    simp [Buffer.bytes]

/-! ### The round trip -/

variable {t : FsDiskTable}

section

variable {files : FileTable} (h : files.WellFormed)
include h

/-- The table that `fs_serialize` writes has the extents of the files in use, in order. -/
theorem extents_of_fsSerialize (ht : fsSerialize files = some t) :
    extents t.records = (files.cells.filter inUse).map extentOf := by
  rw [fsSerialize_eq, if_pos h.budget, Option.some_inj] at ht
  have hlen : (tableRecords files.cells).length ≤ fsMaxFiles := by
    rw [length_tableRecords]
    exact h.budget
  rw [← ht, FsDiskTable.records_ofRecords hlen, extents_tableRecords_append]
  exact fun f hf hu => (h.cellOk f hf hu).size_lt

/-- The files in use of a well-formed table are sound. -/
theorem cellOk_of_mem_filter (hf : f ∈ files.cells.filter inUse) : FileTable.CellOk f := by
  rw [mem_filter] at hf
  exact h.cellOk f hf.1 hf.2

/-- A table written from a well-formed view is accepted, over any view mounted before. -/
theorem exists_fsDeserializeCurrent (ht : fsSerialize files = some t) (old : FileTable) :
    ∃ files', fsDeserializeCurrent t old = some files' := by
  have hext := extents_of_fsSerialize h ht
  have hval : fsValidateCurrent t 0 0 = true := by
    rw [fsValidateCurrent_iff, hext]
    refine ⟨fun e he => ?_, ?_⟩
    · obtain ⟨f, hf, rfl⟩ := mem_map.1 he
      exact valid_extentOf (cellOk_of_mem_filter h hf)
    · have hnames : ((files.cells.filter inUse).map extentOf).map (fun e => e.head.text) =
          files.cells.filterMap (key entry) := by
        rw [map_map, ← filterMap_eq_map, filterMap_filter]
        refine filterMap_congr fun f hf => ?_
        cases hu : f.inUse with
        | true =>
          have hname := length_lt_of_fsIsValidText (h.cellOk f hf hu).name_valid
          simp [key, entry, hu, extentOf, text_headRecord hname]
        | false => simp [key, entry, hu]
      rw [hnames]
      exact distinct_iff_nodup.1 h.distinct
  exact ⟨_, (fsDeserializeCurrent_eq_some_iff t).2 ⟨hval, rfl⟩⟩

end

theorem listing_eq_map (files : FileTable) :
    files.listing = (files.cells.filter inUse).map fun f => (f.name, f.contents) := by
  rw [FileTable.listing, ← filterMap_eq_map, filterMap_filter]
  refine filterMap_congr fun f _ => ?_
  cases hu : f.inUse <;> simp [entry, hu]

section

variable {files old files' : FileTable} (h : files.WellFormed) (ht : fsSerialize files = some t)
  (h' : fsDeserializeCurrent t old = some files')
include h ht h'

/-- Mounting what a well-formed view was written to gives its files, compacted to the front. -/
theorem entries_of_fsDeserializeCurrent_fsSerialize : files'.entries = files.listing.map some ++
      replicate (fsMaxFiles - files.listing.length) none := by
  rw [entries_of_fsDeserializeCurrent t h', extents_of_fsSerialize h ht, listing_eq_map,
    map_map, map_map, length_map, length_map]
  congr 1
  refine map_congr_left fun f hf => ?_
  simp [entry_extentOf (cellOk_of_mem_filter h hf)]

/-- Mounting what a well-formed view was written to gives the same map. -/
theorem fileMap_of_fsDeserializeCurrent_fsSerialize : files'.fileMap = files.fileMap := by
  refine FileTable.fileMap_congr ?_
  rw [files'.listing_eq_filterMap, entries_of_fsDeserializeCurrent_fsSerialize h ht h',
    filterMap_append, filterMap_map]
  simp

end

/-- **The on-disk round trip.** A well-formed table is serialized, the written record table is
accepted over any view `old` mounted before, and the cells are then the files in use of the original
in their order, followed by unused cells. -/
theorem fsDeserializeCurrent_fsSerialize (files old : FileTable) (h : files.WellFormed) :
    ∃ t files', fsSerialize files = some t ∧ fsDeserializeCurrent t old = some files' ∧
      ∀ (i : ℕ) (f' : FsFile), files'.cells[i]? = some f' →
        match (files.cells.filter FsFile.inUse)[i]? with
        | some f => f'.inUse = true ∧ f'.name = f.name ∧ f'.size = f.size ∧
            ∀ j < f.size, f'.data.byte j = f.data.byte j
        | none => f'.inUse = false := by
  obtain ⟨t, ht⟩ := Option.isSome_iff_exists.1 ((fsSerialize_isSome_iff files).2 h.budget)
  obtain ⟨files', h'⟩ := exists_fsDeserializeCurrent h ht old
  refine ⟨t, files', ht, h', fun i f' hi => ?_⟩
  have hget := congrArg (fun l => l[i]?) (entries_of_fsDeserializeCurrent_fsSerialize h ht h')
  simp only [FileTable.entries, getElem?_map, hi, Option.map_some, listing_eq_map,
    map_map, length_map] at hget
  rcases hf : (files.cells.filter inUse)[i]? with _ | f
  · -- past the last file the entries are empty
    have hlen := getElem?_eq_none_iff.1 hf
    rw [getElem?_append_right (by simpa using hlen), getElem?_replicate] at hget
    split_ifs at hget
    exact entry_eq_none_iff.1 (Option.some_inj.1 hget)
  · obtain ⟨hlt, -⟩ := List.getElem?_eq_some_iff.1 hf
    rw [getElem?_append_left (by simpa using hlt), getElem?_map, hf] at hget
    obtain ⟨huse, hname, hcontents⟩ := entry_eq_some_iff.1 (Option.some_inj.1 hget)
    have hsize : f'.size = f.size := by
      rw [← length_contents, hcontents, length_contents]
    refine ⟨huse, hname, hsize, fun j hj => ?_⟩
    have hbyte := congrArg (fun l => l[j]?) hcontents
    simp only [contents, Buffer.getElem?_bytes, hsize, if_pos hj, Nat.zero_add,
      Option.some_inj] at hbyte
    exact hbyte

/-- A table whose only file sits in the middle and takes two records. -/
def loneFile : FileTable :=
  FileTable.zero.set 5 ⟨true, CString.ofString "a", 2000, Buffer.zero⟩

theorem wellFormed_loneFile : loneFile.WellFormed := by
  refine FileTable.wellFormed_zero.set (fun _ => ⟨by decide, by decide, Buffer.byte_zero _⟩) ?_
    (by decide)
  refine freshAt_of_forall fun f hf k _ => ?_
  rw [eq_of_mem_replicate hf]
  simp [key, entry, zero]

theorem fsDeserializeCurrent_fsSerialize_loneFile :
    ∃ t files', fsSerialize loneFile = some t ∧
      fsDeserializeCurrent t FileTable.zero = some files' ∧
      ∀ f', files'.cells[0]? = some f' → f'.inUse = true ∧ f'.size = 2000 := by
  obtain ⟨t, files', ht, h', hcells⟩ :=
    fsDeserializeCurrent_fsSerialize loneFile FileTable.zero wellFormed_loneFile
  refine ⟨t, files', ht, h', fun f' hf' => ?_⟩
  obtain ⟨huse, -, hsize, -⟩ := hcells 0 f' hf'
  exact ⟨huse, hsize⟩

end Nostalux.Fs

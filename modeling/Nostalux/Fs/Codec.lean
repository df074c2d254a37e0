import Nostalux.Fs.Layout

/-!
# `kernel/fs.c`: serializing and deserializing the file table

`fsSerialize` writes every file in use as a head record followed by as many continuation records as
its size needs, and fails when the records run out.  `fsDeserializeCurrent` validates the whole
record table, every extent chain and every name, before it touches the mounted view, and
`fsDeserializeLegacy` does the same for the one-record-per-file format of the older versions.

The record table `g_disk_table` is static scratch memory: every function that reads it runs right
after one that filled it, so it is passed explicitly here.
-/

namespace Nostalux.Fs

/-! ### `fs_serialize` -/

/-- The head record of a file, written over `r`. -/
def fsWriteHead (f : FsFile) (r : FsDiskRecord) : FsDiskRecord :=
  { r with
    inUse := 1
    size := UInt32.ofNat f.size
    name := r.name.blit 0 f.name.char (min f.name.length (fsMaxFilename - 1))
    data := r.data.blit 0 f.data.byte (min f.size fsDiskDataBytes) }

/-- The continuation record with the `chunk` bytes from `copied` on, written over `r`. -/
def fsWriteContinuation (f : FsFile) (copied chunk : ℕ) (r : FsDiskRecord) : FsDiskRecord :=
  { r with
    inUse := 2
    size := UInt32.ofNat chunk
    data := r.data.blit 0 (fun j => f.data.byte (copied + j)) chunk }

/-- The continuation loop of `fs_serialize`: the next free record and the table. -/
def fsSerializeContinuations (f : FsFile) (copied diskIndex : ℕ) (t : FsDiskTable) :
    ℕ × FsDiskTable :=
  if copied < f.size then
    let chunk := min (f.size - copied) fsDiskDataBytes
    fsSerializeContinuations f (copied + chunk) (diskIndex + 1)
      (t.modify diskIndex (fsWriteContinuation f copied chunk))
  else (diskIndex, t)
termination_by f.size - copied
decreasing_by
  have : 0 < min (f.size - copied) fsDiskDataBytes := by simp; omega
  omega

/-- The loop of `fs_serialize` over the remaining cells. -/
def fsSerializeLoop : List FsFile → ℕ → FsDiskTable → Option FsDiskTable
  | [], _, t => some t
  | f :: rest, diskIndex, t =>
    if !f.inUse then fsSerializeLoop rest diskIndex t
    else if fsMaxFiles - diskIndex < fsDiskRecordsNeeded f.size then none
    else
      let (diskIndex, t) := fsSerializeContinuations f (min f.size fsDiskDataBytes) (diskIndex + 1)
        (t.modify diskIndex (fsWriteHead f))
      fsSerializeLoop rest diskIndex t

/-- `fs_serialize`: the filled record table, or `none` when the records run out. -/
def fsSerialize (files : FileTable) : Option FsDiskTable :=
  fsSerializeLoop files.cells 0 FsDiskTable.zero

/-! ### `fs_deserialize_current` -/

/-- The C string in the name array of a record. -/
def FsDiskRecord.text (r : FsDiskRecord) : CString := CString.ofBytes (r.name.bytes 0 32)

/-- Some record before `diskIndex` is a head with the given name. -/
def fsNameIsTaken (t : FsDiskTable) (diskIndex : ℕ) (name : CString) : Bool :=
  (t.records.take diskIndex).any fun prior => prior.inUse = 1 && kstrcmp prior.text name = 0

/-- `fs_disk_continuation_is_valid`. -/
def fsDiskContinuationIsValid (r : FsDiskRecord) (expectedSize : ℕ) : Bool :=
  r.inUse = 2 && r.size.toNat = expectedSize && decide r.name.Blank

/-- The check of a head record in `fs_deserialize_current`. -/
def fsHeadIsValid (r : FsDiskRecord) : Bool :=
  r.inUse = 1 && r.size.toNat < fsMaxFileSize && r.name.byte (fsMaxFilename - 1) = 0 &&
    fsIsValidText r.text

/-- The loop over the continuations of one head, with the number of parts left: the bytes still
missing after it, or `none` at an invalid continuation. -/
def fsCheckContinuations (t : FsDiskTable) (diskIndex : ℕ) : ℕ → ℕ → ℕ → Option ℕ
  | 0, _, remaining => some remaining
  | parts + 1, part, remaining =>
    let expected := min remaining fsDiskDataBytes
    if fsDiskContinuationIsValid (t.record (diskIndex + part)) expected then
      fsCheckContinuations t diskIndex parts (part + 1) (remaining - expected)
    else none

/-- The validating loop of `fs_deserialize_current`. -/
def fsValidateCurrent (t : FsDiskTable) (diskIndex logicalCount : ℕ) : Bool :=
  if diskIndex < fsMaxFiles then
    let head := t.record diskIndex
    if head.inUse = 0 then fsValidateCurrent t (diskIndex + 1) logicalCount
    else if !fsHeadIsValid head || fsNameIsTaken t diskIndex head.text then false
    else
      let needed := fsDiskRecordsNeeded head.size.toNat
      if fsMaxFiles - diskIndex < needed then false
      else
        match fsCheckContinuations t diskIndex (needed - 1) 1
          (head.size.toNat - fsDiskDataBytes) with
        | none => false
        | some remaining =>
          if remaining ≠ 0 || fsMaxFiles ≤ logicalCount then false
          else fsValidateCurrent t (diskIndex + needed) (logicalCount + 1)
  else true
termination_by fsMaxFiles - diskIndex
decreasing_by
  · omega
  · have := fsDiskRecordsNeeded_pos (t.record diskIndex).size.toNat
    omega

/-- The copying loop over the continuations of one head, with the number of parts left. -/
def fsCopyContinuations (t : FsDiskTable) (diskIndex : ℕ) : ℕ → ℕ → ℕ → Buffer 8192 → Buffer 8192
  | 0, _, _, data => data
  | parts + 1, part, copied, data =>
    let continuation := t.record (diskIndex + part)
    let chunk := continuation.size.toNat
    fsCopyContinuations t diskIndex parts (part + 1) (copied + chunk)
      (data.blit copied continuation.data.byte chunk)

/-- The file of the head at `diskIndex`, written over a cell. -/
def fsDecodeFile (t : FsDiskTable) (diskIndex : ℕ) (file : FsFile) : FsFile :=
  let head := t.record diskIndex
  let size := head.size.toNat
  let chunk := min size fsDiskDataBytes
  let data := fsCopyContinuations t diskIndex (fsDiskRecordsNeeded size - 1) 1 chunk
    (file.data.blit 0 head.data.byte chunk)
  { inUse := true, name := head.text, size := size, data := data.put size 0 }

/-- The copying loop of `fs_deserialize_current`. -/
def fsCopyCurrent (t : FsDiskTable) (diskIndex logicalIndex : ℕ) (files : FileTable) : FileTable :=
  if diskIndex < fsMaxFiles then
    let head := t.record diskIndex
    if head.inUse = 0 then fsCopyCurrent t (diskIndex + 1) logicalIndex files
    else
      fsCopyCurrent t (diskIndex + fsDiskRecordsNeeded head.size.toNat) (logicalIndex + 1)
        (files.set logicalIndex (fsDecodeFile t diskIndex (files.get logicalIndex)))
  else files
termination_by fsMaxFiles - diskIndex
decreasing_by
  · omega
  · have := fsDiskRecordsNeeded_pos (t.record diskIndex).size.toNat
    omega

/-- Clear every cell. -/
def FileTable.clearAll (files : FileTable) : FileTable :=
  ⟨files.cells.map fsClear, by simpa using files.length_cells⟩

/-- `fs_deserialize_current`: the new mounted view, or `none` when the table is rejected. -/
def fsDeserializeCurrent (t : FsDiskTable) (files : FileTable) : Option FileTable :=
  if fsValidateCurrent t 0 0 then some (fsCopyCurrent t 0 0 files.clearAll) else none

/-! ### `fs_deserialize_legacy` -/

/-- The check of a record in use in `fs_deserialize_legacy`. -/
def fsLegacyRecordIsValid (r : FsDiskRecord) : Bool :=
  r.inUse = 1 && r.size.toNat < fsDiskDataBytes && r.name.byte (fsMaxFilename - 1) = 0 &&
    r.data.byte r.size.toNat = 0 && fsIsValidText r.text

/-- The validating loop of `fs_deserialize_legacy`. -/
def fsValidateLegacy (t : FsDiskTable) : Bool :=
  (List.range fsMaxFiles).all fun i =>
    let record := t.record i
    record.inUse = 0 || (fsLegacyRecordIsValid record && !fsNameIsTaken t i record.text)

/-- The copying step of `fs_deserialize_legacy` for one record. -/
def fsLegacyCell (record : FsDiskRecord) (file : FsFile) : FsFile :=
  if record.inUse = 0 then fsClear file
  else
    { inUse := true
      name := record.text
      size := record.size.toNat
      data := (file.data.blit 0 record.data.byte record.size.toNat).put record.size.toNat 0 }

theorem length_zipWith_fsLegacyCell (t : FsDiskTable) (files : FileTable) :
    (List.zipWith fsLegacyCell t.records files.cells).length = fsMaxFiles := by
  simp [t.length_records, files.length_cells]

/-- `fs_deserialize_legacy`: the new mounted view, or `none` when the table is rejected. -/
def fsDeserializeLegacy (t : FsDiskTable) (files : FileTable) : Option FileTable :=
  if fsValidateLegacy t then
    some ⟨List.zipWith fsLegacyCell t.records files.cells, length_zipWith_fsLegacyCell t files⟩
  else none

end Nostalux.Fs

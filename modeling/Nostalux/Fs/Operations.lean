import Nostalux.Fs.Crash

/-!
# `kernel/fs.c`: the public calls on a mounted filesystem

Every mutating call changes one cell of `FILES`, commits, and restores the cell when the commit is
refused; `fsCommitOr` is that common end.  The guards that come before differ from call to call and
are kept as each function has them.

`FsCall` collects the mutating calls and `FsCall.run` carries one out.  `Edit` is what a call's
change of a cell amounts to, and `FsCall.run_cases` says everything a mutating call can do: nothing,
or one edit with its commit.
-/

namespace Nostalux.Fs

open FileTable SlotMap FsFile Buffer Function

/-! ### Self-test artifacts -/

/-- `FS_SELF_TEST_PAYLOAD`. -/
def fsSelfTestPayload : List UInt8 := [0x42, 0x00, 0x4D, 0xFF]

/-- `fs_file_is_self_test_artifact` of a cell. -/
def fsFileIsSelfTestArtifact (f : FsFile) : Bool :=
  f.inUse && fsNameIsSelfTestFile (some f.name) && f.size = fsSelfTestPayload.length &&
    f.data.bytes 0 fsSelfTestPayload.length = fsSelfTestPayload

/-! ### Mutating calls -/

/-- The end of every mutating call: the changed cell is committed, and on failure the cell is
overwritten by `rollback`. -/
def fsCommitOr (i : ℕ) (file rollback : FsFile) (s : FsState) : Bool × FsState :=
  match fsCommitChanges { s with files := s.files.set i file } with
  | (true, s) => (true, s)
  | (false, s) => (false, { s with files := s.files.set i rollback })

/-- `fs_touch`. -/
def fsTouch (name : Option CString) (s : FsState) : Bool × FsState :=
  if fsNameIsSystemLog name || fsNameIsSystemManaged name then (false, s)
  else if !fsIsValidName name || (fsNameIsSelfTestFile name && !s.selfTestActive) then (false, s)
  else
    match fsFindMutable s.files name with
    | some _ => (true, s)
    | none =>
      match fsAllocateSlot s.files with
      | none => (false, s)
      | some i =>
        let slot := fsCopyName { s.files.get i with inUse := true } name
        let slot := { slot with size := 0, data := slot.data.put 0 0 }
        fsCommitOr i slot (fsClear slot) s

/-- Overwrite the contents of a cell. -/
def fsFill (file : FsFile) (contents : Option (ℕ → UInt8)) (length : ℕ) : FsFile :=
  { file with
    data := (file.data.blit 0 (contents.getD fun _ => 0) length).put length 0
    size := length }

/-- `fs_write_bytes_internal`. -/
def fsWriteBytesInternal (name : Option CString) (contents : Option (ℕ → UInt8)) (length : ℕ)
    (allowSystem : Bool) (s : FsState) : Bool × FsState :=
  if !fsIsValidName name || fsNameIsSystemLog name ||
      (!allowSystem && fsNameIsSystemManaged name) ||
      (fsNameIsSelfTestFile name && !s.selfTestActive) ||
      (contents.isNone && length ≠ 0) || fsMaxFileSize ≤ length then (false, s)
  else
    match fsFindMutable s.files name with
    | some i =>
      let file := s.files.get i
      fsCommitOr i (fsFill file contents length) file s
    | none =>
      match fsAllocateSlot s.files with
      | none => (false, s)
      | some i =>
        let file := fsCopyName { fsClear (s.files.get i) with inUse := true } name
        let file := fsFill file contents length
        fsCommitOr i file (fsClear file) s

/-- `fs_write_bytes`. -/
def fsWriteBytes (name : Option CString) (contents : Option (ℕ → UInt8)) (length : ℕ)
    (s : FsState) :
    Bool × FsState :=
  fsWriteBytesInternal name contents length false s

/-- `fs_system_write_bytes`. -/
def fsSystemWriteBytes (name : Option CString) (contents : Option (ℕ → UInt8)) (length : ℕ)
    (s : FsState) : Bool × FsState :=
  if !fsNameIsSystemManaged name then (false, s)
  else fsWriteBytesInternal name contents length true s

/-- `fs_write`. -/
def fsWrite (name contents : Option CString) (s : FsState) : Bool × FsState :=
  match contents with
  | none => (false, s)
  | some contents => fsWriteBytes name (some contents.char) (kstrlen contents) s

/-- The bytes of `contents` behind the contents of a cell. -/
def fsExtend (file : FsFile) (contents : CString) : FsFile :=
  let size := file.size + kstrlen contents
  { file with
    data := (file.data.blit file.size contents.char (kstrlen contents)).put size 0
    size := size }

/-- `fs_append`. -/
def fsAppend (name contents : Option CString) (s : FsState) : Bool × FsState :=
  if !fsIsValidName name || fsNameIsSystemLog name || fsNameIsSystemManaged name ||
      (fsNameIsSelfTestFile name && !s.selfTestActive) then (false, s)
  else
    match contents with
    | none => (false, s)
    | some contents =>
      if fsMaxFileSize ≤ kstrlen contents then (false, s)
      else
        match fsFindMutable s.files name with
        | some i =>
          let file := s.files.get i
          if fsMaxFileSize - 1 - file.size < kstrlen contents then (false, s)
          else fsCommitOr i (fsExtend file contents) file s
        | none =>
          match fsAllocateSlot s.files with
          | none => (false, s)
          | some i =>
            let file := fsCopyName { fsClear (s.files.get i) with inUse := true } name
            if fsMaxFileSize - 1 - file.size < kstrlen contents then
              (false, { s with files := s.files.set i (fsClear file) })
            else
              let file := fsExtend file contents
              fsCommitOr i file (fsClear file) s

/-- `fs_rename_internal`. -/
def fsRenameInternal (oldName newName : Option CString) (allowSystem : Bool) (s : FsState) :
    Bool × FsState :=
  if !fsIsValidName oldName || !fsIsValidName newName then (false, s)
  else if fsNameIsSystemLog oldName || fsNameIsSystemLog newName then (false, s)
  else if !allowSystem && (fsNameIsSystemManaged oldName || fsNameIsSystemManaged newName) then
    (false, s)
  else if fsNameIsSelfTestFile newName && !s.selfTestActive then (false, s)
  else
    match fsFindMutable s.files oldName with
    | none => (false, s)
    | some i =>
      let file := s.files.get i
      if fsNameIsSelfTestFile oldName && !s.selfTestActive && fsFileIsSelfTestArtifact file then
        (false, s)
      else if oldName = newName then (true, s)
      else if (fsFindMutable s.files newName).isSome then (false, s)
      else
        let previousName := file.name.take (fsMaxFilename - 1)
        let file := fsCopyName file newName
        fsCommitOr i file (fsCopyName file (some previousName)) s

/-- `fs_rename`. -/
def fsRename (oldName newName : Option CString) (s : FsState) : Bool × FsState :=
  fsRenameInternal oldName newName false s

/-- `fs_system_rename`. -/
def fsSystemRename (oldName newName : Option CString) (s : FsState) : Bool × FsState :=
  if !fsNameIsSystemManaged oldName || fsNameIsSystemManaged newName then (false, s)
  else fsRenameInternal oldName newName true s

/-- `fs_remove_internal`. -/
def fsRemoveInternal (name : Option CString) (allowSystem : Bool) (s : FsState) : Bool × FsState :=
  if fsNameIsSystemLog name then (false, s)
  else if !allowSystem && fsNameIsSystemManaged name then (false, s)
  else
    match fsFindMutable s.files name with
    | none => (false, s)
    | some i =>
      let file := s.files.get i
      if fsNameIsSelfTestFile name && !s.selfTestActive && fsFileIsSelfTestArtifact file then
        (false, s)
      else fsCommitOr i (fsClear file) file s

/-- `fs_remove`. -/
def fsRemove (name : Option CString) (s : FsState) : Bool × FsState := fsRemoveInternal name false s

/-- `fs_system_remove`. -/
def fsSystemRemove (name : Option CString) (s : FsState) : Bool × FsState :=
  if !fsNameIsSystemManaged name then (false, s) else fsRemoveInternal name true s

/-! ### The mutating calls as one type -/

/-- The mutating calls of the filesystem. -/
inductive FsCall
  | touch (name : Option CString)
  | writeBytes (name : Option CString) (contents : Option (ℕ → UInt8)) (length : ℕ)
  | systemWriteBytes (name : Option CString) (contents : Option (ℕ → UInt8)) (length : ℕ)
  | write (name contents : Option CString)
  | append (name contents : Option CString)
  | rename (oldName newName : Option CString)
  | systemRename (oldName newName : Option CString)
  | remove (name : Option CString)
  | systemRemove (name : Option CString)

/-- Carry out a call. -/
def FsCall.run : FsCall → FsState → Bool × FsState
  | touch name => fsTouch name
  | writeBytes name contents length => fsWriteBytes name contents length
  | systemWriteBytes name contents length => fsSystemWriteBytes name contents length
  | write name contents => fsWrite name contents
  | append name contents => fsAppend name contents
  | rename oldName newName => fsRename oldName newName
  | systemRename oldName newName => fsSystemRename oldName newName
  | remove name => fsRemove name
  | systemRemove name => fsSystemRemove name

/-! ### The abstract filesystem -/

/-- The abstract filesystem: a finite map from names to contents. -/
abbrev FileMap := CString → Option (List UInt8)

namespace FileMap

/-- Create an empty file unless the name exists. -/
def touch (m : FileMap) (name : CString) : FileMap :=
  if m name = none then Function.update m name (some []) else m

/-- Give a file new contents. -/
def write (m : FileMap) (name : CString) (contents : List UInt8) : FileMap :=
  Function.update m name (some contents)

/-- Append to a file, which is created if the name does not exist. -/
def append (m : FileMap) (name : CString) (contents : List UInt8) : FileMap :=
  Function.update m name (some ((m name).getD [] ++ contents))

/-- Move a file to another name. -/
def rename (m : FileMap) (oldName newName : CString) : FileMap :=
  if oldName = newName then m
  else Function.update (Function.update m oldName none) newName (m oldName)

/-- Delete a file. -/
def remove (m : FileMap) (name : CString) : FileMap := Function.update m name none

/-- An operation on a name that may be a null pointer. -/
def onName (f : FileMap → CString → FileMap) (name : Option CString) (m : FileMap) : FileMap :=
  name.elim m (f m)

end FileMap

/-- The first bytes at a pointer. -/
def bytesOf (contents : Option (ℕ → UInt8)) (length : ℕ) : List UInt8 :=
  (List.range length).map (contents.getD fun _ => 0)

/-- What a call means for the abstract filesystem. -/
def FsCall.apply : FsCall → FileMap → FileMap
  | touch name => FileMap.onName FileMap.touch name
  | writeBytes name contents length | systemWriteBytes name contents length =>
    FileMap.onName (fun m name => m.write name (bytesOf contents length)) name
  | write name contents =>
    FileMap.onName (fun m name => contents.elim m (m.write name ·.bytes)) name
  | append name contents =>
    FileMap.onName (fun m name => contents.elim m (m.append name ·.bytes)) name
  | rename oldName newName | systemRename oldName newName =>
    FileMap.onName (fun m oldName => newName.elim m (m.rename oldName)) oldName
  | remove name | systemRemove name => FileMap.onName FileMap.remove name

/-! ### Edits of one cell -/

/-- A change of one cell that keeps the table sound apart from the record budget, and that can be
taken back. -/
structure Edit (t : FileTable) (i : ℕ) (old file rollback : FsFile) : Prop where
  get : t.cells[i]? = some old
  fresh : SlotMap.FreshAt FsFile.entry t.cells i file
  cellOk : file.inUse = true → FileTable.CellOk file
  rollback_eq : rollback = old ∨ (old.inUse = false ∧ rollback.inUse = false)

section Edits

variable {t : FileTable} {i : ℕ} {old file rollback : FsFile} {name : CString}

/-- What overwriting a cell does to the map. -/
theorem fileMap_set (hd : Distinct entry t.cells) (hget : t.cells[i]? = some old)
    (hfresh : FreshAt entry t.cells i file) (k : CString) :
    (t.set i file).fileMap k =
      if file.inUse = true ∧ file.name = k then some file.contents
      else if old.inUse = true ∧ old.name = k then none else t.fileMap k := by
  have h := lookup_set hd hget hfresh k
  simp only [key_entry_eq_some_iff] at h
  rw [fileMap, cells_set, h]
  split_ifs with h1
  · rw [entry_of_inUse h1.1]
    rfl
  · rfl
  · rfl

/-- A file that is found has the map's contents. -/
theorem fileMap_of_fsFindMutable (hd : Distinct entry t.cells)
    (h : fsFindMutable t (some name) = some i) :
    t.cells[i]? = some (t.get i) ∧ (t.get i).inUse = true ∧ (t.get i).name = name ∧
      t.fileMap name = some (t.get i).contents := by
  obtain ⟨f, hf, huse, hname⟩ := fsFindMutable_eq_some h
  rw [get_of_getElem? hf]
  refine ⟨hf, huse, hname, ?_⟩
  rw [fileMap, lookup_eq_some_iff hd]
  exact ⟨i, f, hf, entry_eq_some_iff.2 ⟨huse, hname, rfl⟩⟩

/-- Overwriting a file in place. -/
theorem edit_existing (file : FsFile) (hwf : t.WellFormed)
    (hfind : fsFindMutable t (some name) = some i)
    (huse : file.inUse = true) (hname : file.name = name) (hok : CellOk file) :
    Edit t i (t.get i) file (t.get i) ∧
      (t.set i file).fileMap = FileMap.write t.fileMap name file.contents := by
  obtain ⟨hget, hold, holdName, -⟩ := fileMap_of_fsFindMutable hwf.distinct hfind
  have hfresh : FreshAt entry t.cells i file := by
    refine freshAt_of_key_eq hwf.distinct hget ?_
    rw [key_entry_eq_some_iff.2 ⟨huse, hname⟩, key_entry_eq_some_iff.2 ⟨hold, holdName⟩]
  refine ⟨⟨hget, hfresh, fun _ => hok, .inl rfl⟩, ?_⟩
  funext k
  rw [fileMap_set hwf.distinct hget hfresh, FileMap.write, update_apply, hname, holdName]
  by_cases hk : name = k
  · rw [if_pos ⟨huse, hk⟩, if_pos hk.symm]
  · rw [if_neg fun h => hk h.2, if_neg fun h => hk h.2, if_neg (Ne.symm hk)]

/-- A name that no file has may be given to any cell. -/
theorem freshAt_of_fsFindMutable (hfind : fsFindMutable t (some name) = none)
    (hname : file.name = name) : FreshAt entry t.cells i file := by
  rw [fsFindMutable_eq_none_iff, fileMap, lookup_eq_none_iff] at hfind
  refine freshAt_of_forall fun f hf k hk => ?_
  rw [key_entry_eq_some_iff] at hk
  rw [← hk.2, hname]
  exact hfind f hf

/-- Writing a file into a free cell. -/
theorem edit_new (file rollback : FsFile) (hwf : t.WellFormed)
    (hfind : fsFindMutable t (some name) = none) (halloc : fsAllocateSlot t = some i)
    (huse : file.inUse = true) (hname : file.name = name) (hok : CellOk file)
    (hrollback : rollback.inUse = false) :
    Edit t i (t.get i) file rollback ∧
      (t.set i file).fileMap = FileMap.write t.fileMap name file.contents := by
  obtain ⟨old, hget, hfree⟩ := fsAllocateSlot_eq_some halloc
  rw [get_of_getElem? hget]
  have hfresh : FreshAt entry t.cells i file := freshAt_of_fsFindMutable hfind hname
  refine ⟨⟨hget, hfresh, fun _ => hok, .inr ⟨hfree, hrollback⟩⟩, ?_⟩
  funext k
  rw [fileMap_set hwf.distinct hget hfresh, FileMap.write, update_apply, hname, hfree]
  by_cases hk : name = k
  · rw [if_pos ⟨huse, hk⟩, if_pos hk.symm]
  · rw [if_neg fun h => hk h.2, if_neg fun h => Bool.false_ne_true h.1, if_neg (Ne.symm hk)]

/-- Renaming a file in place. -/
theorem edit_rename {newName : CString} (hwf : t.WellFormed)
    (hfind : fsFindMutable t (some name) = some i) (hnew : fsFindMutable t (some newName) = none)
    (hne : name ≠ newName) (hvalid : fsIsValidText newName = true) :
    Edit t i (t.get i) { t.get i with name := newName } (t.get i) ∧
      (t.set i { t.get i with name := newName }).fileMap =
        FileMap.rename t.fileMap name newName := by
  obtain ⟨hget, hold, holdName, hcontents⟩ := fileMap_of_fsFindMutable hwf.distinct hfind
  have hok := hwf.cellOk (t.get i) (List.mem_of_getElem? hget) hold
  have hfresh : FreshAt entry t.cells i { t.get i with name := newName } :=
    freshAt_of_fsFindMutable hnew rfl
  refine ⟨⟨hget, hfresh, fun _ => ⟨hvalid, hok.size_lt, hok.nul⟩, .inl rfl⟩, ?_⟩
  funext k
  rw [fileMap_set hwf.distinct hget hfresh, FileMap.rename, if_neg hne, update_apply,
    update_apply, holdName, hcontents]
  by_cases hk : newName = k
  · rw [if_pos ⟨hold, hk⟩, if_pos hk.symm]
    rfl
  · rw [if_neg fun h => hk h.2, if_neg (Ne.symm hk)]
    by_cases hk' : name = k
    · rw [if_pos ⟨hold, hk'⟩, if_pos hk'.symm]
    · rw [if_neg fun h => hk' h.2, if_neg (Ne.symm hk')]

/-- Removing a file. -/
theorem edit_remove (hwf : t.WellFormed) (hfind : fsFindMutable t (some name) = some i) :
    Edit t i (t.get i) (fsClear (t.get i)) (t.get i) ∧
      (t.set i (fsClear (t.get i))).fileMap = FileMap.remove t.fileMap name := by
  obtain ⟨hget, hold, holdName, -⟩ := fileMap_of_fsFindMutable hwf.distinct hfind
  have hfresh : FreshAt entry t.cells i (fsClear (t.get i)) := by
    refine freshAt_of_key_eq_none ?_
    rfl
  refine ⟨⟨hget, hfresh, fun h => absurd h Bool.false_ne_true, .inl rfl⟩, ?_⟩
  funext k
  rw [fileMap_set hwf.distinct hget hfresh, FileMap.remove, update_apply, holdName]
  by_cases hk : name = k
  · rw [if_neg fun h => Bool.false_ne_true h.1, if_pos ⟨hold, hk⟩, if_pos hk.symm]
  · rw [if_neg fun h => Bool.false_ne_true h.1, if_neg fun h => hk h.2, if_neg (Ne.symm hk)]

end Edits

/-! ### New contents -/

section Contents

variable {f : FsFile}

section

variable {contents : Option (ℕ → UInt8)} {length : ℕ}

theorem contents_fsFill (h : length < fsMaxFileSize) :
    (fsFill f contents length).contents = bytesOf contents length := by
  have h' : length < 8192 := h
  have hcopy := bytes_blit f.data (contents.getD fun _ => 0) (show 0 + length ≤ 8192 by omega)
  rw [Nat.zero_add, bytes_zero_length, List.nil_append] at hcopy
  rw [← show _ = bytesOf contents length from hcopy]
  refine bytes_congr fun i (hi : i < length) => ?_
  rw [fsFill, byte_put, if_neg (by omega)]

theorem cellOk_fsFill (hname : fsIsValidText f.name = true) (h : length < fsMaxFileSize) :
    CellOk (fsFill f contents length) := by
  refine ⟨hname, h, ?_⟩
  show byte (put _ length 0) length = 0
  rw [byte_put, if_pos ⟨rfl, h⟩]

end

theorem bytes_eq_map_char (contents : CString) :
    (List.range (kstrlen contents)).map contents.char = contents.bytes := by
  refine List.ext_getElem (by simp [kstrlen, CString.length]) fun i h1 h2 => ?_
  rw [List.getElem_map, List.getElem_range, CString.char_of_lt h2]

theorem contents_fsExtend {contents : CString} (h : f.size + kstrlen contents < fsMaxFileSize) :
    (fsExtend f contents).contents = f.contents ++ contents.bytes := by
  have h' : f.size + kstrlen contents < 8192 := h
  have hcopy := bytes_blit f.data contents.char (show f.size + kstrlen contents ≤ 8192 by omega)
  rw [bytes_eq_map_char] at hcopy
  rw [show f.contents = f.data.bytes 0 f.size from rfl, ← hcopy]
  refine bytes_congr fun i (hi : i < f.size + kstrlen contents) => ?_
  rw [fsExtend, byte_put, if_neg (by omega)]

theorem cellOk_fsExtend {contents : CString} (hname : fsIsValidText f.name = true)
    (h : f.size + kstrlen contents < fsMaxFileSize) : CellOk (fsExtend f contents) := by
  refine ⟨hname, h, ?_⟩
  show byte (put _ (f.size + kstrlen contents) 0) (f.size + kstrlen contents) = 0
  rw [byte_put, if_pos ⟨rfl, h⟩]

end Contents

/-! ### What a mutating call can do -/

/-- Everything a mutating call can do: refuse, succeed without a change, or commit an edit that
means the abstract operation. -/
inductive CallOutcome (s : FsState) (map : FileMap) : Bool × FsState → Prop
  | refused : CallOutcome s map (false, s)
  | unchanged (hmap : s.files.fileMap = map) : CallOutcome s map (true, s)
  | edited {i : ℕ} {old file rollback : FsFile} (hedit : Edit s.files i old file rollback)
      (hmap : (s.files.set i file).fileMap = map) :
      CallOutcome s map (fsCommitOr i file rollback s)

section Calls

variable {s : FsState} (hwf : s.files.WellFormed)
include hwf

variable (name : Option CString)

theorem fsTouch_cases :
    CallOutcome s (FileMap.onName FileMap.touch name s.files.fileMap) (fsTouch name s) := by
  unfold fsTouch
  split_ifs with hsystem hinvalid
  · exact .refused
  · exact .refused
  · rcases name with _ | name
    · simp [fsIsValidName] at hinvalid
    · simp only [fsIsValidName, Bool.or_eq_true, not_or, Bool.not_eq_true,
        Bool.not_eq_false'] at hinvalid
      have hvalid := hinvalid.1
      have hmap : FileMap.onName FileMap.touch (some name) s.files.fileMap =
          FileMap.touch s.files.fileMap name := rfl
      rw [hmap]
      rcases hfind : fsFindMutable s.files (some name) with _ | i
      · rcases halloc : fsAllocateSlot s.files with _ | i
        · exact .refused
        · simp only [fsCopyName_some (length_lt_of_fsIsValidText hvalid)]
          have hnone := fsFindMutable_eq_none_iff.1 hfind
          have hok : CellOk { s.files.get i with
              inUse := true, name, size := 0, data := (s.files.get i).data.put 0 0 } :=
            ⟨hvalid, Nat.zero_lt_succ _, by simp [byte_put]⟩
          obtain ⟨hedit, heq⟩ := edit_new _ (fsClear { s.files.get i with
              inUse := true, name, size := 0, data := (s.files.get i).data.put 0 0 })
            hwf hfind halloc rfl rfl hok rfl
          refine .edited hedit ?_
          rw [heq, FileMap.touch, if_pos hnone]
          rfl
      · have hsome := (fileMap_of_fsFindMutable hwf.distinct hfind).2.2.2
        refine .unchanged ?_
        rw [FileMap.touch, if_neg (by simp [hsome])]

theorem fsWriteBytesInternal_cases (contents : Option (ℕ → UInt8))
    (length : ℕ) (allowSystem : Bool) :
    CallOutcome s
      (FileMap.onName (fun m name => m.write name (bytesOf contents length)) name s.files.fileMap)
      (fsWriteBytesInternal name contents length allowSystem s) := by
  unfold fsWriteBytesInternal
  split_ifs with hguard
  · exact .refused
  · rcases name with _ | name
    · simp [fsIsValidName] at hguard
    · simp only [fsIsValidName, Bool.or_eq_true, not_or, Bool.not_eq_true, Bool.not_eq_false',
        decide_eq_false_iff_not, not_le] at hguard
      have hvalid := hguard.1.1.1.1.1
      have hlength := hguard.2
      rcases hfind : fsFindMutable s.files (some name) with _ | i
      · rcases halloc : fsAllocateSlot s.files with _ | i
        · exact .refused
        · simp only [fsCopyName_some (length_lt_of_fsIsValidText hvalid)]
          have hok : CellOk (fsFill { fsClear (s.files.get i) with inUse := true, name }
              contents length) := cellOk_fsFill hvalid hlength
          obtain ⟨hedit, heq⟩ := edit_new _ (fsClear (fsFill
            { fsClear (s.files.get i) with inUse := true, name } contents length))
            hwf hfind halloc rfl rfl hok rfl
          rw [contents_fsFill hlength] at heq
          exact .edited hedit heq
      · obtain ⟨-, huse, hname, -⟩ := fileMap_of_fsFindMutable hwf.distinct hfind
        have hok : CellOk (fsFill (s.files.get i) contents length) :=
          cellOk_fsFill (by rw [hname]; exact hvalid) hlength
        obtain ⟨hedit, heq⟩ := edit_existing (fsFill (s.files.get i) contents length) hwf hfind huse
          hname hok
        rw [contents_fsFill hlength] at heq
        exact .edited hedit heq

theorem fsAppend_cases (name contents : Option CString) :
    CallOutcome s
      (FileMap.onName (fun m name => contents.elim m (m.append name ·.bytes)) name s.files.fileMap)
      (fsAppend name contents s) := by
  unfold fsAppend
  split_ifs with hguard
  · exact .refused
  · rcases name with _ | name
    · simp [fsIsValidName] at hguard
    · simp only [fsIsValidName, Bool.or_eq_true, not_or, Bool.not_eq_true,
        Bool.not_eq_false'] at hguard
      have hvalid := hguard.1.1.1
      rcases contents with _ | contents
      · exact .refused
      · simp only
        split_ifs with hlength
        · exact .refused
        · rcases hfind : fsFindMutable s.files (some name) with _ | i
          · rcases halloc : fsAllocateSlot s.files with _ | i
            · exact .refused
            · simp only [fsCopyName_some (length_lt_of_fsIsValidText hvalid)]
              -- a cleared cell has room for every accepted length
              have hsize : 0 + kstrlen contents < fsMaxFileSize := by omega
              have hroom :
                  ¬ fsMaxFileSize - 1 - (fsClear (s.files.get i)).size < kstrlen contents := by
                show ¬ fsMaxFileSize - 1 - 0 < kstrlen contents
                omega
              rw [if_neg hroom]
              have hok : CellOk (fsExtend
                  { fsClear (s.files.get i) with inUse := true, name } contents) :=
                cellOk_fsExtend hvalid hsize
              obtain ⟨hedit, heq⟩ := edit_new _ (fsClear (fsExtend
                { fsClear (s.files.get i) with inUse := true, name } contents))
                hwf hfind halloc rfl rfl hok rfl
              refine .edited hedit (heq.trans ?_)
              rw [contents_fsExtend hsize]
              have hnone := fsFindMutable_eq_none_iff.1 hfind
              show _ = FileMap.append s.files.fileMap name contents.bytes
              rw [FileMap.append, hnone]
              rfl
          · obtain ⟨hget, huse, hname, hcontents⟩ := fileMap_of_fsFindMutable hwf.distinct hfind
            simp only
            split_ifs with hroom
            · exact .refused
            · have hlt := (hwf.cellOk _ (List.mem_of_getElem? hget) huse).size_lt
              have hsize : (s.files.get i).size + kstrlen contents < fsMaxFileSize := by omega
              have hok : CellOk (fsExtend (s.files.get i) contents) :=
                cellOk_fsExtend (by rw [hname]; exact hvalid) hsize
              obtain ⟨hedit, heq⟩ :=
                edit_existing (fsExtend (s.files.get i) contents) hwf hfind huse
                hname hok
              refine .edited hedit (heq.trans ?_)
              rw [contents_fsExtend hsize]
              show _ = FileMap.append s.files.fileMap name contents.bytes
              rw [FileMap.append, hcontents]
              rfl

theorem fsRenameInternal_cases (oldName newName : Option CString) (allowSystem : Bool) :
    CallOutcome s
      (FileMap.onName (fun m oldName => newName.elim m (m.rename oldName)) oldName s.files.fileMap)
      (fsRenameInternal oldName newName allowSystem s) := by
  rcases oldName with _ | oldName
  · exact .refused
  rcases newName with _ | newName
  · rw [fsRenameInternal, if_pos (by simp [fsIsValidName])]
    exact .refused
  unfold fsRenameInternal
  rcases hfind : fsFindMutable s.files (some oldName) with _ | i
  · simp only [ite_self]
    exact .refused
  · obtain ⟨hget, huse, hname, -⟩ := fileMap_of_fsFindMutable hwf.distinct hfind
    simp only
    split_ifs with hguard hlog hmanaged htest hartifact hsame hexists
    · exact .refused
    · exact .refused
    · exact .refused
    · exact .refused
    · exact .refused
    · refine .unchanged ?_
      show _ = FileMap.rename s.files.fileMap oldName newName
      rw [FileMap.rename, if_pos (Option.some.inj hsame)]
    · exact .refused
    · simp only [fsIsValidName, Bool.or_eq_true, not_or, Bool.not_eq_true, Bool.not_eq_false']
        at hguard
      have hvalid := hguard.2
      have hne : oldName ≠ newName := fun h => hsame (by rw [h])
      have hnew : fsFindMutable s.files (some newName) = none := by simpa using hexists
      obtain ⟨hedit, heq⟩ := edit_rename hwf hfind hnew hne hvalid
      have hok := hwf.cellOk _ (List.mem_of_getElem? hget) huse
      have hlen := length_lt_of_fsIsValidText hok.name_valid
      -- copying the saved name back restores the cell
      have hrollback : fsCopyName { s.files.get i with name := newName }
          (some ((s.files.get i).name.take (fsMaxFilename - 1))) = s.files.get i := by
        rw [CString.take_of_length_le (Nat.le_sub_one_of_lt hlen), fsCopyName_some hlen]
      rw [fsCopyName_some (length_lt_of_fsIsValidText hvalid), hrollback]
      exact .edited hedit heq

theorem fsRemoveInternal_cases (allowSystem : Bool) :
    CallOutcome s (FileMap.onName FileMap.remove name s.files.fileMap)
      (fsRemoveInternal name allowSystem s) := by
  unfold fsRemoveInternal
  split_ifs
  · exact .refused
  · exact .refused
  · rcases name with _ | name
    · exact .refused
    · rcases hfind : fsFindMutable s.files (some name) with _ | i
      · exact .refused
      · simp only
        split_ifs
        · exact .refused
        · obtain ⟨hedit, heq⟩ := edit_remove hwf hfind
          exact .edited hedit heq

/-- **Everything a mutating call can do.** -/
theorem FsCall.run_cases (call : FsCall) :
    CallOutcome s (call.apply s.files.fileMap) (call.run s) := by
  cases call with
  | touch name => exact fsTouch_cases hwf name
  | writeBytes name contents length =>
    exact fsWriteBytesInternal_cases hwf name contents length false
  | systemWriteBytes name contents length =>
    simp only [run, fsSystemWriteBytes]
    split_ifs
    · exact .refused
    · exact fsWriteBytesInternal_cases hwf name contents length true
  | write name contents =>
    rcases contents with _ | contents
    · exact .refused
    · have h := fsWriteBytesInternal_cases hwf name (some contents.char) (kstrlen contents) false
      rw [show bytesOf (some contents.char) (kstrlen contents) = contents.bytes from
        bytes_eq_map_char contents] at h
      exact h
  | append name contents => exact fsAppend_cases hwf name contents
  | rename oldName newName => exact fsRenameInternal_cases hwf oldName newName false
  | systemRename oldName newName =>
    simp only [run, fsSystemRename]
    split_ifs
    · exact .refused
    · exact fsRenameInternal_cases hwf oldName newName true
  | remove name => exact fsRemoveInternal_cases hwf name false
  | systemRemove name =>
    simp only [run, fsSystemRemove]
    split_ifs
    · exact .refused
    · exact fsRemoveInternal_cases hwf name true

end Calls

end Nostalux.Fs

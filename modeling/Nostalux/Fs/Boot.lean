import Nostalux.Fs.Agreement

/-!
# `kernel/fs.c`: mounting at boot, the self-test and the legacy upgrade

`fsInit` mounts whatever the disk holds.  A view that was loaded is cleaned of names the kernel
keeps for itself (`fsQuarantineSelfTestArtifacts`, `fsQuarantinePhysicalSystemLog`) and brought to
the current format; storage that cannot be loaded is shadowed by a fresh view, which is written out
only over blank storage and then exercised by `fsSelfTest`.

The lemmas here say what each part does to the file table; the runs of the filesystem are the
subject of the next module.
-/

namespace Nostalux.Fs

open List FileTable FsFile

/-- `FS_CONTENT_DISK_VERSION`. -/
abbrev fsContentDiskVersion : UInt32 := 3

/-- `FS_DISK_VERSION`. -/
abbrev fsDiskVersion : UInt32 := 5

/-! ### Quarantine of reserved names -/

/-- The common loop of `fs_recovered_self_test_name` and `fs_recovered_log_name`: `plain` on the
first attempt, and `stem`, the number of the attempt and `suffix` after it. -/
def fsRecoveredName (plain stem suffix : CString) (attempt : ℕ) : CString :=
  let base := (if attempt = 0 then plain else stem).bytes.take (fsMaxFilename - 1)
  if attempt = 0 then CString.ofBytes base
  else
    let tens := if 10 ≤ attempt then [UInt8.ofNat (48 + attempt / 10 % 10)] else []
    let output := base ++ tens ++ [UInt8.ofNat (48 + attempt % 10)]
    CString.ofBytes (output ++ suffix.bytes.take (fsMaxFilename - 1 - output.length))

/-- `fs_recovered_self_test_name`. -/
def fsRecoveredSelfTestName : ℕ → CString :=
  fsRecoveredName (CString.ofString "recovered-fs-test.bin") (CString.ofString "recovered-fs-test-")
    (CString.ofString ".bin")

/-- `fs_recovered_log_name`. -/
def fsRecoveredLogName : ℕ → CString :=
  fsRecoveredName (CString.ofString "recovered-system-log.txt")
    (CString.ofString "recovered-system-log-") (CString.ofString ".txt")

/-- The first recovery name that no file has. -/
def fsUnusedName (recovered : ℕ → CString) (t : FileTable) : Option CString :=
  ((List.range (fsMaxFiles + 1)).map recovered).find? fun candidate =>
    (fsFindMutable t (some candidate)).isNone

/-- Give the file in a cell a recovery name. -/
def fsRecoverCell (recovered : ℕ → CString) (t : FileTable) (i : ℕ) : Bool × FileTable :=
  match fsUnusedName recovered t with
  | some candidate => (true, t.set i (fsCopyName (t.get i) (some candidate)))
  | none => (false, t)

/-- One round of `fs_quarantine_self_test_artifacts`. -/
def fsQuarantineStep (acc : Bool × FileTable) (i : ℕ) : Bool × FileTable :=
  if fsFileIsSelfTestArtifact (acc.2.get i) then
    let (changed, t) := fsRecoverCell fsRecoveredSelfTestName acc.2 i
    (acc.1 || changed, t)
  else acc

/-- `fs_quarantine_self_test_artifacts`. -/
def fsQuarantineSelfTestArtifacts (t : FileTable) : Bool × FileTable :=
  (List.range fsMaxFiles).foldl fsQuarantineStep (false, t)

/-- `fs_quarantine_physical_system_log`. -/
def fsQuarantinePhysicalSystemLog (t : FileTable) : Bool × FileTable :=
  match fsFindMutable t (some systemLogName) with
  | none => (false, t)
  | some i => fsRecoverCell fsRecoveredLogName t i

/-- `fs_clear_self_test_artifacts`. -/
def fsClearSelfTestArtifacts (t : FileTable) : Bool × FileTable :=
  (t.cells.any fsFileIsSelfTestArtifact,
    ⟨t.cells.map fun f => if fsFileIsSelfTestArtifact f then fsClear f else f,
      by simpa using t.length_cells⟩)

/-! ### The virtual log file -/

/-- `fs_activate_virtual_system_log`. -/
def fsActivateVirtualSystemLog (s : FsState) : FsState :=
  { s with
    virtualSystemLog :=
      fsCopyName { fsClear s.virtualSystemLog with inUse := true } (some systemLogName)
    systemLogIsVirtual := true }

/-- `fs_refresh_system_log`, with the text that `syslog_copy_text` returns. -/
def fsRefreshSystemLog (log : CString) (s : FsState) : FsState :=
  if s.systemLogIsVirtual then
    { s with virtualSystemLog := fsFill s.virtualSystemLog (some log.char) (kstrlen log) }
  else s

/-! ### Seeding a fresh view -/

/-- `fs_seed_bytes`. -/
def fsSeedBytes (name : Option CString) (contents : Option (ℕ → UInt8)) (length : ℕ)
    (t : FileTable) : Bool × FileTable :=
  if !fsIsValidName name || (contents.isNone && length ≠ 0) || fsMaxFileSize ≤ length then
    (false, t)
  else
    match fsFindMutable t name with
    | some i => (true, t.set i (fsFill (t.get i) contents length))
    | none =>
      match fsAllocateSlot t with
      | none => (false, t)
      | some i =>
        let target := fsCopyName { t.get i with inUse := true } name
        (true, t.set i (fsFill target contents length))

/-- `fs_seed_file`. -/
def fsSeedFile (name contents : Option CString) (t : FileTable) : Bool × FileTable :=
  match contents with
  | none => (false, t)
  | some contents => fsSeedBytes name (some contents.char) (kstrlen contents) t

/-- `write_u16_le`. -/
def writeU16Le {n : ℕ} (bytes : Buffer n) (off : ℕ) (value : UInt16) : Buffer n :=
  bytes.blit off (Buffer.byteOfWord value.toUInt32) 2

/-- `write_u32_le`. -/
def writeU32Le {n : ℕ} (bytes : Buffer n) (off : ℕ) (value : UInt32) : Buffer n :=
  bytes.blit off (Buffer.byteOfWord value) 4

/-- The blue, green and red of a pixel of the default image. -/
def defaultBmpPixel (x y : ℕ) : UInt8 × UInt8 × UInt8 :=
  let logo := 2 ≤ y && y ≤ 14 && (x = 3 || x = 13 || (y ≤ x + 1 && x ≤ y + 1))
  let border := x = 0 || x = 16 || y = 0 || y = 16
  if logo then (196, 238, 86)
  else if border then (148, 126, 36)
  else (UInt8.ofNat (58 + (x + y) * 2), UInt8.ofNat (28 + y * 4), UInt8.ofNat (12 + x * 3))

/-- Store a pixel: rows run from the bottom, 52 bytes each, behind a head of 54 bytes. -/
def putDefaultBmpPixel (bmp : Buffer 938) (x y : ℕ) : Buffer 938 :=
  let row := 54 + (16 - y) * 52
  let (blue, green, red) := defaultBmpPixel x y
  ((bmp.put (row + x * 3) blue).put (row + x * 3 + 1) green).put (row + x * 3 + 2) red

/-- The head of the default image. -/
def defaultBmpHead : Buffer 938 :=
  let bmp := (Buffer.zero.put 0 66).put 1 77
  let bmp := writeU32Le (writeU32Le bmp 2 938) 10 54
  let bmp := writeU32Le (writeU32Le (writeU32Le bmp 14 40) 18 17) 22 17
  let bmp := writeU32Le (writeU16Le (writeU16Le bmp 26 1) 28 24) 34 884
  writeU32Le (writeU32Le bmp 38 2835) 42 2835

/-- The image that `fs_seed_default_bmp` builds. -/
def defaultBmp : Buffer 938 :=
  (List.range 17).foldl
    (fun bmp y => (List.range 17).foldl (fun bmp x => putDefaultBmpPixel bmp x y) bmp)
      defaultBmpHead

/-- The name of the default image. -/
def defaultBmpName : CString := CString.ofString "nostalux.bmp"

/-- `fs_seed_default_bmp`. -/
def fsSeedDefaultBmp (t : FileTable) : Bool × FileTable :=
  fsSeedBytes (some defaultBmpName) (some defaultBmp.byte) 938 t

/-- The text files of a fresh view. -/
def fsDefaultFiles : List (CString × CString) :=
  [("readme.txt", "NostaluxOS is a retro-themed playground kernel.\nUse 'help' to explore the " ++
      "built-in utilities.\n"),
    ("motd.txt", "Hold fast to curiosity and keep building!\nType 'history' to revisit previous " ++
      "commands.\n"),
    ("colors.map", "Color IDs 0-15 follow the standard IBM PC palette.\nRun 'palette' to preview" ++
      " swatches.\n")].map fun file => (CString.ofString file.1, CString.ofString file.2)

/-- The fresh view that `fs_init` puts in place of storage it cannot load. -/
def fsFreshFiles (t : FileTable) : FileTable :=
  let cleared : FileTable := ⟨t.cells.map fsClear, t.clearAll.length_cells⟩
  let seeded :=
    fsDefaultFiles.foldl (fun t file => (fsSeedFile (some file.1) (some file.2) t).2) cleared
  (fsSeedDefaultBmp seeded).2

/-! ### The self-test -/

/-- `fs_self_test_reload`. -/
def fsSelfTestReload (s : FsState) : Bool × FsState :=
  match fsLoadFromDisk s with
  | (.loaded, s) => (true, { s with backendStatus := .persistent })
  | (result, s) =>
    (false, { s with
      backendStatus :=
        match result with
        | .noDrive => .volatileNoDrive
        | .corrupt | .loadedCorrupt => .volatileCorrupt
        | _ => .volatileIoError
      files := (fsClearSelfTestArtifacts s.files).2
      selfTestActive := false })

/-- `fs_self_test_fail`. -/
def fsSelfTestFail (s : FsState) : FsState :=
  { s with
    backendStatus := .volatileIoError
    files := (fsClearSelfTestArtifacts s.files).2
    selfTestActive := false }

/-- Whether the named file is there and is an artifact of the self-test. -/
def fsHoldsArtifact (t : FileTable) (name : CString) : Bool :=
  (fsFindMutable t (some name)).any fun i => fsFileIsSelfTestArtifact (t.get i)

/-- The last part of `fs_self_test`: the removed file stays away. -/
def fsSelfTestRemove (s : FsState) : FsState :=
  match fsRemove (some selfTestRenamedName) s with
  | (false, s) => fsSelfTestFail s
  | (true, s) =>
    match fsSelfTestReload s with
    | (false, s) => s
    | (true, s) =>
      if (fsFindMutable s.files (some selfTestScratchName)).isSome ||
          (fsFindMutable s.files (some selfTestRenamedName)).isSome then fsSelfTestFail s
      else { s with selfTestActive := false }

/-- The middle part of `fs_self_test`: the renamed file survives a reload. -/
def fsSelfTestRename (s : FsState) : FsState :=
  match fsRename (some selfTestScratchName) (some selfTestRenamedName) s with
  | (false, s) => fsSelfTestFail s
  | (true, s) =>
    if (fsFindMutable s.files (some selfTestScratchName)).isSome then fsSelfTestFail s
    else
      match fsSelfTestReload s with
      | (false, s) => s
      | (true, s) =>
        if (fsFindMutable s.files (some selfTestScratchName)).isSome then fsSelfTestFail s
        else if !fsHoldsArtifact s.files selfTestRenamedName then fsSelfTestFail s
        else fsSelfTestRemove s

/-- `fs_self_test`. -/
def fsSelfTest (s : FsState) : FsState :=
  let s := { s with selfTestActive := true, files := (fsClearSelfTestArtifacts s.files).2 }
  match fsWriteBytes (some selfTestScratchName) (some fun i => fsSelfTestPayload.getD i 0)
      fsSelfTestPayload.length s with
  | (false, s) => fsSelfTestFail s
  | (true, s) =>
    match fsSelfTestReload s with
    | (false, s) => s
    | (true, s) =>
      if !fsHoldsArtifact s.files selfTestScratchName then fsSelfTestFail s
      else fsSelfTestRename s

/-! ### `fs_init` -/

/-- The rename of a physical `system.log` that `fs_init` finds. -/
def fsRecoverSystemLog (t : FileTable) : Bool × FileTable :=
  if (fsFindMutable t (some systemLogName)).isSome then fsQuarantinePhysicalSystemLog t
  else (false, t)

/-- The default image that `fs_init` adds to a trusted view of an old format. -/
def fsInstallDefaultBmp (trusted : Bool) (mountedVersion : UInt32) (t : FileTable) :
    Bool × FileTable :=
  if trusted && mountedVersion < fsContentDiskVersion &&
      (fsFindMutable t (some defaultBmpName)).isNone then fsSeedDefaultBmp t
  else (false, t)

/-- The cleanup of a loaded view: the new table, whether a name was quarantined, and whether the
default image was added. -/
def fsRecoverView (trusted : Bool) (mountedVersion : UInt32) (t : FileTable) :
    FileTable × Bool × Bool :=
  let testFiles := fsQuarantineSelfTestArtifacts t
  let systemLog := fsRecoverSystemLog testFiles.2
  let defaultImage := fsInstallDefaultBmp trusted mountedVersion systemLog.2
  (defaultImage.2, testFiles.1 || systemLog.1, defaultImage.1)

/-- Remove the default image again when its commit failed. -/
def fsDropDefaultBmp (s : FsState) : FsState :=
  match fsFindMutable s.files (some defaultBmpName) with
  | some i => { s with files := s.files.set i (fsClear (s.files.get i)) }
  | none => s

/-- The backend status that `fs_init` gives to a loaded view. -/
def fsMountedStatus (result : FsDiskLoadResult) : FsBackendStatus :=
  if result = .loaded then .persistent
  else if result = .loadedCorrupt then .volatileCorrupt else .volatileIoError

/-- A loaded view after its cleanup. -/
def fsRecovered (result : FsDiskLoadResult) (s : FsState) : FsState :=
  { s with
    backendStatus := fsMountedStatus result
    files := (fsRecoverView (result = .loaded) s.loadedVersion s.files).1 }

/-- `fs_init` after a load that mounted a view. -/
def fsInitMounted (result : FsDiskLoadResult) (s : FsState) : FsState :=
  let trusted : Bool := result = .loaded
  let (_, quarantined, addedDefaultBmp) := fsRecoverView trusted s.loadedVersion s.files
  let needsIntegrityProtectedHeader := trusted && s.loadedVersion < fsDiskVersion
  let metadataChanged := quarantined || addedDefaultBmp || needsIntegrityProtectedHeader
  if trusted && metadataChanged then
    match fsCommitChanges (fsRecovered result s) with
    | (true, s) => s
    | (false, s) => if addedDefaultBmp then fsDropDefaultBmp s else s
  else fsRecovered result s

/-- `fs_init` after a load that mounted nothing. -/
def fsInitFresh (result : FsDiskLoadResult) (s : FsState) : FsState :=
  let s := { s with files := fsFreshFiles s.files }
  match result with
  | .blank =>
    match fsSyncToDisk s with
    | (.committed, s) => fsSelfTest { s with backendStatus := .persistent }
    | (_, s) => { s with backendStatus := .volatileIoError }
  | .noDrive => { s with backendStatus := .volatileNoDrive }
  | .corrupt => { s with backendStatus := .volatileCorrupt }
  | _ => { s with backendStatus := .volatileIoError }

/-- `fs_init`. -/
def fsInit (s : FsState) : FsState :=
  match fsLoadFromDisk (fsActivateVirtualSystemLog s) with
  | (result, s) => if result.mounted then fsInitMounted result s else fsInitFresh result s

/-! ### The legacy upgrade -/

/-- `fs_legacy_upgrade_result_t`. -/
inductive FsLegacyUpgradeResult
  | succeeded
  | notAvailable
  | confirmationRequired
  | failed
  | uncertain
  deriving DecidableEq

/-- `FS_LEGACY_UPGRADE_CONFIRMATION`. -/
def fsLegacyUpgradeConfirmation : CString := CString.ofString "CONFIRM-LEGACY-SNAPSHOT"

/-- `fs_upgrade_legacy_snapshot`. -/
def fsUpgradeLegacySnapshot (confirmation : Option CString) (s : FsState) :
    FsLegacyUpgradeResult × FsState :=
  if s.legacyUpgradeStatus ≠ .available ∨ s.backendStatus ≠ .volatileCorrupt ∨
      fsSlotCount ≤ s.activeSlot ∨ fsDiskVersion ≤ s.loadedVersion then (.notAvailable, s)
  else if !confirmation.any fun text => kstrcmp text fsLegacyUpgradeConfirmation = 0 then
    (.confirmationRequired, s)
  else
    match fsSyncToDiskVerified true s with
    | (.committed, s) =>
      (.succeeded, { s with backendStatus := .persistent, legacyUpgradeStatus := .unavailable })
    | (.uncertain, s) => (.uncertain, { s with legacyUpgradeStatus := .outcomeUncertain })
    | (.failed, s) => (.failed, s)

/-! ### Reading calls -/

/-- Whether a cell is shown to callers. -/
def fsIsListed (s : FsState) (f : FsFile) : Bool :=
  f.inUse && !fsFileIsSelfTestArtifact f &&
    !(s.systemLogIsVirtual && fsNameIsSystemLog (some f.name))

/-- `fs_file_count`. -/
def fsFileCount (s : FsState) : ℕ :=
  s.files.cells.countP (fsIsListed s) + if s.systemLogIsVirtual then 1 else 0

/-- `fs_file_at`. -/
def fsFileAt (index : ℕ) (log : CString) (s : FsState) : Option FsFile × FsState :=
  let listed := s.files.cells.filter (fsIsListed s)
  if index < listed.length then (listed[index]?, s)
  else if s.systemLogIsVirtual && index = listed.length then
    let s := fsRefreshSystemLog log s
    (some s.virtualSystemLog, s)
  else (none, s)

/-- `fs_find`. -/
def fsFind (name : Option CString) (log : CString) (s : FsState) : Option FsFile × FsState :=
  if fsNameIsSystemLog name && s.systemLogIsVirtual then
    let s := fsRefreshSystemLog log s
    (some s.virtualSystemLog, s)
  else
    match fsFindMutable s.files name with
    | none => (none, s)
    | some i => (if fsFileIsSelfTestArtifact (s.files.get i) then none else some (s.files.get i), s)

/-! ### The recovered view is sound -/

theorem inUse_of_artifact {f : FsFile} (h : fsFileIsSelfTestArtifact f = true) :
    f.inUse = true := by
  simp only [fsFileIsSelfTestArtifact, Bool.and_eq_true] at h
  exact h.1.1.1

variable {t : FileTable}

theorem getElem?_of_inUse {i : ℕ} (h : (t.get i).inUse = true) : t.cells[i]? = some (t.get i) := by
  cases hget : t.cells[i]? with
  | none =>
    rw [FileTable.get, getD_eq_getElem?_getD, hget] at h
    cases h
  | some f => rw [get_of_getElem? hget]

theorem fsUnusedName_eq_some {recovered : ℕ → CString} {candidate : CString}
    (h : fsUnusedName recovered t = some candidate) :
    (∃ attempt ≤ fsMaxFiles, recovered attempt = candidate) ∧
      fsFindMutable t (some candidate) = none := by
  have hmem := mem_of_find?_eq_some h
  have hfree := find?_some h
  obtain ⟨attempt, hattempt, heq⟩ := mem_map.1 hmem
  exact ⟨⟨attempt, Nat.le_of_lt_succ (mem_range.1 hattempt), heq⟩,
    Option.isNone_iff_eq_none.1 hfree⟩

theorem fsIsValidText_fsRecoveredSelfTestName :
    ∀ attempt ≤ fsMaxFiles,
    fsIsValidText (fsRecoveredSelfTestName attempt) = true := by decide +kernel

theorem fsIsValidText_fsRecoveredLogName :
    ∀ attempt ≤ fsMaxFiles, fsIsValidText (fsRecoveredLogName attempt) = true := by decide +kernel

section Recover

variable {recovered : ℕ → CString} {t : FileTable} {i : ℕ}

/-- What giving a file a recovery name does: nothing, or a rename in place. -/
theorem fsRecoverCell_cases (hvalid : ∀ n ≤ fsMaxFiles, fsIsValidText (recovered n) = true)
    (hwf : t.WellFormed) (huse : (t.get i).inUse = true) :
    fsRecoverCell recovered t i = (false, t) ∨
      ∃ candidate, Edit t i (t.get i) { t.get i with name := candidate } (t.get i) ∧
        fsRecoverCell recovered t i = (true, t.set i { t.get i with name := candidate }) ∧
        (t.set i { t.get i with name := candidate }).fileMap =
          FileMap.rename t.fileMap (t.get i).name candidate := by
  unfold fsRecoverCell
  cases hname : fsUnusedName recovered t with
  | none => exact .inl rfl
  | some candidate =>
    obtain ⟨⟨n, hn, rfl⟩, hfree⟩ := fsUnusedName_eq_some hname
    have hget := getElem?_of_inUse huse
    have hfind : fsFindMutable t (some (t.get i).name) = some i :=
      (fsFindMutable_eq_some_iff hwf.distinct).2 ⟨_, hget, huse, rfl⟩
    have hne : (t.get i).name ≠ recovered n := by
      intro heq
      rw [heq, hfree] at hfind
      cases hfind
    obtain ⟨hedit, hmap⟩ := edit_rename hwf hfind hfree hne (hvalid n hn)
    refine .inr ⟨_, hedit, ?_, hmap⟩
    simp only
    rw [fsCopyName_some (length_lt_of_fsIsValidText (hvalid n hn))]

/-- A predicate on sizes that every file satisfies. -/
def FileTable.SizesIn (P : ℕ → Prop) (t : FileTable) : Prop :=
  ∀ f ∈ t.cells, f.inUse = true → P f.size

variable {P : ℕ → Prop}

theorem FileTable.SizesIn.set {f : FsFile} (h : t.SizesIn P)
    (hf : f.inUse = true → P f.size) : (t.set i f).SizesIn P := by
  intro g hg huse
  rcases mem_or_eq_of_mem_set hg with hg | rfl
  · exact h g hg huse
  · exact hf huse

/-- A recovery name keeps the invariant and the sizes of the files. -/
theorem wellFormed_fsRecoverCell (hvalid : ∀ n ≤ fsMaxFiles, fsIsValidText (recovered n) = true)
    (hwf : t.WellFormed ∧ t.SizesIn P) (huse : (t.get i).inUse = true) :
    (fsRecoverCell recovered t i).2.WellFormed ∧ (fsRecoverCell recovered t i).2.SizesIn P := by
  have hget := getElem?_of_inUse huse
  rcases fsRecoverCell_cases hvalid hwf.1 huse with heq | ⟨candidate, hedit, heq, -⟩
  · rw [heq]
    exact hwf
  · rw [heq]
    have hsum := recordsNeeded_set hget { t.get i with name := candidate }
    have hsame : records { t.get i with name := candidate } = (t.get i).records := rfl
    have hbudget := hwf.1.budget
    refine ⟨hedit.wellFormed hwf.1 (by omega), hwf.2.set fun _ => ?_⟩
    exact hwf.2 (t.get i) (mem_of_getElem? hget) huse

theorem wellFormed_fsQuarantineSelfTestArtifacts (hwf : t.WellFormed ∧ t.SizesIn P) :
    (fsQuarantineSelfTestArtifacts t).2.WellFormed ∧
      (fsQuarantineSelfTestArtifacts t).2.SizesIn P := by
  refine foldlRecOn
    (motive := fun acc : Bool × FileTable => acc.2.WellFormed ∧ acc.2.SizesIn P) _ _ hwf ?_
  intro acc hacc i _
  unfold fsQuarantineStep
  split_ifs with hartifact
  · exact wellFormed_fsRecoverCell fsIsValidText_fsRecoveredSelfTestName hacc
      (inUse_of_artifact hartifact)
  · exact hacc

theorem wellFormed_fsQuarantinePhysicalSystemLog (hwf : t.WellFormed ∧ t.SizesIn P) :
    (fsQuarantinePhysicalSystemLog t).2.WellFormed ∧
      (fsQuarantinePhysicalSystemLog t).2.SizesIn P := by
  unfold fsQuarantinePhysicalSystemLog
  cases hfind : fsFindMutable t (some systemLogName) with
  | none => exact hwf
  | some i =>
    obtain ⟨-, huse, -, -⟩ := fileMap_of_fsFindMutable hwf.1.distinct hfind
    exact wellFormed_fsRecoverCell fsIsValidText_fsRecoveredLogName hwf huse

end Recover

/-- Clearing cells keeps the invariant. -/
theorem wellFormed_fsClearSelfTestArtifacts (hwf : t.WellFormed) :
    (fsClearSelfTestArtifacts t).2.WellFormed := by
  have hkey : ∀ (f : FsFile) k, SlotMap.key entry
      (if fsFileIsSelfTestArtifact f then fsClear f else f) = some k →
      SlotMap.key entry f = some k := by
    intro f k hk
    split_ifs at hk
    · rw [SlotMap.key, entry_fsClear] at hk
      cases hk
    · exact hk
  refine ⟨fun f hf huse => ?_, ?_, ?_⟩
  · obtain ⟨g, hg, rfl⟩ := mem_map.1 hf
    split_ifs at huse ⊢
    · cases huse
    · exact hwf.cellOk g hg huse
  · intro i j a b k hi hj ha hb
    simp only [fsClearSelfTestArtifacts, getElem?_map, Option.map_eq_some_iff] at hi hj
    obtain ⟨f, hf, rfl⟩ := hi
    obtain ⟨g, hg, rfl⟩ := hj
    exact hwf.distinct i j f g k hf hg (hkey f k ha) (hkey g k hb)
  · refine le_trans ?_ hwf.budget
    simp only [recordsNeeded, fsClearSelfTestArtifacts, map_map]
    refine sum_le_sum fun f _ => ?_
    simp only [Function.comp_apply]
    split_ifs
    · exact Nat.zero_le _
    · exact le_rfl

/-! ### The seeded view is sound -/

section Seed

variable (name : CString) (contents : Option (ℕ → UInt8)) (length : ℕ) {t : FileTable}

/-- What seeding a file does: nothing, or one edit. -/
theorem fsSeedBytes_cases (hwf : t.WellFormed) :
    fsSeedBytes (some name) contents length t = (false, t) ∨
      ∃ i file rollback, fsSeedBytes (some name) contents length t = (true, t.set i file) ∧
        Edit t i (t.get i) file rollback ∧ file.inUse = true ∧ file.name = name ∧
        file.size = length ∧
        (t.set i file).fileMap = FileMap.write t.fileMap name (bytesOf contents length) := by
  unfold fsSeedBytes
  split_ifs with hguard
  · exact .inl rfl
  simp only [Bool.or_eq_true, Bool.not_eq_true', decide_eq_true_iff, not_or, Bool.not_eq_false,
    not_le] at hguard
  obtain ⟨⟨hname, -⟩, hlength⟩ := hguard
  have hvalid : fsIsValidText name = true := hname
  cases hfind : fsFindMutable t (some name) with
  | some i =>
    obtain ⟨-, huse, hold, -⟩ := fileMap_of_fsFindMutable hwf.distinct hfind
    obtain ⟨hedit, hmap⟩ := edit_existing (fsFill (t.get i) contents length) hwf hfind huse hold
      (cellOk_fsFill (by rw [hold]; exact hvalid) hlength)
    rw [contents_fsFill hlength] at hmap
    exact .inr ⟨i, _, _, rfl, hedit, huse, hold, rfl, hmap⟩
  | none =>
    cases halloc : fsAllocateSlot t with
    | none => exact .inl rfl
    | some i =>
      have hcopy := fsCopyName_some (f := { t.get i with inUse := true })
        (length_lt_of_fsIsValidText hvalid)
      simp only
      rw [hcopy]
      obtain ⟨hedit, hmap⟩ := edit_new
        (fsFill { t.get i with inUse := true, name := name } contents length) zero hwf hfind
        halloc rfl rfl (cellOk_fsFill hvalid hlength) rfl
      rw [contents_fsFill hlength] at hmap
      exact .inr ⟨i, _, _, rfl, hedit, rfl, rfl, rfl, hmap⟩

/-- Seeding within the record budget keeps the invariant and every other file. -/
theorem wellFormed_fsSeedBytes (hwf : t.WellFormed)
    (hbudget : t.recordsNeeded + fsDiskRecordsNeeded length ≤ fsMaxFiles) :
    (fsSeedBytes (some name) contents length t).2.WellFormed ∧
      (fsSeedBytes (some name) contents length t).2.recordsNeeded ≤
        t.recordsNeeded + fsDiskRecordsNeeded length ∧
      ∀ k, k ≠ name →
        (fsSeedBytes (some name) contents length t).2.fileMap k = t.fileMap k := by
  rcases fsSeedBytes_cases name contents length hwf with
    heq | ⟨i, file, rollback, heq, hedit, huse, -, hsize, hmap⟩
  · rw [heq]
    exact ⟨hwf, Nat.le_add_right _ _, fun _ _ => rfl⟩
  · rw [heq]
    have hsum := recordsNeeded_set hedit.get file
    have hrecords : file.records = fsDiskRecordsNeeded length := by
      rw [records, if_pos huse, hsize]
    refine ⟨hedit.wellFormed hwf (by omega), ?_, fun k hk => ?_⟩
    · dsimp only
      omega
    · dsimp only
      rw [hmap, FileMap.write, Function.update_of_ne hk]

end Seed

/-- Every text file that is seeded takes at most one more record and leaves the others alone. -/
theorem wellFormed_seedFiles (files : List (CString × CString)) {n : ℕ}
    (hwf : t.WellFormed) (hn : t.recordsNeeded ≤ n) (hroom : n + files.length ≤ fsMaxFiles)
    (hsize : ∀ file ∈ files, kstrlen file.2 ≤ fsDiskDataBytes) :
    (files.foldl (fun t file => (fsSeedFile (some file.1) (some file.2) t).2) t).WellFormed ∧
      (files.foldl (fun t file => (fsSeedFile (some file.1) (some file.2) t).2) t).recordsNeeded ≤
        n + files.length ∧
      ∀ k ∉ files.map Prod.fst,
        (files.foldl (fun t file => (fsSeedFile (some file.1) (some file.2) t).2) t).fileMap k =
          t.fileMap k := by
  induction files generalizing t n with
  | nil => exact ⟨hwf, hn, fun _ _ => rfl⟩
  | cons file files ih =>
    rw [length_cons] at hroom
    have hone := fsDiskRecordsNeeded_le_one (hsize file mem_cons_self)
    obtain ⟨hwf', hn', hmap'⟩ := wellFormed_fsSeedBytes file.1 (some file.2.char)
      (kstrlen file.2) hwf (by omega)
    obtain ⟨hrest, hsum, hmap⟩ := ih hwf' (show _ ≤ n + 1 by omega) (by omega) fun g hg =>
      hsize g (mem_cons_of_mem _ hg)
    rw [foldl_cons, length_cons, Nat.add_comm files.length 1, ← Nat.add_assoc]
    refine ⟨hrest, hsum, fun k hk => ?_⟩
    rw [map_cons, mem_cons, not_or] at hk
    exact (hmap k hk.2).trans (hmap' k hk.1)

/-- The fresh view has four files of one record each, and no others. -/
theorem fsFreshFiles_spec (t : FileTable) : (fsFreshFiles t).WellFormed ∧
    ∀ k ∉ defaultBmpName :: fsDefaultFiles.map Prod.fst, (fsFreshFiles t).fileMap k = none := by
  have hclear : ∀ f ∈ t.cells.map fsClear, f.inUse = false := by
    intro f hf
    obtain ⟨g, -, rfl⟩ := mem_map.1 hf
    rfl
  have hcleared := wellFormed_of_unused
    (t := ⟨t.cells.map fsClear, t.clearAll.length_cells⟩) hclear
  have hzero : ((t.cells.map fsClear).map records).sum = 0 := by
    refine sum_eq_zero fun n hn => ?_
    obtain ⟨f, hf, rfl⟩ := mem_map.1 hn
    simp [records, hclear f hf]
  obtain ⟨htexts, hthree, hothers⟩ :=
    wellFormed_seedFiles fsDefaultFiles hcleared hzero.le (by decide) (by decide +kernel)
  have hlength : fsDefaultFiles.length = 3 := rfl
  have hbmp := fsDiskRecordsNeeded_le_one (show 938 ≤ fsDiskDataBytes by decide)
  obtain ⟨hwf, -, himage⟩ := wellFormed_fsSeedBytes defaultBmpName (some defaultBmp.byte) 938 htexts
    (show _ ≤ 32 by omega)
  refine ⟨hwf, fun k hk => ?_⟩
  rw [mem_cons, not_or] at hk
  refine (himage k hk.1).trans ((hothers k hk.2).trans ?_)
  rw [fileMap, SlotMap.lookup_eq_none_iff]
  intro f hf
  rw [ne_eq, key_entry_eq_some_iff, hclear f hf]
  exact fun h => Bool.false_ne_true h.1

/-! ### The cleanup of a loaded view -/

/-- Files of at most one record each always fit. -/
theorem recordsNeeded_le_of_sizesIn (h : t.SizesIn (· ≤ fsDiskDataBytes)) :
    t.recordsNeeded ≤ fsMaxFiles := by
  have hone : ∀ n ∈ t.cells.map records, n ≤ 1 := by
    intro n hn
    obtain ⟨f, hf, rfl⟩ := mem_map.1 hn
    unfold records
    split_ifs with huse
    · exact fsDiskRecordsNeeded_le_one (h f hf huse)
    · exact Nat.zero_le 1
  have hsum := sum_le_card_nsmul _ 1 hone
  rwa [length_map, t.length_cells, nsmul_eq_mul, mul_one] at hsum

section

variable (trusted : Bool) (version : UInt32) (hwf : t.WellFormed)
  (hsizes : version < fsContentDiskVersion → t.SizesIn (· ≤ fsDiskDataBytes))
include hwf hsizes

/-- The default image is added only to a view of an old format, whose files take one record each, so
that it cannot exceed the budget. -/
theorem wellFormed_fsInstallDefaultBmp : (fsInstallDefaultBmp trusted version t).2.WellFormed := by
  unfold fsInstallDefaultBmp
  split_ifs with hseed
  · simp only [Bool.and_eq_true, decide_eq_true_iff] at hseed
    obtain ⟨⟨-, hversion⟩, -⟩ := hseed
    unfold fsSeedDefaultBmp
    rcases fsSeedBytes_cases defaultBmpName (some defaultBmp.byte) 938 hwf with
      heq | ⟨i, file, rollback, heq, hedit, huse, -, hsize, -⟩
    · rw [heq]
      exact hwf
    · rw [heq]
      refine hedit.wellFormed hwf
        (recordsNeeded_le_of_sizesIn ((hsizes hversion).set fun _ => ?_))
      rw [hsize]
      decide
  · exact hwf

/-- **The cleanup keeps the invariant.** -/
theorem wellFormed_fsRecoverView : (fsRecoverView trusted version t).1.WellFormed := by
  let P : ℕ → Prop := fun n => version < fsContentDiskVersion → n ≤ fsDiskDataBytes
  have hP : t.SizesIn P := fun f hf huse hversion => hsizes hversion f hf huse
  have hfirst := wellFormed_fsQuarantineSelfTestArtifacts ⟨hwf, hP⟩
  have hsecond : ∀ {u : FileTable}, u.WellFormed ∧ u.SizesIn P →
      (fsRecoverSystemLog u).2.WellFormed ∧ (fsRecoverSystemLog u).2.SizesIn P := by
    intro u hu
    unfold fsRecoverSystemLog
    split_ifs
    · exact wellFormed_fsQuarantinePhysicalSystemLog hu
    · exact hu
  obtain ⟨hwf₂, hP₂⟩ := hsecond hfirst
  exact wellFormed_fsInstallDefaultBmp trusted version hwf₂ fun hversion f hf huse =>
    hP₂ f hf huse hversion

end

theorem fsRecoverCell_of_false {recovered : ℕ → CString} {i : ℕ}
    (h : (fsRecoverCell recovered t i).1 = false) : (fsRecoverCell recovered t i).2 = t := by
  unfold fsRecoverCell at h ⊢
  cases hname : fsUnusedName recovered t with
  | none => rfl
  | some candidate =>
    rw [hname] at h
    cases h

/-- When the cleanup reports no change it makes none. -/
theorem fsRecoverView_of_unchanged {trusted : Bool} {version : UInt32}
    (h : (fsRecoverView trusted version t).2 = (false, false)) :
    (fsRecoverView trusted version t).1 = t := by
  have hfold : (fsQuarantineSelfTestArtifacts t).1 = false →
      (fsQuarantineSelfTestArtifacts t).2 = t := by
    refine foldlRecOn (motive := fun acc : Bool × FileTable => acc.1 = false → acc.2 = t) _ _
      (fun _ => rfl) ?_
    intro acc hacc i _ hfalse
    unfold fsQuarantineStep at hfalse ⊢
    split_ifs at hfalse ⊢
    · simp only [Bool.or_eq_false_iff] at hfalse
      exact (fsRecoverCell_of_false hfalse.2).trans (hacc hfalse.1)
    · exact hacc hfalse
  have hlog : ∀ u : FileTable, (fsRecoverSystemLog u).1 = false → (fsRecoverSystemLog u).2 = u := by
    intro u hfalse
    unfold fsRecoverSystemLog fsQuarantinePhysicalSystemLog at hfalse ⊢
    cases hfind : fsFindMutable u (some systemLogName) with
    | none => rfl
    | some i =>
      rw [hfind] at hfalse
      exact fsRecoverCell_of_false hfalse
  have hseed : ∀ u : FileTable, (fsInstallDefaultBmp trusted version u).1 = false →
      (fsInstallDefaultBmp trusted version u).2 = u := by
    intro u hfalse
    unfold fsInstallDefaultBmp fsSeedDefaultBmp fsSeedBytes at hfalse ⊢
    split_ifs at hfalse ⊢
    · rfl
    · cases hfind : fsFindMutable u (some defaultBmpName) with
      | some i =>
        rw [hfind] at hfalse
        cases hfalse
      | none =>
        cases halloc : fsAllocateSlot u with
        | none => rfl
        | some i =>
          rw [hfind, halloc] at hfalse
          cases hfalse
    · rfl
  unfold fsRecoverView at h ⊢
  simp only [Prod.mk.injEq, Bool.or_eq_false_iff] at h ⊢
  obtain ⟨⟨hfirst, hsecond⟩, hthird⟩ := h
  rw [hseed _ hthird, hlog _ hsecond, hfold hfirst]

/-- Everything `fs_init` can do with a loaded view: keep the cleaned view, which is the loaded one
if it is trusted, or commit it. -/
inductive InitMountedOutcome (result : FsDiskLoadResult) (s : FsState) : FsState → Prop
  | kept (hsame : result = .loaded → (fsRecovered result s).files = s.files) :
      InitMountedOutcome result s (fsRecovered result s)
  | committed {s' : FsState} (hloaded : result = .loaded)
      (hcommit : CommitOutcome (fsRecovered result s) true s') : InitMountedOutcome result s s'
  | refused {s' : FsState} (hloaded : result = .loaded)
      (hcommit : CommitOutcome (fsRecovered result s) false s') (drop : Bool) :
      InitMountedOutcome result s (if drop then fsDropDefaultBmp s' else s')

theorem fsInitMounted_cases (result : FsDiskLoadResult) (s : FsState) :
    InitMountedOutcome result s (fsInitMounted result s) := by
  have hcases := fsCommitChanges_cases (fsRecovered result s)
  unfold fsInitMounted
  simp only
  by_cases hloaded : result = .loaded
  · subst hloaded
    split
    · rcases hcommit : fsCommitChanges (fsRecovered .loaded s) with ⟨_ | _, s'⟩ <;>
        rw [hcommit] at hcases
      · exact .refused rfl hcases _
      · exact .committed rfl hcases
    · next hchanged =>
      refine .kept fun _ => fsRecoverView_of_unchanged ?_
      simp only [decide_true, Bool.true_and, Bool.or_eq_true, not_or, Bool.not_eq_true] at hchanged
      exact Prod.ext hchanged.1.1 hchanged.1.2
  · rw [if_neg (by simp [hloaded])]
    exact .kept fun h => absurd h hloaded

end Nostalux.Fs

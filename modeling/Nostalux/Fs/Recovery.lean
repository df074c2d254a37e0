import Nostalux.Fs.Requests

/-!
# Recovery names

`fs_init` gives a file whose name the kernel keeps for itself another name, in place.

* `exists_fsUnusedName`: one of the candidates is always free;
* `cleaned_fsRecoverSystemLog`: after both renames every file is where it was, with its bytes;
* `recovery_keeps_files`: what `fs_init` leaves of a loaded table, whatever the device answers.
-/

namespace Nostalux.Fs

open List Option Bool

variable {t t' : FileTable}

/-! ### The candidates -/

/-- The recovery names that are tried for a name. -/
def candidates (recovered : ℕ → CString) : List CString :=
  (List.range (fsMaxFiles + 1)).map recovered

/-- There is one candidate more than there are files. -/
theorem exists_fsUnusedName {recovered : ℕ → CString} (hnodup : (candidates recovered).Nodup)
    (t : FileTable) : ∃ candidate, fsUnusedName recovered t = some candidate := by
  refine ne_none_iff_exists'.1 fun hnone => ?_
  have htaken : candidates recovered ⊆ t.cells.map FsFile.name := by
    intro candidate hmem
    have hfound := find?_eq_none.1 hnone candidate hmem
    obtain ⟨i, hi⟩ : ∃ i, fsFindMutable t (some candidate) = some i :=
      ne_none_iff_exists'.1 fun h => hfound (isNone_iff_eq_none.2 h)
    obtain ⟨f, hf, -, hname⟩ := fsFindMutable_eq_some hi
    exact mem_map.2 ⟨f, mem_of_getElem? hf, hname⟩
  have hlength := (subperm_of_subset hnodup htaken).length_le
  rw [candidates, length_map, length_map, length_range, t.length_cells] at hlength
  omega

theorem nodup_selfTestCandidates : (candidates fsRecoveredSelfTestName).Nodup := by decide +kernel

theorem nodup_logCandidates : (candidates fsRecoveredLogName).Nodup := by decide +kernel

/-- The recovery names. -/
def recoveryNames : List CString :=
  candidates fsRecoveredSelfTestName ++ candidates fsRecoveredLogName

/-- A recovery name is not a name that the kernel keeps for itself. -/
theorem recoveryNames_free : ∀ name ∈ recoveryNames,
    fsNameIsSelfTestFile (some name) = false ∧ name ≠ systemLogName := by decide +kernel

/-! ### Cells -/

theorem get_set_self {i : ℕ} (hi : i < fsMaxFiles) (f : FsFile) : (t.set i f).get i = f := by
  rw [FileTable.get, FileTable.cells_set, getD_eq_getElem?_getD,
    getElem?_set_self (t.length_cells ▸ hi)]
  rfl

theorem get_set_of_ne {i j : ℕ} (hne : j ≠ i) (f : FsFile) : (t.set i f).get j = t.get j := by
  rw [FileTable.get, FileTable.cells_set, getD_eq_getElem?_getD, getElem?_set_ne hne.symm,
    FileTable.get, getD_eq_getElem?_getD]

theorem lt_of_inUse {i : ℕ} (h : (t.get i).inUse = true) : i < fsMaxFiles := by
  obtain ⟨hi, -⟩ := List.getElem?_eq_some_iff.1 (getElem?_of_inUse h)
  exact t.length_cells ▸ hi

theorem exists_get_of_mem {f : FsFile} (h : f ∈ t.cells) : ∃ i < fsMaxFiles, t.get i = f := by
  obtain ⟨i, hi⟩ := getElem?_of_mem h
  obtain ⟨hlt, -⟩ := List.getElem?_eq_some_iff.1 hi
  exact ⟨i, t.length_cells ▸ hlt, FileTable.get_of_getElem? hi⟩

/-- A file with a name that the kernel keeps for itself. -/
def Quarantined (f : FsFile) : Prop :=
  fsFileIsSelfTestArtifact f = true ∨ f.inUse = true ∧ f.name = systemLogName

/-- A cell is kept, or only the name of its file is changed, to a recovery name. -/
inductive Kept (quarantined : FsFile → Prop) (old : FsFile) : FsFile → Prop
  | same (hfree : ¬quarantined old) : Kept quarantined old old
  | renamed {name : CString} (hquarantined : quarantined old) (hname : name ∈ recoveryNames) :
      Kept quarantined old { old with name }

/-- The file in a cell gets a recovery name. -/
theorem fsRecoverCell_eq {recovered : ℕ → CString} (hnodup : (candidates recovered).Nodup)
    (hvalid : ∀ n ≤ fsMaxFiles, fsIsValidText (recovered n) = true) (t : FileTable) (i : ℕ) :
    ∃ name ∈ candidates recovered,
      fsRecoverCell recovered t i = (true, t.set i { t.get i with name }) := by
  obtain ⟨name, hname⟩ := exists_fsUnusedName hnodup t
  obtain ⟨⟨n, hn, rfl⟩, -⟩ := fsUnusedName_eq_some hname
  refine ⟨recovered n, mem_map.2 ⟨n, mem_range.2 (Nat.lt_succ_of_le hn), rfl⟩, ?_⟩
  unfold fsRecoverCell
  rw [hname]
  dsimp only
  rw [fsCopyName_some (length_lt_of_fsIsValidText (hvalid n hn))]

/-! ### Artifacts of the self-test -/

/-- The first `n` cells have been looked at. -/
structure Rounds (t : FileTable) (n : ℕ) (t' : FileTable) : Prop where
  wellFormed : t'.WellFormed
  ahead : ∀ i, n ≤ i → t'.get i = t.get i
  done : ∀ i < n, Kept (fsFileIsSelfTestArtifact · = true) (t.get i) (t'.get i)

theorem Rounds.step {n : ℕ} (h : Rounds t n t') (changed : Bool) :
    Rounds t (n + 1) (fsQuarantineStep (changed, t') n).2 := by
  have hcell := h.ahead n le_rfl
  unfold fsQuarantineStep
  split
  next hartifact =>
    have huse := inUse_of_artifact hartifact
    obtain ⟨name, hname, heq⟩ := fsRecoverCell_eq nodup_selfTestCandidates
      fsIsValidText_fsRecoveredSelfTestName t' n
    have hwf := (wellFormed_fsRecoverCell fsIsValidText_fsRecoveredSelfTestName
      (P := fun _ => True) ⟨h.wellFormed, fun _ _ _ => trivial⟩ huse).1
    rw [heq] at hwf ⊢
    refine ⟨hwf, fun i hi => ?_, fun i hi => ?_⟩
    · rw [get_set_of_ne (by omega)]
      exact h.ahead i (by omega)
    · by_cases hin : i = n
      · subst hin
        rw [get_set_self (lt_of_inUse huse), hcell]
        exact .renamed (hcell ▸ hartifact) (mem_append_left _ hname)
      · rw [get_set_of_ne hin]
        exact h.done i (by omega)
  next hkept =>
    refine ⟨h.wellFormed, fun i hi => h.ahead i (by omega), fun i hi => ?_⟩
    by_cases hin : i = n
    · subst hin
      rw [hcell] at hkept ⊢
      exact .same hkept
    · exact h.done i (by omega)

theorem rounds_range (hwf : t.WellFormed) (n : ℕ) :
    Rounds t n ((range n).foldl fsQuarantineStep (false, t)).2 := by
  induction n with
  | zero => exact ⟨hwf, fun _ _ => rfl, fun _ hi => absurd hi (Nat.not_lt_zero _)⟩
  | succ n ih =>
    rw [range_succ, foldl_append]
    exact ih.step _

/-! ### A physical `system.log` -/

/-- Both kinds of files have got recovery names. -/
structure Cleaned (t t' : FileTable) : Prop where
  wellFormed : t'.WellFormed
  kept : ∀ i < fsMaxFiles, Kept Quarantined (t.get i) (t'.get i)

theorem not_artifact_of_name {f : FsFile} (h : fsNameIsSelfTestFile (some f.name) = false) :
    ¬fsFileIsSelfTestArtifact f = true := by
  intro hartifact
  simp only [fsFileIsSelfTestArtifact, and_eq_true] at hartifact
  rw [h] at hartifact
  exact absurd hartifact.1.1.2 false_ne_true

/-- The first rename leaves a file that is called `system.log` alone. -/
theorem eq_of_systemLog {old new : FsFile} (h : Kept (fsFileIsSelfTestArtifact · = true) old new)
    (hname : new.name = systemLogName) : new = old ∧ ¬fsFileIsSelfTestArtifact old = true := by
  cases h with
  | same hfree => exact ⟨rfl, hfree⟩
  | renamed _ hmem => exact absurd hname (recoveryNames_free _ hmem).2

/-- **Both renames.** -/
theorem cleaned_fsRecoverSystemLog (hwf : t.WellFormed) :
    Cleaned t (fsRecoverSystemLog (fsQuarantineSelfTestArtifacts t).2).2 := by
  have hrounds : Rounds t fsMaxFiles (fsQuarantineSelfTestArtifacts t).2 :=
    rounds_range hwf fsMaxFiles
  generalize (fsQuarantineSelfTestArtifacts t).2 = t₁ at hrounds
  -- a cell that the second rename leaves alone, since its file is not called `system.log`
  have hkeep {i : ℕ} (hi : i < fsMaxFiles)
      (hfree : ¬((t₁.get i).inUse = true ∧ (t₁.get i).name = systemLogName)) :
      Kept Quarantined (t.get i) (t₁.get i) := by
    have hdone := hrounds.done i hi
    revert hdone hfree
    generalize t₁.get i = new
    rintro hfree (hsame | ⟨hartifact, hname⟩)
    · exact .same fun hq => hq.elim hsame hfree
    · exact .renamed (.inl hartifact) hname
  unfold fsRecoverSystemLog fsQuarantinePhysicalSystemLog
  cases hfind : fsFindMutable t₁ (some systemLogName) with
  | none =>
    refine ⟨hrounds.wellFormed, fun i hi => hkeep hi fun hlog => ?_⟩
    have hfound := (fsFindMutable_eq_some_iff hrounds.wellFormed.distinct).2
      ⟨_, getElem?_of_inUse hlog.1, hlog.1, hlog.2⟩
    rw [hfind] at hfound
    exact nomatch hfound
  | some k =>
    obtain ⟨f, hf, huse, hname⟩ := fsFindMutable_eq_some hfind
    have hget := FileTable.get_of_getElem? hf
    rw [← hget] at huse hname
    have hk := lt_of_inUse huse
    obtain ⟨name, hmem, heq⟩ :=
      fsRecoverCell_eq nodup_logCandidates fsIsValidText_fsRecoveredLogName
      t₁ k
    have hwf₂ := (wellFormed_fsRecoverCell fsIsValidText_fsRecoveredLogName
      (P := fun _ => True) ⟨hrounds.wellFormed, fun _ _ _ => trivial⟩ huse).1
    rw [isSome_some, if_pos rfl]
    dsimp only
    rw [heq] at hwf₂ ⊢
    refine ⟨hwf₂, fun i hi => ?_⟩
    by_cases hik : i = k
    · subst hik
      obtain ⟨hsame, hfree⟩ := eq_of_systemLog (hrounds.done i hi) hname
      rw [get_set_self hk, hsame]
      rw [hsame] at huse hname
      exact .renamed (.inr ⟨huse, hname⟩) (mem_append_right _ hmem)
    · rw [get_set_of_ne hik]
      refine hkeep hi fun hlog => hik ?_
      -- there is only one file of that name
      have hfound := (fsFindMutable_eq_some_iff hrounds.wellFormed.distinct).2
        ⟨_, getElem?_of_inUse hlog.1, hlog.1, hlog.2⟩
      exact some.inj (hfound.symm.trans hfind)

/-! ### The default image -/

/-- The default image is added to a free cell, or nothing happens. -/
inductive ImageOutcome (t : FileTable) : Bool × FileTable → Prop
  | unchanged : ImageOutcome t (false, t)
  | added {i : ℕ} {image : FsFile} (hi : i < fsMaxFiles) (hunused : (t.get i).inUse = false)
      (huse : image.inUse = true) (hname : image.name = defaultBmpName) :
      ImageOutcome t (true, t.set i image)

theorem imageOutcome_fsInstallDefaultBmp (trusted : Bool) (version : UInt32) (t : FileTable) :
    ImageOutcome t (fsInstallDefaultBmp trusted version t) := by
  unfold fsInstallDefaultBmp
  split
  next hseed =>
    simp only [and_eq_true, isNone_iff_eq_none] at hseed
    unfold fsSeedDefaultBmp fsSeedBytes
    split
    · exact .unchanged
    rw [hseed.2]
    dsimp only
    split
    · exact .unchanged
    rename_i i halloc
    obtain ⟨f, hf, hunused⟩ := fsAllocateSlot_eq_some halloc
    obtain ⟨hi, -⟩ := List.getElem?_eq_some_iff.1 hf
    refine .added (t.length_cells ▸ hi) ?_ rfl ?_
    · rw [FileTable.get_of_getElem? hf, hunused]
    · have hlength : defaultBmpName.length < fsMaxFilename := by decide
      rfl
  · exact .unchanged

/-! ### `fs_init` -/

/-- What is left of the table `old` that was loaded. -/
structure RecoveryKeepsFiles (old new : FileTable) : Prop where
  /-- The view is sound; in particular the names are distinct. -/
  wellFormed : new.WellFormed
  /-- No file is called `system.log`. -/
  noSystemLog : ∀ f ∈ new.cells, f.inUse = true → f.name ≠ systemLogName
  /-- There is no artifact of the self-test. -/
  noArtifact : ∀ f ∈ new.cells, fsFileIsSelfTestArtifact f = false
  /-- Every file is where it was with its bytes, and with its name unless it was quarantined. -/
  kept : ∀ i < fsMaxFiles, (old.get i).inUse = true → Kept Quarantined (old.get i) (new.get i)
  /-- The only other file is the default image. -/
  added : ∀ i < fsMaxFiles, (old.get i).inUse = false → (new.get i).inUse = true →
    (new.get i).name = defaultBmpName

/-- A cell of a cleaned view, or one that is free, or the default image. -/
theorem RecoveryKeepsFiles.of_cells {old new : FileTable} (hwf : new.WellFormed)
    (hcells : ∀ i < fsMaxFiles, Kept Quarantined (old.get i) (new.get i) ∨
      (old.get i).inUse = false ∧ ((new.get i).inUse = true → (new.get i).name = defaultBmpName)) :
    RecoveryKeepsFiles old new := by
  have himage : defaultBmpName ≠ systemLogName ∧
      fsNameIsSelfTestFile (some defaultBmpName) = false := by
    decide
  have hfree {f : FsFile} (hf : f ∈ new.cells) :
      (f.inUse = true → f.name ≠ systemLogName) ∧ ¬fsFileIsSelfTestArtifact f = true := by
    obtain ⟨i, hi, rfl⟩ := exists_get_of_mem hf
    have hcell := hcells i hi
    revert hcell
    generalize new.get i = new
    rintro ((hfree | ⟨-, hname⟩) | ⟨-, hname⟩)
    · exact ⟨fun huse hlog => hfree (.inr ⟨huse, hlog⟩), fun hartifact => hfree (.inl hartifact)⟩
    · have hboth := recoveryNames_free _ hname
      exact ⟨fun _ => hboth.2, not_artifact_of_name hboth.1⟩
    · refine ⟨fun huse => hname huse ▸ himage.1, fun hartifact => ?_⟩
      have huse := inUse_of_artifact hartifact
      exact not_artifact_of_name (by rw [hname huse, himage.2]) hartifact
  refine ⟨hwf, fun f hf => (hfree hf).1, fun f hf => eq_false_of_not_eq_true (hfree hf).2,
    fun i hi huse => ?_, fun i hi hunused huse => ?_⟩
  · rcases hcells i hi with hkept | ⟨hunused, -⟩
    · exact hkept
    · rw [hunused] at huse
      exact absurd huse false_ne_true
  · rcases hcells i hi with hkept | ⟨-, hname⟩
    · -- a free cell that is kept is still free
      revert hkept huse
      generalize new.get i = new
      rintro huse (- | -)
      · rw [hunused] at huse
        exact absurd huse false_ne_true
      · rw [hunused] at huse
        exact absurd huse false_ne_true
    · exact hname huse

section Init

variable {s s' : FsState} {result : FsDiskLoadResult}

/-- A view that was mounted is sound, with small files in the old formats. -/
theorem wellFormed_of_mounted (h : FsLoadOutcome s result s') (hmounted : result.mounted = true) :
    s'.files.WellFormed ∧
      (s'.loadedVersion < fsContentDiskVersion → s'.files.SizesIn (· ≤ fsDiskDataBytes)) := by
  cases h with
  | mounted _ _ hdecode =>
    exact ⟨wellFormed_of_fsDecodeSlot hdecode,
      fun hversion => sizesIn_of_fsDecodeSlot hdecode (UInt32.lt_trans hversion (by decide))⟩
  | unmounted hresult =>
    rw [hmounted] at hresult
    exact nomatch hresult

/-- The cleaned view with the default image, and without it again. -/
theorem keeps_fsRecoverView (trusted : Bool) (version : UInt32) (hwf : t.WellFormed)
    (hsizes : version < fsContentDiskVersion → t.SizesIn (· ≤ fsDiskDataBytes)) :
    RecoveryKeepsFiles t (fsRecoverView trusted version t).1 ∧
      ((fsRecoverView trusted version t).2.2 = true → ∀ s : FsState,
        s.files = (fsRecoverView trusted version t).1 →
          RecoveryKeepsFiles t (fsDropDefaultBmp s).files) := by
  have hview := wellFormed_fsRecoverView trusted version hwf hsizes
  have hcleaned := cleaned_fsRecoverSystemLog hwf
  unfold fsRecoverView at hview ⊢
  dsimp only at hview ⊢
  generalize (fsRecoverSystemLog (fsQuarantineSelfTestArtifacts t).2).2 = t₁ at hcleaned hview ⊢
  -- the cell of the image was free from the start
  have hunused {i : ℕ} (hi : i < fsMaxFiles) (h : (t₁.get i).inUse = false) :
      (t.get i).inUse = false := by
    have hkept := hcleaned.kept i hi
    revert hkept h
    generalize t₁.get i = new
    rintro h (- | -)
    · exact h
    · exact h
  have himage := imageOutcome_fsInstallDefaultBmp trusted version t₁
  revert himage hview
  generalize fsInstallDefaultBmp trusted version t₁ = added
  rintro hview (_ | @⟨k, image, hk, hfree, huse, hname⟩)
  · exact ⟨.of_cells hview fun i hi => .inl (hcleaned.kept i hi), fun h => nomatch h⟩
  · dsimp only at hview ⊢
    have hcell {i : ℕ} (hi : i < fsMaxFiles) (hne : i ≠ k) (f : FsFile) :
        Kept Quarantined (t.get i) ((t₁.set k f).get i) := by
      rw [get_set_of_ne hne]
      exact hcleaned.kept i hi
    refine ⟨.of_cells hview fun i hi => ?_, fun _ s hs => ?_⟩
    · by_cases hik : i = k
      · subst hik
        exact .inr ⟨hunused hi hfree, fun _ => by rw [get_set_self hi, hname]⟩
      · exact .inl (hcell hi hik image)
    · have hdrop := wellFormed_fsDropDefaultBmp (s := s) (hs ▸ hview)
      have hfind : fsFindMutable s.files (some defaultBmpName) = some k := by
        rw [hs]
        refine (fsFindMutable_eq_some_iff hview.distinct).2 ⟨image, ?_, huse, hname⟩
        have hget :=
          getElem?_of_inUse (t := t₁.set k image) (i := k) (by rw [get_set_self hk, huse])
        rwa [get_set_self hk] at hget
      unfold fsDropDefaultBmp at hdrop ⊢
      rw [hfind] at hdrop ⊢
      dsimp only at hdrop ⊢
      rw [hs, FileTable.set_set] at hdrop ⊢
      refine .of_cells hdrop fun i hi => ?_
      by_cases hik : i = k
      · subst hik
        refine .inr ⟨hunused hi hfree, fun hcleared => ?_⟩
        rw [get_set_self hi] at hcleared
        exact nomatch hcleared
      · exact .inl (hcell hi hik _)

theorem keeps_fsInitMounted (h : FsLoadOutcome s result s') (hmounted : result.mounted = true) :
    RecoveryKeepsFiles s'.files (fsInitMounted result s').files := by
  obtain ⟨hwf, hsizes⟩ := wellFormed_of_mounted h hmounted
  obtain ⟨hkeeps, hdrop⟩ := keeps_fsRecoverView (result = .loaded) s'.loadedVersion hwf hsizes
  have hcommit := (fsCommitChanges_cases (fsRecovered result s')).sameView.files
  unfold fsInitMounted
  dsimp only
  split
  · rcases hresult : fsCommitChanges (fsRecovered result s') with ⟨_ | _, s₁⟩
    · rw [hresult] at hcommit
      dsimp only
      split
      next hadded => exact hdrop hadded s₁ hcommit
      · rw [hcommit]; exact hkeeps
    · rw [hresult] at hcommit
      rw [hcommit]
      exact hkeeps
  · exact hkeeps

/-- **Recovery names lose no file.** -/
theorem recovery_keeps_files (s : FsState)
    (hmounted : (fsLoadFromDisk (fsActivateVirtualSystemLog s)).1.mounted = true) :
    RecoveryKeepsFiles (fsLoadFromDisk (fsActivateVirtualSystemLog s)).2.files (fsInit s).files ∧
      ∀ t : FileTable,
        (∃ name ∈ candidates fsRecoveredSelfTestName, fsFindMutable t (some name) = none) ∧
        ∃ name ∈ candidates fsRecoveredLogName, fsFindMutable t (some name) = none := by
  have hfree {recovered : ℕ → CString} (hnodup : (candidates recovered).Nodup) (t : FileTable) :
      ∃ name ∈ candidates recovered, fsFindMutable t (some name) = none := by
    obtain ⟨name, hname⟩ := exists_fsUnusedName hnodup t
    exact ⟨name, mem_of_find?_eq_some hname, (fsUnusedName_eq_some hname).2⟩
  refine ⟨?_, fun t => ⟨hfree nodup_selfTestCandidates t, hfree nodup_logCandidates t⟩⟩
  have hcases := fsLoadFromDisk_cases (fsActivateVirtualSystemLog s)
  unfold fsInit
  generalize fsLoadFromDisk (fsActivateVirtualSystemLog s) = loaded at hmounted hcases ⊢
  dsimp only at hmounted hcases ⊢
  rw [if_pos hmounted]
  exact keeps_fsInitMounted hcases hmounted

end Init

/-- A view with a physical `system.log`. -/
def logFile : FileTable := FileTable.zero.set 5 ⟨true, systemLogName, 2000, Buffer.zero⟩

theorem wellFormed_logFile : logFile.WellFormed := by
  refine FileTable.wellFormed_zero.set (fun _ => ⟨by decide, by decide, Buffer.byte_zero _⟩) ?_
    (by decide)
  refine SlotMap.freshAt_of_forall fun f hf k _ => ?_
  rw [eq_of_mem_replicate hf]
  simp [SlotMap.key, FsFile.entry, FsFile.zero]

/-- Mount a disk with a physical `system.log`: it was loaded, and is there no more under that
name. -/
theorem recovery_keeps_files_logFile :
    ∃ s : FsState,
      ((fsLoadFromDisk (fsActivateVirtualSystemLog s)).2.files.fileMap
        systemLogName).isSome = true ∧
        ∀ f ∈ (fsInit s).files.cells, f.inUse = true → f.name ≠ systemLogName := by
  obtain ⟨table, htable⟩ := isSome_iff_exists.1
    ((fsSerialize_isSome_iff _).2 wellFormed_logFile.budget)
  obtain ⟨hsnapshot, hordered⟩ := snapshot_formattedDisk wellFormed_logFile htable
  let s : FsState := FsState.boot (Ata.perfect (formattedDisk table))
  obtain ⟨result, s', hload, -, -, -, hmap, hloaded⟩ :=
    Snapshot.reload (s := fsActivateVirtualSystemLog s) hsnapshot (Ata.working_perfect _)
  have hmounted : (fsLoadFromDisk (fsActivateVirtualSystemLog s)).1.mounted = true := by
    rw [hload, hloaded hordered.trusted]
    rfl
  have hlog : (logFile.fileMap systemLogName).isSome = true := by decide +kernel
  refine ⟨s, ?_, (recovery_keeps_files s hmounted).1.noSystemLog⟩
  rw [hload, hmap, hlog]

end Nostalux.Fs

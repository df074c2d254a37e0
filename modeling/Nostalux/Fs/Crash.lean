import Nostalux.Fs.Commit

/-!
# Crash consistency of the two-slot commit

A sync hands its sectors to the device in a fixed order, `commitWrites`: the record table of the
target slot and then its one header sector.

* `fsSyncToDiskVerified_written`: what is handed over is a prefix of that sequence, and all of it
  when nothing fails;
* `snapshot_of_prefix`: the snapshot that the disk holds after any prefix;
* `fsSyncToDisk_crash_consistent`: wherever the machine stops, the next mount finds the old files
  before the header sector is written and the new files after it.
-/

namespace Nostalux.Fs

open WriteLog List FsWrite Ata

/-- The sectors that the commit of a table hands over, in order. -/
def commitWrites (slot : ℕ) (table : FsDiskTable) (generation : UInt32) : List (ℕ × Sector) :=
  WriteLog.block (fsSlotHeaderLba slot + 1) (tableSectors table.toBytes) ++
    [(fsSlotHeaderLba slot, (fsCommitHeader table generation).toBytes)]

/-- Address and contents of a recorded write. -/
def FsWrite.sector (w : FsWrite) : ℕ × Sector := (w.lba, w.data)

/-! ### What a sync hands over -/

theorem written_ataWrite (s : FsState) (lba : ℕ) (data : List Sector) :
    ∃ ws, (s.ataWrite lba data).2.history.written = s.history.written ++ ws ∧
      ws.map sector = block lba data := by
  refine ⟨_, rfl, ?_⟩
  rw [map_map]
  exact map_id _

theorem history_fsCheckWrite (write : AtaWriteResult) (verify : Bool)
    (reconcile : Ata → FsReconcileResult × Ata) (s : FsState) :
    (fsCheckWrite write verify reconcile s).2.history = s.history := by
  unfold fsCheckWrite
  split_ifs
  · rfl
  · rcases reconcile s.ata with ⟨_ | _ | _, ata⟩ <;> rfl
  · rfl

/-- A complete write needs no read-back. -/
theorem fsCheckWrite_complete (reconcile : Ata → FsReconcileResult × Ata) (s : FsState) :
    fsCheckWrite .complete false reconcile s = (none, s) := rfl

theorem fsWriteHeader_written (verify : Bool) (table : FsDiskTable) (s : FsState) :
    ∃ ws, (fsWriteHeader verify table s).2.history.written = s.history.written ++ ws ∧
      ws.map sector = [(fsSlotHeaderLba s.targetSlot,
        (fsCommitHeader table (s.activeGeneration + 1)).toBytes)] := by
  obtain ⟨ws, hws, hmap⟩ := written_ataWrite s (fsSlotHeaderLba s.targetSlot)
    [(fsCommitHeader table (s.activeGeneration + 1)).toBytes]
  refine ⟨ws, ?_, hmap⟩
  rcases hw : s.ataWrite (fsSlotHeaderLba s.targetSlot)
    [(fsCommitHeader table (s.activeGeneration + 1)).toBytes] with ⟨headerWrite, s₁⟩
  have hhistory := history_fsCheckWrite headerWrite verify (fsReconcileSlot
    (fsSlotHeaderLba s.targetSlot) (fsCommitHeader table (s.activeGeneration + 1)) table) s₁
  rw [hw] at hws
  rcases hc : fsCheckWrite headerWrite verify (fsReconcileSlot (fsSlotHeaderLba s.targetSlot)
    (fsCommitHeader table (s.activeGeneration + 1)) table) s₁ with ⟨_ | result, s₂⟩ <;>
      rw [hc] at hhistory <;> simp only [fsWriteHeader, hw, hc] <;>
      simp only at hhistory hws
  · rw [fsAcceptCommit, hhistory, hws]
  · rw [hhistory, hws]

variable {table : FsDiskTable}

/-- **The sectors that a sync hands over**, in order: a prefix of the commit, and all of it on a
device that completes every write. -/
theorem fsSyncToDiskVerified_written (s : FsState) (verify : Bool)
    (htable : fsSerialize s.files = some table) :
    ∃ ws, (fsSyncToDiskVerified verify s).2.history.written = s.history.written ++ ws ∧
      ws.map sector <+:
        commitWrites s.targetSlot table (s.activeGeneration + 1) ∧
      ((s.ata.answers 0).init = .ready → (s.ata.answers 1).write = .complete → verify = false →
        ws.map sector = commitWrites s.targetSlot table (s.activeGeneration + 1)) := by
  show ∃ ws, (fsSyncSteps verify s).2.history.written = s.history.written ++ ws ∧ _
  cases hinit : (s.ata.answers 0).init with
  | noDevice | error =>
    refine ⟨[], ?_, by simp, fun h => by cases h⟩
    simp [fsSyncSteps, init, hinit]
  | ready =>
    have hsteps : fsSyncSteps verify s =
        fsWriteTable verify table { s with ata := s.ata.skip 1 } := by
      simp [fsSyncSteps, init, hinit, htable]
    rw [hsteps]
    set s₀ : FsState := { s with ata := s.ata.skip 1 } with hs₀
    obtain ⟨ws, hws, hmap⟩ := written_ataWrite s₀ (fsSlotHeaderLba s₀.targetSlot + 1)
      (tableSectors table.toBytes)
    have hprogress := SyncProgress.write (s := s₀) (inSlot_table s₀.targetSlot table.toBytes)
    rcases hw : s₀.ataWrite (fsSlotHeaderLba s₀.targetSlot + 1) (tableSectors table.toBytes) with
      ⟨tableWrite, s₁⟩
    rw [hw] at hws hprogress
    have hhistory := history_fsCheckWrite tableWrite verify
      (fsReconcileTable (fsSlotHeaderLba s₀.targetSlot) table) s₁
    have hcheck := hprogress.trans (syncProgress_fsCheckWrite tableWrite verify
      (readsTo_fsReconcileTable (fsSlotHeaderLba s₀.targetSlot) table) s₁)
    rcases hc : fsCheckWrite tableWrite verify
      (fsReconcileTable (fsSlotHeaderLba s₀.targetSlot) table) s₁ with ⟨_ | result, s₂⟩ <;>
        rw [hc] at hhistory hcheck <;> simp only [fsWriteTable, hw, hc] <;>
        simp only at hhistory hcheck hws
    · -- the header follows the table
      obtain ⟨vs, hvs, hmap'⟩ := fsWriteHeader_written verify table s₂
      rw [hcheck.targetSlot_eq, hcheck.activeGeneration_eq] at hmap'
      have hall : (ws ++ vs).map sector =
          commitWrites s.targetSlot table (s.activeGeneration + 1) := by
        rw [map_append, hmap, hmap']
        rfl
      refine ⟨ws ++ vs, ?_, by rw [hall], fun _ _ _ => hall⟩
      rw [hvs, hhistory, hws, append_assoc]
    · refine ⟨ws, ?_, ?_, ?_⟩
      · rw [hhistory, hws]
      · rw [hmap]
        exact prefix_append _ _
      · rintro - hcomplete rfl
        have hresult : tableWrite = .complete := by
          rw [← hcomplete, show tableWrite = (s₀.ataWrite _ _).1 by rw [hw]]
          rfl
        rw [hresult, fsCheckWrite_complete] at hc
        cases hc

/-! ### The disk after a prefix of a commit -/

section Cut

variable {slot : ℕ} {table : FsDiskTable} {generation : UInt32}

theorem inSlot_of_mem_commitWrites {w : ℕ × Sector} (h : w ∈ commitWrites slot table generation) :
    InSlot slot w.1 := by
  rcases mem_append.1 h with h | h
  · exact inSlot_table slot table.toBytes w h
  · rw [mem_singleton.1 h]
    exact ⟨le_rfl, Nat.lt_add_of_pos_right (by decide)⟩

/-- All the writes of a commit complete the commit. -/
theorem committed_apply_commitWrites (d : ℕ → Sector) :
    Committed (apply d (commitWrites slot table generation)) slot table generation := by
  refine committed_of_sectors ?_ (tableAt_eq_of_sectors fun i hi => ?_)
  · refine apply_eq (fun w hw hx => ?_) (.inl ⟨_, mem_append_right _
      (mem_singleton_self _), rfl⟩)
    rcases mem_append.1 hw with hw | hw
    · have := bounds_of_mem_block hw
      omega
    · rw [mem_singleton.1 hw]
  · have hmem : (fsSlotHeaderLba slot + 1 + i, tableSector table.toBytes i) ∈
        block (fsSlotHeaderLba slot + 1) (tableSectors table.toBytes) :=
      mem_block.2 ⟨i, getElem?_tableSectors _ hi, rfl⟩
    refine apply_eq (fun w hw hx => ?_) (.inl ⟨_, mem_append_left _ hmem, rfl⟩)
    rcases mem_append.1 hw with hw | hw
    · obtain ⟨j, hj, hx'⟩ := mem_block.1 hw
      have hij : j = i := by omega
      rw [hij, getElem?_tableSectors _ hi] at hj
      exact (Option.some.inj hj).symm
    · rw [mem_singleton.1 hw] at hx
      omega

end Cut

/-- **The snapshot after a prefix of a commit**: the old one until the header sector is written, the
new one from then on. -/
theorem snapshot_of_prefix {d : ℕ → Sector} {slot : ℕ} {generation : UInt32}
    {map : CString → Option (List UInt8)} (h : Snapshot d slot generation map) {files : FileTable}
    (hwf : files.WellFormed) (htable : fsSerialize files = some table)
    {ws : List (ℕ × Sector)} (hws : ws <+: commitWrites (1 - slot) table (generation + 1)) :
    (fsSlotHeaderLba (1 - slot) ∉ ws.map Prod.fst →
      Snapshot (apply d ws) slot generation map) ∧
    (fsSlotHeaderLba (1 - slot) ∈ ws.map Prod.fst →
      Snapshot (apply d ws) (1 - slot) (generation + 1) files.fileMap ∧
        Ordered (apply d ws)) := by
  have hne : 1 - slot ≠ slot := by
    rcases eq_zero_or_one_of_lt h.slot_lt with rfl | rfl <;> decide
  -- the selected slot is out of reach
  have hsame : ∀ lba, InSlot slot lba → apply d ws lba = d lba := by
    intro lba hlba
    refine apply_eq_self fun w hw hx => ?_
    have hin := inSlot_of_mem_commitWrites (hws.subset hw)
    rw [hx] at hin
    exact not_inSlot_of_inSlot hne hin hlba
  constructor
  · intro hnot
    refine h.of_headers (fun p hp => ?_) (tableAt_congr hsame)
    have hcases : p = slot ∨ p = 1 - slot := by
      have hp' : p < 2 := hp
      have hs' : slot < 2 := h.slot_lt
      omega
    rcases hcases with rfl | rfl
    · exact headerAt_congr hsame
    · rw [headerAt, headerAt, apply_eq_self]
      intro w hw hx
      exact hnot (mem_map.2 ⟨w, hw, hx⟩)
  · intro hmem
    have hall : ws = commitWrites (1 - slot) table (generation + 1) := by
      refine (prefix_concat_iff.1 hws).resolve_right fun hcut => ?_
      obtain ⟨w, hw, hx⟩ := mem_map.1 hmem
      have := bounds_of_mem_block (hcut.subset hw)
      omega
    refine h.selected.commit (headerAt_congr hsame) hwf htable ?_
    rw [hall]
    exact committed_apply_commitWrites d

/-- **Crash consistency of the two-slot commit.**  Mount a disk as `FS_DISK_LOADED` in the state
`s`, and let the mutated view of `s₁` be synced.  The sectors handed over are, in order, the table
of the slot that is not selected and its header.  If the machine stops after any prefix of them, a
mount with working reads loads a view: the old files if the header sector was not yet written, the
new files if it was. -/
theorem fsSyncToDisk_crash_consistent {s₀ s s₁ : FsState} (hfaithful : s₀.ata.Faithful)
    (hmount : fsLoadFromDisk s₀ = (.loaded, s)) (hslot : s₁.activeSlot = s.activeSlot)
    (hgeneration : s₁.activeGeneration = s.activeGeneration) (hdisk : s₁.ata.disk = s₀.ata.disk)
    (hwf : s₁.files.WellFormed) :
    ∃ table ws, fsSerialize s₁.files = some table ∧
      (fsSyncToDisk s₁).2.history.written = s₁.history.written ++ ws ∧
      ws.map FsWrite.sector <+: commitWrites (s.activeSlot ^^^ 1) table (s.activeGeneration + 1) ∧
      ((s₁.ata.answers 0).init = .ready → (s₁.ata.answers 1).write = .complete →
        ws.map FsWrite.sector = commitWrites (s.activeSlot ^^^ 1) table (s.activeGeneration + 1)) ∧
      ∀ cut, cut <+: commitWrites (s.activeSlot ^^^ 1) table (s.activeGeneration + 1) →
        ∀ s₂ : FsState, s₂.ata.Working → s₂.ata.disk = WriteLog.apply s₁.ata.disk cut →
          ∃ result s₃, fsLoadFromDisk s₂ = (result, s₃) ∧ result.mounted = true ∧
            s₃.files.fileMap =
              if fsSlotHeaderLba (s.activeSlot ^^^ 1) ∈ cut.map Prod.fst then s₁.files.fileMap
              else s.files.fileMap := by
  have hsnapshot := snapshot_of_fsLoadFromDisk hfaithful hmount
  obtain ⟨table, htable⟩ := Option.isSome_iff_exists.1 ((fsSerialize_isSome_iff _).2 hwf.budget)
  obtain ⟨ws, hws, hprefix, hall⟩ := fsSyncToDiskVerified_written s₁ false htable
  have htarget : s₁.targetSlot = s.activeSlot ^^^ 1 := by
    rw [FsState.targetSlot, hslot, if_pos hsnapshot.slot_lt]
  have hother : s.activeSlot ^^^ 1 = 1 - s.activeSlot := by
    rcases eq_zero_or_one_of_lt hsnapshot.slot_lt with h | h <;> rw [h] <;> rfl
  rw [htarget, hgeneration] at hprefix hall
  refine ⟨table, ws, htable, hws, hprefix, fun hinit hcomplete => hall hinit hcomplete rfl, ?_⟩
  intro cut hcut s₂ hworking hs₂
  rw [hother] at hcut ⊢
  rw [hdisk] at hs₂
  obtain ⟨hold, hnew⟩ := snapshot_of_prefix hsnapshot hwf htable hcut
  by_cases hheader : fsSlotHeaderLba (1 - s.activeSlot) ∈ cut.map Prod.fst
  · rw [← hs₂] at hnew
    obtain ⟨result, s₃, hload, hresult, -, -, hmap, -⟩ := (hnew hheader).1.reload hworking
    refine ⟨result, s₃, hload, ?_, by rw [if_pos hheader, hmap]⟩
    rcases hresult with rfl | rfl <;> rfl
  · rw [← hs₂] at hold
    obtain ⟨result, s₃, hload, hresult, -, -, hmap, -⟩ := (hold hheader).reload hworking
    refine ⟨result, s₃, hload, ?_, by rw [if_neg hheader, hmap]⟩
    rcases hresult with rfl | rfl <;> rfl

/-! ### A formatted disk -/

/-- A blank disk on which a view was committed to the first slot. -/
def formattedDisk (table : FsDiskTable) : ℕ → Sector :=
  WriteLog.apply (fun _ => Buffer.zero) (commitWrites 0 table 1)

theorem snapshot_formattedDisk {files : FileTable} (hwf : files.WellFormed)
    (htable : fsSerialize files = some table) :
    Snapshot (formattedDisk table) 0 1 files.fileMap ∧ Ordered (formattedDisk table) := by
  have hcommit : Committed (formattedDisk table) 0 table 1 := committed_apply_commitWrites _
  have hblank : (formattedDisk table (fsSlotHeaderLba 1)).Blank := by
    have hzero : formattedDisk table (fsSlotHeaderLba 1) = Buffer.zero := by
      refine apply_eq_self fun w hw hx => ?_
      have hin := inSlot_of_mem_commitWrites hw
      rw [hx, inSlot_iff] at hin
      have hlba : fsSlotHeaderLba 1 = 2116 := rfl
      omega
    intro i _
    rw [hzero, Buffer.byte_zero]
  obtain ⟨hfirst, hordered⟩ := hcommit.first_and_ordered_of_blank hblank
  exact ⟨hcommit.snapshot (by decide) hfirst hwf htable, hordered⟩

/-- Mount a disk that was formatted with no files, and let the machine stop right after the header
of a commit of one file. -/
theorem fsSyncToDisk_crash_consistent_formatted :
    ∃ (empty table : FsDiskTable) (s₂ s₃ : FsState) (result : FsDiskLoadResult),
      fsSerialize FileTable.zero = some empty ∧ fsSerialize loneFile = some table ∧
      s₂.ata.disk = WriteLog.apply (formattedDisk empty) (commitWrites 1 table 2) ∧
      fsLoadFromDisk s₂ = (result, s₃) ∧ s₃.files.fileMap = loneFile.fileMap := by
  obtain ⟨empty, hempty⟩ := Option.isSome_iff_exists.1
    ((fsSerialize_isSome_iff _).2 FileTable.wellFormed_zero.budget)
  obtain ⟨hsnapshot, hordered⟩ := snapshot_formattedDisk FileTable.wellFormed_zero hempty
  obtain ⟨result, s, hload, -, hslot, hgeneration, -, hloaded⟩ :=
    Snapshot.reload (s := FsState.boot (perfect (formattedDisk empty))) hsnapshot
      (working_perfect _)
  rw [hloaded hordered.trusted] at hload
  let s₁ : FsState := { s with files := loneFile, ata := perfect (formattedDisk empty) }
  have hsame : s₁.activeSlot = s.activeSlot := rfl
  obtain ⟨table, -, htable, -, -, -, hcut⟩ := fsSyncToDisk_crash_consistent
    (working_perfect _).faithful hload hsame rfl rfl wellFormed_loneFile
  rw [hslot, hgeneration] at hcut
  obtain ⟨result', s₃, hload', -, hmap⟩ := hcut _ (prefix_refl _)
    (FsState.boot (perfect (apply (formattedDisk empty) (commitWrites 1 table 2))))
    (working_perfect _) rfl
  exact ⟨empty, table, _, s₃, result', hempty, htable, rfl, hload', hmap⟩

end Nostalux.Fs

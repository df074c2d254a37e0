import Nostalux.Fs.Refinement

/-!
# Agreement of the mounted view with the disk

On an honest device every commit leaves a disk whose next mount is known.  `Held s map` says that
the disk holds `map` in the slot that the state has selected, and `Agrees s` that a reload on which
all reads work would give back exactly the mounted view.

* `Held.of_sync` is what a sync makes of a held map, result by result;
* `FsCall.run_agrees` carries it through a whole mutating call.
-/

namespace Nostalux.Fs

open FileTable

/-- Every mount of the disk `d` on which all reads work has a result as described. -/
def Reloads (d : ℕ → Sector) (P : FsDiskLoadResult → FsState → Prop) : Prop :=
  ∀ s : FsState, s.ata.Working → s.ata.disk = d →
    ∃ result s', fsLoadFromDisk s = (result, s') ∧ P result s'

/-- A reload gives back the mounted view, from the selected slot. -/
def Agrees (s : FsState) : Prop :=
  Reloads s.ata.disk fun result s' => result = .loaded ∧ s'.activeSlot = s.activeSlot ∧
    s'.activeGeneration = s.activeGeneration ∧ s'.files.fileMap = s.files.fileMap

/-- The disk holds `map` in the selected slot. -/
def Held (s : FsState) (map : FileMap) : Prop :=
  Snapshot s.ata.disk s.activeSlot s.activeGeneration map

variable {s : FsState}

theorem Agrees.held (h : Agrees s) : Held s s.files.fileMap := by
  have hworking := Ata.working_perfect s.ata.disk
  obtain ⟨result, s', hload, rfl, hslot, hgeneration, hmap⟩ :=
    h (FsState.boot (Ata.perfect s.ata.disk)) hworking rfl
  have hsnapshot := snapshot_of_fsLoadFromDisk hworking.faithful hload
  rwa [hslot, hgeneration, hmap] at hsnapshot

variable {map : FileMap}

/-- A held map is mounted by every reload. -/
theorem Held.reloads (h : Held s map) :
    Reloads s.ata.disk fun result s' => result.mounted = true ∧ s'.files.fileMap = map := by
  intro s₁ hworking hdisk
  have hsnapshot : Snapshot s₁.ata.disk s.activeSlot s.activeGeneration map := by
    rw [hdisk]
    exact h
  obtain ⟨result, s', hload, hresult, -, -, hmap, -⟩ := hsnapshot.reload hworking
  refine ⟨result, s', hload, ?_, hmap⟩
  rcases hresult with rfl | rfl <;> rfl

/-- When the order of the slots is beyond doubt, the held view is loaded without reservation. -/
theorem Held.agrees (h : Held s s.files.fileMap) (htrusted : Trusted s.ata.disk) : Agrees s := by
  intro s₁ hworking hdisk
  have hsnapshot : Snapshot s₁.ata.disk s.activeSlot s.activeGeneration s.files.fileMap := by
    rw [hdisk]
    exact h
  obtain ⟨result, s', hload, -, hslot, hgeneration, hmap, hloaded⟩ := hsnapshot.reload hworking
  rw [← hdisk] at htrusted
  exact ⟨result, s', hload, hloaded htrusted, hslot, hgeneration, hmap⟩

theorem Held.lt (h : Held s map) : s.activeSlot < fsSlotCount :=
  h.slot_lt

theorem targetSlot_eq_sub (h : s.activeSlot < fsSlotCount) : s.targetSlot = 1 - s.activeSlot := by
  rw [FsState.targetSlot, if_pos h]
  rcases eq_zero_or_one_of_lt h with heq | heq <;> rw [heq] <;> rfl

/-! ### Agreement through a sync -/

/-- What a sync makes of a disk that holds `map`, by its result. -/
def SyncHeld (s : FsState) (map : FileMap) (s' : FsState) : FsSyncResult → Prop
  | .committed => Held s' s'.files.fileMap ∧ Ordered s'.ata.disk
  | .failed => Held s' map
  | .uncertain => Held s' map ∨ Reloads s'.ata.disk fun result s₂ =>
      result.mounted = true ∧ s₂.files.fileMap = s.files.fileMap

variable {verify : Bool} {result : FsSyncResult}

/-- The device, the selected slot and the history after a sync. -/
theorem fsSyncToDiskVerified_frame {s s' : FsState}
    (h : fsSyncToDiskVerified verify s = (result, s')) :
    (∃ m, ∀ n, s'.ata.answers n = s.ata.answers (m + n)) ∧
    (∀ lba, ¬ InSlot s.targetSlot lba → s'.ata.disk lba = s.ata.disk lba) ∧
    s'.history.syncs = s.history.syncs ++ [result] ∧
    (∃ ws, s'.history.written = s.history.written ++ ws ∧
      (∀ w ∈ ws, InSlot s.targetSlot w.lba ∧ w.backendStatus = s.backendStatus ∧
        w.activeSlot = s.activeSlot) ∧
      ∀ lba, (∀ w ∈ ws, w.lba ≠ lba) → s'.ata.disk lba = s.ata.disk lba) ∧
    (result = .committed → s'.activeSlot = s.targetSlot ∧
      s'.activeGeneration = s.activeGeneration + 1 ∧ s'.loadedVersion = 5) := by
  obtain ⟨s₁, hprogress, heq⟩ := fsSyncToDiskVerified_cases verify s
  rw [h] at heq
  simp only at heq
  have hsyncs : s₁.history.syncs ++ [result] = s.history.syncs ++ [result] := by
    rw [hprogress.syncs]
  cases result with
  | committed =>
    rw [heq]
    exact ⟨hprogress.answers, fun _ => hprogress.disk, hsyncs, hprogress.written,
      fun _ => ⟨rfl, rfl, rfl⟩⟩
  | failed | uncertain =>
    rw [heq]
    exact ⟨hprogress.answers, fun _ => hprogress.disk, hsyncs, hprogress.written,
      fun hne => by cases hne⟩

/-- A sync leaves the selected slot alone. -/
theorem selectedSlot_of_sync {s s' : FsState}
    (hlt : s.activeSlot < fsSlotCount) (hsync : fsSyncToDiskVerified verify s = (result, s')) :
    headerAt s'.ata.disk s.activeSlot = headerAt s.ata.disk s.activeSlot ∧
      tableAt s'.ata.disk s.activeSlot = tableAt s.ata.disk s.activeSlot := by
  obtain ⟨-, houtside, -, -, -⟩ := fsSyncToDiskVerified_frame hsync
  rw [targetSlot_eq_sub hlt] at houtside
  have hother : ∀ lba, InSlot s.activeSlot lba → s'.ata.disk lba = s.ata.disk lba := fun lba hlba =>
    houtside lba (not_inSlot_of_inSlot (by omega) hlba)
  exact ⟨headerAt_congr hother, tableAt_congr hother⟩

/-- **A committed sync leaves a disk that holds the mounted view**, when the header of the selected
slot was valid before. -/
theorem Selected.of_committed {s s' : FsState}
    (h : Selected s.ata.disk s.activeSlot s.activeGeneration) (hhonest : s.ata.Honest)
    (hwf : s.files.WellFormed) (hsync : fsSyncToDiskVerified verify s = (.committed, s')) :
    Held s' s'.files.fileMap ∧ Ordered s'.ata.disk := by
  obtain ⟨table, htable⟩ := Option.isSome_iff_exists.1 ((fsSerialize_isSome_iff _).2 hwf.budget)
  have hdisk := fsSyncToDiskVerified_disk verify hhonest htable
  obtain ⟨-, -, -, -, hselected⟩ := fsSyncToDiskVerified_frame hsync
  obtain ⟨hview, -, -⟩ := sameView_fsSync hsync
  rw [hsync, targetSlot_eq_sub h.slot_lt] at hdisk
  rw [targetSlot_eq_sub h.slot_lt] at hselected
  obtain ⟨hslot, hgeneration, -⟩ := hselected rfl
  obtain ⟨hsnapshot, hordered⟩ := h.commit (selectedSlot_of_sync h.slot_lt hsync).1 hwf htable hdisk
  refine ⟨?_, hordered⟩
  rw [Held, hslot, hgeneration, hview.files]
  exact hsnapshot

/-- **What a sync makes of a held map.** -/
theorem Held.of_sync {s s' : FsState}
    (h : Held s map) (hhonest : s.ata.Honest) (hwf : s.files.WellFormed)
    (hsync : fsSyncToDiskVerified verify s = (result, s')) : SyncHeld s map s' result := by
  obtain ⟨table, htable⟩ := Option.isSome_iff_exists.1 ((fsSerialize_isSome_iff _).2 hwf.budget)
  have hdisk := fsSyncToDiskVerified_disk verify hhonest htable
  obtain ⟨-, -, hmount⟩ := sameView_fsSync hsync
  obtain ⟨hheader, htableAt⟩ := selectedSlot_of_sync h.lt hsync
  rw [hsync, targetSlot_eq_sub h.lt] at hdisk
  -- as long as the target header is the old one, the disk holds the old map
  have hkept : headerAt s'.ata.disk (1 - s.activeSlot) = headerAt s.ata.disk (1 - s.activeSlot) →
      Snapshot s'.ata.disk s.activeSlot s.activeGeneration map := by
    intro htarget
    refine h.of_headers (fun p hp => ?_) htableAt
    rcases eq_zero_or_one_of_lt h.lt with heq | heq <;> rw [heq] at hheader htarget <;>
      rcases eq_zero_or_one_of_lt hp with rfl | rfl <;> assumption
  cases result with
  | committed => exact h.selected.of_committed hhonest hwf hsync
  | failed =>
    have hsame := hmount (by decide)
    show Snapshot _ _ _ _
    rw [hsame.activeSlot, hsame.activeGeneration]
    exact hkept hdisk
  | uncertain =>
    have hsame := hmount (by decide)
    rcases hdisk with hdisk | hdisk
    · left
      show Snapshot _ _ _ _
      rw [hsame.activeSlot, hsame.activeGeneration]
      exact hkept hdisk
    · right
      obtain ⟨hsnapshot, -⟩ := h.selected.commit hheader hwf htable hdisk
      intro s₁ hworking hs₁
      rw [← hs₁] at hsnapshot
      obtain ⟨result, s₂, hload, hresult, -, -, hmap, -⟩ := hsnapshot.reload hworking
      refine ⟨result, s₂, hload, ?_, hmap⟩
      rcases hresult with rfl | rfl <;> rfl

/-! ### Agreement through a mutating call -/

/-- Agreement looks at the device, the selected slot and the represented map only. -/
theorem Agrees.congr {s s' : FsState} (h : Agrees s) (hata : s'.ata = s.ata)
    (hslot : s'.activeSlot = s.activeSlot) (hgeneration : s'.activeGeneration = s.activeGeneration)
    (hmap : s'.files.fileMap = s.files.fileMap) : Agrees s' := by
  unfold Agrees
  rw [hata, hslot, hgeneration, hmap]
  exact h

/-- While the backend stays persistent, the end of a mutating call keeps the agreement. -/
theorem EditOutcome.agrees {i : ℕ} {old file rollback : FsFile} {r : Bool × FsState}
    (h : EditOutcome s i file rollback r) (hedit : Edit s.files i old file rollback)
    (hwf : s.files.WellFormed) (hhonest : s.ata.Honest) (hagree : Agrees s)
    (hbefore : s.backendStatus = .persistent) (hafter : r.2.backendStatus = .persistent) :
    Agrees r.2 := by
  cases h with
  | kept hcommit hfiles =>
    cases hcommit with
    | volatile _ hstatus => exact absurd hbefore hstatus
    | committed hbudget _ hsync =>
      have hselected : Selected s.ata.disk s.activeSlot s.activeGeneration := hagree.held.selected
      obtain ⟨hnew, hordered⟩ := Selected.of_committed
        (s := { s with files := s.files.set i file }) hselected hhonest
        (hedit.wellFormed hwf hbudget) hsync
      exact hnew.agrees hordered.trusted
    | uncertain => cases hafter
  | undone hcommit =>
    cases hcommit with
    | full => exact hagree.congr rfl rfl rfl (fileMap_congr hedit.listing_rollback)
    | failed => cases hafter

/-- **RAM and disk agree after every mutating call.**  A call on a persistent mount makes at most
one sync.  Without one, the agreement stays.  After a committed sync a reload loads the new map,
after a failed one the call is rolled back and a reload mounts the old map, and after an uncertain
one the new map stays in RAM, the backend is given up and a reload mounts the old or the new map. -/
theorem FsCall.run_agrees {s : FsState} (hwf : s.files.WellFormed) (hhonest : s.ata.Honest)
    (hpersistent : s.backendStatus = .persistent) (hagree : Agrees s) (call : FsCall) :
    ((call.run s).2.history.syncs = s.history.syncs ∧ Agrees (call.run s).2) ∨
    ∃ result, (call.run s).2.history.syncs = s.history.syncs ++ [result] ∧
      (result = .committed → (call.run s).1 = true ∧
        (call.run s).2.files.fileMap = call.apply s.files.fileMap ∧
        Agrees (call.run s).2) ∧
      (result = .failed → (call.run s).1 = false ∧
        (call.run s).2.files.fileMap = s.files.fileMap ∧
        Reloads (call.run s).2.ata.disk fun loadResult s' =>
          loadResult.mounted = true ∧ s'.files.fileMap = s.files.fileMap) ∧
      (result = .uncertain → (call.run s).1 = true ∧
        (call.run s).2.files.fileMap = call.apply s.files.fileMap ∧
        (call.run s).2.backendStatus = .volatileIoError ∧
        Reloads (call.run s).2.ata.disk fun loadResult s' => loadResult.mounted = true ∧
          (s'.files.fileMap = s.files.fileMap ∨
            s'.files.fileMap = call.apply s.files.fileMap)) := by
  have hcases := call.run_cases hwf
  revert hcases
  generalize call.run s = r
  rintro (_ | _ | @⟨i, old, file, rollback, hedit, hmap⟩)
  · exact .inl ⟨rfl, hagree⟩
  · exact .inl ⟨rfl, hagree⟩
  have hheld : Held { s with files := s.files.set i file } s.files.fileMap := hagree.held
  have hrolled := fileMap_congr hedit.listing_rollback
  have hedited := fsCommitOr_cases i file rollback s
  revert hedited
  generalize fsCommitOr i file rollback s = r
  rintro (⟨hcommit, hfiles⟩ | ⟨hcommit, hfiles⟩)
  · cases hcommit with
    | volatile _ hstatus => exact absurd hpersistent hstatus
    | committed hbudget hstatus hsync =>
      have hnew := (EditOutcome.kept (.committed hbudget hstatus hsync) hfiles).agrees hedit hwf
        hhonest hagree hpersistent ((sameView_fsSync hsync).2.1.trans hpersistent)
      obtain ⟨-, -, hsyncs, -, -⟩ := fsSyncToDiskVerified_frame hsync
      refine .inr ⟨.committed, hsyncs, fun _ => ⟨rfl, ?_, hnew⟩, nofun, nofun⟩
      rw [hfiles, hmap]
    | @uncertain s₁ hbudget _ hsync =>
      have hdisk := hheld.of_sync hhonest (hedit.wellFormed hwf hbudget) hsync
      obtain ⟨-, -, hsyncs, -, -⟩ := fsSyncToDiskVerified_frame hsync
      have hfiles' : s₁.files = s.files.set i file := hfiles
      refine .inr ⟨.uncertain, hsyncs, nofun, nofun,
        fun _ => ⟨rfl, ?_, rfl, ?_⟩⟩
      · rw [← hmap, ← hfiles']
      · -- the sectors of the commit may all have reached the disk
        intro s₂ hworking hs₂
        rcases hdisk with hold | hnew
        · obtain ⟨loadResult, s₃, hload, hmounted, hmap'⟩ := hold.reloads s₂ hworking hs₂
          exact ⟨loadResult, s₃, hload, hmounted, .inl hmap'⟩
        · obtain ⟨loadResult, s₃, hload, hmounted, hmap'⟩ := hnew s₂ hworking hs₂
          exact ⟨loadResult, s₃, hload, hmounted, .inr (hmap'.trans hmap)⟩
  · cases hcommit with
    | full => exact .inl ⟨rfl, hagree.congr rfl rfl rfl hrolled⟩
    | failed hbudget _ hsync =>
      have hold : Held _ s.files.fileMap :=
        hheld.of_sync hhonest (hedit.wellFormed hwf hbudget) hsync
      obtain ⟨-, -, hsyncs, -, -⟩ := fsSyncToDiskVerified_frame hsync
      exact .inr ⟨.failed, hsyncs, nofun, fun _ => ⟨rfl, hrolled, hold.reloads⟩,
        nofun⟩

/-- The mount of a formatted disk without files on a perfect device. -/
theorem exists_agrees_formatted :
    ∃ (empty : FsDiskTable) (s : FsState), fsSerialize FileTable.zero = some empty ∧
      s.ata = Ata.perfect (formattedDisk empty) ∧ s.files = .zero ∧ s.history.syncs = [] ∧
      s.backendStatus = .persistent ∧ Agrees s := by
  obtain ⟨empty, hempty⟩ := Option.isSome_iff_exists.1
    ((fsSerialize_isSome_iff _).2 wellFormed_zero.budget)
  obtain ⟨hsnapshot, hordered⟩ := snapshot_formattedDisk wellFormed_zero hempty
  let s : FsState := { FsState.boot (Ata.perfect (formattedDisk empty)) with
    activeSlot := 0, activeGeneration := 1, loadedVersion := 5, backendStatus := .persistent }
  have hheld : Held s s.files.fileMap := hsnapshot
  exact ⟨empty, s, hempty, rfl, rfl, rfl, rfl, hheld.agrees hordered.trusted⟩

/-- On a formatted disk without files, every call on a perfect device is described. -/
theorem FsCall.run_agrees_formatted :
    ∃ (empty : FsDiskTable) (s : FsState), fsSerialize FileTable.zero = some empty ∧
      s.ata = Ata.perfect (formattedDisk empty) ∧ s.backendStatus = .persistent ∧ Agrees s ∧
      ∀ result ∈ ((FsCall.touch (some (CString.ofString "a"))).run s).2.history.syncs,
        result = .committed →
          Agrees ((FsCall.touch (some (CString.ofString "a"))).run s).2 := by
  obtain ⟨empty, s, hempty, hata, hfiles, hnil, hpersistent, hagree⟩ := exists_agrees_formatted
  refine ⟨empty, s, hempty, hata, hpersistent, hagree, fun result hresult hcommitted => ?_⟩
  rcases FsCall.run_agrees (hfiles ▸ wellFormed_zero) (hata ▸ Ata.honest_perfect _) hpersistent
    hagree (.touch (some (CString.ofString "a"))) with ⟨-, h⟩ | ⟨result', hsyncs, h, -, -⟩
  · exact h
  · rw [hsyncs, hnil, List.nil_append, List.mem_singleton] at hresult
    exact (h (hresult ▸ hcommitted)).2.2

end Nostalux.Fs

import Nostalux.Fs.Snapshot

/-!
# `kernel/fs.c`: committing the mounted view

`fsSyncToDiskVerified` writes the whole record table into the slot that is not selected and then its
header, which makes the table visible.  A write of uncertain outcome is read back.
`fsCommitChanges` is the commit of a mutation: it enforces the record budget, and on a persistent
backend it syncs and gives the persistence up when the sync does not succeed.

* `fsSyncToDiskVerified_cases` and `fsCommitChanges_cases` say everything they can do to the state;
* `fsSyncToDiskVerified_written` says which sectors they hand to the device, and in which order;
* `fsSyncToDiskVerified_disk` ties their result to what an honest device stores.
-/

namespace Nostalux.Fs

open WriteLog List Ata

/-- `enum fs_reconcile_result`. -/
inductive FsReconcileResult
  | isMatch
  | mismatch
  | ioError
  deriving DecidableEq

/-! ### The device as the filesystem calls it -/

namespace FsState

/-- `ata_write`, recorded in the history. -/
def ataWrite (s : FsState) (lba : ℕ) (data : List Sector) : AtaWriteResult × FsState :=
  let (result, ata) := s.ata.write lba data
  let written := (WriteLog.block lba data).map fun w => ⟨w.1, w.2, s.backendStatus, s.activeSlot⟩
  (result, { s with ata, history := { s.history with written := s.history.written ++ written } })

/-- Record the result of a sync. -/
def recordSync (s : FsState) (result : FsSyncResult) : FsState :=
  { s with history := { s.history with syncs := s.history.syncs ++ [result] } }

end FsState

/-! ### Reading back -/

/-- The loop of `fs_reconcile_table`, with the number of sectors left. -/
def fsReconcileSectors (targetLba : ℕ) (expected : TableBytes) :
    ℕ → ℕ → Ata → FsReconcileResult × Ata
  | 0, _, a => (.isMatch, a)
  | n + 1, sector, a =>
    match a.read (targetLba + 1 + sector) with
    | (none, a) => (.ioError, a)
    | (some observed, a) =>
      if observed 0 = tableSector expected sector then
        fsReconcileSectors targetLba expected n (sector + 1) a
      else (.mismatch, a)

/-- `fs_reconcile_table`. -/
def fsReconcileTable (targetLba : ℕ) (table : FsDiskTable) (a : Ata) : FsReconcileResult × Ata :=
  fsReconcileSectors targetLba table.toBytes fsDiskTableSectors 0 a

/-- `fs_reconcile_slot`. -/
def fsReconcileSlot (targetLba : ℕ) (expectedHeader : FsDiskHeader) (table : FsDiskTable)
    (a : Ata) :
    FsReconcileResult × Ata :=
  match a.read targetLba with
  | (none, a) => (.ioError, a)
  | (some observed, a) =>
    if observed 0 = expectedHeader.toBytes then fsReconcileTable targetLba table a
    else (.mismatch, a)

/-! ### `fs_sync_to_disk` -/

/-- What follows a write in `fs_sync_to_disk_verified`: the result that ends the sync, or `none`
when it goes on. -/
def fsCheckWrite (write : AtaWriteResult) (requireVerifiedReadback : Bool)
    (reconcile : Ata → FsReconcileResult × Ata) (s : FsState) : Option FsSyncResult × FsState :=
  if write = .failed then (some .failed, s)
  else if write = .uncertain || requireVerifiedReadback then
    match reconcile s.ata with
    | (.ioError, ata) => (some .uncertain, { s with ata })
    | (.mismatch, ata) => (some .failed, { s with ata })
    | (.isMatch, ata) => (none, { s with ata })
  else (none, s)

/-- `fs_accept_commit`. -/
def fsAcceptCommit (targetSlot : ℕ) (nextGeneration : UInt32) (s : FsState) : FsState :=
  { s with activeSlot := targetSlot, activeGeneration := nextGeneration, loadedVersion := 5 }

/-- The slot that a sync writes. -/
def FsState.targetSlot (s : FsState) : ℕ :=
  if s.activeSlot < fsSlotCount then s.activeSlot ^^^ 1 else 0

/-- The second half of `fs_sync_to_disk_verified`: the commit header. -/
def fsWriteHeader (requireVerifiedReadback : Bool) (table : FsDiskTable) (s : FsState) :
    FsSyncResult × FsState :=
  let targetLba := fsSlotHeaderLba s.targetSlot
  let nextGeneration := s.activeGeneration + 1
  let header := fsCommitHeader table nextGeneration
  let (headerWrite, s) := s.ataWrite targetLba [header.toBytes]
  match fsCheckWrite headerWrite requireVerifiedReadback
    (fsReconcileSlot targetLba header table) s with
  | (some result, s) => (result, s)
  | (none, s) => (.committed, fsAcceptCommit s.targetSlot nextGeneration s)

/-- The first half of `fs_sync_to_disk_verified`: the record table, which then has its header. -/
def fsWriteTable (requireVerifiedReadback : Bool) (table : FsDiskTable) (s : FsState) :
    FsSyncResult × FsState :=
  let targetLba := fsSlotHeaderLba s.targetSlot
  let (tableWrite, s) := s.ataWrite (targetLba + 1) (tableSectors table.toBytes)
  match fsCheckWrite tableWrite requireVerifiedReadback (fsReconcileTable targetLba table) s with
  | (some result, s) => (result, s)
  | (none, s) => fsWriteHeader requireVerifiedReadback table s

/-- `fs_sync_to_disk_verified`, before its result is recorded. -/
def fsSyncSteps (requireVerifiedReadback : Bool) (s : FsState) : FsSyncResult × FsState :=
  match s.ata.init with
  | (.ready, ata) =>
    match fsSerialize s.files with
    | none => (.failed, { s with ata })
    | some table => fsWriteTable requireVerifiedReadback table { s with ata }
  | (_, ata) => (.failed, { s with ata })

/-- `fs_sync_to_disk_verified`. -/
def fsSyncToDiskVerified (requireVerifiedReadback : Bool) (s : FsState) : FsSyncResult × FsState :=
  let (result, s) := fsSyncSteps requireVerifiedReadback s
  (result, s.recordSync result)

/-- `fs_sync_to_disk`. -/
def fsSyncToDisk (s : FsState) : FsSyncResult × FsState := fsSyncToDiskVerified false s

/-! ### `fs_commit_changes` -/

/-- `fs_commit_changes`. -/
def fsCommitChanges (s : FsState) : Bool × FsState :=
  if (fsSerialize s.files).isNone then (false, s)
  else if s.backendStatus ≠ .persistent then (true, s)
  else
    match fsSyncToDisk s with
    | (.committed, s) => (true, s)
    | (.uncertain, s) => (true, { s with backendStatus := .volatileIoError })
    | (.failed, s) => (false, { s with backendStatus := .volatileIoError })

/-! ### What a sync can do -/

/-- Progress of a sync: only the device and the record of handed-over sectors change, and every
sector handed over lies in the target slot. -/
structure SyncProgress (s s' : FsState) : Prop where
  state : s' = { s with ata := s'.ata, history := s'.history }
  answers : ∃ m, ∀ n, s'.ata.answers n = s.ata.answers (m + n)
  syncs : s'.history.syncs = s.history.syncs
  written : ∃ ws, s'.history.written = s.history.written ++ ws ∧
    (∀ w ∈ ws, InSlot s.targetSlot w.lba ∧ w.backendStatus = s.backendStatus ∧
      w.activeSlot = s.activeSlot) ∧
    ∀ lba, (∀ w ∈ ws, w.lba ≠ lba) → s'.ata.disk lba = s.ata.disk lba

namespace SyncProgress

variable {s s₁ s₂ : FsState}

theorem refl (s : FsState) : SyncProgress s s :=
  ⟨rfl, ⟨0, by simp⟩, rfl, [], by simp⟩

/-- Outside of the target slot nothing changes. -/
theorem disk (h : SyncProgress s s₁) {lba : ℕ} (hlba : ¬ InSlot s.targetSlot lba) :
    s₁.ata.disk lba = s.ata.disk lba := by
  obtain ⟨ws, -, hmem, hdisk⟩ := h.written
  refine hdisk lba fun w hw heq => hlba ?_
  rw [← heq]
  exact (hmem w hw).1

theorem targetSlot_eq (h : SyncProgress s s₁) : s₁.targetSlot = s.targetSlot := by
  rw [h.state]
  rfl

theorem activeGeneration_eq (h : SyncProgress s s₁) : s₁.activeGeneration = s.activeGeneration := by
  rw [h.state]

theorem trans (h₁ : SyncProgress s s₁) (h₂ : SyncProgress s₁ s₂) : SyncProgress s s₂ := by
  obtain ⟨m, hm⟩ := h₁.answers
  obtain ⟨n, hn⟩ := h₂.answers
  obtain ⟨ws, hws, hmem, hdisk⟩ := h₁.written
  obtain ⟨vs, hvs, hmem', hdisk'⟩ := h₂.written
  have htarget := h₁.targetSlot_eq
  have hbackend : s₁.backendStatus = s.backendStatus := by rw [h₁.state]
  have hactive : s₁.activeSlot = s.activeSlot := by rw [h₁.state]
  refine ⟨?_, ⟨m + n, fun k => ?_⟩, h₂.syncs.trans h₁.syncs, ws ++ vs, ?_, ?_, ?_⟩
  · rw [h₂.state, h₁.state]
  · rw [hn, hm, Nat.add_assoc]
  · rw [hvs, hws, append_assoc]
  · intro w hw
    rcases mem_append.1 hw with hw | hw
    · exact hmem w hw
    · rw [← htarget, ← hbackend, ← hactive]
      exact hmem' w hw
  · intro lba hlba
    rw [hdisk' lba fun w hw => hlba w (mem_append_right ws hw),
      hdisk lba fun w hw => hlba w (mem_append_left vs hw)]

/-- Calls of the device that write nothing. -/
theorem reads (s : FsState) {ata : Ata} (h : s.ata.ReadsTo ata) :
    SyncProgress s { s with ata } := by
  obtain ⟨m, hm⟩ := h.answers
  exact ⟨rfl, ⟨m, hm⟩, rfl, [], by simp [h.disk]⟩

/-- A write inside the target slot. -/
theorem write {lba : ℕ} {data : List Sector}
    (h : ∀ w ∈ block lba data, InSlot s.targetSlot w.1) :
    SyncProgress s (s.ataWrite lba data).2 := by
  refine ⟨rfl, ⟨1, fun n => rfl⟩, rfl, _, rfl, ?_, fun x hx => ?_⟩
  · intro w hw
    obtain ⟨v, hv, rfl⟩ := mem_map.1 hw
    exact ⟨h v hv, rfl, rfl⟩
  · refine apply_eq_self fun w hw hwx => ?_
    exact hx _ (mem_map_of_mem (mem_of_mem_filter hw)) hwx

end SyncProgress

variable (targetLba : ℕ)

theorem readsTo_fsReconcileSectors (expected : TableBytes) (n sector : ℕ) (a : Ata) :
    a.ReadsTo (fsReconcileSectors targetLba expected n sector a).2 := by
  induction n generalizing sector a with
  | zero => exact ReadsTo.refl a
  | succ n ih =>
    have hread := readsTo_read a (targetLba + 1 + sector)
    rw [fsReconcileSectors]
    rcases hr : a.read (targetLba + 1 + sector) with ⟨_ | observed, a₁⟩ <;> rw [hr] at hread
    · exact hread
    · simp only
      split_ifs with heq
      · exact hread.trans (ih _ a₁)
      · exact hread

theorem readsTo_fsReconcileTable (table : FsDiskTable) (a : Ata) :
    a.ReadsTo (fsReconcileTable targetLba table a).2 :=
  readsTo_fsReconcileSectors targetLba table.toBytes fsDiskTableSectors 0 a

theorem readsTo_fsReconcileSlot (header : FsDiskHeader) (table : FsDiskTable)
    (a : Ata) : a.ReadsTo (fsReconcileSlot targetLba header table a).2 := by
  have hread := readsTo_read a targetLba
  unfold fsReconcileSlot
  rcases hr : a.read targetLba with ⟨_ | observed, a₁⟩ <;> rw [hr] at hread
  · exact hread
  · simp only
    split_ifs with heq
    · exact hread.trans (readsTo_fsReconcileSectors _ _ _ _ a₁)
    · exact hread

theorem syncProgress_fsCheckWrite (write : AtaWriteResult) (verify : Bool)
    {reconcile : Ata → FsReconcileResult × Ata} (hrec : ∀ a : Ata, a.ReadsTo (reconcile a).2)
    (s : FsState) : SyncProgress s (fsCheckWrite write verify reconcile s).2 := by
  have h := SyncProgress.reads s (hrec s.ata)
  unfold fsCheckWrite
  split_ifs
  · exact SyncProgress.refl s
  · rcases hr : reconcile s.ata with ⟨_ | _ | _, ata⟩ <;> rw [hr] at h <;> exact h
  · exact SyncProgress.refl s

theorem inSlot_header (slot : ℕ) (header : Sector) :
    ∀ w ∈ block (fsSlotHeaderLba slot) [header], InSlot slot w.1 := by
  intro w hw
  have h := bounds_of_mem_block hw
  rw [length_singleton] at h
  exact ⟨h.1, lt_of_lt_of_le h.2 (Nat.add_le_add_left (by decide) _)⟩

theorem inSlot_table (slot : ℕ) (image : TableBytes) :
    ∀ w ∈ block (fsSlotHeaderLba slot + 1) (tableSectors image), InSlot slot w.1 := by
  intro w hw
  have h := bounds_of_mem_block hw
  exact ⟨(Nat.le_add_right _ 1).trans h.1, h.2⟩

/-- Everything a sync does before its result is recorded. -/
def SyncOutcome (s : FsState) (result : FsSyncResult) (s' : FsState) : Prop :=
  ∃ s₁, SyncProgress s s₁ ∧
    s' = if result = .committed then fsAcceptCommit s.targetSlot (s.activeGeneration + 1) s₁ else s₁

variable {result : FsSyncResult}

theorem SyncOutcome.of_progress {s s₁ s' : FsState}
    (h : SyncProgress s s₁) (h' : SyncOutcome s₁ result s') : SyncOutcome s result s' := by
  obtain ⟨s₂, hs₂, rfl⟩ := h'
  refine ⟨s₂, h.trans hs₂, ?_⟩
  rw [h.targetSlot_eq, h.activeGeneration_eq]

variable {s s' : FsState}

theorem syncOutcome_of_ne (h : SyncProgress s s')
    (hne : result ≠ .committed) : SyncOutcome s result s' :=
  ⟨s', h, by rw [if_neg hne]⟩

/-- A check after a write ends the sync only with a result other than a commit. -/
theorem fsCheckWrite_ne_committed {write : AtaWriteResult} {verify : Bool}
    {reconcile : Ata → FsReconcileResult × Ata}
    (h : fsCheckWrite write verify reconcile s = (some result, s')) : result ≠ .committed := by
  unfold fsCheckWrite at h
  split_ifs at h
  · cases h
    decide
  · rcases hr : reconcile s.ata with ⟨_ | _ | _, ata⟩ <;> rw [hr] at h <;> cases h <;> decide
  · cases h

variable (verify : Bool)

theorem fsWriteHeader_outcome (table : FsDiskTable) (s : FsState) :
    SyncOutcome s (fsWriteHeader verify table s).1 (fsWriteHeader verify table s).2 := by
  have hwrite := SyncProgress.write (s := s) (inSlot_header s.targetSlot
    (fsCommitHeader table (s.activeGeneration + 1)).toBytes)
  rcases hw : s.ataWrite (fsSlotHeaderLba s.targetSlot)
    [(fsCommitHeader table (s.activeGeneration + 1)).toBytes] with ⟨headerWrite, s₁⟩
  rw [hw] at hwrite
  have hcheck := hwrite.trans (syncProgress_fsCheckWrite headerWrite verify
    (readsTo_fsReconcileSlot (fsSlotHeaderLba s.targetSlot)
      (fsCommitHeader table (s.activeGeneration + 1)) table) s₁)
  rcases hc : fsCheckWrite headerWrite verify (fsReconcileSlot (fsSlotHeaderLba s.targetSlot)
    (fsCommitHeader table (s.activeGeneration + 1)) table) s₁ with ⟨_ | result, s₂⟩ <;>
      rw [hc] at hcheck <;> simp only [fsWriteHeader, hw, hc]
  · refine ⟨s₂, hcheck, ?_⟩
    rw [if_pos rfl, ← hcheck.targetSlot_eq]
  · exact syncOutcome_of_ne hcheck (fsCheckWrite_ne_committed hc)

theorem fsWriteTable_outcome (table : FsDiskTable) (s : FsState) :
    SyncOutcome s (fsWriteTable verify table s).1 (fsWriteTable verify table s).2 := by
  have hwrite := SyncProgress.write (s := s) (inSlot_table s.targetSlot table.toBytes)
  rcases hw : s.ataWrite (fsSlotHeaderLba s.targetSlot + 1) (tableSectors table.toBytes) with
    ⟨tableWrite, s₁⟩
  rw [hw] at hwrite
  have hcheck := hwrite.trans (syncProgress_fsCheckWrite tableWrite verify
    (readsTo_fsReconcileTable (fsSlotHeaderLba s.targetSlot) table) s₁)
  rcases hc : fsCheckWrite tableWrite verify (fsReconcileTable (fsSlotHeaderLba s.targetSlot) table)
    s₁ with ⟨_ | result, s₂⟩ <;> rw [hc] at hcheck <;> simp only [fsWriteTable, hw, hc]
  · exact .of_progress hcheck (fsWriteHeader_outcome verify table s₂)
  · exact syncOutcome_of_ne hcheck (fsCheckWrite_ne_committed hc)

theorem fsSyncSteps_outcome (s : FsState) :
    SyncOutcome s (fsSyncSteps verify s).1 (fsSyncSteps verify s).2 := by
  have hinit := SyncProgress.reads s (ReadsTo.skip s.ata 1)
  have hne : FsSyncResult.failed ≠ .committed := by decide
  unfold fsSyncSteps
  rw [init]
  cases (s.ata.answers 0).init with
  | ready =>
    cases fsSerialize s.files with
    | none => exact syncOutcome_of_ne hinit hne
    | some table => exact .of_progress hinit (fsWriteTable_outcome verify table _)
  | noDevice | error => exact syncOutcome_of_ne hinit hne

/-- **Everything `fs_sync_to_disk` can do** to the state, whatever the device answers. -/
theorem fsSyncToDiskVerified_cases (s : FsState) : ∃ s₁, SyncProgress s s₁ ∧
      (fsSyncToDiskVerified verify s).2 =
        (if (fsSyncToDiskVerified verify s).1 = .committed then
          fsAcceptCommit s.targetSlot (s.activeGeneration + 1) s₁ else s₁).recordSync
          (fsSyncToDiskVerified verify s).1 := by
  obtain ⟨s₁, h₁, heq⟩ := fsSyncSteps_outcome verify s
  refine ⟨s₁, h₁, ?_⟩
  unfold fsSyncToDiskVerified
  rw [← heq]

/-! ### What a commit can do -/

/-- Everything `fs_commit_changes` can do: refuse a view that does not fit, accept it on a volatile
backend, or sync it. -/
inductive CommitOutcome (s : FsState) : Bool → FsState → Prop
  | full (hbudget : fsSerialize s.files = none) : CommitOutcome s false s
  | volatile (hbudget : s.files.recordsNeeded ≤ fsMaxFiles)
      (hstatus : s.backendStatus ≠ .persistent) :
      CommitOutcome s true s
  | committed {s₁ : FsState} (hbudget : s.files.recordsNeeded ≤ fsMaxFiles)
      (hstatus : s.backendStatus = .persistent) (hsync : fsSyncToDisk s = (.committed, s₁)) :
      CommitOutcome s true s₁
  | uncertain {s₁ : FsState} (hbudget : s.files.recordsNeeded ≤ fsMaxFiles)
      (hstatus : s.backendStatus = .persistent) (hsync : fsSyncToDisk s = (.uncertain, s₁)) :
      CommitOutcome s true { s₁ with backendStatus := .volatileIoError }
  | failed {s₁ : FsState} (hbudget : s.files.recordsNeeded ≤ fsMaxFiles)
      (hstatus : s.backendStatus = .persistent) (hsync : fsSyncToDisk s = (.failed, s₁)) :
      CommitOutcome s false { s₁ with backendStatus := .volatileIoError }

theorem fsCommitChanges_cases (s : FsState) :
    CommitOutcome s (fsCommitChanges s).1 (fsCommitChanges s).2 := by
  have hsome := fsSerialize_isSome_iff s.files
  unfold fsCommitChanges
  cases hser : fsSerialize s.files with
  | none => exact .full hser
  | some table =>
    rw [hser] at hsome
    have hbudget := hsome.1 rfl
    by_cases hstatus : s.backendStatus = .persistent
    · rw [if_neg (not_not.2 hstatus)]
      rcases hsync : fsSyncToDisk s with ⟨_ | _ | _, s₁⟩
      · exact .committed hbudget hstatus hsync
      · exact .failed hbudget hstatus hsync
      · exact .uncertain hbudget hstatus hsync
    · rw [if_pos hstatus]
      exact .volatile hbudget hstatus

/-- The fields that a failed commit, or one that only loses the backend, leaves alone. -/
structure SameMount (s s' : FsState) : Prop where
  activeSlot : s'.activeSlot = s.activeSlot
  activeGeneration : s'.activeGeneration = s.activeGeneration
  loadedVersion : s'.loadedVersion = s.loadedVersion

/-- The fields that no commit touches. -/
structure SameView (s s' : FsState) : Prop where
  files : s'.files = s.files
  legacyUpgradeStatus : s'.legacyUpgradeStatus = s.legacyUpgradeStatus
  selfTestActive : s'.selfTestActive = s.selfTestActive
  virtualSystemLog : s'.virtualSystemLog = s.virtualSystemLog
  systemLogIsVirtual : s'.systemLogIsVirtual = s.systemLogIsVirtual

theorem sameView_fsSync {verify : Bool} {s s₁ : FsState}
    (h : fsSyncToDiskVerified verify s = (result, s₁)) :
    SameView s s₁ ∧ s₁.backendStatus = s.backendStatus ∧
      (result ≠ .committed → SameMount s s₁) := by
  obtain ⟨s₂, hprogress, heq⟩ := fsSyncToDiskVerified_cases verify s
  rw [h] at heq
  simp only at heq
  have hstate := hprogress.state
  cases result with
  | committed =>
    rw [heq, hstate]
    exact ⟨⟨rfl, rfl, rfl, rfl, rfl⟩, rfl, fun hne => absurd rfl hne⟩
  | failed | uncertain =>
    rw [heq, hstate]
    exact ⟨⟨rfl, rfl, rfl, rfl, rfl⟩, rfl, fun _ => ⟨rfl, rfl, rfl⟩⟩

/-- No commit touches the mounted view. -/
theorem CommitOutcome.sameView {ok : Bool} (h : CommitOutcome s ok s') : SameView s s' := by
  cases h with
  | full | volatile => exact ⟨rfl, rfl, rfl, rfl, rfl⟩
  | committed _ _ hsync => exact (sameView_fsSync hsync).1
  | uncertain _ _ hsync | failed _ _ hsync =>
    obtain ⟨hview, -, -⟩ := sameView_fsSync hsync
    exact ⟨hview.files, hview.legacyUpgradeStatus, hview.selfTestActive, hview.virtualSystemLog,
      hview.systemLogIsVirtual⟩

/-- A commit that reports failure changes at most the backend status, from persistent to an I/O
error. -/
theorem CommitOutcome.of_false (h : CommitOutcome s false s') :
    SameMount s s' ∧ (s'.backendStatus = s.backendStatus ∨
      (s.backendStatus = .persistent ∧ s'.backendStatus = .volatileIoError)) := by
  cases h with
  | full => exact ⟨⟨rfl, rfl, rfl⟩, .inl rfl⟩
  | failed _ hstatus hsync =>
    obtain ⟨-, -, hmount⟩ := sameView_fsSync hsync
    have hsame := hmount (by decide)
    exact ⟨⟨hsame.activeSlot, hsame.activeGeneration, hsame.loadedVersion⟩, .inr ⟨hstatus, rfl⟩⟩

/-- A successful commit says that the view fits the record table. -/
theorem CommitOutcome.budget (h : CommitOutcome s true s') :
    s.files.recordsNeeded ≤ fsMaxFiles := by
  cases h <;> assumption

/-! ### What an honest device stores -/

section Honest

variable {a : Ata} {data : List Sector}

theorem disk_write_complete (h : a.Honest) {lba : ℕ}
    (hw : (a.write lba data).1 = .complete) {i : ℕ} {v : Sector} (hi : data[i]? = some v) :
    (a.write lba data).2.disk (lba + i) = v := by
  have hstored := h.complete 0 hw
  have hmem : (lba + i, v) ∈ a.storedWrites lba data := by
    rw [storedWrites, mem_filter]
    exact ⟨mem_block.2 ⟨i, hi, rfl⟩, hstored _⟩
  refine apply_eq (fun w hw hx => ?_) (.inl ⟨_, hmem, rfl⟩)
  obtain ⟨j, hj, hx'⟩ := mem_block.1 (mem_of_mem_filter hw)
  have hij : j = i := by omega
  rw [hij, hi] at hj
  exact (Option.some.inj hj).symm

theorem disk_write_failed (h : a.Honest) {lba : ℕ}
    (hw : (a.write lba data).1 = .failed) : (a.write lba data).2.disk = a.disk := by
  have hstored := h.failed 0 hw
  have hnil : a.storedWrites lba data = [] := by
    rw [storedWrites, filter_eq_nil_iff]
    intro w _
    simp [hstored]
  show apply a.disk (a.storedWrites lba data) = a.disk
  rw [hnil, apply_nil]

theorem disk_write_outside (a : Ata) {lba x : ℕ}
    (hx : x < lba ∨ lba + data.length ≤ x) : (a.write lba data).2.disk x = a.disk x := by
  refine apply_eq_self fun w hw hwx => ?_
  have := bounds_of_mem_block (mem_of_mem_filter hw)
  omega

/-- One sector is stored or it is not. -/
theorem disk_write_singleton (a : Ata) (lba : ℕ) (v : Sector) :
    (a.write lba [v]).2.disk lba = v ∨ (a.write lba [v]).2.disk = a.disk := by
  have hmem : ∀ w ∈ a.storedWrites lba [v], w = (lba, v) := by
    intro w hw
    obtain ⟨i, hi, hx⟩ := mem_block.1 (mem_of_mem_filter hw)
    rcases i with _ | i
    · cases hi
      exact Prod.ext hx rfl
    · simp at hi
  rcases hw : a.storedWrites lba [v] with _ | ⟨w, ws⟩
  · right
    show apply a.disk (a.storedWrites lba [v]) = a.disk
    rw [hw, apply_nil]
  · left
    refine apply_eq (fun u hu _ => by rw [hmem u hu]) (.inl ⟨w, ?_, ?_⟩)
    · rw [hw]
      exact mem_cons_self
    · rw [hmem w (by rw [hw]; exact mem_cons_self)]

/-- A read-back that matches has seen the expected table on the disk, and one that differs from it
has not. -/
theorem fsReconcileSectors_cases {targetLba : ℕ} {expected : TableBytes} {n sector : ℕ}
    (hf : a.Faithful) :
    ((fsReconcileSectors targetLba expected n sector a).1 = .isMatch → ∀ i, sector ≤ i →
      i < sector + n → a.disk (targetLba + 1 + i) = tableSector expected i) ∧
    ((fsReconcileSectors targetLba expected n sector a).1 = .mismatch → ∃ i < sector + n,
      a.disk (targetLba + 1 + i) ≠ tableSector expected i) := by
  induction n generalizing sector a with
  | zero => exact ⟨fun _ i h1 h2 => absurd h1 (by omega), fun h => by cases h⟩
  | succ n ih =>
    obtain ⟨ihMatch, ihMismatch⟩ := @ih _ (sector + 1) ((ReadsTo.skip a 1).faithful hf)
    rw [fsReconcileSectors, Ata.read]
    split_ifs with hok
    · simp only [Nat.add_zero, hf.observed]
      split_ifs with heq
      · refine ⟨fun h i h1 h2 => ?_, fun h => ?_⟩
        · rcases Nat.eq_or_lt_of_le h1 with rfl | hlt
          · exact heq
          · exact ihMatch h i hlt (by omega)
        · obtain ⟨i, hi, hne⟩ := ihMismatch h
          exact ⟨i, by omega, hne⟩
      · exact ⟨fun h => (by cases h), fun _ => ⟨sector, by omega, heq⟩⟩
    · exact ⟨fun h => (by cases h), fun h => (by cases h)⟩

theorem ata_ataWrite (s : FsState) (lba : ℕ) (data : List Sector) :
    (s.ataWrite lba data).2.ata = (s.ata.write lba data).2 := rfl

theorem fst_ataWrite (s : FsState) (lba : ℕ) (data : List Sector) :
    (s.ataWrite lba data).1 = (s.ata.write lba data).1 := rfl

theorem honest_write (h : a.Honest) (lba : ℕ) (data : List Sector) : (a.write lba data).2.Honest :=
  h.of_answers (m := 1) fun _ => rfl

variable {reconcile : Ata → FsReconcileResult × Ata}

theorem disk_fsCheckWrite (write : AtaWriteResult) (verify : Bool)
    (hrec : ∀ a : Ata, a.ReadsTo (reconcile a).2)
    (s : FsState) : s.ata.ReadsTo (fsCheckWrite write verify reconcile s).2.ata := by
  have h := hrec s.ata
  unfold fsCheckWrite
  split_ifs
  · exact ReadsTo.refl _
  · rcases hr : reconcile s.ata with ⟨_ | _ | _, ata⟩ <;> rw [hr] at h <;> exact h
  · exact ReadsTo.refl _

section

variable {write : AtaWriteResult} {verify : Bool} {s s' : FsState}

/-- A sync goes on after a complete write, or after a read-back that matches. -/
theorem fsCheckWrite_eq_none (h : fsCheckWrite write verify reconcile s = (none, s')) :
    write = .complete ∨ (reconcile s.ata).1 = .isMatch := by
  unfold fsCheckWrite at h
  split_ifs at h with hfailed hback
  · cases h
  · right
    rcases hr : reconcile s.ata with ⟨_ | _ | _, ata⟩
    · rfl
    · rw [hr] at h
      cases h
    · rw [hr] at h
      cases h
  · left
    cases write with
    | failed => exact absurd rfl hfailed
    | complete => rfl
    | uncertain => simp at hback

/-- A sync fails after a failed write, or after a read-back that differs. -/
theorem fsCheckWrite_eq_failed (h : fsCheckWrite write verify reconcile s = (some .failed, s')) :
    write = .failed ∨ (reconcile s.ata).1 = .mismatch := by
  unfold fsCheckWrite at h
  split_ifs at h with hfailed hback
  · exact .inl hfailed
  · right
    rcases hr : reconcile s.ata with ⟨_ | _ | _, ata⟩
    · rw [hr] at h
      cases h
    · rfl
    · rw [hr] at h
      cases h
  · cases h

end

/-- What a sync of the table `t` leaves in the target slot, by its result. -/
def SyncDisk (d d' : ℕ → Sector) (slot : ℕ) (t : FsDiskTable) (generation : UInt32) :
    FsSyncResult → Prop
  | .committed => Committed d' slot t generation
  | .failed => headerAt d' slot = headerAt d slot
  | .uncertain => headerAt d' slot = headerAt d slot ∨ Committed d' slot t generation

variable {d : ℕ → Sector} {slot : ℕ}

theorem tableAt_eq_of_sectors {image : TableBytes}
    (h : ∀ i < fsDiskTableSectors, d (fsSlotHeaderLba slot + 1 + i) = tableSector image i) :
    tableAt d slot = image := by
  rw [tableAt, ofSectors_congr h, ofSectors_tableSector]

theorem sector_of_tableAt {image : TableBytes}
    (h : tableAt d slot = image) {i : ℕ} (hi : i < fsDiskTableSectors) :
    d (fsSlotHeaderLba slot + 1 + i) = tableSector image i := by
  rw [← h, tableAt, tableSector_ofSectors _ hi]

variable {table : FsDiskTable}

theorem committed_of_sectors {generation : UInt32}
    (hheader : d (fsSlotHeaderLba slot) = (fsCommitHeader table generation).toBytes)
    (htable : tableAt d slot = table.toBytes) : Committed d slot table generation :=
  ⟨by rw [headerAt, hheader, FsDiskHeader.ofBytes_toBytes], htable⟩

/-- The read-back of a slot decides whether the commit is complete. -/
theorem fsReconcileSlot_iff {generation : UInt32} (hf : a.Faithful) :
    ((fsReconcileSlot (fsSlotHeaderLba slot) (fsCommitHeader table generation) table a).1 =
      .isMatch →
      Committed a.disk slot table generation) ∧
    ((fsReconcileSlot (fsSlotHeaderLba slot) (fsCommitHeader table generation) table a).1 =
      .mismatch →
      ¬ Committed a.disk slot table generation) := by
  have hskip := (ReadsTo.skip a 1).faithful hf
  unfold fsReconcileSlot
  rw [Ata.read]
  split_ifs with hok
  · simp only [Nat.add_zero, hf.observed]
    split_ifs with heq
    · constructor
      · intro h
        refine committed_of_sectors heq (tableAt_eq_of_sectors fun i hi => ?_)
        exact (fsReconcileSectors_cases hskip).1 h i (Nat.zero_le i) (by omega)
      · intro h hcommit
        obtain ⟨i, hi, hne⟩ := (fsReconcileSectors_cases hskip).2 h
        exact hne (sector_of_tableAt hcommit.table (by omega))
    · refine ⟨fun h => (by cases h), fun _ hcommit => heq ?_⟩
      rw [← hcommit.header, headerAt, FsDiskHeader.toBytes_ofBytes]
  · exact ⟨fun h => (by cases h), fun h => (by cases h)⟩

variable (verify : Bool)

/-- The header stage over a table that is already on the disk. -/
theorem fsWriteHeader_disk {s : FsState} (h : s.ata.Honest)
    (htable : tableAt s.ata.disk s.targetSlot = table.toBytes) :
    SyncDisk s.ata.disk (fsWriteHeader verify table s).2.ata.disk s.targetSlot table
      (s.activeGeneration + 1) (fsWriteHeader verify table s).1 := by
  set slot := s.targetSlot with hslot
  set header := fsCommitHeader table (s.activeGeneration + 1) with hheader
  rcases hw : s.ataWrite (fsSlotHeaderLba slot) [header.toBytes] with ⟨headerWrite, s₁⟩
  have hata : s₁.ata = (s.ata.write (fsSlotHeaderLba slot) [header.toBytes]).2 := by
    rw [← ata_ataWrite, hw]
  have hresult : headerWrite = (s.ata.write (fsSlotHeaderLba slot) [header.toBytes]).1 := by
    rw [← fst_ataWrite, hw]
  have hfaithful : s₁.ata.Faithful := by
    rw [hata]
    exact (honest_write h _ _).faithful
  have htable₁ : tableAt s₁.ata.disk slot = table.toBytes := by
    refine tableAt_eq_of_sectors fun i hi => ?_
    rw [hata, disk_write_outside _ (.inr (by simp)), sector_of_tableAt htable hi]
  -- the sector is stored, and the commit is complete, or the disk is as before
  have hsplit : headerAt s₁.ata.disk slot = headerAt s.ata.disk slot ∨
      Committed s₁.ata.disk slot table (s.activeGeneration + 1) := by
    rcases disk_write_singleton s.ata (fsSlotHeaderLba slot) header.toBytes with hd | hd
    · rw [← hata] at hd
      exact .inr (committed_of_sectors hd htable₁)
    · rw [hata, hd]
      exact .inl rfl
  have hdisk := (disk_fsCheckWrite headerWrite verify
    (readsTo_fsReconcileSlot (fsSlotHeaderLba slot) header table) s₁).disk
  obtain ⟨hmatch, hmismatch⟩ := @fsReconcileSlot_iff _ slot table (s.activeGeneration + 1) hfaithful
  rcases hc : fsCheckWrite headerWrite verify (fsReconcileSlot (fsSlotHeaderLba slot) header table)
    s₁ with ⟨_ | result, s₂⟩ <;> rw [hc] at hdisk <;>
      simp only [fsWriteHeader, ← hslot, ← hheader, hw, hc] <;> simp only at hdisk
  · show Committed s₂.ata.disk slot table (s.activeGeneration + 1)
    rw [hdisk]
    rcases fsCheckWrite_eq_none hc with hcomplete | hback
    · rw [hresult] at hcomplete
      have hstored := disk_write_complete (i := 0) h hcomplete rfl
      rw [← hata] at hstored
      exact committed_of_sectors hstored htable₁
    · exact hmatch hback
  · cases result with
    | committed => exact absurd rfl (fsCheckWrite_ne_committed hc)
    | uncertain =>
      rw [hdisk]
      exact hsplit
    | failed =>
      show headerAt s₂.ata.disk slot = headerAt s.ata.disk slot
      rw [hdisk]
      rcases fsCheckWrite_eq_failed hc with hfailed | hback
      · rw [hresult] at hfailed
        rw [hata, disk_write_failed h hfailed]
      · exact hsplit.resolve_right (hmismatch hback)

/-- The table stage leaves the header alone, and goes on only over a complete table. -/
theorem fsWriteTable_disk (table : FsDiskTable) {s : FsState} (h : s.ata.Honest) :
    SyncDisk s.ata.disk (fsWriteTable verify table s).2.ata.disk s.targetSlot table
      (s.activeGeneration + 1) (fsWriteTable verify table s).1 := by
  set slot := s.targetSlot with hslot
  have hprogress := SyncProgress.write (s := s) (inSlot_table s.targetSlot table.toBytes)
  rcases hw : s.ataWrite (fsSlotHeaderLba slot + 1)
    (tableSectors table.toBytes) with ⟨tableWrite, s₁⟩
  rw [← hslot, hw] at hprogress
  have hata : s₁.ata = (s.ata.write (fsSlotHeaderLba slot + 1) (tableSectors table.toBytes)).2 := by
    rw [← ata_ataWrite, hw]
  have hresult : tableWrite =
      (s.ata.write (fsSlotHeaderLba slot + 1) (tableSectors table.toBytes)).1 := by
    rw [← fst_ataWrite, hw]
  have hhonest : s₁.ata.Honest := by
    rw [hata]
    exact honest_write h _ _
  have hheader : headerAt s₁.ata.disk slot = headerAt s.ata.disk slot := by
    rw [headerAt, hata, disk_write_outside _ (.inl (by simp))]
    rfl
  have hreads := disk_fsCheckWrite tableWrite verify
    (readsTo_fsReconcileTable (fsSlotHeaderLba slot) table) s₁
  have hstate := hprogress.trans (syncProgress_fsCheckWrite tableWrite verify
    (readsTo_fsReconcileTable (fsSlotHeaderLba slot) table) s₁)
  have hkept := (congrArg (headerAt · slot) hreads.disk).trans hheader
  rcases hc : fsCheckWrite tableWrite verify (fsReconcileTable (fsSlotHeaderLba slot) table) s₁
    with ⟨_ | result, s₂⟩ <;> rw [hc] at hreads hstate hkept <;>
      simp only [fsWriteTable, ← hslot, hw, hc] <;> simp only at hreads hstate hkept
  · have htable : tableAt s₂.ata.disk slot = table.toBytes := by
      refine tableAt_eq_of_sectors fun i hi => ?_
      rw [hreads.disk]
      rcases fsCheckWrite_eq_none hc with hcomplete | hback
      · rw [hresult] at hcomplete
        rw [hata]
        exact disk_write_complete h hcomplete (getElem?_tableSectors _ hi)
      · exact (fsReconcileSectors_cases hhonest.faithful).1 hback i (Nat.zero_le i) (by omega)
    have hstep := fsWriteHeader_disk verify (hreads.honest hhonest)
      (show tableAt s₂.ata.disk s₂.targetSlot =
        table.toBytes by rw [hstate.targetSlot_eq]; exact htable)
    rw [hstate.targetSlot_eq, hstate.activeGeneration_eq, ← hslot] at hstep
    unfold SyncDisk at hstep ⊢
    rwa [hkept] at hstep
  · cases result with
    | committed => exact absurd rfl (fsCheckWrite_ne_committed hc)
    | uncertain => exact .inl hkept
    | failed => exact hkept

/-- **What a sync leaves on an honest device.** -/
theorem fsSyncToDiskVerified_disk {s : FsState} (h : s.ata.Honest)
    (htable : fsSerialize s.files = some table) :
    SyncDisk s.ata.disk (fsSyncToDiskVerified verify s).2.ata.disk s.targetSlot table
      (s.activeGeneration + 1) (fsSyncToDiskVerified verify s).1 := by
  show SyncDisk s.ata.disk (fsSyncSteps verify s).2.ata.disk s.targetSlot table
      (s.activeGeneration + 1) (fsSyncSteps verify s).1
  have hstep := fsWriteTable_disk verify table (s := { s with ata := s.ata.skip 1 })
    ((ReadsTo.skip s.ata 1).honest h)
  unfold fsSyncSteps
  rw [init, htable]
  cases (s.ata.answers 0).init with
  | ready => exact hstep
  | noDevice => rfl
  | error => rfl

end Honest

end Nostalux.Fs

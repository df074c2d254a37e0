import Nostalux.Fs.Boot

/-!
# Runs of the filesystem

A run is a boot followed by any sequence of requests.  Two facts hold along every run, whatever the
disk and whatever the device answers:

* the file table keeps its representation invariant (`wellFormed_after_boot`);
* storage is written only with permission, and never inside the selected slot
  (`FsRequest.writes_permitted`).

`fs_init` and the self-test are compositions of loads, calls and commits; `fsSelfTest_invariant` is
the rule that carries a property through the self-test.
-/

namespace Nostalux.Fs

open FsState List

/-! ### A rule for the self-test -/

section SelfTest

variable {I : FsState → Prop} (hcall : ∀ (s : FsState) (call : FsCall), I s → I (call.run s).2)
  (hreload : ∀ s, I s → I (fsSelfTestReload s).2) (hfail : ∀ s, I s → I (fsSelfTestFail s))
  (hend : ∀ s : FsState, I s → I { s with selfTestActive := false })
include hcall hreload hfail hend

theorem fsSelfTestRemove_invariant {s : FsState} (h : I s) : I (fsSelfTestRemove s) := by
  have h₁ := hcall s (.remove (some selfTestRenamedName)) h
  rw [FsCall.run] at h₁
  unfold fsSelfTestRemove
  rcases hremove : fsRemove (some selfTestRenamedName) s with ⟨_ | _, s₁⟩ <;> rw [hremove] at h₁
  · exact hfail s₁ h₁
  have h₂ := hreload s₁ h₁
  rcases hload : fsSelfTestReload s₁ with ⟨_ | _, s₂⟩ <;> rw [hload] at h₂
  · simpa only [hload] using h₂
  · simp only [hload]
    split_ifs
    · exact hfail s₂ h₂
    · exact hend s₂ h₂

theorem fsSelfTestRename_invariant {s : FsState} (h : I s) : I (fsSelfTestRename s) := by
  have h₁ := hcall s (.rename (some selfTestScratchName) (some selfTestRenamedName)) h
  rw [FsCall.run] at h₁
  unfold fsSelfTestRename
  rcases hrename : fsRename (some selfTestScratchName)
    (some selfTestRenamedName) s with ⟨_ | _, s₁⟩ <;>
    rw [hrename] at h₁
  · exact hfail s₁ h₁
  have h₂ := hreload s₁ h₁
  simp only
  by_cases hold : (fsFindMutable s₁.files (some selfTestScratchName)).isSome = true
  · rw [if_pos hold]
    exact hfail s₁ h₁
  rw [if_neg hold]
  rcases hload : fsSelfTestReload s₁ with ⟨_ | _, s₂⟩ <;> rw [hload] at h₂
  · exact h₂
  · simp only
    split_ifs
    · exact hfail s₂ h₂
    · exact hfail s₂ h₂
    · exact fsSelfTestRemove_invariant hcall hreload hfail hend h₂

/-- **The invariant rule of the self-test.**  What mutating calls, reloads and the two ends of the
test preserve holds after the test. -/
theorem fsSelfTest_invariant {s : FsState}
    (hbegin : I { s with selfTestActive := true, files := (fsClearSelfTestArtifacts s.files).2 }) :
    I (fsSelfTest s) := by
  have h₁ := hcall _ (.writeBytes (some selfTestScratchName)
    (some fun i => fsSelfTestPayload.getD i 0) fsSelfTestPayload.length) hbegin
  rw [FsCall.run] at h₁
  unfold fsSelfTest
  simp only
  rcases hwrite : fsWriteBytes (some selfTestScratchName) (some fun i => fsSelfTestPayload.getD i 0)
    fsSelfTestPayload.length
    { s with
      selfTestActive := true, files := (fsClearSelfTestArtifacts s.files).2 } with ⟨_ | _, s₁⟩ <;>
    rw [hwrite] at h₁
  · exact hfail s₁ h₁
  have h₂ := hreload s₁ h₁
  rcases hload : fsSelfTestReload s₁ with ⟨_ | _, s₂⟩ <;> rw [hload] at h₂
  · simpa only [hload] using h₂
  · simp only [hload]
    split_ifs
    · exact hfail s₂ h₂
    · exact fsSelfTestRename_invariant hcall hreload hfail hend h₂

end SelfTest

/-! ### The representation invariant -/

variable {s : FsState}

theorem wellFormed_fsSelfTestReload (h : s.files.WellFormed) :
    (fsSelfTestReload s).2.files.WellFormed := by
  have hload := (fsLoadFromDisk_cases s).wellFormed h
  unfold fsSelfTestReload
  split
  · next heq =>
    rw [heq] at hload
    exact hload
  · next heq =>
    rw [heq] at hload
    exact wellFormed_fsClearSelfTestArtifacts hload

theorem wellFormed_fsSelfTest (h : s.files.WellFormed) : (fsSelfTest s).files.WellFormed :=
  fsSelfTest_invariant (I := fun s => s.files.WellFormed) (fun _ call hs => call.wellFormed_run hs)
    (fun _ hs => wellFormed_fsSelfTestReload hs)
    (fun _ hs => wellFormed_fsClearSelfTestArtifacts hs) (fun _ hs => hs)
    (wellFormed_fsClearSelfTestArtifacts h)

/-- Tables of the formats before version 5 hold files of at most one record. -/
theorem sizesIn_of_fsDecodeSlot {header : FsDiskHeader} {image : TableBytes}
    {files files' : FileTable}
    (h : fsDecodeSlot header image files = some files')
    (hversion : header.version < fsDiskVersion) :
    files'.SizesIn (· ≤ fsDiskDataBytes) := by
  unfold fsDecodeSlot at h
  split_ifs at h with hsum hfive
  · exact absurd hversion (UInt32.not_lt.2 hfive)
  · intro f hf huse
    have hone := forall_mem_of_fsDeserializeLegacy (P := fun f => f.records ≤ 1) h
      (fun r hr => records_fsLegacyCell_le hr) f hf
    rw [FsFile.records, if_pos huse, fsDiskRecordsNeeded] at hone
    show f.size ≤ 1024
    split_ifs at hone with hzero
    · omega
    · have hone' : (f.size + 1024 - 1) / 1024 ≤ 1 := hone
      omega

theorem wellFormed_fsDropDefaultBmp (h : s.files.WellFormed) :
    (fsDropDefaultBmp s).files.WellFormed := by
  unfold fsDropDefaultBmp
  cases hfind : fsFindMutable s.files (some defaultBmpName) with
  | none => exact h
  | some i =>
    obtain ⟨hedit, -⟩ := edit_remove h hfind
    have hsum := FileTable.recordsNeeded_set hedit.get (fsClear (s.files.get i))
    have hzero : (fsClear (s.files.get i)).records = 0 := rfl
    have hbudget := h.budget
    exact hedit.wellFormed h (by omega)

/-- The cleaned view of a load is sound. -/
theorem wellFormed_fsRecovered {s s' : FsState} {result : FsDiskLoadResult}
    (h : FsLoadOutcome s result s') (hs : s.files.WellFormed) (hmounted : result.mounted = true) :
    (fsRecovered result s').files.WellFormed := by
  refine wellFormed_fsRecoverView (result = .loaded) s'.loadedVersion (h.wellFormed hs) ?_
  intro hversion
  cases h with
  | mounted _ _ hdecode =>
    exact sizesIn_of_fsDecodeSlot hdecode (UInt32.lt_trans hversion (by decide))
  | unmounted hresult =>
    rw [hmounted] at hresult
    cases hresult

theorem wellFormed_fsInitMounted {result : FsDiskLoadResult}
    (h : (fsRecovered result s).files.WellFormed) : (fsInitMounted result s).files.WellFormed := by
  have hcases := fsInitMounted_cases result s
  revert hcases
  generalize fsInitMounted result s = r
  rintro (_ | ⟨-, hcommit⟩ | @⟨s', -, hcommit, drop⟩)
  · exact h
  · rw [hcommit.sameView.files]
    exact h
  · have hfiles : s'.files.WellFormed := by
      rw [hcommit.sameView.files]
      exact h
    split_ifs
    · exact wellFormed_fsDropDefaultBmp hfiles
    · exact hfiles

variable (result : FsDiskLoadResult)

theorem wellFormed_fsInitFresh (s : FsState) : (fsInitFresh result s).files.WellFormed := by
  have hfresh := (fsFreshFiles_spec s.files).1
  unfold fsInitFresh
  -- from here on only the soundness of the fresh table matters
  generalize fsFreshFiles s.files = files at hfresh ⊢
  cases result with
  | blank =>
    simp only
    split
    · next hsync =>
      refine wellFormed_fsSelfTest ?_
      rw [(sameView_fsSync hsync).1.files]
      exact hfresh
    · next hsync =>
      rw [(sameView_fsSync hsync).1.files]
      exact hfresh
  | _ => exact hfresh

/-- **`fs_init` leaves a sound file table**, whatever is on the disk. -/
theorem wellFormed_fsInit (h : s.files.WellFormed) : (fsInit s).files.WellFormed := by
  have hcases := fsLoadFromDisk_cases (fsActivateVirtualSystemLog s)
  unfold fsInit
  rcases hload : fsLoadFromDisk (fsActivateVirtualSystemLog s) with ⟨result, s'⟩
  rw [hload] at hcases
  simp only
  split_ifs with hmounted
  · exact wellFormed_fsInitMounted (wellFormed_fsRecovered hcases h hmounted)
  · exact wellFormed_fsInitFresh result s'

/-! ### Requests and runs -/

/-- The public calls that can change the state.  The reading calls `fs_file_at` and `fs_find` may
refresh the virtual log, whose text they are given; the other reading calls only look at the
state. -/
inductive FsRequest
  | init
  | mutate (call : FsCall)
  | upgradeLegacySnapshot (confirmation : Option CString)
  | fileAt (index : ℕ) (log : CString)
  | find (name : Option CString) (log : CString)

/-- The state after a request. -/
def FsRequest.run : FsRequest → FsState → FsState
  | init, s => fsInit s
  | mutate call, s => (call.run s).2
  | upgradeLegacySnapshot confirmation, s => (fsUpgradeLegacySnapshot confirmation s).2
  | fileAt index log, s => (fsFileAt index log s).2
  | find name log, s => (fsFind name log s).2

/-- The state after a sequence of requests. -/
def FsState.after (s : FsState) (requests : List FsRequest) : FsState :=
  requests.foldl (fun s request => request.run s) s

/-- The invariant rule of runs. -/
theorem FsState.after_invariant {I : FsState → Prop}
    (hstep : ∀ (r : FsRequest) s, I s → I (r.run s)) (h : I s) (requests : List FsRequest) :
      I (s.after requests) :=
  foldlRecOn requests _ h fun s hs r _ => hstep r s hs

/-- The reading calls change at most the virtual log. -/
theorem snd_fsFileAt (index : ℕ) (log : CString) (s : FsState) :
    (fsFileAt index log s).2 = s ∨ (fsFileAt index log s).2 = fsRefreshSystemLog log s := by
  unfold fsFileAt
  simp only
  split_ifs
  · exact .inl rfl
  · exact .inr rfl
  · exact .inl rfl

theorem snd_fsFind (name : Option CString) (log : CString) (s : FsState) :
    (fsFind name log s).2 = s ∨ (fsFind name log s).2 = fsRefreshSystemLog log s := by
  unfold fsFind
  split_ifs
  · exact .inr rfl
  · left
    split <;> rfl

/-- What refreshing the virtual log leaves alone. -/
theorem fsRefreshSystemLog_eq (log : CString) (s : FsState) :
    fsRefreshSystemLog log s =
      { s with virtualSystemLog := (fsRefreshSystemLog log s).virtualSystemLog } := by
  unfold fsRefreshSystemLog
  split_ifs <;> rfl

theorem fsFileAt_frame (index : ℕ) (log : CString) (s : FsState) : (fsFileAt index log s).2 =
    { s with virtualSystemLog := (fsFileAt index log s).2.virtualSystemLog } := by
  rcases snd_fsFileAt index log s with heq | heq <;> rw [heq]
  exact fsRefreshSystemLog_eq log s

theorem fsFind_frame (name : Option CString) (log : CString) (s : FsState) :
    (fsFind name log s).2 =
      { s with virtualSystemLog := (fsFind name log s).2.virtualSystemLog } := by
  rcases snd_fsFind name log s with heq | heq <;> rw [heq]
  exact fsRefreshSystemLog_eq log s

theorem FsRequest.wellFormed_run (r : FsRequest) (h : s.files.WellFormed) :
    (r.run s).files.WellFormed := by
  cases r with
  | init => exact wellFormed_fsInit h
  | mutate call => exact call.wellFormed_run h
  | upgradeLegacySnapshot confirmation =>
    simp only [run, fsUpgradeLegacySnapshot]
    split_ifs
    · exact h
    · exact h
    · split <;> next hsync => rw [(sameView_fsSync hsync).1.files]; exact h
  | fileAt index log =>
    rw [run, fsFileAt_frame]
    exact h
  | find name log =>
    rw [run, fsFind_frame]
    exact h

/-- **The representation invariant holds along every run**: after `fs_init` on an arbitrary disk and
after every further request, the names in use are valid and distinct, every size is below the
maximum with a NUL behind the contents, and the records fit, so that the view can be serialized. -/
theorem wellFormed_after_boot (ata : Ata) (requests : List FsRequest) :
    ((FsState.boot ata).after (.init :: requests)).files.WellFormed ∧
      (fsSerialize ((FsState.boot ata).after (.init :: requests)).files).isSome = true := by
  have hwf := after_invariant (I := fun s => s.files.WellFormed)
    (fun r _ hs => r.wellFormed_run hs) (s := boot ata) FileTable.wellFormed_zero
    (.init :: requests)
  exact ⟨hwf, (fsSerialize_isSome_iff _).2 hwf.budget⟩

/-! ### Permission to write -/

/-- A write that does not touch the slot selected when it was made. -/
def FsWrite.Guarded (w : FsWrite) : Prop :=
  ∃ slot < fsSlotCount, slot ≠ w.activeSlot ∧ InSlot slot w.lba

/-- The virtual log, and whether it is shown. -/
def FsState.virtualLog (s : FsState) : FsFile × Bool := (s.virtualSystemLog, s.systemLogIsVirtual)

theorem SameView.virtualLog {s' : FsState} (h : SameView s s') : s'.virtualLog = s.virtualLog :=
  Prod.ext h.virtualSystemLog h.systemLogIsVirtual

/-- From one state to another the device is only used, every sector handed to it satisfies `P`, and
no other sector changes; the virtual log is left alone. -/
structure Progress (P : FsWrite → Prop) (s s' : FsState) : Prop where
  answers : ∃ m, ∀ n, s'.ata.answers n = s.ata.answers (m + n)
  virtualLog : s'.virtualLog = s.virtualLog
  written : ∃ ws, s'.history.written = s.history.written ++ ws ∧ (∀ w ∈ ws, P w) ∧
    ∀ lba, (∀ w ∈ ws, w.lba ≠ lba) → s'.ata.disk lba = s.ata.disk lba

namespace Progress

variable {P Q : FsWrite → Prop} {s s₁ s₂ : FsState}

/-- Changes of the mounted view only. -/
theorem of_eq (hata : s₁.ata = s.ata) (hhistory : s₁.history = s.history)
    (hlog : s₁.virtualLog = s.virtualLog) : Progress P s s₁ := by
  refine ⟨⟨0, fun n => by rw [hata, Nat.zero_add]⟩, hlog, [], ?_, by simp,
    fun lba _ => by rw [hata]⟩
  rw [hhistory, append_nil]

theorem trans (h₁ : Progress P s s₁) (h₂ : Progress P s₁ s₂) : Progress P s s₂ := by
  obtain ⟨m, hm⟩ := h₁.answers
  obtain ⟨n, hn⟩ := h₂.answers
  obtain ⟨ws, hws, hP, hdisk⟩ := h₁.written
  obtain ⟨vs, hvs, hP', hdisk'⟩ := h₂.written
  refine ⟨⟨m + n, fun k => by rw [hn, hm, Nat.add_assoc]⟩, h₂.virtualLog.trans h₁.virtualLog,
    ws ++ vs, ?_, ?_, ?_⟩
  · rw [hvs, hws, append_assoc]
  · intro w hw
    exact (mem_append.1 hw).elim (hP w) (hP' w)
  · intro lba hlba
    rw [hdisk' lba fun w hw => hlba w (mem_append_right ws hw),
      hdisk lba fun w hw => hlba w (mem_append_left vs hw)]

theorem mono (h : Progress P s s₁) (hPQ : ∀ w, P w → Q w) : Progress Q s s₁ := by
  obtain ⟨ws, hws, hP, hdisk⟩ := h.written
  exact ⟨h.answers, h.virtualLog, ws, hws, fun w hw => hPQ w (hP w hw), hdisk⟩

/-- A change of the mounted view after some progress. -/
theorem congr (h : Progress P s s₁) (hata : s₂.ata = s₁.ata) (hhistory : s₂.history = s₁.history)
    (hlog : s₂.virtualLog = s₁.virtualLog) : Progress P s s₂ :=
  h.trans (of_eq hata hhistory hlog)

end Progress

/-- A load writes nothing. -/
theorem progress_load (P : FsWrite → Prop) (s : FsState) : Progress P s (fsLoadFromDisk s).2 := by
  have hcases := fsLoadFromDisk_cases s
  have hreads : ∀ {s' : FsState}, s.ata.ReadsTo s'.ata → s'.history = s.history →
      s'.virtualLog = s.virtualLog → Progress P s s' := by
    intro s' hata hhistory hlog
    obtain ⟨m, hm⟩ := hata.answers
    refine ⟨⟨m, hm⟩, hlog, [], ?_, by simp, fun lba _ => by rw [hata.disk]⟩
    rw [hhistory, append_nil]
  revert hcases
  generalize fsLoadFromDisk s = r
  rcases r with ⟨result, s'⟩
  intro hcases
  cases hcases with
  | mounted _ _ _ _ hata => exact hreads hata rfl rfl
  | unmounted _ hata => exact hreads hata rfl rfl

/-- A sync writes into the slot that is not selected. -/
theorem progress_sync (verify : Bool) (s : FsState) :
    Progress (fun w => w.Guarded ∧ w.backendStatus = s.backendStatus) s
      (fsSyncToDiskVerified verify s).2 := by
  rcases hsync : fsSyncToDiskVerified verify s with ⟨result, s'⟩
  obtain ⟨hanswers, -, -, ⟨ws, hws, hmem, hdisk⟩, -⟩ := fsSyncToDiskVerified_frame hsync
  have htarget : s.targetSlot < fsSlotCount ∧ s.targetSlot ≠ s.activeSlot := by
    unfold targetSlot
    split_ifs with hlt
    · rcases eq_zero_or_one_of_lt hlt with heq | heq <;> rw [heq] <;> decide
    · refine ⟨by decide, fun h0 => hlt ?_⟩
      rw [← h0]
      decide
  refine ⟨hanswers, (sameView_fsSync hsync).1.virtualLog, ws, hws, fun w hw => ?_, hdisk⟩
  obtain ⟨hin, hstatus, hactive⟩ := hmem w hw
  exact ⟨⟨s.targetSlot, htarget.1, hactive ▸ htarget.2, hin⟩, hstatus⟩

/-- A commit writes on a persistent backend only. -/
theorem CommitOutcome.progress {s s' : FsState} {ok : Bool} (h : CommitOutcome s ok s') :
    Progress (fun w => w.Guarded ∧ w.backendStatus = .persistent) s s' := by
  have hsync : ∀ {r s₁}, s.backendStatus = .persistent → fsSyncToDisk s = (r, s₁) →
      Progress (fun w => w.Guarded ∧ w.backendStatus = .persistent) s s₁ := by
    intro r s₁ hstatus heq
    have hprogress := progress_sync false s
    rw [hstatus, ← fsSyncToDisk, heq] at hprogress
    exact hprogress
  cases h with
  | full | volatile => exact .of_eq rfl rfl rfl
  | committed _ hstatus heq => exact hsync hstatus heq
  | uncertain _ hstatus heq | failed _ hstatus heq => exact (hsync hstatus heq).congr rfl rfl rfl

/-- A mutating call writes on a persistent backend only. -/
theorem FsCall.progress_run (hwf : s.files.WellFormed) (call : FsCall) :
    Progress (fun w => w.Guarded ∧ w.backendStatus = .persistent) s (call.run s).2 := by
  have hcases := call.run_cases hwf
  revert hcases
  generalize call.run s = r
  rintro (_ | _ | @⟨i, old, file, rollback, -, -⟩)
  · exact .of_eq rfl rfl rfl
  · exact .of_eq rfl rfl rfl
  · have hedited := fsCommitOr_cases i file rollback s
    revert hedited
    generalize fsCommitOr i file rollback s = r
    have hedit : Progress (fun w => w.Guarded ∧ w.backendStatus = .persistent) s
        { s with files := s.files.set i file } := .of_eq rfl rfl rfl
    rintro (⟨hcommit, -⟩ | ⟨hcommit, -⟩)
    · exact hedit.trans hcommit.progress
    · exact (hedit.trans hcommit.progress).congr rfl rfl rfl

/-- The self-test writes on a persistent backend only. -/
theorem progress_fsSelfTest (hwf : s.files.WellFormed) :
    Progress (fun w => w.Guarded ∧ w.backendStatus = .persistent) s (fsSelfTest s) := by
  let I : FsState → Prop := fun s' => s'.files.WellFormed ∧
    Progress (fun w => w.Guarded ∧ w.backendStatus = .persistent) s s'
  have hreload : ∀ s₁, I s₁ → I (fsSelfTestReload s₁).2 := by
    rintro s₁ ⟨hwf₁, h₁⟩
    refine ⟨wellFormed_fsSelfTestReload hwf₁, h₁.trans ?_⟩
    have hload := progress_load (fun w => w.Guarded ∧ w.backendStatus = .persistent) s₁
    unfold fsSelfTestReload
    split
    all_goals
      next heq =>
      rw [heq] at hload
      exact hload.congr rfl rfl rfl
  refine (fsSelfTest_invariant (I := I) ?_ hreload ?_ ?_ ?_).2
  · rintro s₁ call ⟨hwf₁, h₁⟩
    exact ⟨call.wellFormed_run hwf₁, h₁.trans (call.progress_run hwf₁)⟩
  · rintro s₁ ⟨hwf₁, h₁⟩
    exact ⟨wellFormed_fsClearSelfTestArtifacts hwf₁, h₁.congr rfl rfl rfl⟩
  · rintro s₁ ⟨hwf₁, h₁⟩
    exact ⟨hwf₁, h₁.congr rfl rfl rfl⟩
  · exact ⟨wellFormed_fsClearSelfTestArtifacts hwf, .of_eq rfl rfl rfl⟩

/-- The device answered the first reads of a load with blank headers and blank tables for both
slots. -/
def Ata.ReadBlank (a : Ata) : Prop :=
  ∀ slot < fsSlotCount,
    ((a.answers (1 + slot)).readOk = true ∧
      ((a.skip (1 + slot)).observed (fsSlotHeaderLba slot)).Blank) ∧
    ((a.answers (3 + slot)).readOk = true ∧ ∀ i < fsDiskTableSectors,
      ((a.skip (3 + slot)).observed (fsSlotHeaderLba slot + 1 + i)).Blank)

section

variable (s : FsState)

theorem history_fsDropDefaultBmp :
    (fsDropDefaultBmp s).ata = s.ata ∧ (fsDropDefaultBmp s).history = s.history ∧
      (fsDropDefaultBmp s).virtualLog = s.virtualLog := by
  unfold fsDropDefaultBmp
  split <;> exact ⟨rfl, rfl, rfl⟩

/-- A loaded view is written only if it is trusted. -/
theorem progress_fsInitMounted :
    Progress (fun w => w.Guarded ∧ result = .loaded) s (fsInitMounted result s) := by
  have hrecovered : Progress (fun w => w.Guarded ∧ result = .loaded) s (fsRecovered result s) :=
    .of_eq rfl rfl rfl
  have hcases := fsInitMounted_cases result s
  revert hcases
  generalize fsInitMounted result s = r
  rintro (_ | ⟨hloaded, hcommit⟩ | @⟨s', hloaded, hcommit, drop⟩)
  · exact hrecovered
  · exact hrecovered.trans (hcommit.progress.mono fun w hw => ⟨hw.1, hloaded⟩)
  · have hprogress := hrecovered.trans (hcommit.progress.mono fun w hw => ⟨hw.1, hloaded⟩)
    split_ifs
    · obtain ⟨hata, hhistory, hlog⟩ := history_fsDropDefaultBmp s'
      exact hprogress.congr hata hhistory hlog
    · exact hprogress

/-- Formatting writes into the slots in turn. -/
theorem progress_fsInitFresh_blank : Progress FsWrite.Guarded s (fsInitFresh .blank s) := by
  have hfresh := (fsFreshFiles_spec s.files).1
  unfold fsInitFresh
  generalize fsFreshFiles s.files = files at hfresh ⊢
  have hview : Progress FsWrite.Guarded s { s with files } := .of_eq rfl rfl rfl
  have hsync := hview.trans ((progress_sync false { s with files }).mono fun w hw => hw.1)
  rw [← fsSyncToDisk] at hsync
  simp only
  split
  · next s' heq =>
    rw [heq] at hsync
    have hwf : s'.files.WellFormed := by
      rw [(sameView_fsSync heq).1.files]
      exact hfresh
    have htest := progress_fsSelfTest (s := { s' with backendStatus := .persistent }) hwf
    have hstart : Progress FsWrite.Guarded s { s' with backendStatus := .persistent } :=
      hsync.congr rfl rfl rfl
    exact hstart.trans (htest.mono fun w hw => hw.1)
  · next heq =>
    rw [heq] at hsync
    exact hsync.congr rfl rfl rfl

/-- A fresh view is written only over blank storage. -/
theorem progress_fsInitFresh :
    Progress (fun w => w.Guarded ∧ result = .blank) s (fsInitFresh result s) := by
  by_cases hblank : result = .blank
  · subst hblank
    exact (progress_fsInitFresh_blank s).mono fun w hw => ⟨hw, rfl⟩
  · unfold fsInitFresh
    generalize fsFreshFiles s.files = files
    split
    · exact absurd rfl hblank
    all_goals exact .of_eq rfl rfl rfl

/-- **`fs_init` writes only over a trusted or a blank disk**, and never inside the selected slot. -/
theorem progress_fsInit : Progress (fun w => w.Guarded ∧
      ((fsLoadFromDisk (fsActivateVirtualSystemLog s)).1 = .loaded ∨ s.ata.ReadBlank))
        (fsActivateVirtualSystemLog s) (fsInit s) := by
  have hblank := fsLoadFromDisk_eq_blank (s := fsActivateVirtualSystemLog s)
  have hmounted := progress_load (fun w => w.Guarded ∧
    ((fsLoadFromDisk (fsActivateVirtualSystemLog s)).1 = .loaded ∨ s.ata.ReadBlank))
    (fsActivateVirtualSystemLog s)
  unfold fsInit
  rcases hr : fsLoadFromDisk (fsActivateVirtualSystemLog s) with ⟨result, s'⟩
  rw [hr] at hmounted hblank
  simp only
  split_ifs
  · have hinit := progress_fsInitMounted result s'
    exact hmounted.trans (hinit.mono fun w hw => ⟨hw.1, .inl hw.2⟩)
  · have hinit := progress_fsInitFresh result s'
    exact hmounted.trans (hinit.mono fun w hw => ⟨hw.1, .inr (hblank hw.2)⟩)

end

/-- The upgrade writes only when it is available and confirmed. -/
theorem progress_fsUpgradeLegacySnapshot (confirmation : Option CString) (s : FsState) :
    Progress (fun w => w.Guarded ∧ confirmation = some fsLegacyUpgradeConfirmation ∧
      s.legacyUpgradeStatus = .available) s (fsUpgradeLegacySnapshot confirmation s).2 := by
  unfold fsUpgradeLegacySnapshot
  split_ifs with hunavailable hconfirm
  · exact .of_eq rfl rfl rfl
  · exact .of_eq rfl rfl rfl
  · have hstatus : s.legacyUpgradeStatus = .available := by
      by_contra hne
      exact hunavailable (.inl hne)
    have htext : confirmation = some fsLegacyUpgradeConfirmation := by
      cases confirmation with
      | none => simp at hconfirm
      | some text => simpa [kstrcmp_eq_zero_iff] using hconfirm
    have hsync := (progress_sync true s).mono (Q := fun w => w.Guarded ∧
      confirmation = some fsLegacyUpgradeConfirmation ∧ s.legacyUpgradeStatus = .available)
      fun w hw => ⟨hw.1, htext, hstatus⟩
    split
    all_goals
      next heq =>
      rw [heq] at hsync
      exact hsync.congr rfl rfl rfl

/-- **Storage is never written without permission.**  In every run from a boot, the sectors that a
request hands to the device lie in a slot that is not the selected one, and no other sector changes.
`fs_init` writes only if its load was trusted or found both slots entirely blank; every other
request writes only while the backend is persistent, except for a confirmed upgrade that is
available. -/
theorem FsRequest.writes_permitted (ata : Ata) (requests : List FsRequest) (r : FsRequest) :
    ∃ ws, (r.run ((FsState.boot ata).after requests)).history.written =
        ((FsState.boot ata).after requests).history.written ++ ws ∧
      (∀ lba, (∀ w ∈ ws, w.lba ≠ lba) → (r.run ((FsState.boot ata).after requests)).ata.disk lba =
        ((FsState.boot ata).after requests).ata.disk lba) ∧
      (∀ w ∈ ws, w.Guarded ∧ ¬ InSlot w.activeSlot w.lba) ∧
      (r = .init → ws ≠ [] →
        (fsLoadFromDisk (fsActivateVirtualSystemLog ((FsState.boot ata).after requests))).1 =
          .loaded ∨
        ((FsState.boot ata).after requests).ata.ReadBlank) ∧
      (r ≠ .init → ∀ w ∈ ws, w.backendStatus = .persistent ∨
        (r = .upgradeLegacySnapshot (some fsLegacyUpgradeConfirmation) ∧
          ((FsState.boot ata).after requests).legacyUpgradeStatus = .available)) := by
  have hwf := after_invariant (I := fun s => s.files.WellFormed)
    (fun r _ hs => r.wellFormed_run hs) (s := boot ata) FileTable.wellFormed_zero requests
  revert hwf
  generalize (boot ata).after requests = s
  intro hwf
  have houtside : ∀ w : FsWrite, w.Guarded → ¬ InSlot w.activeSlot w.lba := by
    rintro w ⟨slot, -, hne, hin⟩
    exact not_inSlot_of_inSlot hne hin
  cases r with
  | init =>
    obtain ⟨ws, hws, hP, hdisk⟩ := (progress_fsInit s).written
    refine ⟨ws, hws, hdisk, fun w hw => ⟨(hP w hw).1, houtside w (hP w hw).1⟩, fun _ hne => ?_,
      fun h => absurd rfl h⟩
    obtain ⟨w, hw⟩ := exists_mem_of_ne_nil ws hne
    exact (hP w hw).2
  | mutate call =>
    obtain ⟨ws, hws, hP, hdisk⟩ := (call.progress_run hwf).written
    exact ⟨ws, hws, hdisk, fun w hw => ⟨(hP w hw).1, houtside w (hP w hw).1⟩, nofun,
      fun _ w hw => .inl (hP w hw).2⟩
  | upgradeLegacySnapshot confirmation =>
    obtain ⟨ws, hws, hP, hdisk⟩ := (progress_fsUpgradeLegacySnapshot confirmation s).written
    refine ⟨ws, hws, hdisk, fun w hw => ⟨(hP w hw).1, houtside w (hP w hw).1⟩, nofun,
      fun _ w hw => .inr ⟨?_, (hP w hw).2.2⟩⟩
    rw [(hP w hw).2.1]
  | fileAt index log =>
    rw [run, fsFileAt_frame]
    exact ⟨[], by simp, fun _ _ => rfl, nofun, nofun, nofun⟩
  | find name log =>
    rw [run, fsFind_frame]
    exact ⟨[], by simp, fun _ _ => rfl, nofun, nofun, nofun⟩

/-! ### Calls in a row -/

/-- A mount on an honest device that a reload gives back while it is persistent. -/
structure FsMount where
  state : FsState
  wellFormed : state.files.WellFormed
  honest : state.ata.Honest
  agrees : state.backendStatus = .persistent → Agrees state

/-- The state behind a row of calls, and what those that report success make of a map. -/
def runCalls (s : FsState) (map : FileMap) : List FsCall → FsState × FileMap
  | [] => (s, map)
  | c :: row => runCalls (c.run s).2 (if (c.run s).1 then c.apply map else map) row

/-- **A reload finds the successful calls and nothing else**, behind every row of calls that leaves
the mount persistent. -/
theorem FsMount.agrees_runCalls (m : FsMount) (row : List FsCall) :
    (runCalls m.state m.state.files.fileMap row).1.files.fileMap =
        (runCalls m.state m.state.files.fileMap row).2 ∧
      ((runCalls m.state m.state.files.fileMap row).1.backendStatus = .persistent →
        Agrees (runCalls m.state m.state.files.fileMap row).1) := by
  obtain ⟨s, hwf, hhonest, hagree⟩ := m
  induction row generalizing s with
  | nil => exact ⟨rfl, hagree⟩
  | cons c row ih =>
    obtain ⟨_, hanswers⟩ := (c.progress_run hwf).answers
    rw [runCalls, ← c.fileMap_run hwf]
    refine ih _ (c.wellFormed_run hwf) (hhonest.of_answers hanswers) ?_
    have hcases := c.run_cases hwf
    revert hcases
    generalize c.run s = r
    rintro (_ | _ | @⟨i, old, file, rollback, hedit, -⟩) hafter
    · exact hagree hafter
    · exact hagree hafter
    have hedited := fsCommitOr_cases i file rollback s
    -- A mount that is not persistent does not become so.
    have hbefore : s.backendStatus = .persistent := by
      revert hedited hafter
      generalize fsCommitOr i file rollback s = r
      rintro hafter (⟨hcommit, -⟩ | ⟨hcommit, -⟩) <;> cases hcommit <;> assumption
    exact hedited.agrees hedit hwf hhonest (hagree hbefore) hbefore hafter

/-- A formatted disk without files is such a mount. -/
theorem FsMount.agrees_runCalls_formatted :
    ∃ m : FsMount, m.state.backendStatus = .persistent ∧ m.state.files = .zero ∧
      let s := (runCalls m.state m.state.files.fileMap [.touch (some (CString.ofString "a"))]).1
      s.backendStatus = .persistent → Agrees s := by
  obtain ⟨empty, s, -, hata, hfiles, -, hpersistent, hagree⟩ := exists_agrees_formatted
  let m : FsMount :=
    ⟨s, hfiles ▸ FileTable.wellFormed_zero, hata ▸ Ata.honest_perfect _, fun _ => hagree⟩
  exact ⟨m, hpersistent, hfiles, (m.agrees_runCalls _).2⟩

end Nostalux.Fs

import Nostalux.Fs.Operations

/-!
# The mutating calls refine a finite map

`FsCall.run_refines` is the all-or-nothing contract of the mutating calls: a call that reports
success has applied its abstract operation to the map of names to contents, and one that reports
failure has changed nothing except that a persistent backend may have been given up.
`FsCall.wellFormed_run` adds that every call keeps the representation invariant.
-/

namespace Nostalux.Fs

open FileTable

/-! ### Taking an edit back -/

section Rollback

variable {t : FileTable} {i : ℕ} {old file rollback : FsFile}

section

variable (h : Edit t i old file rollback)
include h

theorem Edit.entry_rollback : rollback.entry = old.entry := by
  rcases h.rollback_eq with heq | ⟨hold, hrollback⟩
  · rw [heq]
  · rw [FsFile.entry_of_not_inUse hold, FsFile.entry_of_not_inUse hrollback]

theorem Edit.listing_rollback : (t.set i rollback).listing = t.listing := by
  have hentries : (t.set i rollback).entries = t.entries := by
    obtain ⟨hi, hget⟩ := List.getElem?_eq_some_iff.1 h.get
    rw [entries, cells_set, List.map_set, h.entry_rollback, ← hget, entries]
    exact List.ext_getElem (by simp) fun j h1 h2 => by
      rw [List.getElem_set]
      split_ifs with hij
      · subst hij
        rw [List.getElem_map]
      · rfl
  rw [listing_eq_filterMap, hentries, listing_eq_filterMap]

theorem Edit.wellFormed_rollback (hwf : t.WellFormed) : (t.set i rollback).WellFormed := by
  rcases h.rollback_eq with heq | ⟨hold, hrollback⟩
  · rw [heq, set_get h.get]
    exact hwf
  · refine hwf.set (fun huse => ?_) (SlotMap.freshAt_of_key_eq_none ?_) ?_
    · rw [hrollback] at huse
      cases huse
    · rw [SlotMap.key, FsFile.entry_of_not_inUse hrollback]
      rfl
    · have hsum := recordsNeeded_set h.get rollback
      have hzero : rollback.records = 0 := by simp [FsFile.records, hrollback]
      have hbudget := hwf.budget
      omega

/-- An edited table that fits the record budget is sound. -/
theorem Edit.wellFormed (hwf : t.WellFormed)
    (hbudget : (t.set i file).recordsNeeded ≤ fsMaxFiles) : (t.set i file).WellFormed :=
  hwf.set h.cellOk h.fresh hbudget

end

end Rollback

/-! ### The commit of an edit -/

/-- Everything the end of a mutating call can do. -/
inductive EditOutcome (s : FsState) (i : ℕ) (file rollback : FsFile) : Bool × FsState → Prop
  | kept {s₁ : FsState} (hcommit : CommitOutcome { s with files := s.files.set i file } true s₁)
      (hfiles : s₁.files = s.files.set i file) : EditOutcome s i file rollback (true, s₁)
  | undone {s₁ : FsState} (hcommit : CommitOutcome { s with files := s.files.set i file } false s₁)
      (hfiles : s₁.files = s.files.set i file) :
      EditOutcome s i file rollback (false, { s₁ with files := s.files.set i rollback })

theorem fsCommitOr_cases (i : ℕ) (file rollback : FsFile) (s : FsState) :
    EditOutcome s i file rollback (fsCommitOr i file rollback s) := by
  have hcases := fsCommitChanges_cases { s with files := s.files.set i file }
  unfold fsCommitOr
  rcases hc : fsCommitChanges { s with files := s.files.set i file } with ⟨_ | _, s₁⟩ <;>
    rw [hc] at hcases
  · have hfiles : s₁.files = s.files.set i file := hcases.sameView.files
    simp only
    rw [hfiles, set_set]
    exact .undone hcases hfiles
  · exact .kept hcases hcases.sameView.files

/-! ### The contract of the mutating calls -/

section Contract

variable {s : FsState} (hwf : s.files.WellFormed)
include hwf

/-- **Every mutating call keeps the representation invariant.** -/
theorem FsCall.wellFormed_run (call : FsCall) : (call.run s).2.files.WellFormed := by
  have hcases := call.run_cases hwf
  revert hcases
  generalize call.run s = r
  rintro (_ | _ | @⟨i, old, file, rollback, hedit, -⟩)
  · exact hwf
  · exact hwf
  · have hedited := fsCommitOr_cases i file rollback s
    revert hedited
    generalize fsCommitOr i file rollback s = r
    rintro (⟨hcommit, hfiles⟩ | ⟨hcommit, -⟩)
    · rw [hfiles]
      exact hedit.wellFormed hwf hcommit.budget
    · exact hedit.wellFormed_rollback hwf

/-- The map after a call, by its result. -/
theorem FsCall.fileMap_run (call : FsCall) :
    (call.run s).2.files.fileMap =
      if (call.run s).1 then call.apply s.files.fileMap else s.files.fileMap := by
  have hcases := call.run_cases hwf
  revert hcases
  generalize call.run s = r
  rintro (_ | hmap | @⟨i, old, file, rollback, hedit, hmap⟩)
  · rfl
  · exact hmap
  · have hedited := fsCommitOr_cases i file rollback s
    revert hedited
    generalize fsCommitOr i file rollback s = r
    rintro (⟨-, hfiles⟩ | ⟨-, -⟩)
    · rw [hfiles, hmap]
      rfl
    · exact fileMap_congr hedit.listing_rollback

/-- **The mutating calls refine the abstract filesystem, all or nothing.**  If a call reports
success, the map of names to contents is the old one with the abstract operation applied.  If it
reports failure, the map is as before, and so is everything else except that the backend may have
gone from persistent to an I/O error. -/
theorem FsCall.run_refines (call : FsCall) :
    ((call.run s).1 = true → (call.run s).2.files.fileMap = call.apply s.files.fileMap) ∧
    ((call.run s).1 = false →
      (call.run s).2.files.fileMap = s.files.fileMap ∧
      ((call.run s).2.backendStatus = s.backendStatus ∨
        (s.backendStatus = .persistent ∧ (call.run s).2.backendStatus = .volatileIoError)) ∧
      (call.run s).2 = { s with
        files := (call.run s).2.files
        backendStatus := (call.run s).2.backendStatus
        ata := (call.run s).2.ata
        history := (call.run s).2.history }) := by
  have hmap := call.fileMap_run hwf
  refine ⟨fun h => by rw [hmap, if_pos h], fun h => ⟨by rw [hmap, h]; rfl, ?_⟩⟩
  have hcases := call.run_cases hwf
  revert h hcases
  generalize call.run s = r
  rintro h (_ | _ | @⟨i, old, file, rollback, -, -⟩)
  · exact ⟨.inl rfl, rfl⟩
  · cases h
  · have hedited := fsCommitOr_cases i file rollback s
    revert h hedited
    generalize fsCommitOr i file rollback s = r
    rintro h (_ | ⟨hcommit, -⟩)
    · cases h
    · obtain ⟨hmount, hbackend⟩ := hcommit.of_false
      have hview := hcommit.sameView
      refine ⟨hbackend, ?_⟩
      rw [FsState.mk.injEq]
      exact ⟨rfl, hmount.activeSlot, hmount.activeGeneration, hmount.loadedVersion, rfl,
        hview.legacyUpgradeStatus, hview.selfTestActive, hview.virtualSystemLog,
        hview.systemLogIsVirtual, rfl, rfl⟩

end Contract

/-- A view that fits is accepted without a sync while the backend is not persistent. -/
theorem fsCommitChanges_of_volatile {s : FsState} (hbudget : s.files.recordsNeeded ≤ fsMaxFiles)
    (hstatus : s.backendStatus ≠ .persistent) : fsCommitChanges s = (true, s) := by
  have hsome := (fsSerialize_isSome_iff s.files).2 hbudget
  rw [fsCommitChanges, if_neg (by simp [Option.isSome_iff_ne_none.1 hsome]), if_pos hstatus]

/-- Remove the only file of a table on a volatile backend. -/
theorem FsCall.run_refines_loneFile :
    ∃ s s' : FsState, s.files = loneFile ∧
      (FsCall.remove (some (CString.ofString "a"))).run s = (true, s') ∧
      s'.files.fileMap (CString.ofString "a") = none := by
  let s : FsState := { FsState.boot (Ata.perfect fun _ => Buffer.zero) with files := loneFile }
  let call : FsCall := .remove (some (CString.ofString "a"))
  have hrun : call.run s =
      fsCommitOr 5 (fsClear (loneFile.get 5)) (loneFile.get 5) s := rfl
  have hcommit := fsCommitChanges_of_volatile
    (s := { s with files := loneFile.set 5 (fsClear (loneFile.get 5)) }) (by decide) (by decide)
  have htrue : (call.run s).1 = true := by
    rw [hrun, fsCommitOr, hcommit]
  have hmap := (FsCall.run_refines (s := s) wellFormed_loneFile call).1 htrue
  refine ⟨s, (call.run s).2, rfl, Prod.ext htrue rfl, ?_⟩
  exact Function.update_self (CString.ofString "a") none loneFile.fileMap

end Nostalux.Fs

import Nostalux.Fs.Requests

/-!
# The names that the ordinary calls cannot reach

The names of the system applications and `system.log` are reserved.  Every ordinary mutating call
repeats the test for them, in its own way; `FsCall.run_of_reserved` collects that all of them refuse
a reserved name, and `FsState.after_ordinary` that no run of ordinary requests changes what is
stored under one.
-/

namespace Nostalux.Fs

open Function

/-- The names that only the kernel itself writes. -/
def Reserved (name : CString) : Prop :=
  fsNameIsSystemManaged (some name) = true ∨ fsNameIsSystemLog (some name) = true

/-- The names that a call mentions. -/
def FsCall.names : FsCall → List CString
  | touch name | writeBytes name _ _ | systemWriteBytes name _ _ | write name _ | append name _
  | remove name | systemRemove name => name.toList
  | rename oldName newName | systemRename oldName newName => oldName.toList ++ newName.toList

/-- The calls of the ordinary interface. -/
def FsCall.Ordinary : FsCall → Prop
  | systemWriteBytes .. | systemRename .. | systemRemove .. => False
  | _ => True

/-- The requests of the ordinary interface. -/
def FsRequest.Ordinary : FsRequest → Prop
  | mutate call => call.Ordinary
  | fileAt .. | find .. => True
  | init | upgradeLegacySnapshot .. => False

variable {call : FsCall} {name : CString}

/-- **Every ordinary call refuses a reserved name**, and leaves the state as it is. -/
theorem FsCall.run_of_reserved (hordinary : call.Ordinary)
    (hreserved : Reserved name) (hname : name ∈ call.names) (s : FsState) :
    call.run s = (false, s) := by
  have hwrite : ∀ contents length, fsWriteBytes (some name) contents length s = (false, s) := by
    intro contents length
    rw [fsWriteBytes, fsWriteBytesInternal, if_pos]
    rcases hreserved with h | h <;> simp [h]
  cases call with
  | systemWriteBytes | systemRename | systemRemove => exact hordinary.elim
  | touch given =>
    obtain rfl : given = some name := by simpa [names] using hname
    rw [run, fsTouch, if_pos]
    rcases hreserved with h | h <;> simp [h]
  | writeBytes given contents length =>
    obtain rfl : given = some name := by simpa [names] using hname
    exact hwrite contents length
  | write given contents =>
    obtain rfl : given = some name := by simpa [names] using hname
    cases contents with
    | none => rfl
    | some contents => exact hwrite contents.char (kstrlen contents)
  | append given contents =>
    obtain rfl : given = some name := by simpa [names] using hname
    rw [run]
    unfold fsAppend
    rcases hreserved with h | h <;> simp [h]
  | rename oldName newName =>
    have hgiven : oldName = some name ∨ newName = some name := by simpa [names] using hname
    rw [run, fsRename, fsRenameInternal]
    split_ifs with hvalid hlog hmanaged
    · rfl
    · rfl
    · rfl
    all_goals
      -- past the guards neither name is reserved
      exfalso
      rcases hgiven with rfl | rfl <;> rcases hreserved with h | h <;> simp_all
  | remove given =>
    obtain rfl : given = some name := by simpa [names] using hname
    rw [run, fsRemove, fsRemoveInternal]
    rcases hreserved with h | h
    · split_ifs
      · rfl
      · rfl
      · simp_all
    · rw [if_pos h]

/-- The abstract operation of a call touches the names it mentions only. -/
theorem FsCall.apply_of_not_mem (hname : name ∉ call.names)
    (m : FileMap) : call.apply m name = m name := by
  cases call with
  | touch given =>
    cases given with
    | none => rfl
    | some given =>
      have hne : name ≠ given := by simpa [names] using hname
      simp only [apply, FileMap.onName, Option.elim_some, FileMap.touch]
      split_ifs
      · exact update_of_ne hne _ _
      · rfl
  | writeBytes given | systemWriteBytes given =>
    cases given with
    | none => rfl
    | some given =>
      have hne : name ≠ given := by simpa [names] using hname
      exact update_of_ne hne _ _
  | write given contents | append given contents =>
    cases given with
    | none => rfl
    | some given =>
      have hne : name ≠ given := by simpa [names] using hname
      cases contents with
      | none => rfl
      | some contents => exact update_of_ne hne _ _
  | rename oldName newName | systemRename oldName newName =>
    cases oldName with
    | none => rfl
    | some oldName =>
      cases newName with
      | none => rfl
      | some newName =>
        have hne : name ≠ oldName ∧ name ≠ newName := by simpa [names] using hname
        simp only [apply, FileMap.onName, Option.elim_some, FileMap.rename]
        split_ifs
        · rfl
        · rw [update_of_ne hne.2, update_of_ne hne.1]
  | remove given | systemRemove given =>
    cases given with
    | none => rfl
    | some given =>
      have hne : name ≠ given := by simpa [names] using hname
      exact update_of_ne hne _ _

section

variable {s : FsState} (hwf : s.files.WellFormed)
include hwf

/-- A call leaves the files that it does not mention alone. -/
theorem FsCall.fileMap_run_of_not_mem (hname : name ∉ call.names) :
    (call.run s).2.files.fileMap name = s.files.fileMap name := by
  rw [call.fileMap_run hwf]
  split
  · exact call.apply_of_not_mem hname _
  · rfl

/-- **An ordinary request leaves the reserved names alone.** -/
theorem FsRequest.fileMap_run {r : FsRequest} (hordinary : r.Ordinary) (hreserved : Reserved name) :
    (r.run s).files.fileMap name = s.files.fileMap name := by
  cases r with
  | init | upgradeLegacySnapshot => exact hordinary.elim
  | mutate call =>
    by_cases hname : name ∈ call.names
    · rw [run, call.run_of_reserved hordinary hreserved hname]
    · exact call.fileMap_run_of_not_mem hwf hname
  | fileAt index log =>
    rw [run, fsFileAt_frame]
  | find given log =>
    rw [run, fsFind_frame]

/-- **Ordinary requests never reach a reserved name**, in any number and any order. -/
theorem FsState.after_ordinary {requests : List FsRequest}
    (hordinary : ∀ r ∈ requests, r.Ordinary) (hreserved : Reserved name) :
    (s.after requests).files.WellFormed ∧
      (s.after requests).files.fileMap name = s.files.fileMap name := by
  induction requests generalizing s with
  | nil => exact ⟨hwf, rfl⟩
  | cons r requests ih =>
    rw [List.forall_mem_cons] at hordinary
    obtain ⟨hwf', hmap⟩ := ih (r.wellFormed_run hwf) hordinary.2
    exact ⟨hwf', hmap.trans (FsRequest.fileMap_run hwf hordinary.1 hreserved)⟩

end

end Nostalux.Fs

import Nostalux.Fs.Requests

/-!
# Enumeration and lookup

`fs_file_count`, `fs_file_at` and `fs_find` each have a filter of their own for the files that they
show, and the log file is not among the cells.  Here they return what the source returns: which
file, not what is in it.

* `fsFileAtLoop`, `fsCountLoop`, `fsFindRef`: the loops of the source;
* `fsFileAt_eq`, `fsFileCount_eq`, `fsFind_eq`: they are the calls of the model;
* `enumeration_agrees`: they show the same files.
-/

namespace Nostalux.Fs

open List Option FsState

/-! ### Pointers to files -/

/-- What a `const struct fs_file*` points to. -/
inductive FsFileRef
  | cell (i : ℕ)
  | virtualSystemLog
  deriving DecidableEq

/-- The file behind a pointer. -/
def FsFileRef.file (s : FsState) : FsFileRef → FsFile
  | cell i => s.files.get i
  | virtualSystemLog => s.virtualSystemLog

/-- The loop of `fs_file_count`. -/
def fsCountLoop (s : FsState) : List FsFile → ℕ → ℕ
  | [], count => if s.systemLogIsVirtual then count + 1 else count
  | f :: cells, count =>
    if f.inUse && !fsFileIsSelfTestArtifact f &&
        !(s.systemLogIsVirtual && fsNameIsSystemLog (some f.name)) then
      fsCountLoop s cells (count + 1)
    else fsCountLoop s cells count

/-- The loop of `fs_file_at`, with the number of the next cell. -/
def fsFileAtLoop (s : FsState) (index : ℕ) : List FsFile → ℕ → ℕ → Option FsFileRef
  | [], _, seen =>
    if s.systemLogIsVirtual && seen = index then some .virtualSystemLog else none
  | f :: cells, i, seen =>
    if !f.inUse || fsFileIsSelfTestArtifact f ||
        (s.systemLogIsVirtual && fsNameIsSystemLog (some f.name)) then
      fsFileAtLoop s index cells (i + 1) seen
    else if seen = index then some (.cell i)
    else fsFileAtLoop s index cells (i + 1) (seen + 1)

/-- `fs_file_at`: which file. -/
def fsFileAtRef (s : FsState) (index : ℕ) : Option FsFileRef :=
  fsFileAtLoop s index s.files.cells 0 0

/-- `fs_find`: which file. -/
def fsFindRef (s : FsState) (name : Option CString) : Option FsFileRef :=
  if fsNameIsSystemLog name && s.systemLogIsVirtual then some .virtualSystemLog
  else
    match fsFindMutable s.files name with
    | none => none
    | some i => if fsFileIsSelfTestArtifact (s.files.get i) then none else some (.cell i)

/-! ### The files that are shown -/

/-- The cells that are shown, with the number of the first. -/
def shownCells (s : FsState) : List FsFile → ℕ → List ℕ
  | [], _ => []
  | f :: cells, i =>
    if fsIsListed s f then i :: shownCells s cells (i + 1) else shownCells s cells (i + 1)

/-- The files that are shown: the log comes last. -/
def shown (s : FsState) (cells : List FsFile) (i : ℕ) : List FsFileRef :=
  (shownCells s cells i).map .cell ++ if s.systemLogIsVirtual then [.virtualSystemLog] else []

variable {s : FsState} {f : FsFile}

theorem shown_cons_of_listed (h : fsIsListed s f = true) (cells : List FsFile) (i : ℕ) :
    shown s (f :: cells) i = .cell i :: shown s cells (i + 1) := by
  rw [shown, shownCells, if_pos h]
  rfl

theorem shown_cons_of_hidden (h : ¬fsIsListed s f = true) (cells : List FsFile) (i : ℕ) :
    shown s (f :: cells) i = shown s cells (i + 1) := by
  rw [shown, shownCells, if_neg h]
  rfl

variable (s)

theorem fsIsListed_eq_not (f : FsFile) :
    fsIsListed s f = !(!f.inUse || fsFileIsSelfTestArtifact f ||
      (s.systemLogIsVirtual && fsNameIsSystemLog (some f.name))) := by
  rw [fsIsListed, Bool.not_or, Bool.not_or, Bool.not_not]

theorem fsCountLoop_eq (cells : List FsFile) (i count : ℕ) :
    fsCountLoop s cells count = count + (shown s cells i).length := by
  induction cells generalizing i count with
  | nil => cases h : s.systemLogIsVirtual <;> simp [fsCountLoop, shown, shownCells, h]
  | cons f cells ih =>
    have hfilter : (f.inUse && !fsFileIsSelfTestArtifact f &&
        !(s.systemLogIsVirtual && fsNameIsSystemLog (some f.name))) = fsIsListed s f := rfl
    rw [fsCountLoop, hfilter]
    split
    next hlisted =>
      rw [ih (i + 1), shown_cons_of_listed hlisted, length_cons]
      omega
    next hhidden => rw [ih (i + 1), shown_cons_of_hidden hhidden]

theorem fsFileAtLoop_eq (index : ℕ) (cells : List FsFile) (i seen : ℕ) (hseen : seen ≤ index) :
    fsFileAtLoop s index cells i seen = (shown s cells i)[index - seen]? := by
  induction cells generalizing i seen with
  | nil =>
    rw [fsFileAtLoop, shown, shownCells]
    cases h : s.systemLogIsVirtual with
    | false => simp
    | true =>
      by_cases heq : seen = index
      · simp [heq]
      · obtain ⟨n, hn⟩ : ∃ n, index - seen = n + 1 := ⟨index - seen - 1, by omega⟩
        simp [heq, hn]
  | cons f cells ih =>
    have hfilter := fsIsListed_eq_not s f
    rw [fsFileAtLoop]
    split
    next hskip =>
      have hhidden : ¬fsIsListed s f = true := by simp [hfilter, hskip]
      rw [shown_cons_of_hidden hhidden]
      exact ih (i + 1) seen hseen
    next hshow =>
      have hlisted : fsIsListed s f = true := by
        rw [hfilter, Bool.eq_false_of_not_eq_true hshow]
        rfl
      rw [shown_cons_of_listed hlisted]
      split
      next heq => simp [heq]
      next hne =>
        obtain ⟨n, hn⟩ : ∃ n, index - seen = n + 1 := ⟨index - seen - 1, by omega⟩
        rw [ih (i + 1) (seen + 1) (by omega), hn, getElem?_cons_succ,
          show index - (seen + 1) = n by omega]

theorem mem_shownCells (cells : List FsFile) (i k : ℕ) :
    k ∈ shownCells s cells i ↔ ∃ j f, cells[j]? = some f ∧ fsIsListed s f = true ∧ k = i + j := by
  induction cells generalizing i with
  | nil => simp [shownCells]
  | cons f cells ih =>
    -- the first cell, or one behind it
    have hsplit : (∃ j g, (f :: cells)[j]? = some g ∧ fsIsListed s g = true ∧ k = i + j) ↔
        (fsIsListed s f = true ∧ k = i) ∨
          ∃ j g, cells[j]? = some g ∧ fsIsListed s g = true ∧ k = i + 1 + j := by
      constructor
      · rintro ⟨_ | j, g, hg, hlisted, hk⟩
        · obtain rfl := some.inj hg
          exact .inl ⟨hlisted, hk⟩
        · exact .inr ⟨j, g, hg, hlisted, by omega⟩
      · rintro (⟨hlisted, hk⟩ | ⟨j, g, hg, hlisted, hk⟩)
        · exact ⟨0, f, rfl, hlisted, hk⟩
        · exact ⟨j + 1, g, hg, hlisted, by omega⟩
    rw [hsplit, shownCells]
    split
    next hlisted => simp [ih (i + 1), hlisted]
    next hhidden => simp [ih (i + 1), hhidden]

theorem nodup_shownCells (cells : List FsFile) (i : ℕ) : (shownCells s cells i).Nodup := by
  induction cells generalizing i with
  | nil => exact nodup_nil
  | cons f cells ih =>
    rw [shownCells]
    split
    · refine nodup_cons.2 ⟨fun hmem => ?_, ih (i + 1)⟩
      obtain ⟨j, -, -, -, heq⟩ := (mem_shownCells s cells (i + 1) i).1 hmem
      omega
    · exact ih (i + 1)

theorem nodup_shown (cells : List FsFile) (i : ℕ) : (shown s cells i).Nodup := by
  have hcells : ((shownCells s cells i).map FsFileRef.cell).Nodup :=
    (nodup_shownCells s cells i).map fun _ _ h => FsFileRef.cell.inj h
  rw [shown]
  cases h : s.systemLogIsVirtual with
  | false => simpa using hcells
  | true => exact hcells.append (List.nodup_singleton _) (by simp [List.Disjoint])

/-- A file is shown if it is a listed cell or the log. -/
theorem mem_shown (ref : FsFileRef) : ref ∈ shown s s.files.cells 0 ↔
      (∃ i f, s.files.cells[i]? = some f ∧ fsIsListed s f = true ∧ ref = .cell i) ∨
        s.systemLogIsVirtual = true ∧ ref = .virtualSystemLog := by
  rw [shown, mem_append]
  refine or_congr ⟨fun h => ?_, fun h => ?_⟩ ?_
  · obtain ⟨k, hk, rfl⟩ := mem_map.1 h
    obtain ⟨i, f, hf, hlisted, rfl⟩ := (mem_shownCells s _ 0 k).1 hk
    exact ⟨i, f, hf, hlisted, by rw [Nat.zero_add]⟩
  · obtain ⟨i, f, hf, hlisted, rfl⟩ := h
    exact mem_map.2 ⟨i, (mem_shownCells s _ 0 i).2 ⟨i, f, hf, hlisted, (Nat.zero_add i).symm⟩, rfl⟩
  · cases h : s.systemLogIsVirtual <;> simp

/-! ### The calls of the model -/

theorem length_shownCells (cells : List FsFile) (i : ℕ) :
    (shownCells s cells i).length = cells.countP (fsIsListed s) := by
  induction cells generalizing i with
  | nil => rfl
  | cons f cells ih =>
    rw [shownCells]
    split
    next hlisted => rw [length_cons, ih, countP_cons_of_pos hlisted]
    next hhidden => rw [ih, countP_cons_of_neg hhidden]

theorem fsFileCount_eq : fsFileCount s = fsCountLoop s s.files.cells 0 := by
  rw [fsCountLoop_eq s s.files.cells 0 0, shown, length_append, length_map,
    length_shownCells, fsFileCount]
  cases s.systemLogIsVirtual <;> simp

/-- The cells that are shown, behind their numbers. -/
theorem map_get_shownCells (cells : List FsFile) (i : ℕ)
    (hcells : ∀ j < cells.length, cells[j]? = some (s.files.get (i + j))) :
    (shownCells s cells i).map s.files.get = cells.filter (fsIsListed s) := by
  induction cells generalizing i with
  | nil => rfl
  | cons f cells ih =>
    have hfirst : f = s.files.get i := some.inj (hcells 0 (Nat.succ_pos _))
    have hrest := ih (i + 1) fun j hj => by
      rw [Nat.add_right_comm]
      exact hcells (j + 1) (Nat.succ_lt_succ hj)
    rw [shownCells]
    split
    next hlisted => rw [map_cons, hrest, filter_cons_of_pos hlisted, ← hfirst]
    next hhidden => rw [hrest, filter_cons_of_neg hhidden]

theorem fsFileAtRef_eq (index : ℕ) : fsFileAtRef s index = (shown s s.files.cells 0)[index]? :=
  fsFileAtLoop_eq s index s.files.cells 0 0 (Nat.zero_le index)

/-- `fs_file_at`, with the file behind the pointer it returns. -/
theorem fsFileAt_eq (index : ℕ) (log : CString) : fsFileAt index log s =
      if fsFileAtRef s index = some .virtualSystemLog then
        (some (fsRefreshSystemLog log s).virtualSystemLog, fsRefreshSystemLog log s)
      else ((fsFileAtRef s index).map (FsFileRef.file s), s) := by
  have hget := map_get_shownCells s s.files.cells 0 fun j hj => by
    rw [Nat.zero_add, FileTable.get, getD_eq_getElem?_getD, getElem?_eq_getElem hj]
    rfl
  have hlength : (s.files.cells.filter (fsIsListed s)).length =
      (shownCells s s.files.cells 0).length := by
    rw [← hget, length_map]
  rw [fsFileAtRef_eq, fsFileAt, shown]
  rw [hlength]
  split
  next hlt =>
    obtain ⟨k, hk⟩ : ∃ k, (shownCells s s.files.cells 0)[index]? = some k :=
      ⟨_, getElem?_eq_getElem hlt⟩
    rw [getElem?_append_left (by simpa using hlt), getElem?_map, hk, ← hget, getElem?_map, hk]
    rfl
  next hge =>
    rw [getElem?_append_right (by simpa using hge), length_map]
    cases hvirtual : s.systemLogIsVirtual with
    | false => simp
    | true =>
      by_cases heq : index = (shownCells s s.files.cells 0).length
      · simp [heq]
      · obtain ⟨n, hn⟩ : ∃ n, index - (shownCells s s.files.cells 0).length = n + 1 :=
          ⟨index - (shownCells s s.files.cells 0).length - 1, by omega⟩
        simp [heq, hn]

/-- `fs_find`, with the file behind the pointer it returns. -/
theorem fsFind_eq (name : Option CString) (log : CString) : fsFind name log s =
      if fsFindRef s name = some .virtualSystemLog then
        (some (fsRefreshSystemLog log s).virtualSystemLog, fsRefreshSystemLog log s)
      else ((fsFindRef s name).map (FsFileRef.file s), s) := by
  unfold fsFind fsFindRef
  by_cases hlog : (fsNameIsSystemLog name && s.systemLogIsVirtual) = true
  · rw [if_pos hlog, if_pos hlog, if_pos rfl]
  · rw [if_neg hlog, if_neg hlog]
    cases fsFindMutable s.files name with
    | none => rfl
    | some i =>
      dsimp only
      split
      · rfl
      · rfl

variable {s}

/-! ### The names -/

/-- The representation invariant with the log: the virtual file has its name. -/
structure FsState.Sound (s : FsState) : Prop where
  files : s.files.WellFormed
  systemLog : s.systemLogIsVirtual = true → s.virtualSystemLog.name = systemLogName

variable {s' : FsState}

theorem FsState.Sound.of_virtualLog (h : s.Sound) (hlog : s'.virtualLog = s.virtualLog)
    (hwf : s'.files.WellFormed) : s'.Sound := by
  obtain ⟨hfile, hshown⟩ := Prod.mk.inj hlog
  refine ⟨hwf, fun hvirtual => ?_⟩
  rw [hfile]
  exact h.systemLog (hshown ▸ hvirtual)

theorem FsState.Sound.refresh (h : s.Sound) {log : CString}
    (hs : s' = s ∨ s' = fsRefreshSystemLog log s) : s'.Sound := by
  rcases hs with rfl | rfl
  · exact h
  unfold fsRefreshSystemLog
  split
  · exact ⟨h.files, h.systemLog⟩
  · exact h

theorem FsRequest.sound_run (r : FsRequest) {s : FsState} (h : s.Sound) : (r.run s).Sound := by
  have hwf := r.wellFormed_run h.files
  cases r with
  | init =>
    have hactive : (fsActivateVirtualSystemLog s).Sound := ⟨h.files, fun _ => rfl⟩
    exact hactive.of_virtualLog (progress_fsInit s).virtualLog hwf
  | mutate call => exact h.of_virtualLog (call.progress_run h.files).virtualLog hwf
  | upgradeLegacySnapshot confirmation =>
    exact h.of_virtualLog (progress_fsUpgradeLegacySnapshot confirmation s).virtualLog hwf
  | fileAt index log => exact h.refresh (snd_fsFileAt index log s)
  | find name log => exact h.refresh (snd_fsFind name log s)

/-- Every state of a run is sound. -/
theorem sound_after_boot (ata : Ata) (requests : List FsRequest) :
    ((boot ata).after requests).Sound :=
  after_invariant (I := Sound) (fun r _ hs => r.sound_run hs)
    ⟨FileTable.wellFormed_zero, fun hvirtual => absurd hvirtual Bool.false_ne_true⟩ requests

theorem fsIsListed_iff (s : FsState) (f : FsFile) :
    fsIsListed s f = true ↔ f.inUse = true ∧ fsFileIsSelfTestArtifact f = false ∧
      ¬(s.systemLogIsVirtual = true ∧ f.name = systemLogName) := by
  simp only [fsIsListed, Bool.and_eq_true, Bool.not_eq_true', Bool.and_eq_false_iff, not_and_or,
    ← fsNameIsSystemLog_some, Bool.not_eq_true, and_assoc]

theorem name_of_cell {i : ℕ} (hf : s.files.cells[i]? = some f) :
    ((FsFileRef.cell i).file s).name = f.name := by
  rw [FsFileRef.file, FileTable.get_of_getElem? hf]

/-- `fs_find` returns the file with the name among those that are shown. -/
theorem fsFindRef_eq_some_iff (h : s.Sound) (name : CString) (ref : FsFileRef) :
    fsFindRef s (some name) = some ref ↔
      ref ∈ shown s s.files.cells 0 ∧ (ref.file s).name = name := by
  rw [mem_shown]
  unfold fsFindRef
  by_cases hlog : s.systemLogIsVirtual = true ∧ name = systemLogName
  · -- the virtual file takes the place of one among the cells
    rw [if_pos (by simp [hlog.1, hlog.2, fsNameIsSystemLog_some])]
    constructor
    · intro heq
      obtain rfl := some.inj heq
      exact ⟨.inr ⟨hlog.1, rfl⟩, (h.systemLog hlog.1).trans hlog.2.symm⟩
    · rintro ⟨⟨i, f, hf, hlisted, rfl⟩ | ⟨-, rfl⟩, hname⟩
      · rw [name_of_cell hf] at hname
        exact absurd ⟨hlog.1, hname.trans hlog.2⟩ ((fsIsListed_iff s f).1 hlisted).2.2
      · rfl
  · rw [if_neg (by rwa [Bool.and_eq_true, fsNameIsSystemLog_some, and_comm])]
    constructor
    · intro heq
      cases hfind : fsFindMutable s.files (some name) with
      | none =>
        rw [hfind] at heq
        exact nomatch heq
      | some i =>
        rw [hfind] at heq
        dsimp only at heq
        split at heq
        · exact nomatch heq
        next hartifact =>
          obtain rfl := some.inj heq
          obtain ⟨f, hf, huse, rfl⟩ := fsFindMutable_eq_some hfind
          rw [FileTable.get_of_getElem? hf, Bool.not_eq_true] at hartifact
          exact ⟨.inl ⟨i, f, hf, (fsIsListed_iff s f).2 ⟨huse, hartifact, hlog⟩, rfl⟩,
            name_of_cell hf⟩
    · rintro ⟨⟨i, f, hf, hlisted, rfl⟩ | ⟨hvirtual, rfl⟩, hname⟩
      · rw [name_of_cell hf] at hname
        obtain ⟨huse, hartifact, -⟩ := (fsIsListed_iff s f).1 hlisted
        rw [(fsFindMutable_eq_some_iff h.files.distinct).2 ⟨f, hf, huse, hname⟩]
        dsimp only
        rw [FileTable.get_of_getElem? hf, if_neg (by simp [hartifact])]
      · exact absurd ⟨hvirtual, hname.symm.trans (h.systemLog hvirtual)⟩ hlog

/-- **Enumeration and lookup agree**: there is a file at every index below the count and at no
other, the names at different indices are distinct, and the lookup of a name finds the file that is
at some index under that name, and nothing else. -/
theorem enumeration_agrees (s : FsState) (h : s.Sound) :
    (∀ index, (fsFileAtRef s index).isSome ↔ index < fsFileCount s) ∧
    (∀ i j a b, fsFileAtRef s i = some a → fsFileAtRef s j = some b →
      (a.file s).name = (b.file s).name → i = j) ∧
    (∀ name ref, fsFindRef s (some name) = some ref ↔
      ∃ index, fsFileAtRef s index = some ref ∧ (ref.file s).name = name) ∧
    fsFindRef s none = none := by
  have hat (index : ℕ) (ref : FsFileRef) (href : fsFileAtRef s index = some ref) :
      ref ∈ shown s s.files.cells 0 := by
    rw [fsFileAtRef_eq] at href
    exact mem_of_getElem? href
  refine ⟨fun index => ?_, fun i j a b ha hb hname => ?_, fun name ref => ?_, rfl⟩
  · rw [fsFileAtRef_eq, fsFileCount_eq, fsCountLoop_eq s s.files.cells 0 0, Nat.zero_add]
    simp
  · -- both are what the lookup of their name finds
    have hfinda := (fsFindRef_eq_some_iff h (b.file s).name a).2 ⟨hat i a ha, hname⟩
    have hfindb := (fsFindRef_eq_some_iff h (b.file s).name b).2 ⟨hat j b hb, rfl⟩
    obtain rfl := some.inj (hfinda.symm.trans hfindb)
    rw [fsFileAtRef_eq] at ha hb
    obtain ⟨hi, -⟩ := List.getElem?_eq_some_iff.1 ha
    exact (getElem?_inj hi (nodup_shown s s.files.cells 0)).1 (ha.trans hb.symm)
  · rw [fsFindRef_eq_some_iff h]
    constructor
    · rintro ⟨hmem, hname⟩
      obtain ⟨index, hindex⟩ := getElem?_of_mem hmem
      exact ⟨index, (fsFileAtRef_eq s index).trans hindex, hname⟩
    · rintro ⟨index, href, hname⟩
      exact ⟨hat index ref href, hname⟩

/-- A file and the virtual log. -/
theorem enumeration_agrees_loneFile :
    ∃ s : FsState, s.Sound ∧ fsFileCount s = 2 ∧
      ∃ index, fsFileAtRef s index = some (.cell 5) ∧ index < 2 := by
  let s : FsState :=
    fsActivateVirtualSystemLog { boot (Ata.perfect fun _ => Buffer.zero) with files := loneFile }
  have hsound : s.Sound := ⟨wellFormed_loneFile, fun _ => rfl⟩
  have hcount : fsFileCount s = 2 := by decide
  have hfind : fsFindRef s (some (CString.ofString "a")) = some (.cell 5) := by decide
  obtain ⟨hindex, -, hlookup, -⟩ := enumeration_agrees s hsound
  obtain ⟨index, hat, -⟩ := (hlookup _ _).1 hfind
  refine ⟨s, hsound, hcount, index, hat, ?_⟩
  rw [← hcount, ← hindex, hat]
  rfl

end Nostalux.Fs

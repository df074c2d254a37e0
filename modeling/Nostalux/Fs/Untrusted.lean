import Nostalux.Fs.RoundTrip

/-!
# Tables from a disk that nobody vouches for

Both decoders check the whole table before they touch `FILES`, and their copying loops check
nothing.

* `fsCopyCurrentInRange`, `fsCopyLegacyInRange`: the copying loops stay inside the arrays;
* `untrusted_tables_decode`: a table is rejected without a trace, or gives a sound view that can be
  written and read back.
-/

namespace Nostalux.Fs

variable (t : FsDiskTable)

/-! ### The decoders as calls -/

/-- `fs_deserialize_current`: its result and `FILES` afterwards. -/
def fsDeserializeCurrentCall (files : FileTable) : Bool × FileTable :=
  if !fsValidateCurrent t 0 0 then (false, files)
  else (true, fsCopyCurrent t 0 0 files.clearAll)

/-- `fs_deserialize_legacy`: its result and `FILES` afterwards. -/
def fsDeserializeLegacyCall (files : FileTable) : Bool × FileTable :=
  if !fsValidateLegacy t then (false, files)
  else
    (true, ⟨List.zipWith fsLegacyCell t.records files.cells, length_zipWith_fsLegacyCell t files⟩)

theorem fsDeserializeCurrentCall_eq (files : FileTable) :
    fsDeserializeCurrentCall t files =
      ((fsDeserializeCurrent t files).isSome, (fsDeserializeCurrent t files).getD files) := by
  unfold fsDeserializeCurrentCall fsDeserializeCurrent
  cases fsValidateCurrent t 0 0 <;> rfl

theorem fsDeserializeLegacyCall_eq (files : FileTable) :
    fsDeserializeLegacyCall t files =
      ((fsDeserializeLegacy t files).isSome, (fsDeserializeLegacy t files).getD files) := by
  unfold fsDeserializeLegacyCall fsDeserializeLegacy
  cases fsValidateLegacy t <;> rfl

/-! ### The copying loops stay in range -/

/-- A name array has a terminator, where the loop over its bytes stops. -/
def FsDiskRecord.nameEnds (r : FsDiskRecord) : Bool :=
  (List.range fsMaxFilename).any fun i => r.name.byte i = 0

/-- The accesses of `fsCopyContinuations`: the record, its data and the data of the file. -/
def fsCopyContinuationsInRange (diskIndex : ℕ) : ℕ → ℕ → ℕ → Bool
  | 0, _, _ => true
  | parts + 1, part, copied =>
    let chunk := (t.record (diskIndex + part)).size.toNat
    diskIndex + part < fsMaxFiles && chunk ≤ fsDiskDataBytes && copied + chunk ≤ fsMaxFileSize &&
      fsCopyContinuationsInRange diskIndex parts (part + 1) (copied + chunk)

/-- The accesses of `fsCopyCurrent`. -/
def fsCopyCurrentInRange (diskIndex logicalIndex : ℕ) : Bool :=
  if diskIndex < fsMaxFiles then
    let head := t.record diskIndex
    if head.inUse = 0 then fsCopyCurrentInRange (diskIndex + 1) logicalIndex
    else
      let size := head.size.toNat
      logicalIndex < fsMaxFiles && head.nameEnds && size < fsMaxFileSize &&
        fsCopyContinuationsInRange t diskIndex (fsDiskRecordsNeeded size - 1) 1
          (min size fsDiskDataBytes) &&
        fsCopyCurrentInRange (diskIndex + fsDiskRecordsNeeded size) (logicalIndex + 1)
  else true
termination_by fsMaxFiles - diskIndex
decreasing_by
  · omega
  · have := fsDiskRecordsNeeded_pos (t.record diskIndex).size.toNat
    omega

/-- The accesses of the copying loop of `fs_deserialize_legacy`. -/
def fsCopyLegacyInRange : Bool :=
  t.records.all fun r => r.inUse = 0 || (r.nameEnds && r.size.toNat < fsDiskDataBytes)

variable {t}

theorem nameEnds_of_last {r : FsDiskRecord} (h : r.name.byte (fsMaxFilename - 1) = 0) :
    r.nameEnds = true :=
  List.any_eq_true.2 ⟨fsMaxFilename - 1, by decide, by simpa using h⟩

/-- The validated continuations have the sizes that the copying loop relies on. -/
theorem fsCopyContinuationsInRange_of_check {d parts part remaining copied left : ℕ}
    (hcheck : fsCheckContinuations t d parts part remaining = some left)
    (hrecords : d + part + parts ≤ fsMaxFiles) (hdata : copied + remaining ≤ fsMaxFileSize) :
    fsCopyContinuationsInRange t d parts part copied = true := by
  induction parts generalizing part remaining copied with
  | zero => rfl
  | succ parts ih =>
    rw [fsCheckContinuations] at hcheck
    split at hcheck
    next hvalid =>
      obtain ⟨-, hsize, -⟩ := (fsDiskContinuationIsValid_iff _ _).1 hvalid
      have hrest : fsCopyContinuationsInRange t d parts (part + 1)
          (copied + min remaining fsDiskDataBytes) = true := ih hcheck (by omega) (by omega)
      rw [fsCopyContinuationsInRange, hsize, hrest]
      simp only [Bool.and_eq_true, decide_eq_true_eq, and_true]
      exact ⟨⟨by omega, Nat.min_le_right ..⟩, by omega⟩
    · cases hcheck

theorem fsCopyCurrentInRange_of_validate {d c : ℕ} (hc : c ≤ d)
    (h : fsValidateCurrent t d c = true) : fsCopyCurrentInRange t d c = true := by
  rw [fsCopyCurrentInRange]
  by_cases hd : d < fsMaxFiles
  · rw [if_pos hd]
    by_cases hu : (t.record d).inUse = 0
    · rw [fsValidateCurrent, if_pos hd] at h
      rw [if_pos hu] at h ⊢
      exact fsCopyCurrentInRange_of_validate (by omega) h
    · obtain ⟨⟨hvalid, -⟩, hrest⟩ := (fsValidateCurrent_of_head t hd hc hu).1 h
      have hpos := fsDiskRecordsNeeded_pos (t.record d).size.toNat
      obtain ⟨-, hsize, hend, -⟩ := (fsHeadIsValid_iff _).1 hvalid.head_valid
      have hend : (t.record d).nameEnds = true := nameEnds_of_last hend
      have hsize : (t.record d).size.toNat < fsMaxFileSize := hsize
      have htail : (t.records.drop (d + 1)).length ≥
          fsDiskRecordsNeeded (t.record d).size.toNat - 1 := by
        have hlength : ((t.records.drop (d + 1)).take _).length = _ := hvalid.length_tail
        rw [List.length_take] at hlength
        exact min_eq_left_iff.1 hlength
      rw [List.length_drop, t.length_records] at htail
      have hrecords : d + 1 + (fsDiskRecordsNeeded (t.record d).size.toNat - 1) ≤
          fsMaxFiles := by omega
      have hcheck := (fsCheckContinuations_eq_some_zero_iff t d _ 1
        ((t.record d).size.toNat - fsDiskDataBytes) hrecords).2 hvalid.tail_valid
      have hcopy : fsCopyContinuationsInRange t d
        (fsDiskRecordsNeeded (t.record d).size.toNat - 1) 1
          (min (t.record d).size.toNat fsDiskDataBytes) = true :=
        fsCopyContinuationsInRange_of_check hcheck hrecords (by omega)
      have hnext := fsCopyCurrentInRange_of_validate (Nat.add_le_add hc hpos) hrest
      dsimp only
      rw [if_neg hu, hend, hcopy, hnext]
      simp only [Bool.and_true, Bool.and_eq_true, decide_eq_true_eq]
      exact ⟨Nat.lt_of_le_of_lt hc hd, hsize⟩
  · rw [if_neg hd]
termination_by fsMaxFiles - d

theorem fsCopyLegacyInRange_of_validate (h : fsValidateLegacy t = true) :
    fsCopyLegacyInRange t = true := by
  refine List.all_eq_true.2 fun r hr => ?_
  rcases legacy_record_of_mem h hr with hunused | hvalid
  · simp [hunused]
  · obtain ⟨-, hsize, hend, -⟩ := (fsLegacyRecordIsValid_iff r).1 hvalid
    simp [nameEnds_of_last hend, hsize]

/-! ### The views they give -/

/-- A sound view can be written, and what is read back has the same files in the same order. -/
structure Rewritable (files : FileTable) : Prop where
  wellFormed : files.WellFormed
  rewritten : ∃ t, fsSerialize files = some t ∧ ∀ old, ∃ files',
    fsDeserializeCurrentCall t old = (true, files') ∧ files'.listing = files.listing

theorem rewritable_of_wellFormed {files : FileTable} (h : files.WellFormed) : Rewritable files := by
  obtain ⟨t, ht⟩ := Option.isSome_iff_exists.1 ((fsSerialize_isSome_iff files).2 h.budget)
  refine ⟨h, t, ht, fun old => ?_⟩
  obtain ⟨files', hread⟩ := exists_fsDeserializeCurrent h ht old
  refine ⟨files', by rw [fsDeserializeCurrentCall_eq, hread]; rfl, ?_⟩
  rw [files'.listing_eq_filterMap, entries_of_fsDeserializeCurrent_fsSerialize h ht hread]
  simp

/-- What a decoder does with a table. -/
structure DecodesSafely (call : FileTable → Bool × FileTable) (inRange : Bool) (files : FileTable) :
    Prop where
  /-- A table that is rejected leaves no trace. -/
  unchanged : (call files).1 = false → (call files).2 = files
  /-- A table that is accepted is copied without leaving the arrays. -/
  copied : (call files).1 = true → inRange = true
  /-- The view is sound, and can be written and read back. -/
  rewritable : (call files).1 = true → Rewritable (call files).2

/-- A decoder that returns a view or nothing. -/
theorem decodesSafely_of_eq {call : FileTable → Bool × FileTable} {inRange : Bool}
    {files : FileTable}
    {decoded : Option FileTable} (hcall : call files = (decoded.isSome, decoded.getD files))
    (hrange : ∀ files', decoded = some files' → inRange = true)
    (hwf : ∀ files', decoded = some files' → files'.WellFormed) :
      DecodesSafely call inRange files := by
  cases decoded with
  | none =>
    rw [Option.isSome_none, Option.getD_none] at hcall
    constructor <;> rw [hcall]
    · exact fun _ => rfl
    · exact fun h => nomatch h
    · exact fun h => nomatch h
  | some files' =>
    constructor <;> rw [hcall]
    · exact fun h => nomatch h
    · exact fun _ => hrange files' rfl
    · exact fun _ => rewritable_of_wellFormed (hwf files' rfl)

/-- **A table of any content is rejected without a trace or gives a sound view**, which can be
written and read back with the same names, sizes and bytes in the same order; the view of an old
table has the files of its records, in their places. -/
theorem untrusted_tables_decode (t : FsDiskTable) (files : FileTable) :
    DecodesSafely (fsDeserializeCurrentCall t) (fsCopyCurrentInRange t 0 0) files ∧
    DecodesSafely (fsDeserializeLegacyCall t) (fsCopyLegacyInRange t) files ∧
    ((fsDeserializeLegacyCall t files).1 = true →
      (fsDeserializeLegacyCall t files).2.entries = t.records.map legacyEntry) := by
  refine ⟨decodesSafely_of_eq (fsDeserializeCurrentCall_eq t files) ?_ ?_,
    decodesSafely_of_eq (fsDeserializeLegacyCall_eq t files) ?_ ?_, ?_⟩
  · intro files' h
    exact fsCopyCurrentInRange_of_validate le_rfl ((fsDeserializeCurrent_eq_some_iff t).1 h).1
  · exact fun files' h => wellFormed_of_fsDeserializeCurrent t h
  · intro files' h
    exact fsCopyLegacyInRange_of_validate ((fsDeserializeLegacy_eq_some_iff t).1 h).1
  · exact fun files' h => wellFormed_of_fsDeserializeLegacy h
  · rw [fsDeserializeLegacyCall_eq]
    intro hsome
    obtain ⟨files', hread⟩ := Option.isSome_iff_exists.1 hsome
    rw [hread]
    exact entries_of_fsDeserializeLegacy hread

end Nostalux.Fs

import Nostalux.Fs.Codec

/-!
# The extents of a record table

The records of a table form a sequence of *extents*, a head with its continuations, separated by
unused records.  `extents` follows the heads the way both loops of `fs_deserialize_current` do.

* `fsValidateCurrent_iff`: a table is accepted exactly when all its extents are valid and carry
  distinct names;
* `cells_fsCopyCurrent`: the copying loop writes the extents to the cells in order;
* `entries_of_fsDeserializeCurrent` and `entries_of_fsDeserializeLegacy`: the files that are mounted
  depend on the record table only, not on the view mounted before;
* `wellFormed_of_fsDeserializeCurrent` and `wellFormed_of_fsDeserializeLegacy`: a mounted view
  satisfies the representation invariant.
-/

namespace Nostalux.Fs

open List FileTable FsFile Nat SlotMap

/-! ### Extents -/

/-- A head record and the records its size claims after it. -/
structure Extent where
  head : FsDiskRecord
  tail : List FsDiskRecord

/-- The extents of a sequence of records. -/
def extents : List FsDiskRecord → List Extent
  | [] => []
  | r :: rest =>
    if r.inUse = 0 then extents rest
    else ⟨r, rest.take (fsDiskRecordsNeeded r.size.toNat - 1)⟩ ::
      extents (rest.drop (fsDiskRecordsNeeded r.size.toNat - 1))
termination_by l => l.length
decreasing_by
  · simp
  · simp

/-- A chain of continuations holds exactly the remaining bytes. -/
def continuationsValid : List FsDiskRecord → ℕ → Bool
  | [], remaining => remaining = 0
  | r :: rest, remaining =>
    fsDiskContinuationIsValid r (min remaining fsDiskDataBytes) &&
      continuationsValid rest (remaining - min remaining fsDiskDataBytes)

namespace Extent

/-- The size of the file of an extent. -/
def size (e : Extent) : ℕ := e.head.size.toNat

/-- The conditions `fs_deserialize_current` puts on one extent. -/
structure Valid (e : Extent) : Prop where
  head_valid : fsHeadIsValid e.head = true
  length_tail : e.tail.length = fsDiskRecordsNeeded e.size - 1
  tail_valid : continuationsValid e.tail (e.size - fsDiskDataBytes) = true

/-- The bytes of the file of an extent. -/
def bytes (e : Extent) : List UInt8 :=
  e.head.data.bytes 0 (min e.size fsDiskDataBytes) ++
    e.tail.flatMap fun r => r.data.bytes 0 r.size.toNat

/-- What the cell of an extent reads as. -/
def entry (e : Extent) : CString × List UInt8 := (e.head.text, e.bytes)

end Extent

variable (r : FsDiskRecord)

theorem fsHeadIsValid_iff : fsHeadIsValid r = true ↔ r.inUse = 1 ∧ r.size.toNat < fsMaxFileSize ∧
      r.name.byte (fsMaxFilename - 1) = 0 ∧ fsIsValidText r.text = true := by
  simp [fsHeadIsValid, and_assoc]

theorem fsDiskContinuationIsValid_iff (n : ℕ) :
    fsDiskContinuationIsValid r n = true ↔ r.inUse = 2 ∧ r.size.toNat = n ∧ r.name.Blank := by
  simp [fsDiskContinuationIsValid, and_assoc]

section

variable {l : List FsDiskRecord} {n : ℕ} (h : continuationsValid l n = true)
include h

theorem inUse_of_continuationsValid : ∀ r ∈ l, r.inUse = 2 := by
  induction l generalizing n with
  | nil => simp
  | cons r l ih =>
    rw [continuationsValid, Bool.and_eq_true, fsDiskContinuationIsValid_iff] at h
    rintro r' (_ | ⟨_, hr⟩)
    · exact h.1.1
    · exact ih h.2 r' hr

/-- The sizes of a valid chain add up to the bytes it has to hold. -/
theorem sum_of_continuationsValid : (l.map fun r => r.size.toNat).sum = n := by
  induction l generalizing n with
  | nil => simpa [continuationsValid, eq_comm] using h
  | cons r l ih =>
    rw [continuationsValid, Bool.and_eq_true, fsDiskContinuationIsValid_iff] at h
    rw [map_cons, sum_cons, ih h.2, h.1.2.1]
    omega

end

/-! ### The validating loop -/

variable (t : FsDiskTable)

theorem record_eq_getElem {i : ℕ} (h : i < t.records.length) : t.record i = t.records[i] := by
  simp [FsDiskTable.record, h]

theorem drop_eq_record_cons {i : ℕ} (h : i < fsMaxFiles) :
    t.records.drop i = t.record i :: t.records.drop (i + 1) := by
  have h' : i < t.records.length := by rwa [t.length_records]
  rw [record_eq_getElem t h', drop_eq_getElem_cons h']

theorem fsCheckContinuations_eq_some_zero_iff (d parts part remaining : ℕ)
    (h : d + part + parts ≤ fsMaxFiles) :
    fsCheckContinuations t d parts part remaining = some 0 ↔
      continuationsValid ((t.records.drop (d + part)).take parts) remaining = true := by
  induction parts generalizing part remaining with
  | zero => simp [fsCheckContinuations, continuationsValid]
  | succ parts ih =>
    rw [drop_eq_record_cons t (by omega), take_succ_cons, fsCheckContinuations,
      continuationsValid, Bool.and_eq_true]
    split_ifs with hv
    · rw [ih (part + 1) _ (by omega)]
      simp [hv, add_assoc]
    · simp [hv]

variable {d : ℕ}

theorem fsNameIsTaken_succ (h : d < fsMaxFiles) (name : CString) :
    fsNameIsTaken t (d + 1) name = true ↔
      fsNameIsTaken t d name = true ∨ ((t.record d).inUse = 1 ∧ (t.record d).text = name) := by
  have h' : d < t.records.length := by rwa [t.length_records]
  rw [record_eq_getElem t h', fsNameIsTaken, take_succ_eq_append_getElem h', any_append,
    Bool.or_eq_true, ← fsNameIsTaken]
  simp [kstrcmp_eq_zero_iff]

/-- Records that are not heads take no names. -/
theorem fsNameIsTaken_add_of_not_head {d k : ℕ} (name : CString)
    (hr : ∀ r ∈ (t.records.drop d).take k, r.inUse ≠ 1) :
    fsNameIsTaken t (d + k) name = fsNameIsTaken t d name := by
  have hany : ((t.records.drop d).take k).any
      (fun prior => prior.inUse = 1 && kstrcmp prior.text name = 0) = false := by
    rw [any_eq_false]
    intro r hmem
    simp [hr r hmem]
  rw [fsNameIsTaken, take_add, any_append, hany, Bool.or_false, ← fsNameIsTaken]

/-- The extent of the head at `d`. -/
def extentAt (d : ℕ) : Extent :=
  ⟨t.record d, (t.records.drop (d + 1)).take (fsDiskRecordsNeeded (t.record d).size.toNat - 1)⟩

theorem extents_drop_of_unused (h : d < fsMaxFiles) (hu : (t.record d).inUse = 0) :
    extents (t.records.drop d) = extents (t.records.drop (d + 1)) := by
  rw [drop_eq_record_cons t h, extents, if_pos hu]

theorem extents_drop_of_head (h : d < fsMaxFiles) (hu : (t.record d).inUse ≠ 0) :
    extents (t.records.drop d) = extentAt t d ::
      extents (t.records.drop (d + fsDiskRecordsNeeded (t.record d).size.toNat)) := by
  have hpos := fsDiskRecordsNeeded_pos (t.record d).size.toNat
  rw [drop_eq_record_cons t h, extents, if_neg hu, drop_drop, extentAt,
    show d + 1 + (fsDiskRecordsNeeded (t.record d).size.toNat - 1) =
      d + fsDiskRecordsNeeded (t.record d).size.toNat by omega]

/-- The names taken after a valid extent are those taken before it and its own. -/
theorem fsNameIsTaken_extent (h : d < fsMaxFiles) (hv : (extentAt t d).Valid) (name : CString) :
    fsNameIsTaken t (d + fsDiskRecordsNeeded (t.record d).size.toNat) name = true ↔
      fsNameIsTaken t d name = true ∨ (t.record d).text = name := by
  have hpos := fsDiskRecordsNeeded_pos (t.record d).size.toNat
  have hhead : (t.record d).inUse = 1 := ((fsHeadIsValid_iff _).1 hv.head_valid).1
  have htail := inUse_of_continuationsValid hv.tail_valid
  rw [show d + fsDiskRecordsNeeded (t.record d).size.toNat =
      d + 1 + (fsDiskRecordsNeeded (t.record d).size.toNat - 1) by omega,
    fsNameIsTaken_add_of_not_head t name fun r hr => by rw [htail r hr]; decide,
    fsNameIsTaken_succ t h]
  simp [hhead]

/-- One round of the validating loop at a head. -/
theorem fsValidateCurrent_of_head {d c : ℕ} (h : d < fsMaxFiles) (hc : c ≤ d)
    (hu : (t.record d).inUse ≠ 0) :
    fsValidateCurrent t d c = true ↔
      ((extentAt t d).Valid ∧ fsNameIsTaken t d (t.record d).text = false) ∧
        fsValidateCurrent t (d + fsDiskRecordsNeeded (t.record d).size.toNat) (c + 1) = true := by
  have hlen : (extentAt t d).tail.length =
      min (fsDiskRecordsNeeded (t.record d).size.toNat - 1) (fsMaxFiles - (d + 1)) := by
    simp [extentAt, t.length_records]
  rw [fsValidateCurrent, if_pos h]
  simp only [if_neg hu]
  cases hhead : fsHeadIsValid (t.record d) with
  | false =>
    have hnv : ¬ (extentAt t d).Valid := fun hv =>
      absurd (hhead.symm.trans hv.head_valid) Bool.false_ne_true
    simp [hnv]
  | true =>
    cases htaken : fsNameIsTaken t d (t.record d).text with
    | true => simp
    | false =>
      by_cases hfit : fsMaxFiles - d < fsDiskRecordsNeeded (t.record d).size.toNat
      · have hnv : ¬ (extentAt t d).Valid := fun hv => by
          have := hv.length_tail
          rw [hlen, show (extentAt t d).size = (t.record d).size.toNat from rfl] at this
          omega
        simp [hfit, hnv]
      · have hcheck := fsCheckContinuations_eq_some_zero_iff t d
          (fsDiskRecordsNeeded (t.record d).size.toNat - 1) 1
          ((t.record d).size.toNat - fsDiskDataBytes) (by omega)
        have hvalid : (extentAt t d).Valid ↔ fsCheckContinuations t d
            (fsDiskRecordsNeeded (t.record d).size.toNat - 1) 1
            ((t.record d).size.toNat - fsDiskDataBytes) = some 0 := by
          rw [hcheck]
          refine ⟨fun hv => hv.tail_valid, fun hv => ⟨hhead, ?_, hv⟩⟩
          rw [hlen, show (extentAt t d).size = (t.record d).size.toNat from rfl]
          omega
        rw [if_neg hfit, hvalid]
        cases hr : fsCheckContinuations t d (fsDiskRecordsNeeded (t.record d).size.toNat - 1) 1
            ((t.record d).size.toNat - fsDiskDataBytes) with
        | none => simp
        | some remaining =>
          have hc' : ¬ fsMaxFiles ≤ c := by omega
          by_cases hz : remaining = 0 <;> simp [hz, hc']

theorem fsValidateCurrent_drop_iff (d c : ℕ) (hc : c ≤ d) :
    fsValidateCurrent t d c = true ↔
      (∀ e ∈ extents (t.records.drop d),
        e.Valid ∧ fsNameIsTaken t d e.head.text = false) ∧
      ((extents (t.records.drop d)).map fun e => e.head.text).Nodup := by
  induction hn : fsMaxFiles - d using Nat.strong_induction_on generalizing d c with
  | _ n ih =>
    by_cases hd : d < fsMaxFiles
    · by_cases hu : (t.record d).inUse = 0
      · have htaken : ∀ name, fsNameIsTaken t (d + 1) name = fsNameIsTaken t d name := by
          intro name
          rw [Bool.eq_iff_iff, fsNameIsTaken_succ t hd]
          simp [hu]
        have hstep : fsValidateCurrent t d c = fsValidateCurrent t (d + 1) c := by
          rw [fsValidateCurrent, if_pos hd]
          simp only [if_pos hu]
        rw [hstep, ih (fsMaxFiles - (d + 1)) (by omega) (d + 1) c (by omega) rfl,
          extents_drop_of_unused t hd hu]
        simp only [htaken]
      · have hpos := fsDiskRecordsNeeded_pos (t.record d).size.toNat
        rw [fsValidateCurrent_of_head t hd hc hu, extents_drop_of_head t hd hu,
          ih (fsMaxFiles - (d + fsDiskRecordsNeeded (t.record d).size.toNat)) (by omega) _ _
            (by omega) rfl, forall_mem_cons, map_cons, nodup_cons]
        -- names taken after a valid extent: its own name is added to those taken before
        constructor
        · rintro ⟨⟨hv, ht⟩, hrest, hnodup⟩
          have hsplit : ∀ e ∈ extents (t.records.drop
              (d + fsDiskRecordsNeeded (t.record d).size.toNat)),
              fsNameIsTaken t d e.head.text = false ∧ (t.record d).text ≠ e.head.text := by
            intro e he
            have := (hrest e he).2
            rw [← Bool.not_eq_true, fsNameIsTaken_extent t hd hv, not_or, Bool.not_eq_true] at this
            exact this
          refine ⟨⟨⟨hv, ht⟩, fun e he => ⟨(hrest e he).1, (hsplit e he).1⟩⟩, ?_, hnodup⟩
          rw [mem_map]
          rintro ⟨e, he, heq⟩
          exact (hsplit e he).2 heq.symm
        · rintro ⟨⟨⟨hv, ht⟩, hrest⟩, hnot, hnodup⟩
          refine ⟨⟨hv, ht⟩, fun e he => ⟨(hrest e he).1, ?_⟩, hnodup⟩
          rw [← Bool.not_eq_true, fsNameIsTaken_extent t hd hv, not_or, Bool.not_eq_true]
          exact ⟨(hrest e he).2, fun heq => hnot (mem_map.2 ⟨e, he, heq.symm⟩)⟩
    · have hnil : t.records.drop d = [] := by
        rw [drop_eq_nil_iff, t.length_records]
        omega
      rw [fsValidateCurrent, if_neg hd, hnil]
      simp [extents]

/-- **The accepted tables**: all extents are valid and their names are distinct. -/
theorem fsValidateCurrent_iff :
    fsValidateCurrent t 0 0 = true ↔
      (∀ e ∈ extents t.records, e.Valid) ∧
        ((extents t.records).map fun e => e.head.text).Nodup := by
  rw [fsValidateCurrent_drop_iff t 0 0 le_rfl, drop_zero]
  simp [fsNameIsTaken]

/-! ### The copying loop -/

/-- Copy the bytes of a chain of continuations behind the first `copied` bytes. -/
def copyTail : List FsDiskRecord → ℕ → Buffer 8192 → Buffer 8192
  | [], _, data => data
  | r :: rest, copied, data =>
    copyTail rest (copied + r.size.toNat) (data.blit copied r.data.byte r.size.toNat)

theorem fsCopyContinuations_eq (d parts part copied : ℕ) (data : Buffer 8192)
    (h : d + part + parts ≤ fsMaxFiles) :
    fsCopyContinuations t d parts part copied data =
      copyTail ((t.records.drop (d + part)).take parts) copied data := by
  induction parts generalizing part copied data with
  | zero => rfl
  | succ parts ih =>
    rw [drop_eq_record_cons t (by omega), take_succ_cons, fsCopyContinuations, copyTail,
      ih (part + 1) _ _ (by omega), add_assoc]

variable (l : List FsDiskRecord)

theorem bytes_copyTail (copied : ℕ) (data : Buffer 8192)
    (h : copied + (l.map fun r => r.size.toNat).sum ≤ fsMaxFileSize) :
    (copyTail l copied data).bytes 0 (copied + (l.map fun r => r.size.toNat).sum) =
      data.bytes 0 copied ++ l.flatMap fun r => r.data.bytes 0 r.size.toNat := by
  induction l generalizing copied data with
  | nil => simp [copyTail]
  | cons r l ih =>
    rw [map_cons, sum_cons, ← add_assoc] at h ⊢
    have hcopy : copied + r.size.toNat ≤ 8192 := by
      have : fsMaxFileSize = 8192 := rfl
      omega
    rw [copyTail, ih _ _ h, Buffer.bytes_blit _ _ hcopy, flatMap_cons, append_assoc]
    simp [Buffer.bytes]

namespace Extent

/-- The file of an extent, written over a cell. -/
def decode (e : Extent) (file : FsFile) : FsFile where
  inUse := true
  name := e.head.text
  size := e.size
  data := (copyTail e.tail (min e.size fsDiskDataBytes)
    (file.data.blit 0 e.head.data.byte (min e.size fsDiskDataBytes))).put e.size 0

variable {e : Extent}

theorem Valid.size_lt (h : e.Valid) : e.size < fsMaxFileSize :=
  ((fsHeadIsValid_iff _).1 h.head_valid).2.1

section

variable (h : e.Valid) (file : FsFile)
include h

theorem contents_decode : (e.decode file).contents = e.bytes := by
  have hsize : e.size < 8192 := h.size_lt
  have hsum := sum_of_continuationsValid h.tail_valid
  have htotal : min e.size fsDiskDataBytes + (e.tail.map fun r => r.size.toNat).sum = e.size := by
    omega
  have hcopy := bytes_copyTail e.tail (min e.size fsDiskDataBytes)
    (file.data.blit 0 e.head.data.byte (min e.size fsDiskDataBytes))
      (by rw [htotal]; exact hsize.le)
  have hhead := Buffer.bytes_blit file.data e.head.data.byte
    (show 0 + min e.size fsDiskDataBytes ≤ 8192 by omega)
  rw [zero_add] at hhead
  rw [htotal, hhead] at hcopy
  have hput : (e.decode file).contents = (copyTail e.tail (min e.size fsDiskDataBytes)
      (file.data.blit 0 e.head.data.byte (min e.size fsDiskDataBytes))).bytes 0 e.size := by
    refine Buffer.bytes_congr fun i (hi : i < e.size) => ?_
    rw [decode, Buffer.byte_put, if_neg (by omega)]
  rw [hput, hcopy, bytes]
  simp [Buffer.bytes]

theorem entry_decode : (e.decode file).entry = some e.entry := by
  rw [entry_of_inUse rfl, contents_decode h]
  rfl

theorem cellOk_decode : CellOk (e.decode file) where
  name_valid := ((fsHeadIsValid_iff _).1 h.head_valid).2.2.2
  size_lt := h.size_lt
  nul := by
    have hsize : e.size < 8192 := h.size_lt
    show Buffer.byte (Buffer.put _ e.size 0) e.size = 0
    rw [Buffer.byte_put, if_pos ⟨rfl, hsize⟩]

/-- The records of a decoded cell are those of its extent. -/
theorem records_decode : (e.decode file).records = e.tail.length + 1 := by
  have hpos := fsDiskRecordsNeeded_pos e.size
  have htail := h.length_tail
  show fsDiskRecordsNeeded e.size = e.tail.length + 1
  omega

end

end Extent

theorem fsDecodeFile_eq (file : FsFile) (hd : d < fsMaxFiles) (hv : (extentAt t d).Valid) :
    fsDecodeFile t d file = (extentAt t d).decode file := by
  have hlen : (extentAt t d).tail.length = fsDiskRecordsNeeded (t.record d).size.toNat - 1 :=
    hv.length_tail
  have hmin : (extentAt t d).tail.length ≤ fsMaxFiles - (d + 1) := by
    simp [extentAt, t.length_records]
  unfold fsDecodeFile Extent.decode
  simp only
  rw [fsCopyContinuations_eq t d _ 1 _ _ (by omega)]
  rfl

/-- Decode extents over the first cells of a list. -/
def overwrite : List Extent → List FsFile → List FsFile
  | [], cells => cells
  | _ :: _, [] => []
  | e :: es, f :: cells => e.decode f :: overwrite es cells

theorem length_extents_le : (extents l).length ≤ l.length := by
  fun_induction extents l with
  | case1 => simp
  | case2 r rest h ih => simpa using ih.trans (le_succ _)
  | case3 r rest h ih =>
    rw [length_drop] at ih
    simp only [length_cons]
    omega

theorem cells_fsCopyCurrent (d i : ℕ) (files : FileTable) (hi : i ≤ d)
    (hv : ∀ e ∈ extents (t.records.drop d), e.Valid) :
    (fsCopyCurrent t d i files).cells =
      files.cells.take i ++ overwrite (extents (t.records.drop d)) (files.cells.drop i) := by
  induction hn : fsMaxFiles - d using Nat.strong_induction_on generalizing d i files with
  | _ n ih =>
    by_cases hd : d < fsMaxFiles
    · by_cases hu : (t.record d).inUse = 0
      · have hstep : fsCopyCurrent t d i files = fsCopyCurrent t (d + 1) i files := by
          rw [fsCopyCurrent, if_pos hd]
          simp only [if_pos hu]
        rw [extents_drop_of_unused t hd hu] at hv ⊢
        rw [hstep, ih (fsMaxFiles - (d + 1)) (by omega) (d + 1) i files (by omega) hv rfl]
      · have hpos := fsDiskRecordsNeeded_pos (t.record d).size.toNat
        rw [extents_drop_of_head t hd hu] at hv ⊢
        rw [forall_mem_cons] at hv
        have hi' : i < files.cells.length := by
          rw [files.length_cells]
          omega
        have hstep : fsCopyCurrent t d i files =
            fsCopyCurrent t (d + fsDiskRecordsNeeded (t.record d).size.toNat) (i + 1)
              (files.set i ((extentAt t d).decode (files.get i))) := by
          rw [fsCopyCurrent, if_pos hd]
          simp only [if_neg hu]
          rw [fsDecodeFile_eq t _ hd hv.1]
        have hget : files.cells.drop i = files.get i :: files.cells.drop (i + 1) := by
          rw [drop_eq_getElem_cons hi', get_of_getElem? (getElem?_eq_getElem hi')]
        rw [hstep, ih (fsMaxFiles - (d + fsDiskRecordsNeeded (t.record d).size.toNat))
          (by omega) _ _ _
          (by omega) hv.2 rfl, hget, overwrite, cells_set,
          take_succ_eq_append_getElem (by simpa using hi'), take_set_of_le le_rfl,
          drop_set_of_lt (by omega), append_assoc]
        simp
    · have hnil : t.records.drop d = [] := by
        rw [drop_eq_nil_iff, t.length_records]
        omega
      rw [fsCopyCurrent, if_neg hd, hnil, extents, overwrite, take_append_drop]

/-! ### The mounted view of a version 5 table -/

section Overwrite

variable {es : List Extent} (hv : ∀ e ∈ es, e.Valid)
include hv

theorem map_entry_overwrite {cells : List FsFile} (hlen : es.length ≤ cells.length) :
    (overwrite es cells).map entry =
      es.map (fun e => some e.entry) ++ (cells.drop es.length).map entry := by
  induction es generalizing cells with
  | nil => simp [overwrite]
  | cons e es ih =>
    cases cells with
    | nil => simp at hlen
    | cons f cells =>
      rw [forall_mem_cons] at hv
      simp [overwrite, Extent.entry_decode hv.1, ih hv.2 (le_of_succ_le_succ hlen)]

theorem forall_mem_overwrite {P : FsFile → Prop} (cells : List FsFile)
    (hdec : ∀ e : Extent, e.Valid → ∀ f, P (e.decode f)) (hc : ∀ f ∈ cells, P f) :
    ∀ f ∈ overwrite es cells, P f := by
  induction es generalizing cells with
  | nil => exact hc
  | cons e es ih =>
    cases cells with
    | nil => simp [overwrite]
    | cons f cells =>
      rw [forall_mem_cons] at hv hc
      rw [overwrite, forall_mem_cons]
      exact ⟨hdec e hv.1 f, ih hv.2 cells hc.2⟩

theorem sum_records_overwrite_le (cells : List FsFile) (hc : ∀ f ∈ cells, f.records = 0) :
    ((overwrite es cells).map records).sum ≤ (es.map fun e => e.tail.length + 1).sum := by
  induction es generalizing cells with
  | nil =>
    rw [overwrite, map_congr_left hc]
    simp
  | cons e es ih =>
    cases cells with
    | nil => simp [overwrite]
    | cons f cells =>
      rw [forall_mem_cons] at hv hc
      simp only [overwrite, map_cons, sum_cons, Extent.records_decode hv.1]
      have := ih hv.2 cells hc.2
      omega

end Overwrite

/-- The extents do not overlap. -/
theorem sum_extents_le : ((extents l).map fun e => e.tail.length + 1).sum ≤ l.length := by
  fun_induction extents l with
  | case1 => simp
  | case2 r rest h ih => simpa using ih.trans (le_succ _)
  | case3 r rest h ih =>
    simp only [map_cons, sum_cons, length_cons, length_take] at ih ⊢
    rw [length_drop] at ih
    omega

theorem entry_fsClear (f : FsFile) : (fsClear f).entry = none := entry_of_not_inUse rfl

theorem entries_clearAll (files : FileTable) :
    files.clearAll.entries = replicate fsMaxFiles none := by
  have h : files.clearAll.cells.map entry = files.cells.map fun _ => none := by
    simp [clearAll, entry_fsClear, Function.comp_def]
  rw [entries, h, map_const', files.length_cells]

variable {files files' : FileTable}

theorem fsDeserializeCurrent_eq_some_iff : fsDeserializeCurrent t files = some files' ↔
      fsValidateCurrent t 0 0 = true ∧ files' = fsCopyCurrent t 0 0 files.clearAll := by
  rw [fsDeserializeCurrent]
  split_ifs with h <;> simp [h, eq_comm]

/-- **What is mounted from a version 5 table**: its extents in order, compacted to the front. -/
theorem entries_of_fsDeserializeCurrent (h : fsDeserializeCurrent t files = some files') :
    files'.entries = (extents t.records).map (fun e => some e.entry) ++
      replicate (fsMaxFiles - (extents t.records).length) none := by
  obtain ⟨hval, rfl⟩ := (fsDeserializeCurrent_eq_some_iff t).1 h
  obtain ⟨hv, -⟩ := (fsValidateCurrent_iff t).1 hval
  have hcells := cells_fsCopyCurrent t 0 0 files.clearAll le_rfl (by simpa using hv)
  rw [take_zero, nil_append, drop_zero, drop_zero] at hcells
  have hlen := length_extents_le t.records
  rw [t.length_records] at hlen
  rw [entries, hcells,
    map_entry_overwrite hv (by rw [files.clearAll.length_cells]; exact hlen), map_drop,
    ← entries, entries_clearAll, drop_replicate]

/-- The keys of a table, read from its entries. -/
theorem FileTable.filterMap_key (files : FileTable) :
    files.cells.filterMap (key entry) =
      files.entries.filterMap fun o => o.map Prod.fst := by
  rw [entries, filterMap_map]
  rfl

theorem wellFormed_of_fsDeserializeCurrent
    (h : fsDeserializeCurrent t files = some files') : files'.WellFormed := by
  have hentries := entries_of_fsDeserializeCurrent t h
  obtain ⟨hval, rfl⟩ := (fsDeserializeCurrent_eq_some_iff t).1 h
  obtain ⟨hv, hnodup⟩ := (fsValidateCurrent_iff t).1 hval
  have hcells := cells_fsCopyCurrent t 0 0 files.clearAll le_rfl (by simpa using hv)
  have hclear : ∀ f ∈ files.clearAll.cells, f.inUse = false := by
    intro f hf
    obtain ⟨g, -, rfl⟩ := mem_map.1 hf
    rfl
  refine ⟨?_, ?_, ?_⟩
  · rw [hcells]
    refine forall_mem_overwrite hv _ (fun e he f _ => e.cellOk_decode he f) fun f hf hu => ?_
    rw [hclear f hf] at hu
    cases hu
  · rw [distinct_iff_nodup, filterMap_key, hentries, filterMap_append]
    simpa [filterMap_replicate, Function.comp_def, Extent.entry] using hnodup
  · rw [recordsNeeded, hcells]
    refine (sum_records_overwrite_le hv _ fun f hf => ?_).trans
      ((sum_extents_le t.records).trans t.length_records.le)
    rw [records, hclear f hf]
    rfl

/-! ### The mounted view of an older table -/

theorem fsLegacyRecordIsValid_iff :
    fsLegacyRecordIsValid r = true ↔ r.inUse = 1 ∧ r.size.toNat < fsDiskDataBytes ∧
      r.name.byte (fsMaxFilename - 1) = 0 ∧ r.data.byte r.size.toNat = 0 ∧
      fsIsValidText r.text = true := by
  simp [fsLegacyRecordIsValid, and_assoc]

/-- What the cell of an older record reads as. -/
def legacyEntry (r : FsDiskRecord) : Option (CString × List UInt8) :=
  if r.inUse = 0 then none else some (r.text, r.data.bytes 0 r.size.toNat)

theorem fsValidateLegacy_iff :
    fsValidateLegacy t = true ↔ ∀ i < fsMaxFiles, (t.record i).inUse = 0 ∨
      (fsLegacyRecordIsValid (t.record i) = true ∧
        fsNameIsTaken t i (t.record i).text = false) := by
  simp [fsValidateLegacy]

section LegacyCell

variable {r : FsDiskRecord} (hr : r.inUse = 0 ∨ fsLegacyRecordIsValid r = true) (f : FsFile)
include hr

theorem entry_fsLegacyCell : (fsLegacyCell r f).entry = legacyEntry r := by
  unfold fsLegacyCell legacyEntry
  split_ifs with hu
  · exact entry_fsClear f
  · have hsize : r.size.toNat < 1024 := ((fsLegacyRecordIsValid_iff r).1 (hr.resolve_left hu)).2.1
    rw [entry_of_inUse rfl]
    have hcopy := Buffer.bytes_blit f.data r.data.byte (show 0 + r.size.toNat ≤ 8192 by omega)
    rw [zero_add] at hcopy
    have hput : ((f.data.blit 0 r.data.byte r.size.toNat).put r.size.toNat 0).bytes 0 r.size.toNat =
        (f.data.blit 0 r.data.byte r.size.toNat).bytes 0 r.size.toNat := by
      refine Buffer.bytes_congr fun i hi => ?_
      rw [Buffer.byte_put, if_neg (by omega)]
    rw [contents, hput, hcopy]
    simp [Buffer.bytes]

theorem cellOk_fsLegacyCell (hu : (fsLegacyCell r f).inUse = true) :
    CellOk (fsLegacyCell r f) := by
  unfold fsLegacyCell at hu ⊢
  split_ifs at hu ⊢ with hzero
  · cases hu
  · obtain ⟨-, hsize, -, -, hname⟩ := (fsLegacyRecordIsValid_iff r).1 (hr.resolve_left hzero)
    have hsize' : r.size.toNat < 1024 := hsize
    refine ⟨hname, show r.size.toNat < 8192 by omega, ?_⟩
    rw [Buffer.byte_put, if_pos ⟨rfl, show r.size.toNat < 8192 by omega⟩]

theorem records_fsLegacyCell_le : (fsLegacyCell r f).records ≤ 1 := by
  unfold fsLegacyCell
  split_ifs with hzero
  · exact zero_le 1
  · obtain ⟨-, hsize, -⟩ := (fsLegacyRecordIsValid_iff r).1 (hr.resolve_left hzero)
    exact fsDiskRecordsNeeded_le_one hsize.le

end LegacyCell

theorem fsDeserializeLegacy_eq_some_iff : fsDeserializeLegacy t files = some files' ↔
      fsValidateLegacy t = true ∧ files'.cells = zipWith fsLegacyCell t.records files.cells := by
  rw [fsDeserializeLegacy]
  split_ifs with h
  · rw [Option.some_inj]
    exact ⟨fun heq => ⟨h, heq ▸ rfl⟩, fun heq => ext heq.2.symm⟩
  · simp [h]

section Legacy

variable {t} {files files' : FileTable}

theorem legacy_record_of_mem (hval : fsValidateLegacy t = true) {r : FsDiskRecord}
    (hr : r ∈ t.records) : r.inUse = 0 ∨ fsLegacyRecordIsValid r = true := by
  obtain ⟨i, hi, rfl⟩ := mem_iff_getElem.1 hr
  rw [← record_eq_getElem t hi]
  exact ((fsValidateLegacy_iff t).1 hval i (t.length_records ▸ hi)).imp_right And.left

/-- Whatever holds of every legacy cell written over any old cell holds of every mounted cell. -/
theorem forall_mem_of_fsDeserializeLegacy {P : FsFile → Prop}
    (h : fsDeserializeLegacy t files = some files')
    (hP : ∀ r : FsDiskRecord, (r.inUse = 0 ∨ fsLegacyRecordIsValid r = true) →
      ∀ f, P (fsLegacyCell r f)) : ∀ f ∈ files'.cells, P f := by
  obtain ⟨hval, hcells⟩ := (fsDeserializeLegacy_eq_some_iff t).1 h
  intro f hf
  rw [hcells, mem_iff_getElem] at hf
  obtain ⟨i, hi, rfl⟩ := hf
  rw [getElem_zipWith]
  exact hP _ (legacy_record_of_mem hval (getElem_mem _)) _

/-- **What is mounted from an older table**: one file for each record in use, in place. -/
theorem entries_of_fsDeserializeLegacy (h : fsDeserializeLegacy t files = some files') :
    files'.entries = t.records.map legacyEntry := by
  obtain ⟨hval, hcells⟩ := (fsDeserializeLegacy_eq_some_iff t).1 h
  rw [entries, hcells]
  refine ext_getElem (by simp [t.length_records, files.length_cells]) fun i h1 h2 => ?_
  rw [getElem_map, getElem_zipWith, getElem_map]
  exact entry_fsLegacyCell (legacy_record_of_mem hval (getElem_mem _)) _

theorem wellFormed_of_fsDeserializeLegacy (h : fsDeserializeLegacy t files = some files') :
    files'.WellFormed := by
  have hentries := entries_of_fsDeserializeLegacy h
  obtain ⟨hval, -⟩ := (fsDeserializeLegacy_eq_some_iff t).1 h
  refine ⟨forall_mem_of_fsDeserializeLegacy h fun r hr f hu => cellOk_fsLegacyCell hr f hu, ?_, ?_⟩
  · -- an entry at a record says that the record is a head with that name
    have hkey : ∀ (i : ℕ) (f : FsFile) (name : CString), files'.cells[i]? = some f →
        key entry f = some name →
        i < fsMaxFiles ∧ (t.record i).inUse ≠ 0 ∧ (t.record i).text = name := by
      intro i f name hi hk
      have hget := congrArg (fun l => l[i]?) hentries
      simp only [entries, getElem?_map, hi, Option.map_some] at hget
      obtain ⟨r, hr, hre⟩ := Option.map_eq_some_iff.1 hget.symm
      obtain ⟨hlt, rfl⟩ := List.getElem?_eq_some_iff.1 hr
      rw [key, ← hre, legacyEntry] at hk
      rw [record_eq_getElem t hlt]
      split_ifs at hk with hu
      · cases hk
      · exact ⟨t.length_records ▸ hlt, hu, by simpa using hk⟩
    have hlt : ∀ (i j : ℕ) (name : CString), i < j → j < fsMaxFiles →
        (t.record i).inUse ≠ 0 → (t.record i).text = name →
        (t.record j).inUse ≠ 0 → (t.record j).text ≠ name := by
      intro i j name hij hj hui hni huj hnj
      have hhead := (((fsValidateLegacy_iff t).1 hval i (by omega)).resolve_left hui).1
      have htaken := (((fsValidateLegacy_iff t).1 hval j hj).resolve_left huj).2
      have hi : i < t.records.length := by
        rw [t.length_records]
        omega
      rw [fsNameIsTaken, any_eq_false] at htaken
      refine htaken (t.record i) ?_ ?_
      · rw [record_eq_getElem t hi]
        exact mem_take_iff_getElem.2 ⟨i, by omega, rfl⟩
      · rw [((fsLegacyRecordIsValid_iff _).1 hhead).1, hni, hnj, kstrcmp_eq_zero_iff.2 rfl]
        rfl
    intro i j a b name hi hj ha hb
    obtain ⟨hi32, hui, hni⟩ := hkey i a name hi ha
    obtain ⟨hj32, huj, hnj⟩ := hkey j b name hj hb
    rcases lt_trichotomy i j with hij | rfl | hij
    · exact absurd hnj (hlt i j name hij hj32 hui hni huj)
    · rfl
    · exact absurd hni (hlt j i name hij hi32 huj hnj hui)
  · have hle : ∀ f ∈ files'.cells, f.records ≤ 1 :=
      forall_mem_of_fsDeserializeLegacy h fun r hr f => records_fsLegacyCell_le hr f
    have hsum := sum_le_card_nsmul (files'.cells.map records) 1 (by simpa using hle)
    rw [recordsNeeded]
    simpa [files'.length_cells] using hsum

end Legacy

end Nostalux.Fs

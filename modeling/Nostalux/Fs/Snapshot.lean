import Nostalux.Fs.Mount

/-!
# The snapshot that a disk holds

`Snapshot d slot generation map` says what mounting the disk `d` comes to: the slot that is tried
first carries a valid header with that generation, and its table decodes to the given map.

* `snapshot_of_fsLoadFromDisk`: a mount without reservations found a snapshot;
* `Snapshot.reload`: a device with working reads mounts the snapshot of its disk;
* `Snapshot.of_headers`: changes outside the headers and the selected slot do not matter;
* `Selected.commit`: a complete table and its commit header in the other slot supersede it;
* `Committed.first_and_ordered_of_blank`: so they do on a disk whose other header is blank.
-/

namespace Nostalux.Fs

open Ata

/-- The headers on a disk, as a scan that failed no read sees them. -/
def scanOf (d : ℕ → Sector) : FsHeaderScan := ⟨some (headerAt d 0), some (headerAt d 1)⟩

/-- The disk mounts as the given map from the given slot. -/
structure Snapshot (d : ℕ → Sector) (slot : ℕ) (generation : UInt32)
    (map : CString → Option (List UInt8)) : Prop where
  slot_lt : slot < fsSlotCount
  first : (scanOf d).firstSlot = slot
  valid : fsHeaderIsValid (headerAt d slot) = true
  generation_eq : fsHeaderGeneration (headerAt d slot) = generation
  decodes : ∀ old, ∃ files, fsDecodeSlot (headerAt d slot) (tableAt d slot) old = some files ∧
    files.fileMap = map

/-- The headers of a disk order its slots without doubt. -/
structure Ordered (d : ℕ → Sector) : Prop where
  no_flag : (scanOf d).sawNonblankInvalidHeader = false
  not_legacy : (scanOf d).bothLegacy = false
  generations : (scanOf d).bothIntegrityProtected = true →
    (scanOf d).generation 0 ≠ (scanOf d).generation 1 ∧
      (scanOf d).generation 0 - (scanOf d).generation 1 ≠ 0x80000000

/-- A working mount of the disk raises no flag about the order of its slots. -/
structure Trusted (d : ℕ → Sector) : Prop where
  no_flag : (scanOf d).sawNonblankInvalidHeader = false
  not_ambiguous : ∀ a : Ata, a.Working → a.disk = d →
    (fsCheckOrder (scanOf d) a).1.isAmbiguous = false

theorem Ordered.trusted {d : ℕ → Sector} (h : Ordered d) : Trusted d := by
  refine ⟨h.no_flag, fun a _ _ => ?_⟩
  rw [fsCheckOrder_of_ordered _ h.not_legacy h.generations]
  rfl

variable {slot : ℕ}

section

variable (d : ℕ → Sector) (h : slot < fsSlotCount)
include h

theorem read_scanOf : (scanOf d).read slot = some (headerAt d slot) := by
  rcases eq_zero_or_one_of_lt h with rfl | rfl <;> rfl

theorem header_scanOf : (scanOf d).header slot = headerAt d slot := by
  rw [FsHeaderScan.header, read_scanOf d h]
  rfl

theorem valid_scanOf : (scanOf d).valid slot = fsHeaderIsValid (headerAt d slot) := by
  rw [FsHeaderScan.valid, read_scanOf d h]
  rfl

end

theorem firstSlot_lt (scan : FsHeaderScan) : scan.firstSlot < fsSlotCount :=
  FsHeaderScan.lt_of_mem_slots (show scan.firstSlot ∈ scan.slots by simp [FsHeaderScan.slots])

/-! ### Mounting finds the snapshot -/

variable {a : Ata}

/-- Faithful reads that all succeed see the headers of the disk. -/
theorem fsReadHeaders_eq_scanOf (hf : a.Faithful)
    (h : (fsReadHeaders a).1.sawIoError = false) : (fsReadHeaders a).1 = scanOf a.disk := by
  have hread : ∀ slot < fsSlotCount,
      (fsReadHeaders a).1.read slot = some (headerAt a.disk slot) := by
    intro slot hslot
    obtain ⟨header, hheader⟩ := FsHeaderScan.exists_read_of_not_sawIoError h slot
    have hget := read_fsReadHeaders a hslot
    rw [hheader] at hget
    obtain ⟨f, hsome, rfl⟩ := Option.map_eq_some_iff.1 hget.symm
    obtain ⟨-, rfl⟩ := (read_eq_some_iff _ _).1 hsome
    have hobserved := ((ReadsTo.skip a slot).faithful hf).observed (fsSlotHeaderLba slot)
    simp only [Nat.add_zero] at hheader
    rw [hheader, hobserved]
    rfl
  have hfirst := hread 0 (by decide)
  have hsecond := hread 1 (by decide)
  rcases hscan : (fsReadHeaders a).1 with ⟨first, second⟩
  rw [hscan] at hfirst hsecond
  rw [show first = some (headerAt a.disk 0) from hfirst,
    show second = some (headerAt a.disk 1) from hsecond]
  rfl

theorem Ata.Faithful.observed_from (h : a.Faithful) (lba : ℕ) :
    (fun i => a.observed (lba + i)) = fun i => a.disk (lba + i) := by
  funext i
  exact h.observed _

/-- A faithful read of a slot's table that succeeds sees the table of the disk. -/
theorem fsLoadSlot_eq_loaded {header : FsDiskHeader} {s s' : FsState}
    (hf : s.ata.Faithful) (h : fsLoadSlot slot header s = (.loaded, s')) :
    fsDecodeSlot header (tableAt s.ata.disk slot) s.files = some s'.files ∧
      s'.activeSlot = slot ∧ s'.activeGeneration = fsHeaderGeneration header := by
  rcases fsLoadSlot_cases slot header s with ⟨files, hdec, heq⟩ | ⟨result, hne, -, heq⟩
  · rw [heq] at h
    cases h
    rw [hf.observed_from] at hdec
    exact ⟨hdec, rfl, rfl⟩
  · rw [heq] at h
    exact absurd (congrArg Prod.fst h) hne

/-- The flags of the order keep an I/O error that the header scan saw. -/
theorem sawIoError_fsCheckOrder {scan : FsHeaderScan}
    (h : (fsCheckOrder scan a).1.sawIoError = false) : scan.sawIoError = false := by
  have hcompare : (fsCompareOrder scan a).1.sawIoError = false := by
    unfold fsCheckOrder at h
    split_ifs at h <;> exact h
  unfold fsCompareOrder at hcompare
  split_ifs at hcompare
  · rcases hc : fsCompareSlotTables 0 1 a with ⟨_ | _ | _, a'⟩ <;> rw [hc] at hcompare
    · exact hcompare
    · exact hcompare
    · cases hcompare
  · exact hcompare

/-- **A mount without reservations found a snapshot.** -/
theorem snapshot_of_fsLoadFromDisk {s s' : FsState} (hf : s.ata.Faithful)
    (h : fsLoadFromDisk s = (.loaded, s')) :
    Snapshot s.ata.disk s'.activeSlot s'.activeGeneration s'.files.fileMap := by
  have hready := init_of_fsLoadFromDisk (s := s) (by simp [h]) (by simp [h])
  rw [fsLoadFromDisk_of_ready hready] at h
  obtain ⟨hio, -, -, hvalid, hload⟩ := fsMountSlots_eq_loaded h
  have hscan := fsReadHeaders_eq_scanOf ((ReadsTo.skip s.ata 1).faithful hf)
    (sawIoError_fsCheckOrder hio)
  have hreads := readsTo_fsCompareOrder (scanOf s.ata.disk) (s.ata.skip 3)
  rw [← snd_fsCheckOrder] at hreads
  have hata := (ReadsTo.skip s.ata 3).trans hreads
  rw [disk_skip] at hscan
  rw [hscan, snd_fsReadHeaders, skip_skip, show 1 + 2 = 3 from rfl] at hload
  rw [hscan] at hvalid
  have hslot := firstSlot_lt (scanOf s.ata.disk)
  obtain ⟨hdecode, hactive, hgeneration⟩ := fsLoadSlot_eq_loaded (hata.faithful hf) hload
  rw [header_scanOf _ hslot, FsState.ata_unmounted, hata.disk] at hdecode
  rw [header_scanOf _ hslot] at hgeneration
  rw [valid_scanOf _ hslot] at hvalid
  rw [hactive, hgeneration]
  refine ⟨hslot, rfl, hvalid, rfl, ?_⟩
  intro old
  obtain ⟨files, hfiles, hentries⟩ := fsDecodeSlot_congr hdecode old
  refine ⟨files, hfiles, FileTable.fileMap_congr ?_⟩
  rw [files.listing_eq_filterMap, hentries, ← FileTable.listing_eq_filterMap]

/-! ### A working device mounts the snapshot -/

theorem read_of_working (h : a.Working) (lba : ℕ) :
    a.read lba = (some fun i => a.disk (lba + i), a.skip 1) := by
  rw [Ata.read, h.readOk 0, if_pos rfl, h.faithful.observed_from]

theorem fsReadHeaders_of_working (h : a.Working) : fsReadHeaders a = (scanOf a.disk, a.skip 2) := by
  unfold fsReadHeaders
  rw [read_of_working h]
  simp only
  rw [read_of_working ((ReadsTo.skip a 1).working h)]
  simp only [skip_skip]
  rfl

theorem fsCompareSectors_of_working (h : a.Working) (firstLba secondLba n sector : ℕ) :
    (fsCompareSectors firstLba secondLba n sector a).1 ≠ .ioError := by
  induction n generalizing sector a with
  | zero => simp [fsCompareSectors]
  | succ n ih =>
    have h₁ := (ReadsTo.skip a 1).working h
    rw [fsCompareSectors, read_of_working h]
    simp only
    rw [read_of_working h₁]
    simp only
    split_ifs
    · exact ih ((ReadsTo.skip _ 1).working h₁) _
    · simp

theorem sawIoError_fsCheckOrder_of_working (h : a.Working) (scan : FsHeaderScan) :
    (fsCheckOrder scan a).1.sawIoError = scan.sawIoError := by
  have hcompare : (fsCompareOrder scan a).1.sawIoError = scan.sawIoError := by
    have hne := fsCompareSectors_of_working h (fsSlotHeaderLba 0 + 1) (fsSlotHeaderLba 1 + 1)
      fsDiskTableSectors 0
    unfold fsCompareOrder
    split_ifs
    · rcases hc : fsCompareSlotTables 0 1 a with ⟨_ | _ | _, a'⟩
      · rfl
      · rfl
      · rw [fsCompareSlotTables] at hc
        rw [hc] at hne
        exact absurd rfl hne
    · rfl
  unfold fsCheckOrder
  split_ifs <;> exact hcompare

variable {generation : UInt32} {map : CString → Option (List UInt8)}

/-- **A reload mounts the snapshot of the disk**, without reservations when the headers order the
slots. -/
theorem Snapshot.reload {s : FsState} (h : Snapshot s.ata.disk slot generation map)
    (hw : s.ata.Working) :
    ∃ result s', fsLoadFromDisk s = (result, s') ∧ (result = .loaded ∨ result = .loadedCorrupt) ∧
      s'.activeSlot = slot ∧ s'.activeGeneration = generation ∧ s'.files.fileMap = map ∧
      (Trusted s.ata.disk → result = .loaded) := by
  have hw₁ := (ReadsTo.skip s.ata 1).working hw
  have hw₃ := (ReadsTo.skip s.ata 3).working hw
  obtain ⟨files, hdec, hmap⟩ := h.decodes s.files
  have hreads := readsTo_fsCompareOrder (scanOf s.ata.disk) (s.ata.skip 3)
  have hio := sawIoError_fsCheckOrder_of_working hw₃ (scanOf s.ata.disk)
  have htrusted : Trusted s.ata.disk →
      (fsCheckOrder (scanOf s.ata.disk) (s.ata.skip 3)).1.isAmbiguous = false := fun ht =>
    ht.not_ambiguous _ hw₃ rfl
  rw [← snd_fsCheckOrder] at hreads
  have hfirst : fsLoadFromDisk s = fsMountSlots (scanOf s.ata.disk)
      (fsCheckOrder (scanOf s.ata.disk) (s.ata.skip 3)).1
      (s.unmounted (fsCheckOrder (scanOf s.ata.disk) (s.ata.skip 3)).2) := by
    rw [fsLoadFromDisk_of_ready (hw.init 0), fsReadHeaders_of_working hw₁, disk_skip, skip_skip]
  rcases hcheck : fsCheckOrder (scanOf s.ata.disk) (s.ata.skip 3) with ⟨order, a₂⟩
  rw [hcheck] at hreads hio htrusted hfirst
  have hio' : order.sawIoError = false := hio
  have hvalid : (scanOf s.ata.disk).valid slot = true := by
    rw [valid_scanOf _ h.slot_lt]
    exact h.valid
  -- the attempt at the first slot succeeds
  have hload : fsLoadSlot slot (headerAt s.ata.disk slot) (s.unmounted a₂) =
      (.loaded, { s.unmounted a₂ with
        files, activeSlot := slot, activeGeneration := generation,
        loadedVersion := (headerAt s.ata.disk slot).version, ata := a₂.skip 1 }) := by
    have hw₂ := hreads.working hw₃
    rcases fsLoadSlot_cases slot (headerAt s.ata.disk slot) (s.unmounted a₂) with
      ⟨found, hfound, heq⟩ | ⟨_, -, hnone, -⟩
    · rw [FsState.ata_unmounted, FsState.files_unmounted, hw₂.faithful.observed_from,
        hreads.disk] at hfound
      obtain rfl : files = found := Option.some.inj (hdec.symm.trans hfound)
      rw [heq, h.generation_eq]
      rfl
    · have hcorrupt := hnone (hw₂.readOk 0)
      rw [FsState.ata_unmounted, FsState.files_unmounted, hw₂.faithful.observed_from,
        hreads.disk] at hcorrupt
      exact absurd (hdec.symm.trans hcorrupt) (Option.some_ne_none files)
  rw [fsMountSlots, FsHeaderScan.slots, h.first, fsTrySlots, if_pos hvalid,
    header_scanOf _ h.slot_lt, hload] at hfirst
  simp only [hio', Bool.false_or] at hfirst
  refine ⟨_, _, hfirst, ?_, ?_, ?_, ?_, ?_⟩
  · cases ((scanOf s.ata.disk).sawNonblankInvalidHeader || order.isAmbiguous)
    · exact .inl rfl
    · exact .inr rfl
  · split_ifs <;> rfl
  · split_ifs <;> rfl
  · split_ifs <;> exact hmap
  · intro ht
    rw [fsLoadedResult_eq_loaded, ht.no_flag, htrusted ht]
    exact ⟨rfl, rfl⟩

/-! ### What keeps and what replaces the snapshot -/

variable {d d' : ℕ → Sector}

theorem scanOf_congr
    (h : ∀ slot < fsSlotCount, headerAt d' slot = headerAt d slot) : scanOf d' = scanOf d := by
  rw [scanOf, scanOf, h 0 (by decide), h 1 (by decide)]

/-- Changes outside the headers and the selected slot do not matter. -/
theorem Snapshot.of_headers (h : Snapshot d slot generation map)
    (hheaders : ∀ p < fsSlotCount, headerAt d' p = headerAt d p)
    (htable : tableAt d' slot = tableAt d slot) : Snapshot d' slot generation map := by
  have hheader := hheaders slot h.slot_lt
  refine ⟨h.slot_lt, ?_, ?_, ?_, ?_⟩
  · rw [scanOf_congr hheaders]
    exact h.first
  · rw [hheader]
    exact h.valid
  · rw [hheader]
    exact h.generation_eq
  · rw [hheader, htable]
    exact h.decodes

/-- A table written from a view and its commit header decode to the map of the view. -/
theorem fsDecodeSlot_fsCommitHeader {files : FileTable} (hwf : files.WellFormed) {t : FsDiskTable}
    (ht : fsSerialize files = some t) (generation : UInt32) (old : FileTable) :
    ∃ files', fsDecodeSlot (fsCommitHeader t generation) t.toBytes old = some files' ∧
      files'.fileMap = files.fileMap := by
  obtain ⟨files', h'⟩ := exists_fsDeserializeCurrent hwf ht old
  refine ⟨files', ?_, fileMap_of_fsDeserializeCurrent_fsSerialize hwf ht h'⟩
  have hchecksum : (fsCommitHeader t generation).checksum = fsChecksum t.toBytes := by
    rw [fsCommitHeader]
  have hversion : 5 ≤ (fsCommitHeader t generation).version := by
    show (5 : UInt32) ≤ 5
    decide
  rw [fsDecodeSlot, if_neg (not_not.2 hchecksum), if_pos hversion, FsDiskTable.ofBytes_toBytes, h']

theorem fsHeaderGeneration_fsCommitHeader (t : FsDiskTable) (generation : UInt32) :
    fsHeaderGeneration (fsCommitHeader t generation) = generation := rfl

/-- The slot `slot` holds a complete commit of the table `t`. -/
structure Committed (d : ℕ → Sector) (slot : ℕ) (t : FsDiskTable) (generation : UInt32) : Prop where
  header : headerAt d slot = fsCommitHeader t generation
  table : tableAt d slot = t.toBytes

section Commit

variable {d : ℕ → Sector} {slot : ℕ} {t : FsDiskTable} {generation : UInt32}

section

variable (h : Committed d slot t generation)

include h

theorem Committed.valid (hslot : slot < fsSlotCount) : (scanOf d).valid slot = true := by
  rw [valid_scanOf _ hslot, h.header]
  exact fsHeaderIsValid_fsCommitHeader t generation

theorem Committed.integrityProtected (hslot : slot < fsSlotCount) :
    (scanOf d).integrityProtected slot = true := by
  rw [FsHeaderScan.integrityProtected, h.valid hslot, header_scanOf _ hslot, h.header,
    Bool.true_and, decide_eq_true_iff]
  show (4 : UInt32) ≤ 5
  decide

theorem Committed.generation_eq (hslot : slot < fsSlotCount) :
    fsHeaderGeneration ((scanOf d).header slot) = generation := by
  rw [header_scanOf _ hslot, h.header, fsHeaderGeneration_fsCommitHeader]

/-- The first slot holds a complete commit. -/
theorem Committed.snapshot (hslot : slot < fsSlotCount)
    (hfirst : (scanOf d).firstSlot = slot) {files : FileTable} (hwf : files.WellFormed)
    (ht : fsSerialize files = some t) : Snapshot d slot generation files.fileMap := by
  refine ⟨hslot, hfirst, ?_, ?_, ?_⟩
  · rw [h.header]
    exact fsHeaderIsValid_fsCommitHeader t generation
  · rw [h.header, fsHeaderGeneration_fsCommitHeader]
  · intro old
    rw [h.header, h.table]
    exact fsDecodeSlot_fsCommitHeader hwf ht generation old

end

theorem sawNonblankInvalidHeader_of_valid {scan : FsHeaderScan} (h0 : scan.valid 0 = true)
    (h1 : scan.valid 1 = true) : scan.sawNonblankInvalidHeader = false := by
  rw [FsHeaderScan.sawNonblankInvalidHeader, List.any_eq_false]
  intro slot hslot
  have hvalid : scan.valid slot = true := by
    rcases List.mem_pair.1 hslot with rfl | rfl
    · exact h0
    · exact h1
  rw [FsHeaderScan.valid] at hvalid
  cases hread : scan.read slot with
  | none => simp
  | some header =>
    rw [hread, Option.any_some] at hvalid
    simp [hvalid]

/-- The slot with the next generation is tried first, and the order is beyond doubt. -/
theorem Committed.first_and_ordered (h : Committed d (1 - slot) t (generation + 1))
    (hslot : slot < fsSlotCount) (hvalid : (scanOf d).valid slot = true)
    (hgen : fsHeaderGeneration ((scanOf d).header slot) = generation) :
    (scanOf d).firstSlot = 1 - slot ∧ Ordered d := by
  have hlt : 1 - slot < fsSlotCount := by
    show 1 - slot < 2
    omega
  have hnewValid := h.valid hlt
  have hprotected := h.integrityProtected hlt
  have hnewGen := h.generation_eq hlt
  have hpred := fsGenerationIsNewer_pred generation
  have hsucc := fsGenerationIsNewer_succ generation
  rcases eq_zero_or_one_of_lt hslot with rfl | rfl
  · -- the new slot is the second one
    refine ⟨?_, sawNonblankInvalidHeader_of_valid hvalid hnewValid, ?_, fun _ => ?_⟩
    · rw [FsHeaderScan.firstSlot, if_pos]
      cases hold : (scanOf d).integrityProtected 0 <;>
        simp_all [FsHeaderScan.integrityProtected]
    · simp_all [FsHeaderScan.bothLegacy, FsHeaderScan.integrityProtected]
    · rw [FsHeaderScan.generation, FsHeaderScan.generation, if_pos hvalid, if_pos hnewValid, hgen,
        hnewGen]
      constructor <;> grind
  · refine ⟨?_, sawNonblankInvalidHeader_of_valid hnewValid hvalid, ?_, fun _ => ?_⟩
    · rw [FsHeaderScan.firstSlot, if_neg]
      cases hold : (scanOf d).integrityProtected 1 <;>
        simp_all [FsHeaderScan.integrityProtected]
    · simp_all [FsHeaderScan.bothLegacy, FsHeaderScan.integrityProtected]
    · rw [FsHeaderScan.generation, FsHeaderScan.generation, if_pos hvalid, if_pos hnewValid, hgen,
        hnewGen]
      constructor <;> grind

/-- On a disk whose second header is blank, a complete commit in the first slot is mounted. -/
theorem Committed.first_and_ordered_of_blank (h : Committed d 0 t generation)
    (hblank : (d (fsSlotHeaderLba 1)).Blank) : (scanOf d).firstSlot = 0 ∧ Ordered d := by
  have hvalid := h.valid (by decide)
  have hread := read_scanOf d (show 1 < fsSlotCount by decide)
  have hinvalid : (scanOf d).valid 1 = false := by
    exact fsHeaderIsValid_of_blank hblank
  refine ⟨by simp [FsHeaderScan.firstSlot, hinvalid], ⟨?_, ?_, ?_⟩⟩
  · have hisBlank : fsHeaderIsBlank (headerAt d 1) = true := by
      rw [fsHeaderIsBlank, headerAt, FsDiskHeader.toBytes_ofBytes, fsBytesAreBlank_iff]
      exact hblank
    rw [FsHeaderScan.valid, read_scanOf d (by decide), Option.any_some] at hvalid
    simp [FsHeaderScan.sawNonblankInvalidHeader, read_scanOf d (show 0 < fsSlotCount by decide),
      hread, hvalid, hisBlank]
  · simp [FsHeaderScan.bothLegacy, hinvalid]
  · simp [FsHeaderScan.bothIntegrityProtected, FsHeaderScan.integrityProtected, hinvalid]

end Commit

/-- A slot with a valid header of the given generation. -/
structure Selected (d : ℕ → Sector) (slot : ℕ) (generation : UInt32) : Prop where
  slot_lt : slot < fsSlotCount
  valid : fsHeaderIsValid (headerAt d slot) = true
  generation_eq : fsHeaderGeneration (headerAt d slot) = generation

theorem Snapshot.selected {d : ℕ → Sector} (h : Snapshot d slot generation map) :
    Selected d slot generation :=
  ⟨h.slot_lt, h.valid, h.generation_eq⟩

/-- **A complete commit to the other slot supersedes the selected one.** -/
theorem Selected.commit (h : Selected d slot generation)
    (hsame : headerAt d' slot = headerAt d slot) {files : FileTable} (hwf : files.WellFormed)
    {t : FsDiskTable} (ht : fsSerialize files = some t)
    (hcommit : Committed d' (1 - slot) t (generation + 1)) :
    Snapshot d' (1 - slot) (generation + 1) files.fileMap ∧ Ordered d' := by
  have hvalid : (scanOf d').valid slot = true := by
    rw [valid_scanOf _ h.slot_lt, hsame]
    exact h.valid
  have hgen : fsHeaderGeneration ((scanOf d').header slot) = generation := by
    rw [header_scanOf _ h.slot_lt, hsame, h.generation_eq]
  have hlt : 1 - slot < fsSlotCount := by
    show 1 - slot < 2
    omega
  obtain ⟨hfirst, hordered⟩ := hcommit.first_and_ordered h.slot_lt hvalid hgen
  exact ⟨hcommit.snapshot hlt hfirst hwf ht, hordered⟩

end Nostalux.Fs

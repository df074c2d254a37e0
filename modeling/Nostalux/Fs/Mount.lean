import Nostalux.Fs.Ata

/-!
# `kernel/fs.c`: mounting a snapshot

`fsLoadFromDisk` reads both slot headers, decides which slot is newer, and mounts the first slot in
that order whose table has the right checksum and valid records.  It never writes.

* `fsLoadFromDisk_cases` says everything a load can do to the state;
* `fsLoadFromDisk_eq_blank` says what was read when the storage is found blank;
* `fsMountSlots_eq_loaded` says which slot is mounted when nothing went wrong.
-/

namespace Nostalux.Fs

open Ata List

/-- `enum fs_disk_load_result`. -/
inductive FsDiskLoadResult
  | loaded
  | loadedIoError
  | loadedCorrupt
  | noDrive
  | blank
  | corrupt
  | ioError
  deriving DecidableEq

/-- `enum fs_slot_load_result`. -/
inductive FsSlotLoadResult
  | loaded
  | corrupt
  | ioError
  deriving DecidableEq

/-- `enum fs_compare_result`. -/
inductive FsCompareResult
  | equal
  | different
  | ioError
  deriving DecidableEq

/-- `fs_loaded_result`. -/
def fsLoadedResult (sawIoError sawCorruption : Bool) : FsDiskLoadResult :=
  if sawIoError then .loadedIoError else if sawCorruption then .loadedCorrupt else .loaded

/-! ### Loading one slot -/

/-- The checks of `fs_load_slot` on the table it read, and the view it then mounts. -/
def fsDecodeSlot (header : FsDiskHeader) (image : TableBytes) (files : FileTable) :
    Option FileTable :=
  if header.checksum ≠ fsChecksum image then none
  else if 5 ≤ header.version then fsDeserializeCurrent (FsDiskTable.ofBytes image) files
  else fsDeserializeLegacy (FsDiskTable.ofBytes image) files

/-- `fs_load_slot`. -/
def fsLoadSlot (slot : ℕ) (header : FsDiskHeader) (s : FsState) : FsSlotLoadResult × FsState :=
  match s.ata.read (fsSlotHeaderLba slot + 1) with
  | (none, ata) => (.ioError, { s with ata })
  | (some sectors, ata) =>
    match fsDecodeSlot header (ofSectors sectors) s.files with
    | none => (.corrupt, { s with ata })
    | some files =>
      (.loaded, { s with
        files
        activeSlot := slot
        activeGeneration := fsHeaderGeneration header
        loadedVersion := header.version
        ata })

/-! ### The order of the slots -/

/-- The loop of `fs_compare_slot_tables`, with the number of sectors left. -/
def fsCompareSectors (firstLba secondLba : ℕ) : ℕ → ℕ → Ata → FsCompareResult × Ata
  | 0, _, a => (.equal, a)
  | n + 1, sector, a =>
    match a.read (firstLba + sector) with
    | (none, a) => (.ioError, a)
    | (some firstSector, a) =>
      match a.read (secondLba + sector) with
      | (none, a) => (.ioError, a)
      | (some secondSector, a) =>
        if firstSector 0 = secondSector 0 then fsCompareSectors firstLba secondLba n (sector + 1) a
        else (.different, a)

/-- `fs_compare_slot_tables`. -/
def fsCompareSlotTables (firstSlot secondSlot : ℕ) (a : Ata) : FsCompareResult × Ata :=
  fsCompareSectors (fsSlotHeaderLba firstSlot + 1) (fsSlotHeaderLba secondSlot + 1)
    fsDiskTableSectors 0 a

/-- The headers read from the two slots; `none` where the read failed. -/
structure FsHeaderScan where
  first : Option FsDiskHeader
  second : Option FsDiskHeader

/-- The header loop of `fs_load_from_disk`. -/
def fsReadHeaders (a : Ata) : FsHeaderScan × Ata :=
  let (first, a) := a.read (fsSlotHeaderLba 0)
  let (second, a) := a.read (fsSlotHeaderLba 1)
  (⟨first.map fun f => FsDiskHeader.ofBytes (f 0),
    second.map fun f => FsDiskHeader.ofBytes (f 0)⟩, a)

namespace FsHeaderScan

variable (scan : FsHeaderScan)

/-- What was read from a slot. -/
def read (slot : ℕ) : Option FsDiskHeader := if slot = 0 then scan.first else scan.second

/-- `headers[slot]`. -/
def header (slot : ℕ) : FsDiskHeader := (scan.read slot).getD FsDiskHeader.zero

/-- `valid[slot]`. -/
def valid (slot : ℕ) : Bool := (scan.read slot).any fsHeaderIsValid

/-- `saw_nonblank_invalid_header`. -/
def sawNonblankInvalidHeader : Bool :=
  [0, 1].any fun slot => (scan.read slot).any fun h => !fsHeaderIsValid h && !fsHeaderIsBlank h

/-- `saw_io_error` after the header loop. -/
def sawIoError : Bool := scan.first.isNone || scan.second.isNone

/-- A valid header of a version with an integrity checksum. -/
def integrityProtected (slot : ℕ) : Bool := scan.valid slot && 4 ≤ (scan.header slot).version

/-- `both_legacy`. -/
def bothLegacy : Bool :=
  scan.valid 0 && scan.valid 1 && (scan.header 0).version < 4 && (scan.header 1).version < 4

/-- `both_integrity_protected`. -/
def bothIntegrityProtected : Bool := scan.integrityProtected 0 && scan.integrityProtected 1

/-- `first_generation` and `second_generation`. -/
def generation (slot : ℕ) : UInt32 :=
  if scan.valid slot then fsHeaderGeneration (scan.header slot) else 0

/-- `first`: the slot that is tried first. -/
def firstSlot : ℕ :=
  if scan.valid 1 &&
      (!scan.valid 0 ||
        (scan.integrityProtected 1 && !scan.integrityProtected 0) ||
        (scan.integrityProtected 1 = scan.integrityProtected 0 &&
          fsGenerationIsNewer (fsHeaderGeneration (scan.header 1))
            (fsHeaderGeneration (scan.header 0)))) then 1 else 0

/-- The two slots in the order in which they are tried. -/
def slots : List ℕ := [scan.firstSlot, 1 - scan.firstSlot]

end FsHeaderScan

/-- The flags that `fs_load_from_disk` derives from the order of the slots. -/
structure FsSlotOrder where
  sawIoError : Bool
  legacyOrderIsAmbiguous : Bool
  protectedOrderIsAmbiguous : Bool

/-- `slot_order_is_ambiguous`. -/
def FsSlotOrder.isAmbiguous (order : FsSlotOrder) : Bool :=
  order.legacyOrderIsAmbiguous || order.protectedOrderIsAmbiguous

/-- The comparison of the two tables where the headers alone do not order them. -/
def fsCompareOrder (scan : FsHeaderScan) (a : Ata) : FsSlotOrder × Ata :=
  if scan.bothLegacy ||
      (scan.bothIntegrityProtected && scan.generation 0 = scan.generation 1) then
    match fsCompareSlotTables 0 1 a with
    | (.ioError, a) => (⟨true, false, false⟩, a)
    | (.different, a) => (⟨scan.sawIoError, scan.bothLegacy, !scan.bothLegacy⟩, a)
    | (.equal, a) => (⟨scan.sawIoError, false, false⟩, a)
  else (⟨scan.sawIoError, false, false⟩, a)

/-- The order of the slots, with the half-range rule. -/
def fsCheckOrder (scan : FsHeaderScan) (a : Ata) : FsSlotOrder × Ata :=
  let (order, a) := fsCompareOrder scan a
  if scan.bothIntegrityProtected && scan.generation 0 - scan.generation 1 = 0x80000000 then
    ({ order with protectedOrderIsAmbiguous := true }, a)
  else (order, a)

/-! ### `fs_load_from_disk` -/

/-- The attempts of `fs_load_from_disk` to mount the slots in order, with the flags `saw_io_error`
and `saw_corrupt_slot`: the result of the load, or the flags when no slot could be mounted. -/
def fsTrySlots (scan : FsHeaderScan) (order : FsSlotOrder) :
    List ℕ → Bool → Bool → FsState → (FsDiskLoadResult ⊕ Bool × Bool) × FsState
  | [], sawIoError, sawCorruptSlot, s => (.inr (sawIoError, sawCorruptSlot), s)
  | slot :: rest, sawIoError, sawCorruptSlot, s =>
    if scan.valid slot then
      match fsLoadSlot slot (scan.header slot) s with
      | (.loaded, s) =>
        (.inl (fsLoadedResult sawIoError
            (sawCorruptSlot || scan.sawNonblankInvalidHeader || order.isAmbiguous)),
          if order.legacyOrderIsAmbiguous then { s with legacyUpgradeStatus := .available } else s)
      | (.corrupt, s) => fsTrySlots scan order rest sawIoError true s
      | (.ioError, s) => fsTrySlots scan order rest true sawCorruptSlot s
    else fsTrySlots scan order rest sawIoError sawCorruptSlot s

/-- What the contents of both tables say when both headers are blank. -/
def fsBlankResult (first second : Option (ℕ → Sector)) : FsDiskLoadResult :=
  match first, second with
  | some first, some second =>
    if fsBytesAreBlank (ofSectors first) && fsBytesAreBlank (ofSectors second) then .blank
    else .corrupt
  | _, _ => .ioError

/-- The inspection of both tables when both headers are blank. -/
def fsInspectBlank (a : Ata) : FsDiskLoadResult × Ata :=
  let (first, a) := a.read (fsSlotHeaderLba 0 + 1)
  let (second, a) := a.read (fsSlotHeaderLba 1 + 1)
  (fsBlankResult first second, a)

/-- The second half of `fs_load_from_disk`, after the headers have been read and ordered. -/
def fsMountSlots (scan : FsHeaderScan) (order : FsSlotOrder) (s : FsState) :
    FsDiskLoadResult × FsState :=
  match fsTrySlots scan order scan.slots order.sawIoError false s with
  | (.inl result, s) => (result, s)
  | (.inr (sawIoError, sawCorruptSlot), s) =>
    if sawIoError then (.ioError, s)
    else if sawCorruptSlot || scan.sawNonblankInvalidHeader then (.corrupt, s)
    else
      let (result, ata) := fsInspectBlank s.ata
      (result, { s with ata })

/-- The state with no slot selected. -/
def FsState.unmounted (s : FsState) (ata : Ata) : FsState :=
  { s with
    legacyUpgradeStatus := .unavailable
    activeSlot := fsSlotCount
    activeGeneration := 0
    loadedVersion := 0
    ata }

@[simp] theorem FsState.ata_unmounted (s : FsState) (ata : Ata) : (s.unmounted ata).ata = ata := rfl

@[simp] theorem FsState.files_unmounted (s : FsState) (ata : Ata) :
    (s.unmounted ata).files = s.files := rfl

/-- `fs_load_from_disk`. -/
def fsLoadFromDisk (s : FsState) : FsDiskLoadResult × FsState :=
  match s.ata.init with
  | (.noDevice, ata) => (.noDrive, { s with legacyUpgradeStatus := .unavailable, ata })
  | (.error, ata) => (.ioError, { s with legacyUpgradeStatus := .unavailable, ata })
  | (.ready, ata) =>
    let (scan, ata) := fsReadHeaders ata
    let (order, ata) := fsCheckOrder scan ata
    fsMountSlots scan order (s.unmounted ata)

variable {s : FsState}

/-- The device was found unless the load says otherwise. -/
theorem init_of_fsLoadFromDisk (hdrive : (fsLoadFromDisk s).1 ≠ .noDrive)
    (hio : (fsLoadFromDisk s).1 ≠ .ioError) : (s.ata.answers 0).init = .ready := by
  rw [fsLoadFromDisk, init] at hdrive hio
  cases hinit : (s.ata.answers 0).init with
  | ready => rfl
  | noDevice =>
    rw [hinit] at hdrive
    exact absurd rfl hdrive
  | error =>
    rw [hinit] at hio
    exact absurd rfl hio

theorem fsLoadFromDisk_of_ready (h : (s.ata.answers 0).init = .ready) : fsLoadFromDisk s =
      fsMountSlots (fsReadHeaders (s.ata.skip 1)).1
        (fsCheckOrder (fsReadHeaders (s.ata.skip 1)).1 (fsReadHeaders (s.ata.skip 1)).2).1
        (s.unmounted
          (fsCheckOrder (fsReadHeaders (s.ata.skip 1)).1 (fsReadHeaders (s.ata.skip 1)).2).2) := by
  rw [fsLoadFromDisk, init, h]

/-! ### Loading only reads -/

variable (a : Ata)

theorem readsTo_read (lba : ℕ) : a.ReadsTo (a.read lba).2 := ReadsTo.skip a 1

theorem readsTo_fsCompareSectors (firstLba secondLba n sector : ℕ) (a : Ata) :
    a.ReadsTo (fsCompareSectors firstLba secondLba n sector a).2 := by
  induction n generalizing sector a with
  | zero => exact ReadsTo.refl a
  | succ n ih =>
    have hfirst := readsTo_read a (firstLba + sector)
    rw [fsCompareSectors]
    rcases hr : a.read (firstLba + sector) with ⟨_ | firstSector, a₁⟩ <;> rw [hr] at hfirst
    · exact hfirst
    · have hsecond := hfirst.trans (readsTo_read a₁ (secondLba + sector))
      simp only
      rcases hr' : a₁.read (secondLba + sector) with ⟨_ | secondSector, a₂⟩ <;> rw [hr'] at hsecond
      · exact hsecond
      · simp only
        split_ifs with heq
        · exact hsecond.trans (ih _ a₂)
        · exact hsecond

theorem snd_fsReadHeaders : (fsReadHeaders a).2 = a.skip 2 := skip_skip a 1 1

theorem readsTo_fsCompareOrder (scan : FsHeaderScan) (a : Ata) :
    a.ReadsTo (fsCompareOrder scan a).2 := by
  have h := readsTo_fsCompareSectors (fsSlotHeaderLba 0 + 1) (fsSlotHeaderLba 1 + 1)
    fsDiskTableSectors 0 a
  unfold fsCompareOrder fsCompareSlotTables
  split_ifs
  · rcases hc : fsCompareSectors (fsSlotHeaderLba 0 + 1) (fsSlotHeaderLba 1 + 1)
      fsDiskTableSectors 0 a with ⟨_ | _ | _, a'⟩ <;> rw [hc] at h <;> exact h
  · exact ReadsTo.refl a

theorem snd_fsCheckOrder (scan : FsHeaderScan) (a : Ata) :
    (fsCheckOrder scan a).2 = (fsCompareOrder scan a).2 := by
  unfold fsCheckOrder
  split_ifs <;> rfl

theorem snd_fsInspectBlank : (fsInspectBlank a).2 = a.skip 2 := skip_skip a 1 1

/-! ### What a load can do -/

/-- The loads that mounted a view. -/
def FsDiskLoadResult.mounted : FsDiskLoadResult → Bool
  | .loaded | .loadedIoError | .loadedCorrupt => true
  | _ => false

theorem mounted_fsLoadedResult (io corrupt : Bool) :
    (fsLoadedResult io corrupt).mounted = true := by
  unfold fsLoadedResult
  split_ifs <;> rfl

theorem mounted_fsBlankResult (first second : Option (ℕ → Sector)) :
    (fsBlankResult first second).mounted = false := by
  unfold fsBlankResult
  split
  · split_ifs <;> rfl
  · rfl

theorem mounted_fsInspectBlank : (fsInspectBlank a).1.mounted = false :=
  mounted_fsBlankResult _ _

theorem fsBlankResult_eq_blank {first second : Option (ℕ → Sector)}
    (h : fsBlankResult first second = .blank) :
    ∃ f g, first = some f ∧ second = some g ∧ (ofSectors f).Blank ∧ (ofSectors g).Blank := by
  unfold fsBlankResult at h
  split at h
  · next f g =>
    split_ifs at h with hblank
    rw [Bool.and_eq_true, fsBytesAreBlank_iff, fsBytesAreBlank_iff] at hblank
    exact ⟨f, g, rfl, rfl, hblank⟩
  · cases h

variable {io corrupt : Bool}

theorem fsLoadedResult_eq_loaded :
    fsLoadedResult io corrupt = .loaded ↔ io = false ∧ corrupt = false := by
  cases io <;> cases corrupt <;> simp [fsLoadedResult]

/-- Everything a load can do: mount the view of one slot, or leave the mounted view as it is. -/
inductive FsLoadOutcome (s : FsState) : FsDiskLoadResult → FsState → Prop
  | mounted {result : FsDiskLoadResult} {slot : ℕ} {header : FsDiskHeader} {image : TableBytes}
      {files : FileTable} {legacyUpgradeStatus : FsLegacyUpgradeStatus} {ata : Ata}
      (hresult : result.mounted = true) (hslot : slot < fsSlotCount)
      (hdecode : fsDecodeSlot header image s.files = some files)
      (hupgrade : legacyUpgradeStatus = .unavailable ∨
        (legacyUpgradeStatus = .available ∧ result ≠ .loaded))
      (hata : s.ata.ReadsTo ata) :
      FsLoadOutcome s result { s with
        files, activeSlot := slot, activeGeneration := fsHeaderGeneration header,
        loadedVersion := header.version, legacyUpgradeStatus, ata }
  | unmounted {result : FsDiskLoadResult} {activeSlot : ℕ} {activeGeneration loadedVersion : UInt32}
      {ata : Ata} (hresult : result.mounted = false) (hata : s.ata.ReadsTo ata) :
      FsLoadOutcome s result { s with
        activeSlot, activeGeneration, loadedVersion, legacyUpgradeStatus := .unavailable, ata }

/-- The state before a load matters only up to the fields that a load sets. -/
theorem FsLoadOutcome.of_reset {activeSlot : ℕ} {activeGeneration loadedVersion : UInt32}
    {legacyUpgradeStatus : FsLegacyUpgradeStatus} {ata : Ata} {result : FsDiskLoadResult}
    {s' : FsState}
    (hata : s.ata.ReadsTo ata)
    (h : FsLoadOutcome { s with
      activeSlot, activeGeneration, loadedVersion, legacyUpgradeStatus, ata } result s') :
    FsLoadOutcome s result s' := by
  cases h with
  | mounted hresult hslot hdecode hupgrade hata' =>
    exact .mounted hresult hslot hdecode hupgrade (hata.trans hata')
  | unmounted hresult hata' => exact .unmounted hresult (hata.trans hata')

/-- One attempt to mount a slot. -/
theorem fsLoadSlot_cases (slot : ℕ) (header : FsDiskHeader) (s : FsState) :
    let decoded := fsDecodeSlot header
      (ofSectors fun i => s.ata.observed (fsSlotHeaderLba slot + 1 + i)) s.files
    (∃ files, decoded = some files ∧ fsLoadSlot slot header s = (.loaded, { s with
        files, activeSlot := slot, activeGeneration := fsHeaderGeneration header,
        loadedVersion := header.version, ata := s.ata.skip 1 })) ∨
    (∃ result, result ≠ .loaded ∧ ((s.ata.answers 0).readOk = true → decoded = none) ∧
      fsLoadSlot slot header s = (result, { s with ata := s.ata.skip 1 })) := by
  unfold fsLoadSlot
  rw [Ata.read]
  cases (s.ata.answers 0).readOk with
  | false => exact .inr ⟨.ioError, by decide, fun h => absurd h Bool.false_ne_true, rfl⟩
  | true =>
    simp only [if_true]
    cases hdec : fsDecodeSlot header
        (ofSectors fun i => s.ata.observed (fsSlotHeaderLba slot + 1 + i)) s.files with
    | none => exact .inr ⟨.corrupt, by decide, fun _ => rfl, rfl⟩
    | some files => exact .inl ⟨files, rfl, rfl⟩

/-- The attempts to mount the slots mount one, or leave the state alone. -/
theorem fsTrySlots_cases (scan : FsHeaderScan) (order : FsSlotOrder) (l : List ℕ)
    (hl : ∀ slot ∈ l, slot < fsSlotCount) (io corrupt : Bool) (s : FsState)
    (hs : s.legacyUpgradeStatus = .unavailable) :
    (∃ result s', fsTrySlots scan order l io corrupt s = (.inl result, s') ∧
      FsLoadOutcome s result s' ∧ result.mounted = true) ∨
    (∃ flags n, fsTrySlots scan order l io corrupt s =
      (.inr flags, { s with ata := s.ata.skip n })) := by
  induction l generalizing io corrupt s with
  | nil => exact .inr ⟨(io, corrupt), 0, by simp [fsTrySlots, skip]⟩
  | cons slot l ih =>
    rw [forall_mem_cons] at hl
    have hskip : ∀ io corrupt, (∃ result s',
        fsTrySlots scan order l io corrupt { s with ata := s.ata.skip 1 } = (.inl result, s') ∧
          FsLoadOutcome s result s' ∧ result.mounted = true) ∨
        (∃ flags n, fsTrySlots scan order l io corrupt { s with ata := s.ata.skip 1 } =
          (.inr flags, { s with ata := s.ata.skip n })) := by
      intro io corrupt
      rcases ih hl.2 io corrupt { s with ata := s.ata.skip 1 } hs with
        ⟨result, s', heq, hout, hm⟩ | ⟨flags, n, heq⟩
      · exact .inl ⟨result, s', heq, hout.of_reset (ReadsTo.skip s.ata 1), hm⟩
      · exact .inr ⟨flags, 1 + n, by rw [heq, skip_skip]⟩
    rw [fsTrySlots]
    by_cases hvalid : scan.valid slot = true
    · rw [if_pos hvalid]
      rcases fsLoadSlot_cases slot (scan.header slot) s with
        ⟨files, hdec, heq⟩ | ⟨result, hne, -, heq⟩
      · rw [heq]
        refine .inl ⟨_, _, rfl, ?_, mounted_fsLoadedResult _ _⟩
        cases hleg : order.legacyOrderIsAmbiguous with
        | true =>
          refine .mounted (mounted_fsLoadedResult _ _) hl.1 hdec (.inr ⟨rfl, ?_⟩)
            (ReadsTo.skip s.ata 1)
          simp [ne_eq, fsLoadedResult_eq_loaded, FsSlotOrder.isAmbiguous, hleg]
        | false =>
          exact .mounted (mounted_fsLoadedResult _ _) hl.1 hdec (.inl hs) (ReadsTo.skip s.ata 1)
      · rw [heq]
        cases result with
        | loaded => exact absurd rfl hne
        | corrupt => exact hskip io true
        | ioError => exact hskip true corrupt
    · rw [if_neg hvalid]
      exact ih hl.2 io corrupt s hs

variable {scan : FsHeaderScan} {slot : ℕ}

theorem FsHeaderScan.lt_of_mem_slots (h : slot ∈ scan.slots) : slot < fsSlotCount := by
  have hfirst : scan.firstSlot < 2 := by
    unfold firstSlot
    split_ifs <;> decide
  have hslot : slot = scan.firstSlot ∨ slot = 1 - scan.firstSlot := by simpa [slots] using h
  show slot < 2
  omega

theorem fsMountSlots_cases (scan : FsHeaderScan) (order : FsSlotOrder) (s : FsState)
    (hs : s.legacyUpgradeStatus = .unavailable) :
    FsLoadOutcome s (fsMountSlots scan order s).1 (fsMountSlots scan order s).2 := by
  unfold fsMountSlots
  rcases fsTrySlots_cases scan order scan.slots (fun _ h => FsHeaderScan.lt_of_mem_slots h)
      order.sawIoError false s hs with ⟨result, s', heq, hout, -⟩ | ⟨⟨io, corrupt⟩, n, heq⟩
  · rw [heq]
    exact hout
  · rw [heq]
    have hn := ReadsTo.skip s.ata n
    have hout : ∀ result ata, result.mounted = false → s.ata.ReadsTo ata →
        FsLoadOutcome s result { s with ata } := by
      intro result ata hm hata
      rw [show ({ s with ata } : FsState) =
        { s with legacyUpgradeStatus := .unavailable, ata } by rw [← hs]]
      exact .unmounted hm hata
    simp only
    split_ifs
    · exact hout _ _ rfl hn
    · exact hout _ _ rfl hn
    · refine hout _ _ (mounted_fsInspectBlank _) (hn.trans ?_)
      rw [snd_fsInspectBlank]
      exact ReadsTo.skip _ 2

/-- **Everything `fs_load_from_disk` can do.** -/
theorem fsLoadFromDisk_cases (s : FsState) :
    FsLoadOutcome s (fsLoadFromDisk s).1 (fsLoadFromDisk s).2 := by
  have hinit := ReadsTo.skip s.ata 1
  cases h : (s.ata.answers 0).init with
  | noDevice | error =>
    rw [fsLoadFromDisk, init, h]
    exact .unmounted rfl hinit
  | ready =>
    rw [fsLoadFromDisk_of_ready h]
    refine (fsMountSlots_cases _ _ _ rfl).of_reset ?_
    rw [snd_fsCheckOrder, snd_fsReadHeaders]
    exact (hinit.trans (ReadsTo.skip _ 2)).trans (readsTo_fsCompareOrder _ _)

/-! ### The mounted view -/

variable {header : FsDiskHeader}

section

variable {image : TableBytes} {files files' : FileTable}
  (h : fsDecodeSlot header image files = some files')
include h

theorem wellFormed_of_fsDecodeSlot : files'.WellFormed := by
  unfold fsDecodeSlot at h
  split_ifs at h
  · exact wellFormed_of_fsDeserializeCurrent _ h
  · exact wellFormed_of_fsDeserializeLegacy h

/-- Whether a slot is mounted, and the files that are mounted, depend on the slot only. -/
theorem fsDecodeSlot_congr (old : FileTable) :
    ∃ files'', fsDecodeSlot header image old = some files'' ∧ files''.entries = files'.entries := by
  unfold fsDecodeSlot at h ⊢
  split_ifs at h ⊢
  · obtain ⟨hval, -⟩ := (fsDeserializeCurrent_eq_some_iff _).1 h
    obtain ⟨files'', hold⟩ : ∃ files'',
        fsDeserializeCurrent (FsDiskTable.ofBytes image) old = some files'' :=
      ⟨_, (fsDeserializeCurrent_eq_some_iff _).2 ⟨hval, rfl⟩⟩
    refine ⟨files'', hold, ?_⟩
    rw [entries_of_fsDeserializeCurrent _ h, entries_of_fsDeserializeCurrent _ hold]
  · have hval := ((fsDeserializeLegacy_eq_some_iff _).1 h).1
    obtain ⟨files'', hold⟩ : ∃ files'',
        fsDeserializeLegacy (FsDiskTable.ofBytes image) old = some files'' := by
      rw [fsDeserializeLegacy, if_pos hval]
      exact ⟨_, rfl⟩
    refine ⟨files'', hold, ?_⟩
    rw [entries_of_fsDeserializeLegacy h, entries_of_fsDeserializeLegacy hold]

end

/-- A load keeps the representation invariant: it replaces the mounted view by a sound one, or
leaves it alone. -/
theorem FsLoadOutcome.wellFormed {s s' : FsState} {result : FsDiskLoadResult}
    (h : FsLoadOutcome s result s') (hs : s.files.WellFormed) : s'.files.WellFormed := by
  cases h with
  | mounted _ _ hdecode => exact wellFormed_of_fsDecodeSlot hdecode
  | unmounted => exact hs

/-! ### Blank storage -/

variable {order : FsSlotOrder}

/-- Without a mounted slot and without a flag, no header was valid and nothing was read. -/
theorem fsTrySlots_eq_inr_false {l : List ℕ} {s s' : FsState}
    (h : fsTrySlots scan order l io corrupt s = (.inr (false, false), s')) :
    io = false ∧ corrupt = false ∧ (∀ slot ∈ l, scan.valid slot = false) ∧ s' = s := by
  induction l generalizing io corrupt s with
  | nil =>
    simp only [fsTrySlots, Prod.mk.injEq, Sum.inr.injEq] at h
    exact ⟨h.1.1, h.1.2, by simp, h.2.symm⟩
  | cons slot l ih =>
    rw [fsTrySlots] at h
    by_cases hvalid : scan.valid slot = true
    · rw [if_pos hvalid] at h
      rcases hload : fsLoadSlot slot (scan.header slot) s with ⟨_ | _ | _, s₁⟩ <;> rw [hload] at h
      · simp at h
      · exact absurd (ih h).2.1 (by decide)
      · exact absurd (ih h).1 (by decide)
    · rw [if_neg hvalid] at h
      obtain ⟨hio, hcorrupt, hl, hs⟩ := ih h
      exact ⟨hio, hcorrupt, forall_mem_cons.2 ⟨by simpa using hvalid, hl⟩, hs⟩

theorem FsHeaderScan.forall_mem_slots {P : ℕ → Prop}
    (h : ∀ slot ∈ scan.slots, P slot) : P 0 ∧ P 1 := by
  have hfirst : scan.firstSlot < fsSlotCount :=
    lt_of_mem_slots (show scan.firstSlot ∈ scan.slots by simp [slots])
  have hmem : ∀ slot, slot = 0 ∨ slot = 1 → slot ∈ scan.slots := by
    intro slot hslot
    have hfirst' : scan.firstSlot < 2 := hfirst
    have : slot = scan.firstSlot ∨ slot = 1 - scan.firstSlot := by omega
    simpa [slots] using this
  exact ⟨h 0 (hmem 0 (.inl rfl)), h 1 (hmem 1 (.inr rfl))⟩

/-- The header of a slot is what the read of its sector returned. -/
theorem read_fsReadHeaders (h : slot < fsSlotCount) : (fsReadHeaders a).1.read slot =
      ((a.skip slot).read (fsSlotHeaderLba slot)).1.map fun f => FsDiskHeader.ofBytes (f 0) := by
  rcases eq_zero_or_one_of_lt h with rfl | rfl
  · rw [skip_zero]
    rfl
  · rfl

theorem FsHeaderScan.exists_read_of_not_sawIoError (h : scan.sawIoError = false)
    (slot : ℕ) : ∃ header, scan.read slot = some header := by
  simp only [sawIoError, Bool.or_eq_false_iff, Option.isNone_eq_false_iff,
    Option.isSome_iff_exists] at h
  unfold read
  split_ifs
  · exact h.1
  · exact h.2

/-- A header that was read, is not valid and raised no flag is blank. -/
theorem FsHeaderScan.isBlank_of_not_valid (hslot : slot < fsSlotCount)
    (hread : scan.read slot = some header) (hvalid : scan.valid slot = false)
    (hflag : scan.sawNonblankInvalidHeader = false) : header.toBytes.Blank := by
  have hmem : slot ∈ [0, 1] := by simpa using eq_zero_or_one_of_lt hslot
  rw [sawNonblankInvalidHeader, any_eq_false] at hflag
  have hslotFlag := hflag slot hmem
  rw [valid, hread, Option.any_some] at hvalid
  rw [hread, Option.any_some, hvalid] at hslotFlag
  rw [← fsBytesAreBlank_iff]
  simpa [fsHeaderIsBlank] using hslotFlag

/-- When the headers order the slots, nothing more is read. -/
theorem fsCompareOrder_of_ordered (hlegacy : scan.bothLegacy = false)
    (hprotected : scan.bothIntegrityProtected = true → scan.generation 0 ≠ scan.generation 1) :
    fsCompareOrder scan a = (⟨scan.sawIoError, false, false⟩, a) := by
  unfold fsCompareOrder
  rw [if_neg]
  simp only [hlegacy, Bool.false_or, Bool.and_eq_true, decide_eq_true_iff, not_and]
  exact hprotected

theorem fsCheckOrder_of_ordered (hlegacy : scan.bothLegacy = false)
    (hprotected : scan.bothIntegrityProtected = true → scan.generation 0 ≠ scan.generation 1 ∧
      scan.generation 0 - scan.generation 1 ≠ 0x80000000) :
    fsCheckOrder scan a = (⟨scan.sawIoError, false, false⟩, a) := by
  unfold fsCheckOrder
  rw [fsCompareOrder_of_ordered a hlegacy fun h => (hprotected h).1]
  simp only
  rw [if_neg]
  simp only [Bool.and_eq_true, decide_eq_true_iff, not_and]
  exact fun h => (hprotected h).2

theorem blank_of_blank_ofSectors {f : ℕ → Sector} (h : (ofSectors f).Blank) {i : ℕ}
    (hi : i < fsDiskTableSectors) : (f i).Blank := by
  intro j hj
  have hi' : i < 67 := hi
  rw [← tableSector_ofSectors f hi, tableSector, Buffer.byte_ofFn_of_lt _ hj]
  exact h _ (by omega)

/-- The blank result of the inspection: both tables were read and are zero. -/
theorem fsInspectBlank_eq_blank {a : Ata} (h : (fsInspectBlank a).1 = .blank) :
    ∀ slot < fsSlotCount, (a.answers slot).readOk = true ∧
      ∀ i < fsDiskTableSectors, ((a.skip slot).observed (fsSlotHeaderLba slot + 1 + i)).Blank := by
  obtain ⟨f, g, hf, hg, hblankf, hblankg⟩ := fsBlankResult_eq_blank h
  obtain ⟨h0, rfl⟩ := (read_eq_some_iff _ _).1 hf
  obtain ⟨h1, rfl⟩ := (read_eq_some_iff _ _).1 hg
  intro slot hslot
  rcases eq_zero_or_one_of_lt hslot with rfl | rfl
  · rw [skip_zero]
    exact ⟨h0, fun i hi => blank_of_blank_ofSectors hblankf hi⟩
  · exact ⟨h1, fun i hi => blank_of_blank_ofSectors hblankg hi⟩

/-- The blank result of the second half of a load. -/
theorem fsMountSlots_eq_blank
    (hs : s.legacyUpgradeStatus = .unavailable) (h : (fsMountSlots scan order s).1 = .blank) :
    order.sawIoError = false ∧ (∀ slot ∈ scan.slots, scan.valid slot = false) ∧
      scan.sawNonblankInvalidHeader = false ∧ (fsInspectBlank s.ata).1 = .blank := by
  have hcases := fsTrySlots_cases scan order scan.slots
    (fun _ h => FsHeaderScan.lt_of_mem_slots h) order.sawIoError false s hs
  unfold fsMountSlots at h
  rcases htry : fsTrySlots scan order scan.slots order.sawIoError false s with
    ⟨result | ⟨io, corrupt⟩, s₁⟩ <;> rw [htry] at h hcases <;> simp only at h
  · rcases hcases with ⟨_, _, heq, -, hm⟩ | ⟨_, _, heq⟩ <;> cases heq
    rw [h] at hm
    cases hm
  · split_ifs at h with hio hbad
    simp only [Bool.or_eq_true, not_or, Bool.not_eq_true] at hio hbad
    rw [hio, hbad.1] at htry
    obtain ⟨hio', -, hvalid, rfl⟩ := fsTrySlots_eq_inr_false htry
    exact ⟨hio', hvalid, hbad.2, h⟩

/-- **Blank storage.** The load reports blank storage only after it has read both headers and both
tables, and all bytes it read are zero. -/
theorem fsLoadFromDisk_eq_blank (h : (fsLoadFromDisk s).1 = .blank) : ∀ slot < fsSlotCount,
      ((s.ata.answers (1 + slot)).readOk = true ∧
        ((s.ata.skip (1 + slot)).observed (fsSlotHeaderLba slot)).Blank) ∧
      ((s.ata.answers (3 + slot)).readOk = true ∧ ∀ i < fsDiskTableSectors,
        ((s.ata.skip (3 + slot)).observed (fsSlotHeaderLba slot + 1 + i)).Blank) := by
  have hready := init_of_fsLoadFromDisk (by rw [h]; decide) (by rw [h]; decide)
  rw [fsLoadFromDisk_of_ready hready] at h
  obtain ⟨hio, hvalid, hflag, htables⟩ := fsMountSlots_eq_blank rfl h
  obtain ⟨hv0, hv1⟩ := FsHeaderScan.forall_mem_slots hvalid
  -- no header is valid, so the order of the slots is settled without reading the tables
  rw [fsCheckOrder_of_ordered _ (by simp [FsHeaderScan.bothLegacy, hv0])
    (by simp [FsHeaderScan.bothIntegrityProtected, FsHeaderScan.integrityProtected, hv0])]
    at hio htables
  have hblank := fsInspectBlank_eq_blank htables
  simp only [FsState.unmounted, snd_fsReadHeaders, skip_skip] at hblank
  intro slot hslot
  refine ⟨?_, hblank slot hslot⟩
  obtain ⟨header, hread⟩ := FsHeaderScan.exists_read_of_not_sawIoError hio slot
  have hinvalid : (fsReadHeaders (s.ata.skip 1)).1.valid slot = false := by
    rcases eq_zero_or_one_of_lt hslot with rfl | rfl
    · exact hv0
    · exact hv1
  have hheader := FsHeaderScan.isBlank_of_not_valid hslot hread hinvalid hflag
  rw [read_fsReadHeaders _ hslot, skip_skip] at hread
  obtain ⟨f, hf, rfl⟩ := Option.map_eq_some_iff.1 hread
  obtain ⟨hok, rfl⟩ := (read_eq_some_iff _ _).1 hf
  rw [FsDiskHeader.toBytes_ofBytes] at hheader
  exact ⟨hok, hheader⟩

/-! ### The slot that is mounted -/

theorem FsHeaderScan.valid_firstSlot (hslot : slot < fsSlotCount)
    (h : scan.valid slot = true) : scan.valid scan.firstSlot = true := by
  unfold firstSlot
  cases h0 : scan.valid 0 with
  | false =>
    have h1 : scan.valid 1 = true := by
      rcases eq_zero_or_one_of_lt hslot with rfl | rfl
      · rw [h0] at h
        cases h
      · exact h
    simp [h1]
  | true =>
    split_ifs with hif
    · simp only [Bool.and_eq_true] at hif
      exact hif.1
    · exact h0

/-- A mount without any reservation takes the first valid slot, raises no flag, and leaves the
upgrade status alone. -/
theorem fsTrySlots_eq_loaded {l : List ℕ} {s s' : FsState}
    (h : fsTrySlots scan order l io corrupt s = (.inl .loaded, s')) :
    io = false ∧ corrupt = false ∧ scan.sawNonblankInvalidHeader = false ∧
      order.isAmbiguous = false ∧ ∃ l₁ slot l₂, l = l₁ ++ slot :: l₂ ∧
        (∀ x ∈ l₁, scan.valid x = false) ∧ scan.valid slot = true ∧
        fsLoadSlot slot (scan.header slot) s = (.loaded, s') := by
  induction l generalizing io corrupt s with
  | nil => simp [fsTrySlots] at h
  | cons slot l ih =>
    rw [fsTrySlots] at h
    by_cases hvalid : scan.valid slot = true
    · rw [if_pos hvalid] at h
      rcases hload : fsLoadSlot slot (scan.header slot) s with ⟨_ | _ | _, s₁⟩ <;> rw [hload] at h
      · simp only [Prod.mk.injEq, Sum.inl.injEq, fsLoadedResult_eq_loaded,
          Bool.or_eq_false_iff] at h
        obtain ⟨⟨hio, ⟨hcorrupt, hflag⟩, hambiguous⟩, hs⟩ := h
        have hlegacy : order.legacyOrderIsAmbiguous = false := (Bool.or_eq_false_iff.1 hambiguous).1
        rw [hlegacy, if_neg Bool.false_ne_true] at hs
        exact ⟨hio, hcorrupt, hflag, hambiguous, [], slot, l, rfl, by simp,
          hvalid, by rw [hload, hs]⟩
      · exact absurd (ih h).2.1 (by decide)
      · exact absurd (ih h).1 (by decide)
    · rw [if_neg hvalid] at h
      obtain ⟨hio, hcorrupt, hflag, hambiguous, l₁, slot', l₂, rfl, hl₁, hv, hload⟩ := ih h
      exact ⟨hio, hcorrupt, hflag, hambiguous, slot :: l₁, slot', l₂, rfl,
        forall_mem_cons.2 ⟨by simpa using hvalid, hl₁⟩, hv, hload⟩

/-- A mount without any reservation takes the slot that is tried first. -/
theorem fsMountSlots_eq_loaded {s s' : FsState} (h : fsMountSlots scan order s = (.loaded, s')) :
    order.sawIoError = false ∧ scan.sawNonblankInvalidHeader = false ∧ order.isAmbiguous = false ∧
      scan.valid scan.firstSlot = true ∧
      fsLoadSlot scan.firstSlot (scan.header scan.firstSlot) s = (.loaded, s') := by
  unfold fsMountSlots at h
  rcases htry : fsTrySlots scan order scan.slots order.sawIoError false s with
    ⟨result | ⟨io, corrupt⟩, s₁⟩ <;> rw [htry] at h <;> simp only at h
  · cases h
    obtain ⟨hio, -, hflag, hambiguous, l₁, slot, l₂, hslots, hl₁, hvalid, hload⟩ :=
      fsTrySlots_eq_loaded htry
    have hslot : slot < fsSlotCount :=
      FsHeaderScan.lt_of_mem_slots (show slot ∈ scan.slots by rw [hslots]; simp)
    have hvalid' := FsHeaderScan.valid_firstSlot hslot hvalid
    -- a slot before the mounted one is invalid, so the mounted one is the first
    have hfirst : scan.firstSlot = slot := by
      rcases l₁ with _ | ⟨x, l₁⟩
      · exact (cons.inj hslots).1
      · have hx := hl₁ x (by simp)
        rw [← (cons.inj hslots).1, hvalid'] at hx
        cases hx
    rw [hfirst]
    exact ⟨hio, hflag, hambiguous, hvalid, hload⟩
  · split_ifs at h
    · cases h
    · cases h
    · have hmounted := mounted_fsInspectBlank s₁.ata
      rw [(Prod.mk.inj h).1] at hmounted
      cases hmounted

end Nostalux.Fs

import Nostalux.Fs.RoundTrip
import Nostalux.Library.WriteLog

/-!
# The ATA device and the state of the filesystem

The filesystem reaches its disk through `ata_init`, `ata_read` and `ata_write` only.  The device is
modelled by the stored sectors together with the stream of answers it will give: each call takes the
next answer.  An answer fixes the result of the call, and for a write it also fixes which of the
handed-over sectors reach the medium, so that every outcome of every call is covered.

* A `Faithful` device returns the stored bytes when a read succeeds;
* a `Working` device is faithful, is found by `ata_init` and fails no read;
* an `Honest` device is faithful, stores all sectors of a complete write and none of a failed one.

`FsState` collects the static variables of `kernel/fs.c`.  Its `history` is not part of the program:
it records every sector handed to the device, with the backend status and selected slot at that
moment, and the result of every commit.
-/

namespace Nostalux.Fs

open Buffer

/-! ### The device -/

/-- `ata_init_result_t`. -/
inductive AtaInitResult
  | error
  | ready
  | noDevice
  deriving DecidableEq

/-- `ata_write_result_t`. -/
inductive AtaWriteResult
  | failed
  | complete
  | uncertain
  deriving DecidableEq

/-- What the device does when it is called next. -/
structure AtaAnswer where
  /-- The result if the call is `ata_init`. -/
  init : AtaInitResult
  /-- Whether the call succeeds if it is `ata_read`. -/
  readOk : Bool
  /-- Bytes that a successful read returns in place of the stored ones. -/
  misread : ℕ → Option Sector
  /-- The result if the call is `ata_write`. -/
  write : AtaWriteResult
  /-- The sectors of the request that reach the medium if the call is `ata_write`. -/
  stored : ℕ → Bool

/-- The device: its sectors and the answers it will give. -/
structure Ata where
  disk : ℕ → Sector
  answers : ℕ → AtaAnswer

namespace Ata

/-- The device after `n` more calls that write nothing. -/
def skip (a : Ata) (n : ℕ) : Ata := { a with answers := fun k => a.answers (n + k) }

/-- `ata_init`. -/
def init (a : Ata) : AtaInitResult × Ata := ((a.answers 0).init, a.skip 1)

/-- What a successful read returns for a sector. -/
def observed (a : Ata) (lba : ℕ) : Sector := ((a.answers 0).misread lba).getD (a.disk lba)

/-- `ata_read`: the sectors from `lba` on, or `none` when the call fails. -/
def read (a : Ata) (lba : ℕ) : Option (ℕ → Sector) × Ata :=
  (if (a.answers 0).readOk then some fun i => a.observed (lba + i) else none, a.skip 1)

/-- The sectors of a write request that reach the medium. -/
def storedWrites (a : Ata) (lba : ℕ) (data : List Sector) : List (ℕ × Sector) :=
  (WriteLog.block lba data).filter fun w => (a.answers 0).stored (w.1 - lba)

/-- `ata_write`. -/
def write (a : Ata) (lba : ℕ) (data : List Sector) : AtaWriteResult × Ata :=
  ((a.answers 0).write, { a.skip 1 with disk := WriteLog.apply a.disk (a.storedWrites lba data) })

/-- A successful read returns the stored bytes. -/
def Faithful (a : Ata) : Prop := ∀ n lba, (a.answers n).misread lba = none

/-- The device is found, fails no read and returns the stored bytes. -/
structure Working (a : Ata) : Prop where
  faithful : a.Faithful
  init : ∀ n, (a.answers n).init = .ready
  readOk : ∀ n, (a.answers n).readOk = true

/-- The results of writes say what was stored: everything when complete, nothing when failed, and
any subset of the sectors when uncertain. -/
structure Honest (a : Ata) : Prop where
  faithful : a.Faithful
  complete : ∀ n, (a.answers n).write = .complete → ∀ i, (a.answers n).stored i = true
  failed : ∀ n, (a.answers n).write = .failed → ∀ i, (a.answers n).stored i = false

/-- One device results from another by calls that write nothing. -/
def ReadsTo (a b : Ata) : Prop := ∃ n, b = a.skip n

/-- A device without faults. -/
def perfect (disk : ℕ → Sector) : Ata :=
  ⟨disk, fun _ => ⟨.ready, true, fun _ => none, .complete, fun _ => true⟩⟩

theorem working_perfect (disk : ℕ → Sector) : (perfect disk).Working :=
  ⟨fun _ _ => rfl, fun _ => rfl, fun _ => rfl⟩

theorem honest_perfect (disk : ℕ → Sector) : (perfect disk).Honest :=
  ⟨fun _ _ => rfl, fun _ _ _ => rfl, fun _ h => by cases h⟩

variable (a : Ata)

@[simp] theorem disk_skip (n : ℕ) : (a.skip n).disk = a.disk := rfl

@[simp] theorem skip_zero : a.skip 0 = a := by
  simp [skip]

/-- Calls that write nothing add up. -/
theorem skip_skip (m n : ℕ) : (a.skip m).skip n = a.skip (m + n) := by
  simp [skip, Nat.add_assoc]

/-- A read that does not fail returns what is observed. -/
theorem read_eq_some_iff (lba : ℕ) {f : ℕ → Sector} : (a.read lba).1 = some f ↔
      (a.answers 0).readOk = true ∧ (fun i => a.observed (lba + i)) = f := by
  rw [read]
  split_ifs with h <;> simp [h]

theorem ReadsTo.refl : a.ReadsTo a := ⟨0, (skip_zero a).symm⟩

theorem ReadsTo.skip (n : ℕ) : a.ReadsTo (a.skip n) := ⟨n, rfl⟩

theorem ReadsTo.trans {a b c : Ata} (hab : a.ReadsTo b) (hbc : b.ReadsTo c) : a.ReadsTo c := by
  obtain ⟨m, rfl⟩ := hab
  obtain ⟨n, rfl⟩ := hbc
  exact ⟨m + n, skip_skip a m n⟩

/-- Calls that write nothing leave the medium alone. -/
theorem ReadsTo.disk {a b : Ata} (h : a.ReadsTo b) : b.disk = a.disk := by
  obtain ⟨n, rfl⟩ := h
  rfl

section Answers

variable {a b : Ata} {m : ℕ} (h : ∀ n, b.answers n = a.answers (m + n))
include h

theorem Faithful.of_answers (ha : a.Faithful) : b.Faithful := fun n lba => by
  rw [h]
  exact ha _ lba

theorem Working.of_answers (ha : a.Working) : b.Working :=
  ⟨ha.faithful.of_answers h, fun n => by rw [h]; exact ha.init _,
    fun n => by rw [h]; exact ha.readOk _⟩

/-- A device whose answers are later answers of an honest one is honest. -/
theorem Honest.of_answers (ha : a.Honest) : b.Honest :=
  ⟨ha.faithful.of_answers h, fun n => by rw [h]; exact ha.complete _,
    fun n => by rw [h]; exact ha.failed _⟩

end Answers

section

variable {a b : Ata} (h : a.ReadsTo b)
include h

theorem ReadsTo.answers : ∃ m, ∀ n, b.answers n = a.answers (m + n) := by
  obtain ⟨m, rfl⟩ := h
  exact ⟨m, fun _ => rfl⟩

theorem ReadsTo.faithful (ha : a.Faithful) : b.Faithful := by
  obtain ⟨m, hm⟩ := h.answers
  exact ha.of_answers hm

theorem ReadsTo.working (ha : a.Working) : b.Working := by
  obtain ⟨m, hm⟩ := h.answers
  exact ha.of_answers hm

theorem ReadsTo.honest (ha : a.Honest) : b.Honest := by
  obtain ⟨m, hm⟩ := h.answers
  exact ha.of_answers hm

end

/-- What is observed is what is stored. -/
theorem Faithful.observed {a : Ata} (h : a.Faithful) (lba : ℕ) : a.observed lba = a.disk lba := by
  simp [Ata.observed, h 0 lba]

end Ata

/-! ### Tables as sectors -/

/-- The `i`-th sector of the image of a record table. -/
def tableSector (b : TableBytes) (i : ℕ) : Sector := Buffer.ofFn fun j => b.byte (512 * i + j)

/-- The sectors of the image of a record table. -/
def tableSectors (b : TableBytes) : List Sector :=
  (List.range fsDiskTableSectors).map (tableSector b)

/-- The image with the given sectors. -/
def ofSectors (f : ℕ → Sector) : TableBytes := Buffer.ofFn fun k => (f (k / 512)).byte (k % 512)

variable (b : TableBytes)

theorem getElem?_tableSectors {i : ℕ} (h : i < fsDiskTableSectors) :
    (tableSectors b)[i]? = some (tableSector b i) := by
  simp [tableSectors, h]

theorem ofSectors_congr {f g : ℕ → Sector} (h : ∀ i < fsDiskTableSectors, f i = g i) :
    ofSectors f = ofSectors g := by
  refine ofFn_congr fun k hk => ?_
  rw [h (k / 512) (show k / 512 < 67 by omega)]

/-- An image is read back from its sectors. -/
theorem ofSectors_tableSector : ofSectors (tableSector b) = b := by
  refine ext fun k hk => ?_
  rw [ofSectors, byte_ofFn_of_lt _ hk, tableSector,
    byte_ofFn_of_lt _ (Nat.mod_lt k (by decide)), Nat.div_add_mod]

/-- The sectors of an image are those it was read from. -/
theorem tableSector_ofSectors (f : ℕ → Sector) {i : ℕ} (h : i < fsDiskTableSectors) :
    tableSector (ofSectors f) i = f i := by
  have h' : i < 67 := h
  refine ext fun j hj => ?_
  rw [tableSector, byte_ofFn_of_lt _ hj, ofSectors, byte_ofFn_of_lt _ (by omega)]
  congr 2 <;> omega

/-! ### The two slots -/

/-- `FS_STORAGE_LBA`. -/
abbrev fsStorageLba : ℕ := 2048

/-- `FS_SLOT_COUNT`. -/
abbrev fsSlotCount : ℕ := 2

theorem eq_zero_or_one_of_lt {slot : ℕ} (h : slot < fsSlotCount) : slot = 0 ∨ slot = 1 := by
  have : slot < 2 := h
  omega

/-- `fs_slot_header_lba`. -/
def fsSlotHeaderLba (slot : ℕ) : ℕ := fsStorageLba + slot * fsSlotSectors

/-- The header stored in a slot. -/
def headerAt (d : ℕ → Sector) (slot : ℕ) : FsDiskHeader :=
  FsDiskHeader.ofBytes (d (fsSlotHeaderLba slot))

/-- The image of the record table stored in a slot. -/
def tableAt (d : ℕ → Sector) (slot : ℕ) : TableBytes :=
  ofSectors fun i => d (fsSlotHeaderLba slot + 1 + i)

/-- The sector belongs to the slot. -/
def InSlot (slot lba : ℕ) : Prop :=
  fsSlotHeaderLba slot ≤ lba ∧ lba < fsSlotHeaderLba slot + fsSlotSectors

theorem inSlot_iff {slot lba : ℕ} :
    InSlot slot lba ↔ 2048 + slot * 68 ≤ lba ∧ lba < 2048 + slot * 68 + 68 := Iff.rfl

/-- The slots do not overlap. -/
theorem not_inSlot_of_inSlot {p q lba : ℕ} (hpq : p ≠ q) (h : InSlot p lba) : ¬ InSlot q lba := by
  rw [inSlot_iff] at *
  omega

section

variable {d d' : ℕ → Sector} {slot : ℕ} (h : ∀ lba, InSlot slot lba → d' lba = d lba)
include h

/-- A slot that no difference touches holds the same header. -/
theorem headerAt_congr : headerAt d' slot = headerAt d slot := by
  unfold headerAt
  rw [h _ ⟨le_rfl, Nat.lt_add_of_pos_right (by decide)⟩]

/-- A slot that no difference touches holds the same table. -/
theorem tableAt_congr : tableAt d' slot = tableAt d slot := by
  refine ofSectors_congr fun i hi => h _ ?_
  have hi' : i < 67 := hi
  refine ⟨by omega, ?_⟩
  show _ < fsSlotHeaderLba slot + 68
  omega

end

/-! ### The state -/

/-- `fs_backend_status_t`. -/
inductive FsBackendStatus
  | uninitialized
  | persistent
  | volatileNoDrive
  | volatileCorrupt
  | volatileIoError
  deriving DecidableEq

/-- `fs_legacy_upgrade_status_t`. -/
inductive FsLegacyUpgradeStatus
  | unavailable
  | available
  | outcomeUncertain
  deriving DecidableEq

/-- `enum fs_sync_result`. -/
inductive FsSyncResult
  | committed
  | failed
  | uncertain
  deriving DecidableEq

/-- A sector handed to the device, with the status and the selected slot at that moment. -/
structure FsWrite where
  lba : ℕ
  data : Sector
  backendStatus : FsBackendStatus
  activeSlot : ℕ

/-- What the filesystem did so far. -/
structure FsHistory where
  written : List FsWrite
  syncs : List FsSyncResult

/-- The static variables of `kernel/fs.c`, the device and the history. -/
structure FsState where
  files : FileTable
  activeSlot : ℕ
  activeGeneration : UInt32
  loadedVersion : UInt32
  backendStatus : FsBackendStatus
  legacyUpgradeStatus : FsLegacyUpgradeStatus
  selfTestActive : Bool
  virtualSystemLog : FsFile
  systemLogIsVirtual : Bool
  ata : Ata
  history : FsHistory

/-- The state when the kernel starts. -/
def FsState.boot (ata : Ata) : FsState where
  files := FileTable.zero
  activeSlot := fsSlotCount
  activeGeneration := 0
  loadedVersion := 0
  backendStatus := .uninitialized
  legacyUpgradeStatus := .unavailable
  selfTestActive := false
  virtualSystemLog := FsFile.zero
  systemLogIsVirtual := false
  ata := ata
  history := ⟨[], []⟩

end Nostalux.Fs

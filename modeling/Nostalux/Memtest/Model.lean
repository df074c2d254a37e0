import Nostalux.Library.Buffer
import Nostalux.Library.SortedArray
import Nostalux.Library.Words

/-!
# `kernel/memtest.c`: the memory that the firmware reports

The firmware leaves a table of address ranges in low memory.  `memtest_detect_memory` collects the
ends of the enabled ranges, sorts them, drops repetitions, and goes through the segments between
neighbours.

* `E820Entry`, `BootInfo.entries`: the table;
* `collectEndpoints`, `coverage`, `sweepSegment`, `sweep`: the loops;
* `memtestDetectMemory`: the whole.
-/

namespace Nostalux.Memtest

/-- `HEAP_BASE_ADDR`. -/
abbrev heapBaseAddr : UInt64 := 0x800000

/-- `MAPPED_RAM_LIMIT`. -/
abbrev mappedRamLimit : UInt64 := 0x40000000

/-- `UINT64_MAX`. -/
abbrev uint64Max : UInt64 := 0xFFFFFFFFFFFFFFFF

/-- `E820_TYPE_USABLE`. -/
abbrev e820TypeUsable : UInt32 := 1

/-- `E820_MAX_ENTRIES`. -/
abbrev e820MaxEntries : UInt32 := 64

/-- `struct e820_entry`. -/
structure E820Entry where
  base : UInt64
  length : UInt64
  type : UInt32
  attributes : UInt32
  deriving DecidableEq

/-- `struct BootInfo`, as far as it describes the table. -/
structure BootInfo where
  e820Count : UInt32
  e820EntrySize : UInt32
  e820Map : UInt64

/-- An entry of the table. -/
def BootInfo.entryAt (boot : BootInfo) (mem : Memory) (i : ℕ) : E820Entry :=
  let address := boot.e820Map.toNat + i * boot.e820EntrySize.toNat
  ⟨mem.word address, mem.word (address + 8), Buffer.wordAt mem (address + 16),
    Buffer.wordAt mem (address + 20)⟩

/-- The table. -/
def BootInfo.entries (boot : BootInfo) (mem : Memory) : List E820Entry :=
  (List.range boot.e820Count.toNat).map (boot.entryAt mem)

/-- `range_end`. -/
def rangeEnd (entry : E820Entry) : UInt64 :=
  if entry.length > uint64Max - entry.base then uint64Max else entry.base + entry.length

/-- `entry_is_enabled`. -/
def entryIsEnabled (entry : E820Entry) (entrySize : UInt32) : Bool :=
  entry.length ≠ 0 && (entrySize < 24 || (entry.attributes &&& 1) ≠ 0)

/-- `saturating_add`. -/
def saturatingAdd (left right : UInt64) : UInt64 :=
  if right > uint64Max - left then uint64Max else left + right

/-- `intersection_size`. -/
def intersectionSize (start stop limitStart limitEnd : UInt64) : UInt64 :=
  let start := if start < limitStart then limitStart else start
  let stop := if stop > limitEnd then limitEnd else stop
  if stop > start then stop - start else 0

/-- An entry adds its two ends. -/
def collectEntry (entrySize : UInt32) (r : ℕ × (ℕ → UInt64)) (entry : E820Entry) :
    ℕ × (ℕ → UInt64) :=
  if entryIsEnabled entry entrySize = false then r
  else if rangeEnd entry ≤ entry.base then r
  else (r.1 + 2, Function.update (Function.update r.2 r.1 entry.base) (r.1 + 1) (rangeEnd entry))

/-- The ends of the enabled ranges, in an array with arbitrary contents. -/
def collectEndpoints (entrySize : UInt32) (entries : List E820Entry) (array : ℕ → UInt64) :
    ℕ × (ℕ → UInt64) :=
  entries.foldl (collectEntry entrySize) (0, array)

/-- An entry covers a segment as usable or as reserved. -/
def coverEntry (entrySize : UInt32) (start stop : UInt64) (covered : Bool × Bool)
    (entry : E820Entry) : Bool × Bool :=
  if entryIsEnabled entry entrySize = false then covered
  else if entry.base ≥ stop ∨ rangeEnd entry ≤ start then covered
  else if entry.type = e820TypeUsable then (true, covered.2)
  else (covered.1, true)

/-- Whether a segment is covered by a usable range, and by a reserved one. -/
def coverage (entrySize : UInt32) (entries : List E820Entry) (start stop : UInt64) : Bool × Bool :=
  entries.foldl (coverEntry entrySize start stop) (false, false)

/-- `struct memtest_memory_info`. -/
structure MemoryInfo where
  physicalUsableBytes : UInt64
  mappedUsableBytes : UInt64
  reservedLowUsableBytes : UInt64
  heapUpperLimit : UInt64
  deriving DecidableEq

/-- The variables of the loop over the segments. -/
structure Sweep where
  physicalUsableBytes : UInt64
  mappedUsableBytes : UInt64
  reservedLowUsableBytes : UInt64
  foundHeapBase : Bool
  heapLimit : UInt64

/-- The variables before the loop. -/
def Sweep.start : Sweep := ⟨0, 0, 0, false, heapBaseAddr⟩

/-- A limit within the memory that is mapped. -/
def clampMapped (limit : UInt64) : UInt64 :=
  if limit > mappedRamLimit then mappedRamLimit else limit

/-- The heap may reach to the end of a usable segment. -/
def extendHeap (w : Sweep) (start stop : UInt64) : Sweep :=
  if w.foundHeapBase = false ∧ start ≤ heapBaseAddr ∧ stop > heapBaseAddr then
    { w with
      foundHeapBase := true
      heapLimit := clampMapped stop }
  else if w.foundHeapBase = true ∧ start ≤ w.heapLimit ∧ stop > w.heapLimit ∧
      w.heapLimit < mappedRamLimit then
    { w with heapLimit := clampMapped stop }
  else w

/-- One segment. -/
def sweepSegment (entrySize : UInt32) (entries : List E820Entry) (start stop : UInt64) (w : Sweep) :
    Sweep :=
  if coverage entrySize entries start stop ≠ (true, false) then w
  else
    extendHeap
      { w with
        physicalUsableBytes := saturatingAdd w.physicalUsableBytes (stop - start)
        mappedUsableBytes :=
          saturatingAdd w.mappedUsableBytes (intersectionSize start stop 0 mappedRamLimit)
        reservedLowUsableBytes :=
          saturatingAdd w.reservedLowUsableBytes (intersectionSize start stop 0 heapBaseAddr) }
      start stop

/-- The segments between the first ends. -/
def sweep (entrySize : UInt32) (entries : List E820Entry) (endpoints : ℕ → UInt64) : ℕ → Sweep
  | 0 => Sweep.start
  | k + 1 =>
    sweepSegment entrySize entries (endpoints k) (endpoints (k + 1))
      (sweep entrySize entries endpoints k)

/-- The checks of the table. -/
def BootInfo.valid (boot : BootInfo) : Bool :=
  boot.e820Count ≠ 0 && boot.e820Count ≤ e820MaxEntries &&
    20 ≤ boot.e820EntrySize && boot.e820EntrySize ≤ 64 &&
    0x1000 ≤ boot.e820Map && boot.e820Map < 0x100000 &&
    boot.e820Count.toUInt64 * boot.e820EntrySize.toUInt64 ≤ 0x100000 - boot.e820Map

/-- What is left of the variables of the loop in the end. -/
def Sweep.info (w : Sweep) : MemoryInfo :=
  ⟨w.physicalUsableBytes, w.mappedUsableBytes, w.reservedLowUsableBytes,
    if w.foundHeapBase then w.heapLimit else 0⟩

/-- `memtest_detect_memory`: the answer, and what `info` holds.  The array of ends holds arbitrary
values at first. -/
def memtestDetectMemory (array : ℕ → UInt64) (boot : Option BootInfo) (mem : Memory) :
    Bool × MemoryInfo :=
  match boot with
  | none => (false, ⟨0, 0, 0, 0⟩)
  | some boot =>
    if boot.valid = false then (false, ⟨0, 0, 0, 0⟩)
    else
      let entries := boot.entries mem
      let collected := collectEndpoints boot.e820EntrySize entries array
      if collected.1 < 2 then (false, ⟨0, 0, 0, 0⟩)
      else
        let sorted := SortedArray.insertionSort collected.2 (collected.1 - 1)
        let unique := SortedArray.dedup sorted collected.1
        let info := (sweep boot.e820EntrySize entries unique.2 (unique.1 - 1)).info
        if info.physicalUsableBytes = 0 then (false, info) else (true, info)

end Nostalux.Memtest

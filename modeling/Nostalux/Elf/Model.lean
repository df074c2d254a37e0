import Mathlib.Tactic
import Nostalux.Library.Memory

/-!
# `kernel/elf64_loader.c`: inspection of an ELF image

An image is the pointer to its bytes and its size.  The array of segments of a plan is the list of
its first `segment_count` elements.
-/

namespace Nostalux.Elf

/-! ### Constants -/

/-- `ELF64_HEADER_SIZE`. -/
abbrev elf64HeaderSize : UInt64 := 64
/-- `ELF64_PROGRAM_HEADER_SIZE`. -/
abbrev elf64ProgramHeaderSize : UInt64 := 56
/-- `ELF64_PT_LOAD`. -/
abbrev elf64PtLoad : UInt32 := 1
/-- `ELF64_PT_DYNAMIC`. -/
abbrev elf64PtDynamic : UInt32 := 2
/-- `ELF64_PT_INTERP`. -/
abbrev elf64PtInterp : UInt32 := 3
/-- `ELF64_PT_TLS`. -/
abbrev elf64PtTls : UInt32 := 7
/-- `ELF64_PAGE_SIZE`. -/
abbrev elf64PageSize : UInt64 := 4096
/-- `ELF64_LOADER_MAX_PROGRAM_HEADERS`. -/
abbrev elf64LoaderMaxProgramHeaders : UInt16 := 32
/-- `ELF64_LOADER_MAX_LOAD_SEGMENTS`. -/
abbrev elf64LoaderMaxLoadSegments : ℕ := 16
/-- `ELF64_LOADER_MAX_IMAGE_SPAN`. -/
abbrev elf64LoaderMaxImageSpan : UInt64 := 16777216
/-- `ELF64_LOADER_MIN_USER_VADDR`. -/
abbrev elf64LoaderMinUserVaddr : UInt64 := 0x0000010000000000
/-- `ELF64_LOADER_MAX_USER_VADDR`. -/
abbrev elf64LoaderMaxUserVaddr : UInt64 := 0x000001ffffffffff
/-- `ELF64_SEGMENT_EXECUTE`. -/
abbrev elf64SegmentExecute : UInt32 := 1
/-- `ELF64_SEGMENT_WRITE`. -/
abbrev elf64SegmentWrite : UInt32 := 2
/-- `ELF64_SEGMENT_READ`. -/
abbrev elf64SegmentRead : UInt32 := 4

/-- `UINT64_MAX`. -/
abbrev uint64Max : UInt64 := 0xffffffffffffffff

/-- `enum elf64_load_result`. -/
inductive Elf64LoadResult
  | ok
  | invalidArgument
  | truncated
  | badMagic
  | unsupportedFormat
  | unsupportedArchitecture
  | unsupportedFeature
  | tooManyHeaders
  | tooManySegments
  | invalidSegment
  | segmentOutOfRange
  | segmentOverlap
  | writableCode
  | invalidEntryPoint
  | imageTooLarge
  | destinationTooSmall
  | bufferOverlap
  deriving DecidableEq

/-- `struct elf64_load_segment`. -/
structure Elf64LoadSegment where
  virtualAddress : UInt64
  memorySize : UInt64
  fileSize : UInt64
  fileOffset : UInt64
  alignment : UInt64
  flags : UInt32
  deriving DecidableEq

/-- `struct elf64_image_plan`. -/
structure Elf64ImagePlan where
  entryPoint : UInt64
  virtualBase : UInt64
  virtualEnd : UInt64
  imageSpan : UInt64
  segments : List Elf64LoadSegment
  deriving DecidableEq

/-! ### Reading -/

/-- `read_u16_le`. -/
def readU16Le (bytes : Memory) : UInt16 := (bytes 0).toUInt16 ||| ((bytes 1).toUInt16 <<< 8)

/-- `read_u32_le`. -/
def readU32Le (bytes : Memory) : UInt32 :=
  (bytes 0).toUInt32 ||| ((bytes 1).toUInt32 <<< 8) ||| ((bytes 2).toUInt32 <<< 16) |||
    ((bytes 3).toUInt32 <<< 24)

/-- `read_u64_le`. -/
def readU64Le (bytes : Memory) : UInt64 :=
  (readU32Le bytes).toUInt64 ||| ((readU32Le (bytes.shift 4)).toUInt64 <<< 32)

/-- `range_fits_size`. -/
def rangeFitsSize (offset length containerSize : UInt64) : Bool :=
  offset ≤ containerSize ∧ length ≤ containerSize - offset

/-- `is_power_of_two`. -/
def isPowerOfTwo (value : UInt64) : Bool := value ≠ 0 ∧ value &&& (value - 1) = 0

/-- `virtual_ranges_overlap`. -/
def virtualRangesOverlap (firstStart firstEnd secondStart secondEnd : UInt64) : Bool :=
  firstStart < secondEnd ∧ secondStart < firstEnd

/-- The fields of a program header that describe a segment. -/
def readSegment (programHeader : Memory) : Elf64LoadSegment where
  flags := readU32Le (programHeader.shift 4)
  fileOffset := readU64Le (programHeader.shift 8)
  virtualAddress := readU64Le (programHeader.shift 16)
  fileSize := readU64Le (programHeader.shift 32)
  memorySize := readU64Le (programHeader.shift 40)
  alignment := readU64Le (programHeader.shift 48)

/-! ### Inspection -/

/-- The start of the page of an address. -/
def pageStart (address : UInt64) : UInt64 := address &&& ~~~(elf64PageSize - 1)

/-- The end of the last page below an address. -/
def pageEnd (address : UInt64) : UInt64 :=
  (address + elf64PageSize - 1) &&& ~~~(elf64PageSize - 1)

/-- The checks of `inspect_load_segment` that look at the segment alone. -/
def segmentFault (segment : Elf64LoadSegment) (imageSize : UInt64) : Option Elf64LoadResult :=
  if segment.flags &&& ~~~(elf64SegmentRead ||| elf64SegmentWrite ||| elf64SegmentExecute) ≠ 0 ∨
      segment.memorySize = 0 ∨ segment.fileSize > segment.memorySize then
    some .invalidSegment
  else if segment.flags &&& elf64SegmentWrite ≠ 0 ∧ segment.flags &&& elf64SegmentExecute ≠ 0 then
    some .writableCode
  else if !rangeFitsSize segment.fileOffset segment.fileSize imageSize then
    some .segmentOutOfRange
  else if segment.virtualAddress < elf64LoaderMinUserVaddr ∨
      segment.virtualAddress > elf64LoaderMaxUserVaddr ∨
      segment.memorySize - 1 > elf64LoaderMaxUserVaddr - segment.virtualAddress then
    some .segmentOutOfRange
  else if segment.alignment > 1 ∧ (!isPowerOfTwo segment.alignment ∨
      segment.virtualAddress &&& (segment.alignment - 1) ≠
        segment.fileOffset &&& (segment.alignment - 1)) then
    some .invalidSegment
  else none

/-- The comparison of `inspect_load_segment` with a segment that was accepted before. -/
def existingFault (segment existing : Elf64LoadSegment) : Option Elf64LoadResult :=
  let virtualEnd := segment.virtualAddress + segment.memorySize
  let existingEnd := existing.virtualAddress + existing.memorySize
  let combinedFlags := segment.flags ||| existing.flags
  if virtualRangesOverlap segment.virtualAddress virtualEnd existing.virtualAddress existingEnd then
    some .segmentOverlap
  else if virtualRangesOverlap (pageStart segment.virtualAddress) (pageEnd virtualEnd)
        (pageStart existing.virtualAddress) (pageEnd existingEnd) ∧
      combinedFlags &&& elf64SegmentWrite ≠ 0 ∧ combinedFlags &&& elf64SegmentExecute ≠ 0 then
    some .writableCode
  else none

/-- The entry point is in the part of the segment that comes from the file. -/
def entryInSegment (entryPoint : UInt64) (segment : Elf64LoadSegment) : Bool :=
  segment.flags &&& elf64SegmentExecute ≠ 0 ∧ entryPoint ≥ segment.virtualAddress ∧
    entryPoint - segment.virtualAddress < segment.fileSize

/-- The segment is added to the plan. -/
def Elf64ImagePlan.append (plan : Elf64ImagePlan) (segment : Elf64LoadSegment) : Elf64ImagePlan :=
  let virtualEnd := segment.virtualAddress + segment.memorySize
  { plan with
    segments := plan.segments ++ [segment]
    virtualBase :=
      if plan.virtualBase = uint64Max ∨ segment.virtualAddress < plan.virtualBase then
        segment.virtualAddress
      else plan.virtualBase
    virtualEnd := if virtualEnd > plan.virtualEnd then virtualEnd else plan.virtualEnd }

/-- `inspect_load_segment`: the error, or the new plan and `*entry_is_executable`. -/
def inspectLoadSegment (programHeader : Memory) (imageSize : UInt64) (plan : Elf64ImagePlan)
    (entryIsExecutable : Bool) : Except Elf64LoadResult (Elf64ImagePlan × Bool) :=
  let segment := readSegment programHeader
  match segmentFault segment imageSize with
  | some fault => .error fault
  | none =>
    if plan.segments.length ≥ elf64LoaderMaxLoadSegments then .error .tooManySegments
    else
      match plan.segments.findSome? (existingFault segment) with
      | some fault => .error fault
      | none =>
        .ok (plan.append segment, entryIsExecutable || entryInSegment plan.entryPoint segment)

/-- The loop of `elf64_inspect` over the program headers. -/
def inspectProgramHeaders (imageSize : UInt64) :
    List Memory → Elf64ImagePlan → Bool → Except Elf64LoadResult (Elf64ImagePlan × Bool)
  | [], plan, entryIsExecutable => .ok (plan, entryIsExecutable)
  | programHeader :: rest, plan, entryIsExecutable =>
    let type := readU32Le programHeader
    if type = elf64PtDynamic ∨ type = elf64PtInterp ∨ type = elf64PtTls then
      .error .unsupportedFeature
    else if type ≠ elf64PtLoad then inspectProgramHeaders imageSize rest plan entryIsExecutable
    else
      match inspectLoadSegment programHeader imageSize plan entryIsExecutable with
      | .error result => .error result
      | .ok (plan, entryIsExecutable) =>
        inspectProgramHeaders imageSize rest plan entryIsExecutable

/-- The entry point in the header of the file. -/
def entryPointOf (bytes : Memory) : UInt64 := readU64Le (bytes.shift 24)

/-- The offset of the program headers. -/
def programOffset (bytes : Memory) : UInt64 := readU64Le (bytes.shift 32)

/-- The number of program headers. -/
def programCount (bytes : Memory) : UInt16 := readU16Le (bytes.shift 56)

/-- The program headers. -/
def programHeaders (bytes : Memory) : List Memory :=
  (List.range (programCount bytes).toNat).map fun index =>
    bytes.shift ((programOffset bytes).toNat + (UInt64.ofNat index * elf64ProgramHeaderSize).toNat)

/-- The checks of `elf64_inspect` before the loop. -/
def headerFault (bytes : Memory) (imageSize : UInt64) : Option Elf64LoadResult :=
  if imageSize < elf64HeaderSize then some .truncated
  else if bytes 0 ≠ 0x7f ∨ bytes 1 ≠ 0x45 ∨ bytes 2 ≠ 0x4c ∨ bytes 3 ≠ 0x46 then some .badMagic
  else if bytes 4 ≠ 2 ∨ bytes 5 ≠ 1 ∨ bytes 6 ≠ 1 ∨ readU32Le (bytes.shift 20) ≠ 1 ∨
      readU16Le (bytes.shift 16) ≠ 2 ∨ readU16Le (bytes.shift 52) ≠ 64 ∨
      readU16Le (bytes.shift 54) ≠ 56 then
    some .unsupportedFormat
  else if readU16Le (bytes.shift 18) ≠ 62 then some .unsupportedArchitecture
  else if programCount bytes = 0 ∨ programCount bytes > elf64LoaderMaxProgramHeaders then
    some .tooManyHeaders
  else if programOffset bytes < elf64HeaderSize ∨
      !rangeFitsSize (programOffset bytes)
        ((programCount bytes).toUInt64 * elf64ProgramHeaderSize) imageSize then
    some .truncated
  else none

/-- The checks of `elf64_inspect` behind the loop. -/
def finishPlan (plan : Elf64ImagePlan) (entryIsExecutable : Bool) :
    Except Elf64LoadResult Elf64ImagePlan :=
  if plan.segments.length = 0 then .error .invalidSegment
  else if !entryIsExecutable then .error .invalidEntryPoint
  else
    let span := plan.virtualEnd - plan.virtualBase
    if span = 0 ∨ span > elf64LoaderMaxImageSpan ∨ span > uint64Max then .error .imageTooLarge
    else .ok { plan with imageSpan := span }

/-- The plan before the loop. -/
def initialPlan (bytes : Memory) : Elf64ImagePlan := ⟨entryPointOf bytes, uint64Max, 0, 0, []⟩

/-- `elf64_inspect` for pointers that are not `NULL`: the error, or the plan. -/
def inspectImage (bytes : Memory) (imageSize : UInt64) : Except Elf64LoadResult Elf64ImagePlan :=
  match headerFault bytes imageSize with
  | some fault => .error fault
  | none =>
    match inspectProgramHeaders imageSize (programHeaders bytes) (initialPlan bytes) false with
    | .error result => .error result
    | .ok (plan, entryIsExecutable) => finishPlan plan entryIsExecutable

/-- `elf64_inspect`; `none` is `NULL`.  The second component is what `out_plan` points to
afterwards. -/
def elf64Inspect (image : Option Memory) (imageSize : UInt64) (outPlan : Option Elf64ImagePlan) :
    Elf64LoadResult × Option Elf64ImagePlan :=
  match image, outPlan with
  | some bytes, some _ =>
    match inspectImage bytes imageSize with
    | .error result => (result, outPlan)
    | .ok plan => (.ok, some plan)
  | _, _ => (.invalidArgument, outPlan)

end Nostalux.Elf

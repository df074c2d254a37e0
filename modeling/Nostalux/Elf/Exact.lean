import Mathlib.Tactic
import Nostalux.Elf.Inspect
import Nostalux.Library.Checked

/-!
# `elf64_inspect` is safe

The functions with `Exact` in their names are those of the model, with every sum, difference and
product made by the operations of `Checked`: they have no result where a computation of the model
wraps around.

* `inspectImageExact_eq`: they have the result of the model, for every image.
* `elf64Inspect_safe`: what is accepted is well formed, and a plan is written only then.
-/

namespace Nostalux.Elf

open Checked UInt64

/-- `range_fits_size`. -/
def rangeFitsSizeExact (offset length containerSize : UInt64) : Option Bool :=
  if offset ≤ containerSize then do
    let room ← Checked.sub containerSize offset
    return length ≤ room
  else return false

/-- `is_power_of_two`. -/
def isPowerOfTwoExact (value : UInt64) : Option Bool :=
  if value ≠ 0 then do
    let pred ← Checked.sub value 1
    return value &&& pred = 0
  else return false

/-- An address rounded up to a page. -/
def pageEndExact (address : UInt64) : Option UInt64 := do
  let sum ← Checked.add address elf64PageSize
  let last ← Checked.sub sum 1
  return last &&& ~~~(elf64PageSize - 1)

/-- The check of the addresses. -/
def addressOutOfRangeExact (segment : Elf64LoadSegment) : Option Bool :=
  if segment.virtualAddress < elf64LoaderMinUserVaddr ∨
      segment.virtualAddress > elf64LoaderMaxUserVaddr then return true
  else do
    let offset ← Checked.sub segment.memorySize 1
    let room ← Checked.sub elf64LoaderMaxUserVaddr segment.virtualAddress
    return offset > room

/-- The check of the alignment. -/
def misalignedExact (segment : Elf64LoadSegment) : Option Bool :=
  if segment.alignment > 1 then do
    if !(← isPowerOfTwoExact segment.alignment) then return true
    let mask ← Checked.sub segment.alignment 1
    return segment.virtualAddress &&& mask ≠ segment.fileOffset &&& mask
  else return false

/-- The checks of `inspect_load_segment` that look at the segment alone. -/
def segmentFaultExact (segment : Elf64LoadSegment) (imageSize : UInt64) :
    Option (Option Elf64LoadResult) :=
  if segment.flags &&& ~~~(elf64SegmentRead ||| elf64SegmentWrite ||| elf64SegmentExecute) ≠ 0 ∨
      segment.memorySize = 0 ∨ segment.fileSize > segment.memorySize then
    return some .invalidSegment
  else if segment.flags &&& elf64SegmentWrite ≠ 0 ∧ segment.flags &&& elf64SegmentExecute ≠ 0 then
    return some .writableCode
  else do
    if !(← rangeFitsSizeExact segment.fileOffset segment.fileSize imageSize) then
      return some .segmentOutOfRange
    if ← addressOutOfRangeExact segment then return some .segmentOutOfRange
    if ← misalignedExact segment then return some .invalidSegment
    return none

/-- The comparison with a segment that was accepted before. -/
def existingFaultExact (segment : Elf64LoadSegment) (virtualEnd virtualPageEnd : UInt64)
    (existing : Elf64LoadSegment) : Option (Option Elf64LoadResult) := do
  let existingEnd ← Checked.add existing.virtualAddress existing.memorySize
  if virtualRangesOverlap segment.virtualAddress virtualEnd existing.virtualAddress existingEnd then
    return some .segmentOverlap
  let existingPageEnd ← pageEndExact existingEnd
  let combinedFlags := segment.flags ||| existing.flags
  if virtualRangesOverlap (pageStart segment.virtualAddress) virtualPageEnd
        (pageStart existing.virtualAddress) existingPageEnd ∧
      combinedFlags &&& elf64SegmentWrite ≠ 0 ∧ combinedFlags &&& elf64SegmentExecute ≠ 0 then
    return some .writableCode
  return none

/-- Whether the entry point lies in the file part of an executable segment. -/
def entryInSegmentExact (entryPoint : UInt64) (segment : Elf64LoadSegment) : Option Bool :=
  if segment.flags &&& elf64SegmentExecute ≠ 0 ∧ entryPoint ≥ segment.virtualAddress then do
    let offset ← Checked.sub entryPoint segment.virtualAddress
    return offset < segment.fileSize
  else return false

/-- `inspect_load_segment`. -/
def inspectLoadSegmentExact (programHeader : Memory) (imageSize : UInt64) (plan : Elf64ImagePlan)
    (entryIsExecutable : Bool) : Option (Except Elf64LoadResult (Elf64ImagePlan × Bool)) := do
  let segment := readSegment programHeader
  match ← segmentFaultExact segment imageSize with
  | some fault => return .error fault
  | none =>
    if plan.segments.length ≥ elf64LoaderMaxLoadSegments then return .error .tooManySegments
    let virtualEnd ← Checked.add segment.virtualAddress segment.memorySize
    let virtualPageEnd ← pageEndExact virtualEnd
    match ← plan.segments.findSomeM? (existingFaultExact segment virtualEnd virtualPageEnd) with
    | some fault => return .error fault
    | none =>
      let entered ← entryInSegmentExact plan.entryPoint segment
      return .ok (plan.append segment, entryIsExecutable || entered)

/-- The loop of `elf64_inspect` over the program headers. -/
def inspectProgramHeadersExact (imageSize : UInt64) : List Memory → Elf64ImagePlan → Bool →
    Option (Except Elf64LoadResult (Elf64ImagePlan × Bool))
  | [], plan, entryIsExecutable => return .ok (plan, entryIsExecutable)
  | programHeader :: rest, plan, entryIsExecutable =>
    let type := readU32Le programHeader
    if type = elf64PtDynamic ∨ type = elf64PtInterp ∨ type = elf64PtTls then
      return .error .unsupportedFeature
    else if type ≠ elf64PtLoad then inspectProgramHeadersExact imageSize rest plan entryIsExecutable
    else do
      match ← inspectLoadSegmentExact programHeader imageSize plan entryIsExecutable with
      | .error result => return .error result
      | .ok (plan, entryIsExecutable) =>
        inspectProgramHeadersExact imageSize rest plan entryIsExecutable

/-- The program headers of an image. -/
def programHeadersExact (bytes : Memory) : Option (List Memory) :=
  (List.range (programCount bytes).toNat).mapM fun index => do
    let offset ← Checked.mul (UInt64.ofNat index) elf64ProgramHeaderSize
    return bytes.shift ((programOffset bytes).toNat + offset.toNat)

/-- The checks of the ELF header. -/
def headerFaultExact (bytes : Memory) (imageSize : UInt64) : Option (Option Elf64LoadResult) :=
  if imageSize < elf64HeaderSize then return some .truncated
  else if bytes 0 ≠ 0x7f ∨ bytes 1 ≠ 0x45 ∨ bytes 2 ≠ 0x4c ∨ bytes 3 ≠ 0x46 then
    return some .badMagic
  else if bytes 4 ≠ 2 ∨ bytes 5 ≠ 1 ∨ bytes 6 ≠ 1 ∨ readU32Le (bytes.shift 20) ≠ 1 ∨
      readU16Le (bytes.shift 16) ≠ 2 ∨ readU16Le (bytes.shift 52) ≠ 64 ∨
      readU16Le (bytes.shift 54) ≠ 56 then
    return some .unsupportedFormat
  else if readU16Le (bytes.shift 18) ≠ 62 then return some .unsupportedArchitecture
  else if programCount bytes = 0 ∨ programCount bytes > elf64LoaderMaxProgramHeaders then
    return some .tooManyHeaders
  else if programOffset bytes < elf64HeaderSize then return some .truncated
  else do
    let size ← Checked.mul (programCount bytes).toUInt64 elf64ProgramHeaderSize
    if !(← rangeFitsSizeExact (programOffset bytes) size imageSize) then return some .truncated
    return none

/-- The checks behind the loop. -/
def finishPlanExact (plan : Elf64ImagePlan) (entryIsExecutable : Bool) :
    Option (Except Elf64LoadResult Elf64ImagePlan) :=
  if plan.segments.length = 0 then return .error .invalidSegment
  else if !entryIsExecutable then return .error .invalidEntryPoint
  else do
    let span ← Checked.sub plan.virtualEnd plan.virtualBase
    if span = 0 ∨ span > elf64LoaderMaxImageSpan ∨ span > uint64Max then
      return .error .imageTooLarge
    return .ok { plan with imageSpan := span }

/-- `elf64_inspect` for an image and a plan to be filled. -/
def inspectImageExact (bytes : Memory) (imageSize : UInt64) :
    Option (Except Elf64LoadResult Elf64ImagePlan) := do
  match ← headerFaultExact bytes imageSize with
  | some fault => return .error fault
  | none =>
    let headers ← programHeadersExact bytes
    match ← inspectProgramHeadersExact imageSize headers (initialPlan bytes) false with
    | .error result => return .error result
    | .ok (plan, entryIsExecutable) => finishPlanExact plan entryIsExecutable

/-! ## The results are those of the model -/

/-- The room behind the offset is only computed if the offset is inside. -/
theorem rangeFitsSizeExact_eq (offset length size : UInt64) :
    rangeFitsSizeExact offset length size = some (rangeFitsSize offset length size) := by
  rw [rangeFitsSizeExact, rangeFitsSize]
  split
  next h => simp [sub_of_le h, h]
  next h => simp [h]

theorem one_le_of_ne_zero {value : UInt64} (h : value ≠ 0) : 1 ≤ value :=
  UInt64.le_iff_toNat_le.2 (Nat.pos_of_ne_zero fun h0 => h (UInt64.toNat_inj.1 h0))

theorem isPowerOfTwoExact_eq (value : UInt64) :
    isPowerOfTwoExact value = some (isPowerOfTwo value) := by
  rw [isPowerOfTwoExact, isPowerOfTwo]
  split
  next h => simp [sub_of_le (one_le_of_ne_zero h), h]
  next h => simp [not_not.1 h]

/-- Rounding up does not wrap around for an address of the user range. -/
theorem pageEndExact_eq {address : UInt64} (h : address.toNat ≤ 2 ^ 41) :
    pageEndExact address = some (pageEnd address) := by
  have hlt : address.toNat + elf64PageSize.toNat < 2 ^ 64 := by
    show address.toNat + 4096 < 2 ^ 64
    omega
  have hone : 1 ≤ address + elf64PageSize := by
    rw [le_iff_toNat_le, Align.toNat_add_of_lt hlt]
    show 1 ≤ address.toNat + 4096
    omega
  simp [pageEndExact, pageEnd, add_of_lt hlt, sub_of_le hone]

/-- A segment with memory has a last byte, so that its size minus one is a word. -/
theorem addressOutOfRangeExact_eq {segment : Elf64LoadSegment} (h : segment.memorySize ≠ 0) :
    addressOutOfRangeExact segment =
      some (decide (segment.virtualAddress < elf64LoaderMinUserVaddr ∨
      segment.virtualAddress > elf64LoaderMaxUserVaddr ∨
      segment.memorySize - 1 > elf64LoaderMaxUserVaddr - segment.virtualAddress)) := by
  rw [addressOutOfRangeExact]
  split
  next hout => exact congrArg some (decide_eq_true (or_assoc.1 (.inl hout))).symm
  rename_i hin
  have hle : segment.virtualAddress ≤ elf64LoaderMaxUserVaddr :=
    UInt64.not_lt.1 fun hlt => hin (.inr hlt)
  rw [sub_of_le (one_le_of_ne_zero h), sub_of_le hle]
  exact congrArg some (decide_eq_decide.2 (by rw [← or_assoc, or_iff_right hin]))

variable (segment : Elf64LoadSegment)

theorem misalignedExact_eq : misalignedExact segment = some (decide (segment.alignment > 1 ∧
      (!isPowerOfTwo segment.alignment ∨ segment.virtualAddress &&& (segment.alignment - 1) ≠
        segment.fileOffset &&& (segment.alignment - 1)))) := by
  rw [misalignedExact]
  split
  next hgt =>
    rw [isPowerOfTwoExact_eq, sub_of_le (UInt64.le_of_lt hgt)]
    cases hpower : isPowerOfTwo segment.alignment <;> simp [hgt]
  next hle => simp [hle]

/-- The checks of a segment alone do not wrap around, whatever its fields are. -/
theorem segmentFaultExact_eq (imageSize : UInt64) :
    segmentFaultExact segment imageSize = some (segmentFault segment imageSize) := by
  rw [segmentFaultExact, segmentFault]
  split
  · rfl
  rename_i hsizes
  have hmemory : segment.memorySize ≠ 0 := fun h0 => hsizes (.inr (.inl h0))
  split
  · rfl
  rw [rangeFitsSizeExact_eq, addressOutOfRangeExact_eq hmemory, misalignedExact_eq]
  simp only [Option.bind_eq_bind, Option.bind_some, Option.pure_def, decide_eq_true_eq]
  split
  · rfl
  split
  · rfl
  · split <;> rfl

section Existing

variable {imageSize : UInt64} {segment existing : Elf64LoadSegment}

/-- The end of a segment that passed its checks is a word. -/
theorem SegmentOk.add_eq (h : SegmentOk imageSize segment) :
    add segment.virtualAddress segment.memorySize =
      some (segment.virtualAddress + segment.memorySize) :=
  add_of_lt (by
    have hlast : segment.virtualAddress.toNat + segment.memorySize.toNat ≤ 2 ^ 41 := h.last_lt
    omega)

theorem SegmentOk.pageEnd_eq (h : SegmentOk imageSize segment) :
    pageEndExact (segment.virtualAddress + segment.memorySize) =
      some (pageEnd (segment.virtualAddress + segment.memorySize)) :=
  pageEndExact_eq (h.end_toNat.trans_le h.last_lt)

theorem existingFaultExact_eq (segment : Elf64LoadSegment) (he : SegmentOk imageSize existing) :
    existingFaultExact segment (segment.virtualAddress + segment.memorySize)
        (pageEnd (segment.virtualAddress + segment.memorySize)) existing =
      some (existingFault segment existing) := by
  rw [existingFaultExact, existingFault, he.add_eq]
  simp only [Option.bind_eq_bind, Option.bind_some, Option.pure_def, he.pageEnd_eq]
  split
  · rfl
  · split <;> rfl

end Existing

theorem findSomeM_eq {α β : Type} {l : List α} {f : α → Option (Option β)} {g : α → Option β}
    (h : ∀ a ∈ l, f a = some (g a)) : l.findSomeM? f = some (l.findSome? g) := by
  induction l with
  | nil => rfl
  | cons a l ih =>
    rw [List.findSomeM?, h a (by simp), List.findSome?]
    cases g a with
    | none => exact ih fun b hb => h b (by simp [hb])
    | some b => rfl

theorem entryInSegmentExact_eq (entryPoint : UInt64) (segment : Elf64LoadSegment) :
    entryInSegmentExact entryPoint segment = some (entryInSegment entryPoint segment) := by
  rw [entryInSegmentExact, entryInSegment]
  split
  next h =>
    rw [sub_of_le h.2]
    exact congrArg some (decide_eq_decide.2 (by rw [← and_assoc, and_iff_right h]))
  next h => exact congrArg some (decide_eq_false fun hall => h ⟨hall.1, hall.2.1⟩).symm

variable {plan : Elf64ImagePlan}

/-- The segments that were accepted before are in range, so that their ends do not wrap around. -/
theorem inspectLoadSegmentExact_eq {imageSize : UInt64}
    (h : ∀ segment ∈ plan.segments, SegmentOk imageSize segment) (programHeader : Memory)
    (entryIsExecutable : Bool) :
    inspectLoadSegmentExact programHeader imageSize plan entryIsExecutable =
      some (inspectLoadSegment programHeader imageSize plan entryIsExecutable) := by
  rw [inspectLoadSegmentExact, inspectLoadSegment, segmentFaultExact_eq]
  simp only [Option.bind_eq_bind, Option.bind_some, Option.pure_def]
  cases hfault : segmentFault (readSegment programHeader) imageSize with
  | some fault => rfl
  | none =>
    have hsegment := segmentOk_of_segmentFault hfault
    have hfind := findSomeM_eq fun existing hexisting =>
      existingFaultExact_eq (readSegment programHeader) (h existing hexisting)
    simp only [hsegment.add_eq, hsegment.pageEnd_eq, hfind, entryInSegmentExact_eq,
      Option.bind_some]
    split
    · rfl
    cases plan.segments.findSome? (existingFault (readSegment programHeader)) with
    | some fault => rfl
    | none => rfl

/-- The loop, from every plan that it can have come to. -/
theorem inspectProgramHeadersExact_eq {imageSize entryPoint : UInt64} {headers rest : List Memory}
    {entryIsExecutable : Bool}
    (h : PlanInvariant imageSize entryPoint headers plan entryIsExecutable) :
    inspectProgramHeadersExact imageSize rest plan entryIsExecutable =
      some (inspectProgramHeaders imageSize rest plan entryIsExecutable) := by
  induction rest generalizing headers plan entryIsExecutable with
  | nil => rfl
  | cons header rest ih =>
    simp only [inspectProgramHeadersExact, inspectProgramHeaders,
      inspectLoadSegmentExact_eq h.segmentOk, Option.bind_eq_bind, Option.bind_some,
      Option.pure_def]
    split
    · rfl
    split
    next htype => exact ih (h.skip htype)
    rename_i htype
    cases hload : inspectLoadSegment header imageSize plan entryIsExecutable with
    | error result => rfl
    | ok next => exact ih (h.load (not_not.1 htype) hload)

theorem mapM_eq {α β : Type} {l : List α} {f : α → Option β} {g : α → β}
    (h : ∀ a ∈ l, f a = some (g a)) : l.mapM f = some (l.map g) := by
  induction l with
  | nil => rfl
  | cons a l ih =>
    rw [List.mapM_cons, h a (by simp), ih fun b hb => h b (by simp [hb])]
    rfl

variable (bytes : Memory)

theorem programHeadersExact_eq : programHeadersExact bytes = some (programHeaders bytes) := by
  refine mapM_eq fun index hindex => ?_
  have hlt := List.mem_range.1 hindex
  have hcount := (programCount bytes).toNat_lt
  have hmul : (ofNat index).toNat * elf64ProgramHeaderSize.toNat < 2 ^ 64 := by
    rw [toNat_ofNat_of_lt' (by rw [size]; omega)]
    show index * 56 < 2 ^ 64
    omega
  rw [mul_of_lt hmul]
  rfl

/-- The size of all program headers is below the limit of a word. -/
theorem headerFaultExact_eq (imageSize : UInt64) :
    headerFaultExact bytes imageSize = some (headerFault bytes imageSize) := by
  have hmul : (programCount bytes).toUInt64.toNat * elf64ProgramHeaderSize.toNat < 2 ^ 64 := by
    have hcount := (programCount bytes).toNat_lt
    show (programCount bytes).toNat * 56 < 2 ^ 64
    omega
  rw [headerFaultExact, headerFault, mul_of_lt hmul]
  simp only [Option.bind_eq_bind, Option.bind_some, Option.pure_def, rangeFitsSizeExact_eq]
  iterate 5
    split
    · rfl
  by_cases hoffset : programOffset bytes < elf64HeaderSize
  · rw [if_pos hoffset, if_pos (.inl hoffset)]
  · rw [if_neg hoffset]
    simp only [hoffset, false_or]
    split <;> rfl

theorem finishPlanExact_eq {imageSize entryPoint : UInt64} {headers : List Memory}
    {entryIsExecutable : Bool}
    (h : PlanInvariant imageSize entryPoint headers plan entryIsExecutable) :
    finishPlanExact plan entryIsExecutable = some (finishPlan plan entryIsExecutable) := by
  rw [finishPlanExact, finishPlan]
  split
  · rfl
  rename_i hcount
  have hne : plan.segments ≠ [] := fun hnil => hcount (by simp [hnil])
  rw [sub_of_le (h.base_le_end hne)]
  split
  · rfl
  simp only [Option.bind_eq_bind, Option.bind_some, Option.pure_def]
  split <;> rfl

theorem inspectImageExact_eq (imageSize : UInt64) :
    inspectImageExact bytes imageSize = some (inspectImage bytes imageSize) := by
  have hinit := planInvariant_initialPlan bytes imageSize
  rw [inspectImageExact, inspectImage, headerFaultExact_eq, programHeadersExact_eq]
  simp only [Option.bind_eq_bind, Option.bind_some, Option.pure_def,
    inspectProgramHeadersExact_eq hinit]
  cases headerFault bytes imageSize with
  | some fault => rfl
  | none =>
    cases hheaders : inspectProgramHeaders imageSize (programHeaders bytes) (initialPlan bytes)
        false with
    | error result => rfl
    | ok next => exact finishPlanExact_eq (hinit.inspectProgramHeaders hheaders)

/-! ## The errors -/

theorem segmentFault_ne_ok (imageSize : UInt64) : segmentFault segment imageSize ≠ some .ok := by
  rw [segmentFault]
  repeat' split
  all_goals simp

theorem existingFault_ne_ok (segment existing : Elf64LoadSegment) :
    existingFault segment existing ≠ some .ok := by
  simp only [existingFault]
  repeat' split
  all_goals simp

theorem headerFault_ne_ok (imageSize : UInt64) : headerFault bytes imageSize ≠ some .ok := by
  rw [headerFault]
  repeat' split
  all_goals nofun

theorem inspectLoadSegment_ne_ok (programHeader : Memory) (imageSize : UInt64)
    (plan : Elf64ImagePlan) (entryIsExecutable : Bool) :
    inspectLoadSegment programHeader imageSize plan entryIsExecutable ≠ .error .ok := by
  intro h
  simp only [inspectLoadSegment] at h
  split at h
  next fault hfault =>
    obtain rfl := Except.error.inj h
    exact segmentFault_ne_ok _ _ hfault
  · split at h
    · cases h
    split at h
    next fault hfault =>
      obtain rfl := Except.error.inj h
      obtain ⟨existing, -, hexisting⟩ := List.exists_of_findSome?_eq_some hfault
      exact existingFault_ne_ok _ _ hexisting
    · cases h

theorem inspectProgramHeaders_ne_ok (imageSize : UInt64) (headers : List Memory)
    (plan : Elf64ImagePlan) (entryIsExecutable : Bool) :
    inspectProgramHeaders imageSize headers plan entryIsExecutable ≠ .error .ok := by
  induction headers generalizing plan entryIsExecutable with
  | nil => nofun
  | cons header rest ih =>
    intro h
    simp only [inspectProgramHeaders] at h
    split at h
    · cases h
    split at h
    · exact ih _ _ h
    split at h
    next result hload =>
      obtain rfl := Except.error.inj h
      exact inspectLoadSegment_ne_ok _ _ _ _ hload
    · exact ih _ _ h

/-- No error of the inspection has the value `ELF64_LOAD_OK`. -/
theorem inspectImage_ne_ok (imageSize : UInt64) : inspectImage bytes imageSize ≠ .error .ok := by
  intro h
  rw [inspectImage] at h
  split at h
  next fault hfault =>
    obtain rfl := Except.error.inj h
    exact headerFault_ne_ok _ _ hfault
  · split at h
    next result hheaders =>
      obtain rfl := Except.error.inj h
      exact inspectProgramHeaders_ne_ok _ _ _ _ hheaders
    next plan entry hheaders =>
      simp only [finishPlan] at h
      split at h
      · cases h
      split at h
      · cases h
      · split at h <;> cases h

/-! ## The function -/

/-- Whatever the image and its size are: a plan that is written is well formed, no plan is written
with an error, and no computation wraps around. -/
theorem elf64Inspect_safe (image : Option Memory) (imageSize : UInt64)
    (outPlan : Option Elf64ImagePlan) :
    ((elf64Inspect image imageSize outPlan).1 = .ok →
      ∃ bytes plan, image = some bytes ∧
        (elf64Inspect image imageSize outPlan).2 = some plan ∧ AcceptedPlan bytes imageSize plan) ∧
    ((elf64Inspect image imageSize outPlan).1 ≠ .ok →
      (elf64Inspect image imageSize outPlan).2 = outPlan) ∧
    ∀ bytes, image = some bytes →
      inspectImageExact bytes imageSize = some (inspectImage bytes imageSize) := by
  cases image with
  | none => exact ⟨nofun, fun _ => rfl, nofun⟩
  | some bytes =>
    cases outPlan with
    | none => exact ⟨nofun, fun _ => rfl, fun bytes _ => inspectImageExact_eq bytes imageSize⟩
    | some old =>
      refine ⟨?_, ?_, fun bytes _ => inspectImageExact_eq bytes imageSize⟩
      all_goals simp only [elf64Inspect]
      all_goals cases hinspect : inspectImage bytes imageSize with
      | error result => ?_
      | ok plan => ?_
      · rintro rfl
        exact absurd hinspect (inspectImage_ne_ok bytes imageSize)
      · exact fun _ => ⟨bytes, plan, rfl, rfl, acceptedPlan_of_inspectImage hinspect⟩
      · exact fun _ => rfl
      · exact fun h => absurd rfl h

end Nostalux.Elf

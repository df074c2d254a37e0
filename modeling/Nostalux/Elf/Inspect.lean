import Mathlib.Tactic
import Nostalux.Elf.Model
import Nostalux.Library.Align

/-!
# The plans that `elf64_inspect` accepts

* `SegmentOk`, `Compatible`: what the checks of `inspect_load_segment` establish for a segment and
  for a pair of segments.
* `PlanInvariant`: what holds of the plan after each program header.
* `AcceptedPlan`, `acceptedPlan_of_inspectImage`: what holds of the plan at the end.
-/

namespace Nostalux.Elf

open List Elf64LoadSegment Elf64ImagePlan

namespace Elf64LoadSegment

def Writable (segment : Elf64LoadSegment) : Prop := segment.flags &&& elf64SegmentWrite ≠ 0

def Executable (segment : Elf64LoadSegment) : Prop := segment.flags &&& elf64SegmentExecute ≠ 0

instance (segment : Elf64LoadSegment) : Decidable segment.Writable :=
  inferInstanceAs (Decidable (_ ≠ _))

instance (segment : Elf64LoadSegment) : Decidable segment.Executable :=
  inferInstanceAs (Decidable (_ ≠ _))

/-- The first address. -/
def first (segment : Elf64LoadSegment) : ℕ := segment.virtualAddress.toNat

/-- The address behind the last byte. -/
def last (segment : Elf64LoadSegment) : ℕ := segment.first + segment.memorySize.toNat

/-- The address is one of the segment. -/
def Holds (segment : Elf64LoadSegment) (address : ℕ) : Prop :=
  segment.first ≤ address ∧ address < segment.last

/-- The page has a byte of the segment. -/
def Touches (segment : Elf64LoadSegment) (page : ℕ) : Prop :=
  ∃ address, segment.Holds address ∧ address / 4096 = page

end Elf64LoadSegment

/-- What the checks of one segment establish. -/
structure SegmentOk (imageSize : UInt64) (segment : Elf64LoadSegment) : Prop where
  fileSize_le : segment.fileSize.toNat ≤ segment.memorySize.toNat
  memorySize_pos : 0 < segment.memorySize.toNat
  first_ge : elf64LoaderMinUserVaddr.toNat ≤ segment.first
  last_le : segment.last ≤ elf64LoaderMaxUserVaddr.toNat + 1
  file_le : segment.fileOffset.toNat + segment.fileSize.toNat ≤ imageSize.toNat
  not_both : ¬(segment.Writable ∧ segment.Executable)

/-- What the comparison of two segments establishes. -/
structure Compatible (segment existing : Elf64LoadSegment) : Prop where
  disjoint : ∀ address, ¬(segment.Holds address ∧ existing.Holds address)
  pages : segment.Writable ∧ existing.Executable ∨ existing.Writable ∧ segment.Executable →
    ∀ page, ¬(segment.Touches page ∧ existing.Touches page)

theorem Compatible.symm {segment existing : Elf64LoadSegment} (h : Compatible segment existing) :
    Compatible existing segment :=
  ⟨fun address hboth => h.disjoint address hboth.symm,
    fun hflags page hboth => h.pages hflags.symm page hboth.symm⟩

instance : Std.Symm Compatible := ⟨fun _ _ h => h.symm⟩

theorem rangeFitsSize_iff {offset length size : UInt64} :
    rangeFitsSize offset length size = true ↔ offset.toNat + length.toNat ≤ size.toNat := by
  simp only [rangeFitsSize, decide_eq_true_eq]
  constructor
  · rintro ⟨hoffset, hlength⟩
    rw [UInt64.le_iff_toNat_le, UInt64.toNat_sub_of_le _ _ hoffset] at hlength
    rw [UInt64.le_iff_toNat_le] at hoffset
    omega
  · intro h
    have hoffset : offset ≤ size := UInt64.le_iff_toNat_le.2 (by omega)
    refine ⟨hoffset, ?_⟩
    rw [UInt64.le_iff_toNat_le, UInt64.toNat_sub_of_le _ _ hoffset]
    omega

variable {imageSize : UInt64}

theorem segmentOk_of_segmentFault {segment : Elf64LoadSegment}
    (h : segmentFault segment imageSize = none) : SegmentOk imageSize segment := by
  simp only [segmentFault] at h
  split at h
  · cases h
  rename_i hsizes
  split at h
  · cases h
  rename_i hflags
  split at h
  · cases h
  rename_i hfile
  split at h
  · cases h
  rename_i haddress
  simp only [not_or, gt_iff_lt, UInt64.not_lt, ne_eq] at hsizes haddress
  obtain ⟨-, hmemory, hfilesize⟩ := hsizes
  obtain ⟨hlow, hhigh, hlast⟩ := haddress
  have hpos : 0 < segment.memorySize.toNat :=
    Nat.pos_of_ne_zero fun h0 => hmemory (UInt64.toNat_inj.1 h0)
  have hone : (segment.memorySize - 1).toNat = segment.memorySize.toNat - 1 :=
    UInt64.toNat_sub_of_le _ _ (UInt64.le_iff_toNat_le.2 hpos)
  rw [UInt64.le_iff_toNat_le, hone, UInt64.toNat_sub_of_le _ _ hhigh] at hlast
  have hmax := UInt64.le_iff_toNat_le.1 hhigh
  exact
    { fileSize_le := UInt64.le_iff_toNat_le.1 hfilesize
      memorySize_pos := hpos
      first_ge := UInt64.le_iff_toNat_le.1 hlow
      last_le := by
        show segment.virtualAddress.toNat + segment.memorySize.toNat ≤ _
        omega
      file_le := rangeFitsSize_iff.1 (by simpa using hfile)
      not_both := hflags }

section Bounds

variable {imageSize : UInt64} {segment existing : Elf64LoadSegment}

section

variable (h : SegmentOk imageSize segment)
include h

theorem SegmentOk.first_lt_last : segment.first < segment.last := by
  have := h.memorySize_pos
  rw [last]
  omega

theorem SegmentOk.last_lt : segment.last ≤ 2 ^ 41 := h.last_le

theorem SegmentOk.end_toNat :
    (segment.virtualAddress + segment.memorySize).toNat = segment.last := by
  have hlast := h.last_lt
  rw [last, first] at hlast ⊢
  exact Align.toNat_add_of_lt (by omega)

end

theorem pageStart_toNat (address : UInt64) :
    (pageStart address).toNat = address.toNat / 4096 * 4096 :=
  Align.toNat_and_not (show (elf64PageSize - 1).toNat = 2 ^ 12 - 1 from rfl) (by omega) address

theorem pageEnd_toNat {address : UInt64} (h : address.toNat ≤ 2 ^ 41) :
    (pageEnd address).toNat = (address.toNat + 4095) / 4096 * 4096 := by
  have hadd : (address + elf64PageSize).toNat = address.toNat + 4096 :=
    Align.toNat_add_of_lt (show address.toNat + 4096 < 2 ^ 64 by omega)
  have hsub : (address + elf64PageSize - 1).toNat = address.toNat + 4095 := by
    rw [UInt64.toNat_sub_of_le _ _ (UInt64.le_iff_toNat_le.2
      (by rw [hadd]; show 1 ≤ _; omega)), hadd]
    rfl
  rw [pageEnd, Align.toNat_and_not (show (elf64PageSize - 1).toNat = 2 ^ 12 - 1 from rfl)
    (by omega), hsub]
  rfl

theorem virtualRangesOverlap_eq_false_iff {a b c d : UInt64} :
    virtualRangesOverlap a b c d = false ↔ d.toNat ≤ a.toNat ∨ b.toNat ≤ c.toNat := by
  simp only [virtualRangesOverlap, decide_eq_false_iff_not, UInt64.lt_iff_toNat_lt]
  omega

/-- A flag of one of two segments is one of the combined flags. -/
theorem or_and_ne_zero {a b mask : UInt32} (h : a &&& mask ≠ 0 ∨ b &&& mask ≠ 0) :
    (a ||| b) &&& mask ≠ 0 := by
  have hdistrib : (a ||| b) &&& mask = (a &&& mask) ||| (b &&& mask) := UInt32.toNat_inj.1 (by
    simp only [UInt32.toNat_and, UInt32.toNat_or, Nat.and_or_distrib_right])
  intro hzero
  rw [hdistrib, UInt32.or_eq_zero_iff] at hzero
  exact h.elim (fun h => h hzero.1) fun h => h hzero.2

theorem compatible_of_existingFault (hs : SegmentOk imageSize segment)
    (he : SegmentOk imageSize existing) (h : existingFault segment existing = none) :
    Compatible segment existing := by
  simp only [existingFault] at h
  split at h
  · cases h
  rename_i hbytes
  split at h
  · cases h
  rename_i hpages
  rw [Bool.not_eq_true, virtualRangesOverlap_eq_false_iff, hs.end_toNat, he.end_toNat] at hbytes
  refine ⟨?_, ?_⟩
  · rintro address ⟨⟨hs1, hs2⟩, he1, he2⟩
    rcases hbytes with hbytes | hbytes
    · have : existing.last ≤ segment.first := hbytes
      omega
    · have : segment.last ≤ existing.first := hbytes
      omega
  · rintro hflags page ⟨⟨a, ⟨ha1, ha2⟩, rfl⟩, b, ⟨hb1, hb2⟩, hab⟩
    have hapart : virtualRangesOverlap (pageStart segment.virtualAddress)
        (pageEnd (segment.virtualAddress + segment.memorySize))
        (pageStart existing.virtualAddress)
        (pageEnd (existing.virtualAddress + existing.memorySize)) = false := by
      refine Bool.eq_false_iff.2 fun htrue => hpages ⟨htrue, ?_, ?_⟩
      · exact or_and_ne_zero (hflags.imp (fun h => h.1) fun h => h.1)
      · exact or_and_ne_zero (hflags.symm.imp (fun h => h.2) fun h => h.2)
    have hslast := hs.last_lt
    have helast := he.last_lt
    have hsend := pageEnd_toNat (hs.end_toNat.trans_le hslast)
    have heend := pageEnd_toNat (he.end_toNat.trans_le helast)
    rw [hs.end_toNat] at hsend
    rw [he.end_toNat] at heend
    rw [virtualRangesOverlap_eq_false_iff, pageStart_toNat, pageStart_toNat, hsend, heend]
      at hapart
    change _ ≤ segment.first / 4096 * 4096 ∨ _ ≤ existing.first / 4096 * 4096 at hapart
    omega

end Bounds

/-! ## The plan -/

/-- The bytes of the file are the ones of an executable segment at the entry point. -/
def EntryIn (entryPoint : UInt64) (segment : Elf64LoadSegment) : Prop :=
  segment.Executable ∧ segment.first ≤ entryPoint.toNat ∧
    entryPoint.toNat < segment.first + segment.fileSize.toNat

theorem entryIn_of_entryInSegment {entryPoint : UInt64} {segment : Elf64LoadSegment}
    (h : entryInSegment entryPoint segment = true) : EntryIn entryPoint segment := by
  simp only [entryInSegment, decide_eq_true_eq] at h
  obtain ⟨hexecute, hle, hlt⟩ := h
  rw [UInt64.lt_iff_toNat_lt, UInt64.toNat_sub_of_le _ _ hle] at hlt
  have hge := UInt64.le_iff_toNat_le.1 hle
  exact ⟨hexecute, hge, by rw [first]; omega⟩

/-- The segments of the headers of the type `PT_LOAD`. -/
def loadSegments (headers : List Memory) : List Elf64LoadSegment :=
  (headers.filter fun header => readU32Le header = elf64PtLoad).map readSegment

/-- What holds of the plan and of `entry_is_executable` after the given headers. -/
structure PlanInvariant (imageSize entryPoint : UInt64) (headers : List Memory)
    (plan : Elf64ImagePlan) (entryIsExecutable : Bool) : Prop where
  entryPoint_eq : plan.entryPoint = entryPoint
  segments_eq : plan.segments = loadSegments headers
  segmentOk : ∀ segment ∈ plan.segments, SegmentOk imageSize segment
  compatible : plan.segments.Pairwise Compatible
  base_le : ∀ segment ∈ plan.segments, plan.virtualBase.toNat ≤ segment.first
  base_eq : plan.virtualBase = uint64Max ∧ plan.segments = [] ∨
    ∃ segment ∈ plan.segments, plan.virtualBase.toNat = segment.first
  le_end : ∀ segment ∈ plan.segments, segment.last ≤ plan.virtualEnd.toNat
  end_eq : plan.virtualEnd = 0 ∧ plan.segments = [] ∨
    ∃ segment ∈ plan.segments, plan.virtualEnd.toNat = segment.last
  entry : entryIsExecutable = true → ∃ segment ∈ plan.segments, EntryIn entryPoint segment

theorem planInvariant_initialPlan (bytes : Memory) (imageSize : UInt64) :
    PlanInvariant imageSize (entryPointOf bytes) [] (initialPlan bytes) false where
  entryPoint_eq := rfl
  segments_eq := rfl
  segmentOk := by simp [initialPlan]
  compatible := .nil
  base_le := by simp [initialPlan]
  base_eq := .inl ⟨rfl, rfl⟩
  le_end := by simp [initialPlan]
  end_eq := .inl ⟨rfl, rfl⟩
  entry := nofun

namespace PlanInvariant

variable {imageSize entryPoint : UInt64} {headers : List Memory} {plan plan' : Elf64ImagePlan}
  {entryIsExecutable entryIsExecutable' : Bool} {header : Memory}

section

variable (h : PlanInvariant imageSize entryPoint headers plan entryIsExecutable)

include h

theorem skip (htype : readU32Le header ≠ elf64PtLoad) :
    PlanInvariant imageSize entryPoint (headers ++ [header]) plan entryIsExecutable :=
  { h with segments_eq := by rw [h.segments_eq]; simp [loadSegments, htype] }

/-- The least start after a segment was added. -/
theorem append_base (segment : Elf64LoadSegment) :
    (∀ s ∈ (plan.append segment).segments, (plan.append segment).virtualBase.toNat ≤ s.first) ∧
      ∃ s ∈ (plan.append segment).segments, (plan.append segment).virtualBase.toNat = s.first := by
  simp only [append, mem_append, mem_singleton, or_imp, forall_and, forall_eq]
  split
  next hnew =>
    refine ⟨⟨fun s hs => ?_, le_refl _⟩, segment, .inr rfl, rfl⟩
    rcases hnew with hmax | hlt
    · -- The base is that of no segment yet, so there is none.
      exfalso
      rcases h.base_eq with ⟨-, hnil⟩ | ⟨t, ht, hbase⟩
      · simp [hnil] at hs
      · have hlast := (h.segmentOk t ht).last_lt
        have hfirst := (h.segmentOk t ht).first_lt_last
        rw [hmax, show uint64Max.toNat = 2 ^ 64 - 1 from rfl] at hbase
        omega
    · exact (UInt64.lt_iff_toNat_lt.1 hlt).le.trans (h.base_le s hs)
  next hold =>
    simp only [not_or, UInt64.not_lt] at hold
    refine ⟨⟨h.base_le, UInt64.le_iff_toNat_le.1 hold.2⟩, ?_⟩
    rcases h.base_eq with ⟨hmax, -⟩ | ⟨t, ht, hbase⟩
    · exact absurd hmax hold.1
    · exact ⟨t, .inl ht, hbase⟩

/-- The greatest end after a segment was added. -/
theorem append_end {segment : Elf64LoadSegment} (hsegment : SegmentOk imageSize segment) :
    (∀ s ∈ (plan.append segment).segments, s.last ≤ (plan.append segment).virtualEnd.toNat) ∧
      ∃ s ∈ (plan.append segment).segments, (plan.append segment).virtualEnd.toNat = s.last := by
  simp only [append, mem_append, mem_singleton, or_imp, forall_and, forall_eq]
  split
  next hnew =>
    rw [gt_iff_lt, UInt64.lt_iff_toNat_lt, hsegment.end_toNat] at hnew
    rw [hsegment.end_toNat]
    exact ⟨⟨fun s hs => (h.le_end s hs).trans hnew.le, le_refl _⟩, segment, .inr rfl, rfl⟩
  next hold =>
    rw [gt_iff_lt, UInt64.not_lt, UInt64.le_iff_toNat_le, hsegment.end_toNat] at hold
    refine ⟨⟨h.le_end, hold⟩, ?_⟩
    rcases h.end_eq with ⟨hzero, -⟩ | ⟨t, ht, hend⟩
    · have hpos := hsegment.first_lt_last
      rw [hzero] at hold
      exact absurd (hpos.trans_le hold) (Nat.not_lt_zero _)
    · exact ⟨t, .inl ht, hend⟩

theorem load (htype : readU32Le header = elf64PtLoad)
    (hload : inspectLoadSegment header imageSize plan entryIsExecutable =
      .ok (plan', entryIsExecutable')) :
    PlanInvariant imageSize entryPoint (headers ++ [header]) plan' entryIsExecutable' := by
  rw [inspectLoadSegment] at hload
  cases hfault : segmentFault (readSegment header) imageSize with
  | some fault => simp [hfault] at hload
  | none =>
    simp only [hfault] at hload
    split at hload
    · cases hload
    cases hexisting : plan.segments.findSome? (existingFault (readSegment header)) with
    | some fault => simp [hexisting] at hload
    | none =>
      simp only [hexisting, Except.ok.injEq, Prod.mk.injEq] at hload
      obtain ⟨rfl, rfl⟩ := hload
      have hsegment := segmentOk_of_segmentFault hfault
      rw [findSome?_eq_none_iff] at hexisting
      have hbase := h.append_base (readSegment header)
      have hend := h.append_end hsegment
      exact
        { entryPoint_eq := h.entryPoint_eq
          segments_eq := by
            show plan.segments ++ [readSegment header] = _
            rw [h.segments_eq]
            simp [loadSegments, htype]
          segmentOk := by
            simp only [append, forall_mem_append, forall_mem_singleton]
            exact ⟨h.segmentOk, hsegment⟩
          compatible := by
            refine pairwise_append.2 ⟨h.compatible, pairwise_singleton _ _, ?_⟩
            intro s hs t ht
            rw [mem_singleton.1 ht]
            exact (compatible_of_existingFault hsegment (h.segmentOk s hs) (hexisting s hs)).symm
          base_le := hbase.1
          base_eq := .inr hbase.2
          le_end := hend.1
          end_eq := .inr hend.2
          entry := by
            intro hentry
            rcases Bool.or_eq_true_iff.1 hentry with hentry | hentry
            · obtain ⟨s, hs, hin⟩ := h.entry hentry
              exact ⟨s, mem_append_left _ hs, hin⟩
            · rw [h.entryPoint_eq] at hentry
              exact ⟨_, mem_append_right _ (mem_singleton.2 rfl),
                entryIn_of_entryInSegment hentry⟩ }

/-- The loop over the rest of the headers keeps the invariant. -/
theorem inspectProgramHeaders {rest : List Memory}
    (hrest : Elf.inspectProgramHeaders imageSize rest plan entryIsExecutable =
      .ok (plan', entryIsExecutable')) :
    PlanInvariant imageSize entryPoint (headers ++ rest) plan' entryIsExecutable' := by
  induction rest generalizing headers plan entryIsExecutable with
  | nil =>
    obtain ⟨rfl, rfl⟩ : plan = plan' ∧ entryIsExecutable = entryIsExecutable' := by
      simpa [Elf.inspectProgramHeaders] using hrest
    rwa [append_nil]
  | cons header rest ih =>
    rw [append_cons]
    simp only [Elf.inspectProgramHeaders] at hrest
    split at hrest
    · cases hrest
    split at hrest
    next htype => exact ih (h.skip htype) hrest
    rename_i htype
    split at hrest
    · cases hrest
    next plan₁ entry₁ hload => exact ih (h.load (not_not.1 htype) hload) hrest

theorem base_le_end (hne : plan.segments ≠ []) : plan.virtualBase ≤ plan.virtualEnd := by
  obtain ⟨low, hlow, hbase⟩ := h.base_eq.resolve_left fun hnil => hne hnil.2
  rw [UInt64.le_iff_toNat_le, hbase]
  exact ((h.segmentOk low hlow).first_lt_last.trans_le (h.le_end low hlow)).le

end

end PlanInvariant

/-- What holds of a plan that was accepted for the image. -/
structure AcceptedPlan (bytes : Memory) (imageSize : UInt64) (plan : Elf64ImagePlan) : Prop where
  entryPoint_eq : plan.entryPoint = entryPointOf bytes
  /-- The segments are the headers of the type `PT_LOAD`, in their order. -/
  segments_eq : plan.segments = loadSegments (programHeaders bytes)
  segmentOk : ∀ segment ∈ plan.segments, SegmentOk imageSize segment
  disjoint : plan.segments.Pairwise fun segment other =>
    ∀ address, ¬(segment.Holds address ∧ other.Holds address)
  /-- No page has bytes of a writable and of an executable segment. -/
  pages : ∀ segment ∈ plan.segments, ∀ other ∈ plan.segments, segment.Writable →
    other.Executable → ∀ page, ¬(segment.Touches page ∧ other.Touches page)
  entry : ∃ segment ∈ plan.segments, EntryIn plan.entryPoint segment
  virtualBase : IsLeast {n | ∃ segment ∈ plan.segments, segment.first = n} plan.virtualBase.toNat
  virtualEnd : IsGreatest {n | ∃ segment ∈ plan.segments, segment.last = n} plan.virtualEnd.toNat
  imageSpan_eq : plan.imageSpan.toNat = plan.virtualEnd.toNat - plan.virtualBase.toNat
  imageSpan_le : plan.imageSpan.toNat ≤ 16 * 1024 * 1024

theorem PlanInvariant.finishPlan {bytes : Memory} {plan plan' : Elf64ImagePlan}
    {entryIsExecutable : Bool}
    (h : PlanInvariant imageSize (entryPointOf bytes) (programHeaders bytes) plan entryIsExecutable)
    (hfinish : Elf.finishPlan plan entryIsExecutable = .ok plan') :
    AcceptedPlan bytes imageSize plan' := by
  simp only [Elf.finishPlan] at hfinish
  split at hfinish
  · cases hfinish
  rename_i hcount
  split at hfinish
  · cases hfinish
  rename_i hentry
  split at hfinish
  · cases hfinish
  rename_i hspan
  obtain rfl := Except.ok.inj hfinish
  have hne : plan.segments ≠ [] := fun hnil => hcount (by simp [hnil])
  obtain ⟨low, hlow, hbase⟩ := h.base_eq.resolve_left fun hnil => hne hnil.2
  obtain ⟨high, hhigh, hend⟩ := h.end_eq.resolve_left fun hnil => hne hnil.2
  simp only [not_or, gt_iff_lt, UInt64.not_lt] at hspan
  exact
    { entryPoint_eq := h.entryPoint_eq
      segments_eq := h.segments_eq
      segmentOk := h.segmentOk
      disjoint := h.compatible.imp fun hc => hc.disjoint
      pages := by
        intro segment hs other ho hwrite hexecute page hboth
        by_cases heq : segment = other
        · exact (h.segmentOk segment hs).not_both ⟨hwrite, heq ▸ hexecute⟩
        · exact (h.compatible.forall hs ho heq).pages (.inl ⟨hwrite, hexecute⟩) page hboth
      entry := by
        obtain ⟨s, hs, hin⟩ := h.entry (by simpa using hentry)
        exact ⟨s, hs, by rw [h.entryPoint_eq]; exact hin⟩
      virtualBase := ⟨⟨low, hlow, hbase.symm⟩, by rintro _ ⟨s, hs, rfl⟩; exact h.base_le s hs⟩
      virtualEnd := ⟨⟨high, hhigh, hend.symm⟩, by rintro _ ⟨s, hs, rfl⟩; exact h.le_end s hs⟩
      imageSpan_eq := UInt64.toNat_sub_of_le _ _ (h.base_le_end hne)
      imageSpan_le := UInt64.le_iff_toNat_le.1 hspan.2.1 }

theorem acceptedPlan_of_inspectImage {bytes : Memory} {plan : Elf64ImagePlan}
    (h : inspectImage bytes imageSize = .ok plan) : AcceptedPlan bytes imageSize plan := by
  rw [inspectImage] at h
  split at h
  · cases h
  split at h
  · cases h
  rename_i plan₁ entry₁ hheaders
  have hinvariant := (planInvariant_initialPlan bytes imageSize).inspectProgramHeaders hheaders
  exact hinvariant.finishPlan h

end Nostalux.Elf

import Mathlib.Tactic

/-!
# Byte streams in a 32-bit sequence space

A sender numbers the elements of a finite stream by 32-bit sequence numbers that start at `start`;
the end of the stream takes one more number.  A segment of the stream carries consecutive elements,
the number of the first one and possibly the end mark (`Carries`).  Numbers wrap around, but a
stream with at most `2 ^ 32 - 2` elements never uses a number twice, so a receiver that only takes
segments at the number it expects takes the stream in order (`Carries.extends`) and takes nothing
behind its end (`Carries.eq_nil_of_ended`).
-/

namespace SequenceSpace

open UInt32

variable {α : Type*}

/-! ### Comparing numbers

Numbers are compared by the sign of their difference.  That is right as long as the numbers in use
are fewer than half of the space. -/

theorem toInt32_lt_zero_iff (x : UInt32) : x.toInt32 < 0 ↔ 2 ^ 31 ≤ x.toNat := by
  rw [Int32.lt_iff_toInt_lt]
  show x.toBitVec.toInt < 0 ↔ 2 ^ 31 ≤ x.toBitVec.toNat
  rw [BitVec.toInt_eq_toNat_cond]
  split_ifs <;> omega

theorem zero_lt_toInt32_iff (x : UInt32) : 0 < x.toInt32 ↔ 0 < x.toNat ∧ x.toNat < 2 ^ 31 := by
  rw [Int32.lt_iff_toInt_lt]
  show 0 < x.toBitVec.toInt ↔ 0 < x.toBitVec.toNat ∧ x.toBitVec.toNat < 2 ^ 31
  rw [BitVec.toInt_eq_toNat_cond]
  split_ifs <;> omega

/-- A number that is neither behind `last` nor before `first` lies between the two, on the cycle. -/
theorem between_iff {first last number : UInt32} (h : (last - first).toNat < 2 ^ 31) :
    ¬0 < (number - last).toInt32 ∧ ¬(number - first).toInt32 < 0 ↔
      (number - first).toNat ≤ (last - first).toNat := by
  rw [zero_lt_toInt32_iff, toInt32_lt_zero_iff]
  have h2 := last.toNat_lt
  simp only [UInt32.toNat_sub] at h ⊢
  omega

/-! ### Segments of a stream -/

/-- The segment with the given sequence number, data and end mark belongs to the stream.  A segment
without data and without the end mark may also stand right behind the end of the stream. -/
structure Carries (stream : List α) (start sequence : UInt32) (data : List α)
    (fin : Bool) : Prop where
  exists_offset : ∃ k ≤ stream.length + 1, sequence = start + UInt32.ofNat k ∧
    data <+: stream.drop k ∧ (fin = true → k + data.length = stream.length)

/-- Positions up to the one behind the end mark have different numbers. -/
theorem offset_inj {start : UInt32} {k l : ℕ} (hk : k < 2 ^ 32) (hl : l < 2 ^ 32)
    (h : start + ofNat k = start + ofNat l) : k = l := by
  have hof : ofNat k = ofNat l := by
    have hsub := congrArg (· - start) h
    simpa [UInt32.add_sub_cancel, UInt32.add_comm start] using hsub
  have hnat := congrArg toNat hof
  rwa [toNat_ofNat', toNat_ofNat', Nat.mod_eq_of_lt hk, Nat.mod_eq_of_lt hl] at hnat

/-- A front part of a stream, lengthened by what follows it, is a front part again. -/
theorem append_isPrefix {stream front data : List α} (hfront : front <+: stream)
    (hdata : data <+: stream.drop front.length) : front ++ data <+: stream := by
  obtain ⟨rest, rfl⟩ := hfront
  rw [List.drop_left] at hdata
  exact (List.prefix_append_right_inj front).2 hdata

variable {stream data front : List α} {start sequence : UInt32} {fin : Bool}

/-- A segment at the number of the next element extends the received front part; with the end mark
it completes the stream. -/
theorem Carries.extends (h : Carries stream start sequence data fin)
    (hlen : stream.length + 2 ≤ 2 ^ 32) (hfront : front <+: stream)
    (hseq : sequence = start + ofNat front.length) :
    front ++ data <+: stream ∧ (fin = true → front ++ data = stream) := by
  obtain ⟨k, hk, hsequence, hdata, hfin⟩ := h.exists_offset
  have hle := hfront.length_le
  have hkeq : k = front.length := by
    apply offset_inj (by omega) (by omega)
    rw [← hsequence, hseq]
  subst hkeq
  have happend := append_isPrefix hfront hdata
  refine ⟨happend, fun hf => happend.eq_of_length ?_⟩
  rw [List.length_append, hfin hf]

/-- Behind the end of the stream there is no data and no second end mark. -/
theorem Carries.eq_nil_of_ended (h : Carries stream start sequence data fin)
    (hlen : stream.length + 2 ≤ 2 ^ 32)
    (hseq : sequence = start + ofNat (stream.length + 1)) : data = [] ∧ fin = false := by
  obtain ⟨k, hk, hsequence, hdata, hfin⟩ := h.exists_offset
  have hkeq : k = stream.length + 1 := by
    apply offset_inj (by omega) (by omega)
    rw [← hsequence, hseq]
  constructor
  · rwa [List.drop_eq_nil_of_le (by omega), List.prefix_nil] at hdata
  · cases fin with
    | false => rfl
    | true =>
      have hcount := hfin rfl
      omega

end SequenceSpace

import Mathlib.Tactic

/-!
# Ones-complement checksums

The checksum of the Internet protocols adds the 16-bit big-endian words of a message, folds the
carries back into sixteen bits and complements the result.

* `foldCarries_eq` gives the folded sum in closed form, so that it can be evaluated;
* `complement_eq_zero_iff` says when a message verifies: its words sum to a positive multiple of
  `65535`;
* `complement_add_complement`: a message with its checksum verifies;
* `complement_flipBit_ne_zero`: a message that verifies does not with one bit changed.
-/

namespace OnesComplement

open List Nat UInt8

/-- The sum of the big-endian 16-bit words of a message; an odd last byte is the high byte of a
word whose low byte is zero. -/
def wordSum : List UInt8 → ℕ
  | [] => 0
  | [a] => a.toNat * 256
  | a :: b :: rest => a.toNat * 256 + b.toNat + wordSum rest

/-- The loop that adds the carries above sixteen bits back to the sum. -/
def foldCarries (sum : ℕ) : ℕ :=
  if sum / 65536 ≠ 0 then foldCarries (sum % 65536 + sum / 65536) else sum
termination_by sum
decreasing_by omega

variable (sum : ℕ)

/-- The folded sum is the representative of the sum modulo `65535`, and it is zero for zero only. -/
theorem foldCarries_eq : foldCarries sum = if sum = 0 then 0 else (sum - 1) % 65535 + 1 := by
  induction sum using Nat.strong_induction_on with
  | _ sum ih =>
    rw [foldCarries]
    by_cases h : sum / 65536 ≠ 0
    · -- one round keeps the sum modulo 65535, and it keeps it positive
      rw [if_pos h, ih _ (by omega)]
      rw [if_neg (by omega), if_neg (by omega)]
      omega
    · rw [if_neg h]
      split_ifs with h0
      · exact h0
      · omega

/-- The complement of the folded sum, as it is stored in a header. -/
def complement (sum : ℕ) : UInt16 := UInt16.ofNat (65535 - foldCarries sum)

theorem toNat_complement : (complement sum).toNat = 65535 - foldCarries sum := by
  exact mod_eq_of_lt (by omega)

/-- A message verifies when its words sum to a positive multiple of `65535`. -/
theorem complement_eq_zero_iff : complement sum = 0 ↔ sum ≠ 0 ∧ sum % 65535 = 0 := by
  rw [← UInt16.toNat_inj, toNat_complement, foldCarries_eq]
  have h0 : (0 : UInt16).toNat = 0 := rfl
  split_ifs with h
  · simp [h]
  · omega

/-- A message that gets its checksum as another word verifies. -/
theorem complement_add_complement : complement (sum + (complement sum).toNat) = 0 := by
  rw [complement_eq_zero_iff, toNat_complement, foldCarries_eq]
  split_ifs with h
  · omega
  · omega

/-- So it does when a zero checksum is stored as `0xFFFF`. -/
theorem complement_add_nonzero :
    complement
      (sum + (if complement sum = 0 then (0xFFFF : UInt16) else complement sum).toNat) = 0 := by
  split_ifs with h
  · have hones : (0xFFFF : UInt16).toNat = 65535 := rfl
    rw [complement_eq_zero_iff] at h ⊢
    omega
  · exact complement_add_complement sum

/-! ### The words of a message -/

/-- The value of the byte at an index within its word. -/
def weight (i : ℕ) : ℕ := if i % 2 = 0 then 256 else 1

theorem weight_zero : weight 0 = 256 := rfl

theorem weight_one : weight 1 = 1 := rfl

theorem weight_add_two (i : ℕ) : weight (i + 2) = weight i := by
  rw [weight, weight, add_mod_right]

theorem wordSum_append {front : List UInt8} (h : front.length % 2 = 0) (back : List UInt8) :
    wordSum (front ++ back) = wordSum front + wordSum back := by
  induction front using wordSum.induct with
  | case1 => simp [wordSum]
  | case2 a => simp at h
  | case3 a b rest ih =>
    have hrest : rest.length % 2 = 0 := by
      rw [length_cons, length_cons] at h
      omega
    rw [cons_append, cons_append, wordSum, wordSum, ih hrest]
    omega

theorem wordSum_le (bytes : List UInt8) : wordSum bytes ≤ 65535 * ((bytes.length + 1) / 2) := by
  induction bytes using wordSum.induct with
  | case1 => simp [wordSum]
  | case2 a =>
    have ha := a.toNat_lt
    simp only [wordSum, length_singleton]
    omega
  | case3 a b rest ih =>
    have ha := a.toNat_lt
    have hb := b.toNat_lt
    simp only [wordSum, length_cons]
    omega

variable {bytes : List UInt8}

/-- One byte of a message is stored. -/
theorem wordSum_set {i : ℕ} (hi : i < bytes.length) (b : UInt8) :
    wordSum (bytes.set i b) + bytes[i].toNat * weight i = wordSum bytes + b.toNat * weight i := by
  induction bytes using wordSum.induct generalizing i with
  | case1 => exact absurd hi (not_lt_zero i)
  | case2 a =>
    obtain rfl : i = 0 := by simpa using hi
    simp [wordSum, weight, add_comm]
  | case3 a c rest ih =>
    match i, hi with
    | 0, _ =>
      simp only [set_cons_zero, wordSum, getElem_cons_zero, weight_zero]
      omega
    | 1, _ =>
      simp only [set_cons_succ, set_cons_zero, wordSum, getElem_cons_succ,
        getElem_cons_zero, weight_one]
      omega
    | i + 2, hi =>
      have hrest : i < rest.length := by simpa using hi
      have hset := ih hrest
      simp only [set_cons_succ, wordSum, getElem_cons_succ, weight_add_two]
      omega

/-! ### One bit of a message -/

/-- The message with one bit changed. -/
def flipBit (bytes : List UInt8) (k : ℕ) : List UInt8 :=
  bytes.modify (k / 8) fun b => UInt8.ofNat (b.toNat ^^^ 2 ^ (k % 8))

@[simp] theorem length_flipBit (bytes : List UInt8) (k : ℕ) :
    (flipBit bytes k).length = bytes.length := length_modify ..

/-- Changing a bit of a byte adds or takes a power of two. -/
theorem xor_two_pow : ∀ n < 256, ∀ j < 8, n ^^^ 2 ^ j < 256 ∧
    (n ^^^ 2 ^ j = n + 2 ^ j ∨ (n ^^^ 2 ^ j) + 2 ^ j = n) := by decide +kernel

/-- Changing a bit of a message adds or takes a power of two that is less than a word. -/
theorem wordSum_flipBit {k : ℕ} (hk : k < 8 * bytes.length) :
    ∃ j < 16, wordSum (flipBit bytes k) = wordSum bytes + 2 ^ j ∨
      wordSum (flipBit bytes k) + 2 ^ j = wordSum bytes := by
  have hi : k / 8 < bytes.length := by omega
  obtain ⟨hlt, hxor⟩ := xor_two_pow bytes[k / 8].toNat bytes[k / 8].toNat_lt (k % 8) (by omega)
  have hflip : flipBit bytes k =
      bytes.set (k / 8) (ofNat (bytes[k / 8].toNat ^^^ 2 ^ (k % 8))) := by
    rw [flipBit, modify_eq_set_getElem?, getElem?_eq_getElem hi]
    rfl
  have hbyte : (ofNat (bytes[k / 8].toNat ^^^ 2 ^ (k % 8))).toNat =
      bytes[k / 8].toNat ^^^ 2 ^ (k % 8) := by
    exact mod_eq_of_lt hlt
  have hset := wordSum_set hi (ofNat (bytes[k / 8].toNat ^^^ 2 ^ (k % 8)))
  rw [← hflip, hbyte] at hset
  by_cases heven : k / 8 % 2 = 0
  · -- a bit of the high byte of a word
    refine ⟨k % 8 + 8, by omega, ?_⟩
    rw [weight, if_pos heven] at hset
    rw [pow_add]
    omega
  · refine ⟨k % 8, by omega, ?_⟩
    rw [weight, if_neg heven] at hset
    omega

/-- A power of two less than a word is no multiple of `65535`. -/
theorem two_pow_mod : ∀ j < 16, 2 ^ j % 65535 ≠ 0 := by decide

/-- **A message that verifies does not when one of its bits is changed.** -/
theorem complement_flipBit_ne_zero {start : ℕ}
    (h : complement (start + wordSum bytes) = 0) {k : ℕ} (hk : k < 8 * bytes.length) :
    complement (start + wordSum (flipBit bytes k)) ≠ 0 := by
  intro hflipped
  rw [complement_eq_zero_iff] at h hflipped
  obtain ⟨j, hj, hsum⟩ := wordSum_flipBit hk
  have hpow := two_pow_mod j hj
  omega

end OnesComplement

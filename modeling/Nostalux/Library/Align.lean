import Mathlib.Data.Nat.Bitwise
import Mathlib.Tactic

/-!
# Alignment of machine words

Masks of the form `2 ^ k - 1` and their complements compute the remainder and the rounding of a
64-bit word to a multiple of `2 ^ k`.
-/

namespace Align

open Nat

theorem and_sub_two_pow {x k w : ℕ} (hx : x < 2 ^ w) (hk : k ≤ w) :
    x &&& (2 ^ w - 2 ^ k) = x / 2 ^ k * 2 ^ k := by
  have hmask : 2 ^ w - 2 ^ k = (2 ^ (w - k) - 1) <<< k := by
    rw [Nat.shiftLeft_eq, Nat.sub_mul, ← pow_add, Nat.sub_add_cancel hk, one_mul]
  apply eq_of_testBit_eq
  intro i
  rw [testBit_and, ← shiftRight_eq_div_pow, ← shiftLeft_eq, testBit_shiftLeft,
    testBit_shiftRight, hmask, testBit_shiftLeft, testBit_two_pow_sub_one]
  by_cases hi : k ≤ i
  · by_cases hlt : i < w
    · simp [hi, Nat.add_sub_cancel' hi, show i - k < w - k by omega]
    · have hbit : x.testBit i = false := testBit_lt_two_pow
        (hx.trans_le (Nat.pow_le_pow_right (by omega) (by omega)))
      simp [hi, Nat.add_sub_cancel' hi, hbit]
  · simp [hi]

/-- The value of a word whose bits below `k` are cleared. -/
theorem toNat_and_not {mask : UInt64} {k : ℕ} (hmask : mask.toNat = 2 ^ k - 1) (hk : k ≤ 64)
    (x : UInt64) : (x &&& ~~~mask).toNat = x.toNat / 2 ^ k * 2 ^ k := by
  have hpow : 1 ≤ 2 ^ k := Nat.one_le_two_pow
  rw [UInt64.toNat_and, UInt64.toNat_not, hmask, ← and_sub_two_pow x.toNat_lt hk]
  congr 1
  rw [UInt64.size]
  omega

/-- The value of the bits below `k` of a word. -/
theorem toNat_and {mask : UInt64} {k : ℕ} (hmask : mask.toNat = 2 ^ k - 1) (x : UInt64) :
    (x &&& mask).toNat = x.toNat % 2 ^ k := by
  rw [UInt64.toNat_and, hmask, and_two_pow_sub_one_eq_mod]

theorem toNat_add_of_lt {a b : UInt64} (h : a.toNat + b.toNat < 2 ^ 64) :
    (a + b).toNat = a.toNat + b.toNat := by
  rw [UInt64.toNat_add, mod_eq_of_lt h]

end Align

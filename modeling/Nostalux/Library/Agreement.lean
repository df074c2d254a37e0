import Nostalux.Library.Memory
import Nostalux.Library.BigEndian

/-!
# Buffers that agree on a front part

`Memory.Agree n m m'` says that two pointers see the same first `n` bytes.  A read inside of the
first `n` bytes, a copy of them and a list of them then give the same result.
-/

namespace Memory

/-- Two pointers see the same first `n` bytes. -/
def Agree (n : ℕ) (m m' : Memory) : Prop := ∀ i < n, m i = m' i

namespace Agree

open BigEndian

variable {n k size : ℕ} {m m' : Memory}

theorem mono (h : Agree n m m') (hk : k ≤ n) : Agree k m m' := fun i hi => h i (by omega)

/-- The pointers behind the first `k` bytes. -/
theorem shift (h : Agree (k + n) m m') : Agree n (m.shift k) (m'.shift k) :=
  fun i hi => h (k + i) (by omega)

theorem bytes_eq (h : Agree n m m') : m.bytes n = m'.bytes n := bytes_congr h

theorem u16At_eq (h : Agree n m m') (off : ℕ) (hoff : off + 2 ≤ n) :
    u16At m off = u16At m' off := by
  rw [u16At, u16At, h off (by omega), h (off + 1) (by omega)]

theorem u32At_eq (h : Agree n m m') (off : ℕ) (hoff : off + 4 ≤ n) :
    u32At m off = u32At m' off := by
  rw [u32At, u32At, h off (by omega), h (off + 1) (by omega), h (off + 2) (by omega),
    h (off + 3) (by omega)]

theorem blit_eq (h : Agree size m m') (target : Memory) (off : ℕ) :
    target.blit off m size = target.blit off m' size := by
  funext j
  by_cases hj : off ≤ j ∧ j < off + size
  · rw [blit, blit, if_pos hj, if_pos hj, h (j - off) (by omega)]
  · rw [blit, blit, if_neg hj, if_neg hj]

end Agree

end Memory

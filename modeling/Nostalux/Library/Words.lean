import Nostalux.Library.Memory

/-!
# 64-bit words in memory

A word takes eight bytes, the lowest first.

* `Memory.word`: reading a word.
-/

namespace Memory

/-- The word at an address. -/
def word (m : Memory) (a : ℕ) : UInt64 :=
  UInt64.ofNat ((m a).toNat + 256 * (m (a + 1)).toNat + 256 ^ 2 * (m (a + 2)).toNat +
    256 ^ 3 * (m (a + 3)).toNat + 256 ^ 4 * (m (a + 4)).toNat + 256 ^ 5 * (m (a + 5)).toNat +
    256 ^ 6 * (m (a + 6)).toNat + 256 ^ 7 * (m (a + 7)).toNat)

end Memory

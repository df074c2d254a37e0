import Mathlib.Tactic

/-!
# Byte pointers

A pointer is seen as the bytes behind it: a function from offsets to bytes.  `Memory.bytes` reads a
front part as a list, and `Memory.blit` is the memory after a range was copied into it.
-/

/-- The bytes behind a pointer. -/
abbrev Memory := ℕ → UInt8

namespace Memory

variable {m m' : Memory}

/-- The pointer `m + k`. -/
def shift (m : Memory) (k : ℕ) : Memory := fun i => m (k + i)

@[simp] theorem shift_apply (m : Memory) (k i : ℕ) : m.shift k i = m (k + i) := rfl

@[simp] theorem shift_zero (m : Memory) : m.shift 0 = m := by
  funext i
  simp

theorem shift_shift (m : Memory) (k l : ℕ) : (m.shift k).shift l = m.shift (k + l) := by
  funext i
  simp [Nat.add_assoc]

/-- The first `size` bytes. -/
def bytes (m : Memory) (size : ℕ) : List UInt8 := (List.range size).map m

@[simp] theorem length_bytes (m : Memory) (size : ℕ) : (m.bytes size).length = size := by
  simp [bytes]

theorem bytes_congr {size : ℕ} (h : ∀ i < size, m i = m' i) : m.bytes size = m'.bytes size :=
  List.map_congr_left fun i hi => h i (List.mem_range.1 hi)

theorem bytes_add (m : Memory) (k l : ℕ) : m.bytes (k + l) = m.bytes k ++ (m.shift k).bytes l := by
  simp only [bytes, List.range_add, List.map_append, List.map_map]
  rfl

/-- The memory after `len` bytes of `src` were copied to the offset `off`. -/
def blit (m : Memory) (off : ℕ) (src : Memory) (len : ℕ) : Memory :=
  fun j => if off ≤ j ∧ j < off + len then src (j - off) else m j

theorem blit_of_not {off len j : ℕ} (src : Memory) (h : j < off ∨ off + len ≤ j) :
    m.blit off src len j = m j :=
  if_neg (by omega)

theorem blit_add {off len k : ℕ} (src : Memory) (h : k < len) :
    m.blit off src len (off + k) = src k := by
  rw [blit, if_pos (by omega), Nat.add_sub_cancel_left]

/-- A copy seen from a pointer in front of it. -/
theorem shift_blit (m : Memory) (k off : ℕ) (src : Memory) (len : ℕ) :
    (m.blit (k + off) src len).shift k = (m.shift k).blit off src len := by
  funext i
  simp only [shift_apply, blit]
  by_cases h : off ≤ i ∧ i < off + len
  · rw [if_pos h, if_pos (by omega), Nat.add_sub_add_left]
  · rw [if_neg h, if_neg (by omega)]

/-- A copy behind a front part extends the front part. -/
theorem bytes_blit (m : Memory) (off : ℕ) (src : Memory) (len : ℕ) :
    (m.blit off src len).bytes (off + len) = m.bytes off ++ src.bytes len := by
  rw [bytes_add]
  congr 1
  · exact bytes_congr fun i hi => blit_of_not src (.inl hi)
  · exact bytes_congr fun i hi => blit_add src hi

/-- A copy into the middle of a front part. -/
theorem bytes_blit_middle (m : Memory) (off : ℕ) (src : Memory) (len rest : ℕ) :
    (m.blit off src len).bytes (off + len + rest) =
      m.bytes off ++ src.bytes len ++ (m.shift (off + len)).bytes rest := by
  rw [bytes_add, bytes_blit]
  congr 1
  exact bytes_congr fun i _ => blit_of_not src (.inr (by omega))

end Memory

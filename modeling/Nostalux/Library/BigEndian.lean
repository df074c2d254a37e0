import Mathlib.Data.List.GetD
import Mathlib.Tactic

/-!
# Big-endian words

Network headers store words with the most significant byte first.  Words are read through a byte
pointer, that is a function from offsets to bytes (`u16At`, `u32At`); a list of bytes is read as a
pointer that sees zero outside the list (`byteAt`).
-/

namespace BigEndian

open UInt8

/-- The 16-bit word at an offset. -/
def u16At (m : ℕ → UInt8) (off : ℕ) : UInt16 :=
  UInt16.ofNat ((m off).toNat * 256 + (m (off + 1)).toNat)

/-- The 32-bit word at an offset. -/
def u32At (m : ℕ → UInt8) (off : ℕ) : UInt32 :=
  UInt32.ofNat ((m off).toNat * 16777216 + (m (off + 1)).toNat * 65536 +
    (m (off + 2)).toNat * 256 + (m (off + 3)).toNat)

/-- The byte of a list at an index; zero outside the list. -/
def byteAt (bytes : List UInt8) (i : ℕ) : UInt8 := bytes.getD i 0

/-- The 16-bit word of a list at an offset. -/
def readU16 (bytes : List UInt8) (off : ℕ) : UInt16 := u16At (byteAt bytes) off

/-- The 32-bit word of a list at an offset. -/
def readU32 (bytes : List UInt8) (off : ℕ) : UInt32 := u32At (byteAt bytes) off

/-- The two bytes of a 16-bit word. -/
def writeU16 (value : UInt16) : List UInt8 :=
  [UInt8.ofNat (value.toNat / 256), UInt8.ofNat value.toNat]

/-- The four bytes of a 32-bit word. -/
def writeU32 (value : UInt32) : List UInt8 :=
  [UInt8.ofNat (value.toNat / 16777216), UInt8.ofNat (value.toNat / 65536),
    UInt8.ofNat (value.toNat / 256), UInt8.ofNat value.toNat]

@[simp] theorem length_writeU16 (value : UInt16) : (writeU16 value).length = 2 := rfl

@[simp] theorem length_writeU32 (value : UInt32) : (writeU32 value).length = 4 := rfl

/-! ### Reading back -/

theorem byteAt_append_left {l : List UInt8} (r : List UInt8) {i : ℕ} (h : i < l.length) :
    byteAt (l ++ r) i = byteAt l i :=
  List.getD_append _ _ _ _ h

@[simp] theorem byteAt_append_right (l r : List UInt8) (i : ℕ) :
    byteAt (l ++ r) (l.length + i) = byteAt r i := by
  rw [byteAt, byteAt, List.getD_append_right _ _ _ _ (Nat.le_add_right _ _),
    Nat.add_sub_cancel_left]

theorem byteAt_append_right_eq (l r : List UInt8) :
    (fun i => byteAt (l ++ r) (l.length + i)) = byteAt r :=
  funext (byteAt_append_right l r)

/-- A list is determined by the bytes that its pointer sees. -/
@[simp] theorem map_range_byteAt (l : List UInt8) : (List.range l.length).map (byteAt l) = l := by
  refine List.ext_getElem (by simp) fun i hi hi' => ?_
  simp [byteAt, hi']

theorem u16At_of_bytes {m : ℕ → UInt8} {off : ℕ} {value : UInt16}
    (h : ∀ k < 2, m (off + k) = byteAt (writeU16 value) k) : u16At m off = value := by
  have h0 : m off = ofNat (value.toNat / 256) := h 0 (by omega)
  have h1 : m (off + 1) = ofNat value.toNat := h 1 (by omega)
  have hlt := value.toNat_lt
  rw [u16At, h0, h1, ← UInt16.toNat_inj, UInt16.toNat_ofNat', toNat_ofNat', toNat_ofNat']
  omega

theorem u32At_of_bytes {m : ℕ → UInt8} {off : ℕ} {value : UInt32}
    (h : ∀ k < 4, m (off + k) = byteAt (writeU32 value) k) : u32At m off = value := by
  have h0 : m off = ofNat (value.toNat / 16777216) := h 0 (by omega)
  have h1 : m (off + 1) = ofNat (value.toNat / 65536) := h 1 (by omega)
  have h2 : m (off + 2) = ofNat (value.toNat / 256) := h 2 (by omega)
  have h3 : m (off + 3) = ofNat value.toNat := h 3 (by omega)
  have hlt := value.toNat_lt
  rw [u32At, h0, h1, h2, h3, ← UInt32.toNat_inj, UInt32.toNat_ofNat']
  simp only [toNat_ofNat']
  omega

/-- A word is found where it was written. -/
theorem u16At_append_writeU16 (l r : List UInt8) (value : UInt16) :
    u16At (byteAt (l ++ (writeU16 value ++ r))) l.length = value :=
  u16At_of_bytes fun k hk => by rw [byteAt_append_right, byteAt_append_left r (by simpa using hk)]

theorem u32At_append_writeU32 (l r : List UInt8) (value : UInt32) :
    u32At (byteAt (l ++ (writeU32 value ++ r))) l.length = value :=
  u32At_of_bytes fun k hk => by rw [byteAt_append_right, byteAt_append_left r (by simpa using hk)]

end BigEndian

import Mathlib.Tactic

/-!
# Fixed-size byte buffers

The memory of a C program that works on arrays of bytes: a `Buffer n` holds exactly `n` bytes.
Reading is total (`byte`, zero outside the array), writing is by range (`blit`), and a buffer is
determined by its bytes (`Buffer.ext`).  Words are stored little-endian (`byteOfWord`, `wordAt`).
-/

/-- A byte array of fixed length. -/
def Buffer (n : ℕ) : Type := Vector UInt8 n

namespace Buffer

variable {m n : ℕ}

instance : DecidableEq (Buffer n) := inferInstanceAs (DecidableEq (Vector UInt8 n))

/-- The buffer with the given bytes. -/
def ofFn (f : ℕ → UInt8) : Buffer n := Vector.ofFn fun i : Fin n => f i

/-- The byte at an index; zero outside the buffer. -/
def byte (b : Buffer n) (i : ℕ) : UInt8 :=
  if h : i < n then (show Vector UInt8 n from b)[i] else 0

variable (f : ℕ → UInt8)

theorem byte_ofFn_of_lt {i : ℕ} (h : i < n) : (ofFn f : Buffer n).byte i = f i := by
  rw [byte, dif_pos h]
  exact Vector.getElem_ofFn h

variable (b : Buffer n)

theorem byte_of_le {i : ℕ} (h : n ≤ i) : b.byte i = 0 :=
  dif_neg (by omega)

@[simp] theorem byte_ofFn (i : ℕ) : (ofFn f : Buffer n).byte i = if i < n then f i else 0 := by
  split_ifs with h
  · exact byte_ofFn_of_lt f h
  · exact byte_of_le _ (by omega)

/-- A buffer is determined by its bytes. -/
theorem ext {a b : Buffer n} (h : ∀ i < n, a.byte i = b.byte i) : a = b := by
  refine Vector.ext fun i hi => ?_
  have hb := h i hi
  rwa [byte, byte, dif_pos hi, dif_pos hi] at hb

theorem ofFn_congr {f g : ℕ → UInt8} (h : ∀ i < n, f i = g i) :
    (ofFn f : Buffer n) = ofFn g :=
  ext fun i hi => by rw [byte_ofFn_of_lt f hi, byte_ofFn_of_lt g hi, h i hi]

attribute [irreducible] ofFn byte

/-- The buffer of zero bytes. -/
def zero : Buffer n := ofFn fun _ => 0

instance : Inhabited (Buffer n) := ⟨zero⟩

@[simp] theorem byte_zero (i : ℕ) : (zero : Buffer n).byte i = 0 := by
  simp [zero]

/-- Every byte is zero. -/
def Blank (b : Buffer n) : Prop := ∀ i < n, b.byte i = 0

instance (b : Buffer n) : Decidable b.Blank :=
  inferInstanceAs (Decidable (∀ i < n, b.byte i = 0))

/-- Store `v` at index `i`. -/
def put (b : Buffer n) (i : ℕ) (v : UInt8) : Buffer n :=
  ofFn fun j => if j = i then v else b.byte j

theorem byte_put (i : ℕ) (v : UInt8) (j : ℕ) :
    (b.put i v).byte j = if j = i ∧ j < n then v else b.byte j := by
  rw [put, byte_ofFn]
  by_cases hj : j < n
  · simp [hj]
  · simp [hj, byte_of_le b (Nat.le_of_not_lt hj)]

/-- Copy `len` bytes of `src` to the positions from `off` on. -/
def blit (b : Buffer n) (off : ℕ) (src : ℕ → UInt8) (len : ℕ) : Buffer n :=
  ofFn fun j => if off ≤ j ∧ j < off + len then src (j - off) else b.byte j

theorem byte_blit (off : ℕ) (src : ℕ → UInt8) (len j : ℕ) : (b.blit off src len).byte j =
      if off ≤ j ∧ j < off + len ∧ j < n then src (j - off) else b.byte j := by
  rw [blit, byte_ofFn]
  by_cases hj : j < n
  · simp [hj]
  · simp [hj, byte_of_le b (Nat.le_of_not_lt hj)]

/-- The `len` bytes from `off` on, as a list. -/
def bytes (b : Buffer n) (off len : ℕ) : List UInt8 :=
  (List.range len).map fun i => b.byte (off + i)

@[simp] theorem length_bytes (off len : ℕ) : (b.bytes off len).length = len := by
  simp [bytes]

theorem getElem?_bytes (off len i : ℕ) :
    (b.bytes off len)[i]? = if i < len then some (b.byte (off + i)) else none := by
  split_ifs with h
  · simp [bytes, List.getElem?_range h]
  · simp [bytes, Nat.le_of_not_lt h]

theorem bytes_congr {a : Buffer m} {b : Buffer n} {o o' len : ℕ}
    (h : ∀ i < len, a.byte (o + i) = b.byte (o' + i)) : a.bytes o len = b.bytes o' len :=
  List.map_congr_left fun i hi => h i (List.mem_range.1 hi)

theorem bytes_append (off k l : ℕ) :
    b.bytes off (k + l) = b.bytes off k ++ b.bytes (off + k) l := by
  rw [bytes, List.range_add, List.map_append, List.map_map]
  simp [bytes, Function.comp_def, Nat.add_assoc]

/-- A copy behind a front part extends the front part. -/
theorem bytes_blit {off len : ℕ} (src : ℕ → UInt8) (h : off + len ≤ n) :
    (b.blit off src len).bytes 0 (off + len) = b.bytes 0 off ++ (List.range len).map src := by
  rw [bytes_append]
  congr 1
  · refine bytes_congr fun i hi => ?_
    rw [byte_blit, if_neg (by omega)]
  · refine List.map_congr_left fun i hi => ?_
    have hi' : i < len := List.mem_range.1 hi
    rw [byte_blit, if_pos (by omega)]
    congr 1
    omega

@[simp] theorem bytes_zero_length (off : ℕ) : b.bytes off 0 = [] := rfl

/-! ### Little-endian words -/

/-- The `k`-th byte of a 32-bit word in little-endian order. -/
def byteOfWord (w : UInt32) (k : ℕ) : UInt8 := UInt8.ofNat (w.toNat / 256 ^ k % 256)

/-- The 32-bit word stored at `off` in little-endian order. -/
def wordAt (f : ℕ → UInt8) (off : ℕ) : UInt32 :=
  UInt32.ofNat ((f off).toNat + 256 * (f (off + 1)).toNat + 65536 * (f (off + 2)).toNat +
    16777216 * (f (off + 3)).toNat)

theorem toNat_byteOfWord (w : UInt32) (k : ℕ) :
    (byteOfWord w k).toNat = w.toNat / 256 ^ k % 256 := by
  simp [byteOfWord]

theorem wordAt_of_bytes {f : ℕ → UInt8} {off : ℕ} {w : UInt32}
    (h : ∀ k < 4, f (off + k) = byteOfWord w k) : wordAt f off = w := by
  have h0 := h 0 (by omega)
  have h1 := h 1 (by omega)
  have h2 := h 2 (by omega)
  have h3 := h 3 (by omega)
  rw [Nat.add_zero] at h0
  have hw := w.toNat_lt
  rw [wordAt, h0, h1, h2, h3]
  simp only [toNat_byteOfWord]
  apply UInt32.toNat_inj.1
  rw [UInt32.toNat_ofNat']
  omega

theorem byteOfWord_wordAt (off : ℕ) {k : ℕ} (hk : k < 4) :
    byteOfWord (wordAt f off) k = f (off + k) := by
  apply UInt8.toNat_inj.1
  rw [toNat_byteOfWord, wordAt, UInt32.toNat_ofNat']
  have h0 := (f off).toNat_lt
  have h1 := (f (off + 1)).toNat_lt
  have h2 := (f (off + 2)).toNat_lt
  have h3 := (f (off + 3)).toNat_lt
  have hk' : k = 0 ∨ k = 1 ∨ k = 2 ∨ k = 3 := by omega
  rcases hk' with rfl | rfl | rfl | rfl
  · show _ = (f off).toNat
    omega
  all_goals omega

end Buffer

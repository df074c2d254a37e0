import Mathlib.Data.List.TakeWhile
import Nostalux.Library.Buffer

/-!
# NUL-terminated strings

A `CString` is the text of a C string: its bytes before the terminator, none of which is zero.
`CString.ofBytes` reads the text at the front of a byte sequence; `char` is the C access `s[i]`,
which sees the terminator at the index `length`.
-/

/-- The bytes of a C string before its terminator. -/
structure CString where
  bytes : List UInt8
  noNul : 0 ∉ bytes
  deriving DecidableEq

namespace CString

theorem ext {s t : CString} (h : s.bytes = t.bytes) : s = t := by
  cases s
  cases t
  cases h
  rfl

/-- The C string of an ASCII literal. -/
def ofString (s : String) : CString :=
  ⟨(s.toList.map fun c => UInt8.ofNat c.toNat).filter (· ≠ 0), by simp⟩

/-- The empty string. -/
def empty : CString := ⟨[], List.not_mem_nil⟩

instance : Inhabited CString := ⟨empty⟩

/-- The number of bytes before the terminator. -/
def length (s : CString) : ℕ := s.bytes.length

/-- The access `s[i]`, for `i` up to the terminator. -/
def char (s : CString) (i : ℕ) : UInt8 := s.bytes.getD i 0

theorem char_of_length_le {s : CString} {i : ℕ} (h : s.length ≤ i) : s.char i = 0 := by
  simp [char, List.getElem?_eq_none h]

theorem char_of_lt {s : CString} {i : ℕ} (h : i < s.bytes.length) : s.char i = s.bytes[i] := by
  simp [char, h]

/-- The first `n` bytes. -/
def take (s : CString) (n : ℕ) : CString :=
  ⟨s.bytes.take n, fun h => s.noNul (List.mem_of_mem_take h)⟩

theorem take_of_length_le {s : CString} {n : ℕ} (h : s.length ≤ n) : s.take n = s :=
  ext (List.take_of_length_le h)

/-- The C string at the front of a byte sequence. -/
def ofBytes (l : List UInt8) : CString :=
  ⟨l.takeWhile (· ≠ 0), fun h => by simpa using List.mem_takeWhile_imp h⟩

theorem bytes_ofBytes {l : List UInt8} (h : 0 ∉ l) : (ofBytes l).bytes = l := by
  refine List.takeWhile_eq_self_iff.2 fun x hx => ?_
  simpa using fun h0 : x = 0 => h (h0 ▸ hx)

theorem ofBytes_bytes (s : CString) : ofBytes s.bytes = s := ext (bytes_ofBytes s.noNul)

/-- Reading back a string that is followed by a terminator. -/
theorem ofBytes_append (s : CString) (rest : List UInt8) : ofBytes (s.bytes ++ 0 :: rest) = s := by
  apply ext
  have h : ∀ x ∈ s.bytes, (decide (x ≠ 0)) = true := by
    intro x hx
    simpa using fun h0 : x = 0 => s.noNul (h0 ▸ hx)
  show (s.bytes ++ 0 :: rest).takeWhile (· ≠ 0) = s.bytes
  rw [List.takeWhile_append_of_pos h]
  simp

end CString

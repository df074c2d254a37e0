import Nostalux.Library.Align

/-!
# `kernel/pci.c`: the base address registers of a device

`pci_decode_bar` looks one register back to see whether a register is the upper half of a 64-bit
BAR.  Whether it is one depends on all registers before it.

* `PciDevice.starts`: the partition of the registers into BARs, from left to right;
* `decoded_eq`: the bit operations of the code compute the value of a register;
* `bars_decoded_iff`: the devices whose BARs are all decoded.
-/

namespace Nostalux.Pci

open Nat UInt8 Option

/-- `enum pci_bar_kind`. -/
inductive PciBarKind
  | none
  | io
  | memory32
  | memory64
  deriving DecidableEq

/-- `struct pci_bar`. -/
structure PciBar where
  kind : PciBarKind
  address : UInt64
  index : UInt8
  prefetchable : Bool
  deriving DecidableEq

/-- The fields of `struct pci_device` that `pci_decode_bar` reads. -/
structure PciDevice where
  headerType : UInt8
  bar : ℕ → UInt32

/-- The number of registers of a header layout. -/
def barCount (headerType : UInt8) : ℕ :=
  let layout := headerType &&& 0x7F
  if layout = 0 then 6 else if layout = 1 then 2 else 0

/-- The type bits of a 64-bit memory BAR. -/
def isMemory64 (raw : UInt32) : Bool :=
  raw &&& 1 = 0 && (raw >>> 1) &&& 3 = 2

/-- The BAR that `pci_decode_bar` builds from a register and, if there is one, the next register. -/
def decoded (raw : UInt32) (next : Option UInt32) (index : UInt8) : Option PciBar :=
  if raw &&& 1 ≠ 0 then some ⟨.io, (raw &&& ~~~3).toUInt64, index, false⟩
  else
    let memoryType := (raw >>> 1) &&& 3
    let prefetchable : Bool := raw &&& 8 ≠ 0
    let address := (raw &&& ~~~0xF).toUInt64
    if memoryType = 0 ∨ memoryType = 1 then some ⟨.memory32, address, index, prefetchable⟩
    else if memoryType = 2 then
      next.map fun (next : UInt32) =>
        ⟨.memory64, address ||| next.toUInt64 <<< (32 : UInt64), index, prefetchable⟩
    else none

/-- The register behind another one. -/
def PciDevice.next (d : PciDevice) (i : ℕ) : Option UInt32 :=
  if i + 1 < barCount d.headerType then some (d.bar (i + 1)) else none

/-- `pci_decode_bar`: the BAR that is stored to `out_bar`, which is not `NULL`. -/
def pciDecodeBar (device : Option PciDevice) (index : UInt8) : Option PciBar :=
  match device with
  | none => none
  | some d =>
    if index ≥ 6 ∨ index.toNat ≥ barCount d.headerType then none
    else if index > 0 ∧ isMemory64 (d.bar (index.toNat - 1)) then none
    else
      let raw := d.bar index.toNat
      if raw = 0 ∨ raw = 0xFFFFFFFF then none
      else (decoded raw (d.next index.toNat) index).filter (·.address ≠ 0)

/-! ### The partition -/

/-- The kind of the BAR with a value. -/
def kindOf (raw : UInt32) (next : Option UInt32) : PciBarKind :=
  if raw.toNat = 0 ∨ raw.toNat = 2 ^ 32 - 1 then .none
  else if raw.toNat % 2 = 1 then .io
  else if raw.toNat / 2 % 4 < 2 then .memory32
  else if raw.toNat / 2 % 4 = 2 ∧ next.isSome then .memory64
  else .none

/-- The address in the BAR with a value. -/
def addressOf (raw : UInt32) (next : Option UInt32) : ℕ :=
  match kindOf raw next with
  | .none => 0
  | .io => raw.toNat / 4 * 4
  | .memory32 => raw.toNat / 16 * 16
  | .memory64 => (next.getD 0).toNat * 2 ^ 32 + raw.toNat / 16 * 16

/-- The BAR with a value. -/
def barOf (raw : UInt32) (next : Option UInt32) (index : UInt8) : PciBar where
  kind := kindOf raw next
  address := UInt64.ofNat (addressOf raw next)
  index := index
  prefetchable := kindOf raw next ≠ .io ∧ raw.toNat / 8 % 2 = 1

namespace PciDevice

/-- A register starts a BAR unless it is the upper half of the BAR before it. -/
def starts (d : PciDevice) : ℕ → Bool
  | 0 => true
  | i + 1 => !(d.starts i && isMemory64 (d.bar i))

/-- A register holds an assigned value of a valid type. -/
def Holds (d : PciDevice) (i : ℕ) : Prop := addressOf (d.bar i) (d.next i) ≠ 0

end PciDevice

/-! ### The value of a register -/

theorem and_one_ne_zero_iff (raw : UInt32) : raw &&& 1 ≠ 0 ↔ raw.toNat % 2 = 1 := by
  rw [ne_eq, ← UInt32.toNat_inj, UInt32.toNat_and]
  show ¬raw.toNat &&& 1 = 0 ↔ _
  rw [and_one_is_mod]
  omega

theorem toNat_typeBits (raw : UInt32) : ((raw >>> 1) &&& 3).toNat = raw.toNat / 2 % 4 := by
  rw [UInt32.toNat_and, UInt32.toNat_shiftRight]
  show raw.toNat >>> 1 &&& 2 ^ 2 - 1 = _
  rw [and_two_pow_sub_one_eq_mod, shiftRight_eq_div_pow]

theorem and_eight_ne_zero_iff (raw : UInt32) : raw &&& 8 ≠ 0 ↔ raw.toNat / 8 % 2 = 1 := by
  rw [ne_eq, ← UInt32.toNat_inj, UInt32.toNat_and]
  show ¬raw.toNat &&& 2 ^ 3 = 0 ↔ _
  rw [and_two_pow, testBit_eq_decide_div_mod_eq]
  simp

theorem ofNat_address (raw mask : UInt32) {k : ℕ} (hmask : mask.toNat = 2 ^ k - 1) (hk : k ≤ 32) :
    UInt64.ofNat (raw.toNat / 2 ^ k * 2 ^ k) = (raw &&& ~~~mask).toUInt64 := by
  have hpow : 1 ≤ 2 ^ k := Nat.one_le_two_pow
  rw [← UInt64.ofNat_toNat (x := (raw &&& ~~~mask).toUInt64), UInt32.toNat_toUInt64,
    UInt32.toNat_and, UInt32.toNat_not, hmask, ← Align.and_sub_two_pow raw.toNat_lt hk]
  congr 2
  rw [UInt32.size]
  omega

theorem ofNat_address64 (low : UInt64) (high : UInt32) (hlow : low.toNat < 2 ^ 32) :
    UInt64.ofNat (high.toNat * 2 ^ 32 + low.toNat) = low ||| high.toUInt64 <<< 32 := by
  have hhigh := high.toNat_lt
  rw [← UInt64.ofNat_toNat (x := low ||| _), UInt64.toNat_or, UInt64.toNat_shiftLeft,
    UInt32.toNat_toUInt64]
  show _ = UInt64.ofNat (low.toNat ||| high.toNat <<< 32 % 2 ^ 64)
  rw [shiftLeft_eq, mod_eq_of_lt (by omega), ← shiftLeft_eq, lor_comm,
    ← shiftLeft_add_eq_or_of_lt hlow]

variable {raw : UInt32} {next : Option UInt32} {index : UInt8}

/-- The bit operations of the code compute the value of a register. -/
theorem decoded_eq (hraw : ¬(raw = 0 ∨ raw = 0xFFFFFFFF)) :
    decoded raw next index =
      if kindOf raw next = .none then none else some (barOf raw next index) := by
  have hzero : ¬(raw.toNat = 0 ∨ raw.toNat = 2 ^ 32 - 1) := by
    rintro (h | h)
    · exact hraw (.inl (UInt32.toNat_inj.1 h))
    · exact hraw (.inr (UInt32.toNat_inj.1 h))
  have hlow := raw.toNat_lt
  have hodd := and_one_ne_zero_iff raw
  have htype (n : UInt32) : (raw >>> 1) &&& 3 = n ↔ raw.toNat / 2 % 4 = n.toNat := by
    rw [← UInt32.toNat_inj, toNat_typeBits]
  have hprefetch : decide (raw &&& 8 ≠ 0) = decide (raw.toNat / 8 % 2 = 1) :=
    decide_eq_decide.2 (and_eight_ne_zero_iff _)
  have h16 := ofNat_address (k := 4) raw 0xF rfl (by omega)
  have hkind : kindOf raw next = _ := if_neg hzero
  rw [decoded]
  simp only [htype, UInt32.reduceToNat]
  by_cases hio : raw.toNat % 2 = 1
  · rw [if_pos hio] at hkind
    rw [if_pos (hodd.2 hio), barOf, addressOf, hkind, ← ofNat_address (k := 2) raw 3 rfl (by omega)]
    rfl
  rw [if_neg hio] at hkind
  rw [if_neg fun h => hio (hodd.1 h)]
  by_cases h32 : raw.toNat / 2 % 4 < 2
  · rw [if_pos h32] at hkind
    rw [if_pos (show raw.toNat / 2 % 4 = 0 ∨ raw.toNat / 2 % 4 = 1 by omega), barOf, addressOf,
      hkind, ← h16, hprefetch]
    simp
  rw [if_neg h32] at hkind
  rw [if_neg (show ¬(raw.toNat / 2 % 4 = 0 ∨ raw.toNat / 2 % 4 = 1) by omega)]
  by_cases h64 : raw.toNat / 2 % 4 = 2
  swap
  · rw [if_neg fun h => h64 h.1] at hkind
    rw [if_pos hkind]
    exact if_neg h64
  rw [if_pos h64]
  cases next with
  | none =>
    rw [if_neg (by simp)] at hkind
    rw [if_pos hkind]
    rfl
  | some next =>
    rw [if_pos ⟨h64, rfl⟩] at hkind
    have hlt : (raw &&& ~~~0xF).toUInt64.toNat = raw.toNat / 16 * 16 := by
      rw [← h16]
      exact UInt64.toNat_ofNat_of_lt' (show raw.toNat / 16 * 16 < 2 ^ 64 by omega)
    rw [barOf, addressOf, hkind, map_some, ← ofNat_address64 _ _ (hlt.trans_lt (by omega)),
      hlt, hprefetch]
    simp

theorem addressOf_lt (raw : UInt32) (next : Option UInt32) : addressOf raw next < 2 ^ 64 := by
  have hlow := raw.toNat_lt
  have hhigh := (next.getD 0).toNat_lt
  unfold addressOf
  split <;> omega

/-- What the code finds behind its look at the register before. -/
theorem filter_decoded_eq_some_iff {bar : PciBar} (hraw : ¬(raw = 0 ∨ raw = 0xFFFFFFFF)) :
    (decoded raw next index).filter (·.address ≠ 0) = some bar ↔
      addressOf raw next ≠ 0 ∧ bar = barOf raw next index := by
  have haddress : (barOf raw next index).address ≠ 0 ↔ addressOf raw next ≠ 0 := by
    rw [ne_eq, ← UInt64.toNat_inj]
    show ¬(UInt64.ofNat _).toNat = 0 ↔ _
    rw [UInt64.toNat_ofNat_of_lt' (addressOf_lt raw next)]
  rw [decoded_eq hraw]
  by_cases hkind : kindOf raw next = .none
  · simp [hkind, addressOf]
  · rw [if_neg hkind, filter_some]
    simp only [decide_eq_true_eq, haddress, ite_none_right_eq_some, some.injEq]
    rw [eq_comm (a := bar)]

theorem addressOf_eq_zero (h : raw = 0 ∨ raw = 0xFFFFFFFF) : addressOf raw next = 0 := by
  have hkind : kindOf raw next = .none := by
    refine if_pos ?_
    rcases h with rfl | rfl
    · exact .inl rfl
    · exact .inr rfl
  rw [addressOf, hkind]

theorem isMemory64_of_kindOf (h : kindOf raw next = .memory64) : isMemory64 raw = true := by
  unfold kindOf at h
  split_ifs at h with _ hio _ h64
  rw [isMemory64, Bool.and_eq_true, decide_eq_true_iff, decide_eq_true_iff]
  refine ⟨not_not.1 fun hne => hio ((and_one_ne_zero_iff raw).1 hne), ?_⟩
  rw [← UInt32.toNat_inj, toNat_typeBits]
  exact h64.1

/-! ### The code and the partition -/

theorem barCount_le (headerType : UInt8) : barCount headerType ≤ 6 := by
  unfold barCount
  dsimp only
  split_ifs <;> omega

section

variable (d : PciDevice)

/-- The code finds the value of a register, unless the register before it looks like the lower half
of a 64-bit BAR. -/
theorem pciDecodeBar_eq_some_iff (index : UInt8) (bar : PciBar) :
    pciDecodeBar (some d) index = some bar ↔
      index.toNat < barCount d.headerType ∧
      ¬(0 < index.toNat ∧ isMemory64 (d.bar (index.toNat - 1)) = true) ∧
      d.Holds index.toNat ∧ bar = barOf (d.bar index.toNat) (d.next index.toNat) index := by
  have hcount := barCount_le d.headerType
  have hrange : index ≥ 6 ∨ index.toNat ≥ barCount d.headerType ↔
      ¬index.toNat < barCount d.headerType := by
    rw [show index ≥ 6 ↔ 6 ≤ index.toNat from le_iff_toNat_le]
    omega
  have hpos : index > 0 ↔ 0 < index.toNat := lt_iff_toNat_lt
  rw [pciDecodeBar, PciDevice.Holds]
  simp only [hpos, hrange]
  by_cases hlt : index.toNat < barCount d.headerType
  swap
  · simp [hlt]
  by_cases hupper : 0 < index.toNat ∧ isMemory64 (d.bar (index.toNat - 1)) = true
  · simp [hupper]
  rw [if_neg (not_not.2 hlt), if_neg hupper]
  by_cases hraw : d.bar index.toNat = 0 ∨ d.bar index.toNat = 0xFFFFFFFF
  · simp [hraw, addressOf_eq_zero hraw]
  · rw [if_neg hraw, filter_decoded_eq_some_iff hraw]
    simp [hlt, hupper]

/-- Looking one register back is enough where no upper half looks like a 64-bit BAR. -/
theorem starts_iff {i : ℕ} (hcondition : ∀ k, k + 2 = i → d.starts k = true →
      isMemory64 (d.bar k) = true → isMemory64 (d.bar (k + 1)) = false) :
    ¬(0 < i ∧ isMemory64 (d.bar (i - 1)) = true) ↔ d.starts i = true := by
  cases i with
  | zero => simp [PciDevice.starts]
  | succ n =>
    rw [PciDevice.starts, Nat.add_sub_cancel]
    cases hn : isMemory64 (d.bar n) with
    | false => simp
    | true =>
      suffices hstarts : d.starts n = true by simp [hstarts]
      cases n with
      | zero => rfl
      | succ k =>
        rw [PciDevice.starts, Bool.not_eq_true', ← Bool.not_eq_true, Bool.and_eq_true]
        rintro ⟨hstarts, hlower⟩
        rw [hcondition k rfl hstarts hlower] at hn
        cases hn

/-- The partition says which BARs `pci_decode_bar` finds, and no register is found both as a BAR
and as the upper half of one. -/
def PciDevice.BarsDecoded : Prop :=
  (∀ index bar, pciDecodeBar (some d) index = some bar ↔
    index.toNat < barCount d.headerType ∧ d.starts index.toNat = true ∧ d.Holds index.toNat ∧
      bar = barOf (d.bar index.toNat) (d.next index.toNat) index) ∧
  ∀ index bar index' bar', pciDecodeBar (some d) index = some bar → bar.kind = .memory64 →
    pciDecodeBar (some d) index' = some bar' → index'.toNat ≠ index.toNat + 1

/-- **Decoding follows the partition** exactly when no BAR comes behind an upper half that has the
type bits of a 64-bit BAR. -/
theorem bars_decoded_iff :
    d.BarsDecoded ↔ ∀ i, i + 2 < barCount d.headerType → d.starts i = true →
      isMemory64 (d.bar i) = true → isMemory64 (d.bar (i + 1)) = true → ¬d.Holds (i + 2) := by
  constructor
  · rintro ⟨hfinds, -⟩ i hi hstarts hlower hupper hholds
    have hcount := barCount_le d.headerType
    have hindex : (ofNat (i + 2)).toNat = i + 2 :=
      toNat_ofNat_of_lt' (show i + 2 < 256 by omega)
    have hfound := (hfinds (ofNat (i + 2)) _).2 ⟨by rwa [hindex], ?_, by rwa [hindex], rfl⟩
    · have hrefused := ((pciDecodeBar_eq_some_iff d _ _).1 hfound).2.1
      rw [hindex] at hrefused
      exact hrefused ⟨by omega, hupper⟩
    · rw [hindex, PciDevice.starts, PciDevice.starts, hstarts, hlower]
      rfl
  · intro hcondition
    refine ⟨fun index bar => ?_, fun index bar index' bar' h hkind h' hnext => ?_⟩
    · rw [pciDecodeBar_eq_some_iff]
      refine and_congr_right fun hlt => and_congr_left fun hholds => starts_iff d ?_
      intro k hk hstarts hlower
      rw [← Bool.not_eq_true]
      intro hupper
      rw [← hk] at hlt hholds
      exact hcondition k hlt hstarts hlower hupper hholds.1
    · obtain ⟨-, -, -, rfl⟩ := (pciDecodeBar_eq_some_iff d _ _).1 h
      have hrefused := ((pciDecodeBar_eq_some_iff d _ _).1 h').2.1
      rw [hnext] at hrefused
      exact hrefused ⟨by omega, isMemory64_of_kindOf hkind⟩

end

/-- A 64-bit BAR at `0x4_E000_0000`, and behind it an I/O BAR at `0xC000`. -/
def device64 : PciDevice where
  headerType := 0
  bar i := ([0xE0000004, 0x00000004, 0x0000C001] : List UInt32).getD i 0

/-- The I/O BAR is hidden by the upper half of the address before it. -/
theorem io_bar_is_hidden :
    pciDecodeBar (some device64) 0 = some ⟨.memory64, 0x4E0000000, 0, false⟩ ∧
    device64.starts 2 = true ∧ device64.Holds 2 ∧
    barOf (device64.bar 2) (device64.next 2) 2 = ⟨.io, 0xC000, 2, false⟩ ∧
    pciDecodeBar (some device64) 2 = none ∧ ¬device64.BarsDecoded := by
  have hstarts : device64.starts 2 = true := by decide
  have hholds : device64.Holds 2 := by
    show addressOf _ _ ≠ 0
    decide
  have hnone : pciDecodeBar (some device64) 2 = none := by decide
  refine ⟨by decide, hstarts, hholds, by decide, hnone, fun h => ?_⟩
  have hfound := (h.1 2 _).2 ⟨by decide, hstarts, hholds, rfl⟩
  rw [hnone] at hfound
  cases hfound

end Nostalux.Pci

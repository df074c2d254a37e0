import Mathlib.Algebra.Group.Nat.Even
import Mathlib.Data.List.Induction
import Mathlib.Logic.Function.Iterate
import Mathlib.Tactic.SplitIfs

/-!
# `kernel/keyboard.c`: scancodes that are read and scancodes that are discarded

`keyboard_poll_char` and `keyboard_discard_pending` follow the bytes of the controller with state
machines of their own.

* `polled_eq`, `discardPending_loop_eq`: both pass scancodes to `update_modifiers`, but discarding
  leaves out those behind a prefix;
* `discardPending_eq_polled_iff`: the buffers that leave the same state either way.
-/

namespace Nostalux

/-- `g_shift_l`, `g_shift_r` and `g_caps_lock`. -/
structure Modifiers where
  shiftL : Bool
  shiftR : Bool
  capsLock : Bool
  deriving DecidableEq

/-- `g_poll_prefix`. -/
abbrev PollPrefix := { p : UInt16 // p = 0 ∨ p = 0xE000 }

/-- The state of the driver; `buffer` holds the bytes from `g_kb_tail` to `g_kb_head`. -/
structure Keyboard where
  buffer : List UInt8
  pollPrefix : PollPrefix
  modifiers : Modifiers
  deriving DecidableEq

/-- An entry of `KEYMAP_SET1`. -/
structure KeymapEntry where
  normal : UInt8
  shifted : UInt8

namespace Modifiers

variable (m : Modifiers)

/-- `update_modifiers`. -/
def updateModifiers (scancode : UInt8) (released : Bool) : Modifiers :=
  if scancode = 0x2A then { m with shiftL := !released }
  else if scancode = 0x36 then { m with shiftR := !released }
  else if scancode = 0x3A then if !released then { m with capsLock := !m.capsLock } else m
  else m

/-- `translate_scancode`. -/
def translateScancode (keymap : ℕ → KeymapEntry) (scancode : UInt8) : UInt8 :=
  if scancode ≥ 128 then 0
  else
    let entry := keymap scancode.toNat
    if entry.normal = 0 then 0
    else
      let shift := m.shiftL || m.shiftR
      let isAlpha : Bool := entry.normal ≥ 97 ∧ entry.normal ≤ 122
      let shift := if isAlpha then if m.capsLock then !shift else shift else shift
      if shift then entry.shifted else entry.normal

/-- The modifiers behind a row of scancodes, each passed to `update_modifiers`. -/
def after (codes : List (Bool × UInt8)) : Modifiers :=
  codes.foldl (fun m c => m.updateModifiers (c.2 &&& 0x7F) (c.2 &&& 0x80 ≠ 0)) m

theorem after_concat (row : List (Bool × UInt8)) (c : Bool × UInt8) :
    m.after (row ++ [c]) =
      (m.after row).updateModifiers (c.2 &&& 0x7F) (c.2 &&& 0x80 ≠ 0) := by
  simp [after]

end Modifiers

namespace Keyboard

variable (keymap : ℕ → KeymapEntry) (k : Keyboard)

/-- `keyboard_try_pop_byte`. -/
def tryPopByte : Option (UInt8 × Keyboard) :=
  match k.buffer with
  | [] => none
  | byte :: rest => some (byte, { k with buffer := rest })

/-- `keyboard_poll_scancode`. -/
def pollScancode : Option UInt16 × Keyboard :=
  match k.tryPopByte with
  | none => (none, k)
  | some (val, k) =>
    if val = 0xE0 then (none, { k with pollPrefix := ⟨0xE000, .inr rfl⟩ })
    else (some (k.pollPrefix ||| val.toUInt16), { k with pollPrefix := ⟨0, .inl rfl⟩ })

/-- `keyboard_poll_char`. -/
def pollChar : UInt8 × Keyboard :=
  match k.pollScancode with
  | (none, k) => (0, k)
  | (some raw, k) =>
    let released : Bool := raw &&& 0x80 ≠ 0
    let extended : Bool := raw &&& 0xE000 ≠ 0
    let scan := (raw &&& 0x7F).toUInt8
    let k := { k with modifiers := k.modifiers.updateModifiers scan released }
    if released || extended then (0, k) else (k.modifiers.translateScancode keymap scan, k)

/-- The state after calls of `keyboard_poll_char` until the buffer is empty. -/
def polled : Keyboard := (fun k => (pollChar keymap k).2)^[k.buffer.length] k

/-- The loop of `keyboard_discard_pending`. -/
def discardPending.loop : List UInt8 → Bool → Modifiers → Modifiers
  | [], _, m => m
  | value :: rest, extended, m =>
    if value = 0xE0 then loop rest true m
    else
      let released : Bool := value &&& 0x80 ≠ 0
      let scan := value &&& 0x7F
      loop rest false (if !extended then m.updateModifiers scan released else m)

/-- `keyboard_discard_pending`. -/
def discardPending : Keyboard where
  buffer := []
  pollPrefix := ⟨0, .inl rfl⟩
  modifiers := discardPending.loop k.buffer (k.pollPrefix.1 ≠ 0) k.modifiers

/-- The scancodes of a row of bytes, each with whether a prefix stood before it. -/
def codes : Bool → List UInt8 → List (Bool × UInt8)
  | _, [] => []
  | extended, value :: rest =>
    if value = 0xE0 then codes true rest else (extended, value) :: codes false rest

/-- Whether the code of the last prefix has not arrived yet. -/
def prefixLeft (extended : Bool) (bytes : List UInt8) : Bool :=
  bytes.foldl (fun _ value => value = 0xE0) extended

/-- Whether a key is down: its last code tells, or the state before if there is none. -/
def down (scan : UInt8) (before : Bool) (codes : List (Bool × UInt8)) : Bool :=
  match (codes.filter fun c => c.2 &&& 0x7F = scan).getLast? with
  | none => before
  | some c => c.2 &&& 0x80 = 0

/-- Behind a prefix Caps Lock was pressed an even number of times, and the last code of each shift
key says the same as its last code without a prefix. -/
def Balanced (m : Modifiers) (row : List (Bool × UInt8)) : Prop :=
  Even ((row.filter (·.1)).countP (·.2 = 0x3A)) ∧
    down 0x2A m.shiftL row = down 0x2A m.shiftL (row.filter (!·.1)) ∧
    down 0x36 m.shiftR row = down 0x36 m.shiftR (row.filter (!·.1))

theorem scan_raw (p : PollPrefix) (val : UInt8) :
    ((p.1 ||| val.toUInt16) &&& 0x7F).toUInt8 = val &&& 0x7F := by
  obtain ⟨p, rfl | rfl⟩ := p <;> obtain ⟨⟨n⟩⟩ := val <;> revert n <;> decide +kernel

theorem released_raw (p : PollPrefix) (val : UInt8) :
    (p.1 ||| val.toUInt16) &&& 0x80 ≠ 0 ↔ val &&& 0x80 ≠ 0 := by
  obtain ⟨p, rfl | rfl⟩ := p <;> obtain ⟨⟨n⟩⟩ := val <;> revert n <;> decide +kernel

/-- A poll calls `update_modifiers` for every code, also behind a prefix. -/
theorem pollChar_snd (value : UInt8) (rest : List UInt8) (p : PollPrefix) (m : Modifiers) :
    (pollChar keymap ⟨value :: rest, p, m⟩).2 =
      if value = 0xE0 then ⟨rest, ⟨0xE000, .inr rfl⟩, m⟩
      else ⟨rest, ⟨0, .inl rfl⟩, m.updateModifiers (value &&& 0x7F) (value &&& 0x80 ≠ 0)⟩ := by
  by_cases hvalue : value = 0xE0
  · simp [pollChar, pollScancode, tryPopByte, hvalue]
  · simp only [pollChar, pollScancode, tryPopByte, hvalue, if_false, scan_raw, released_raw]
    split_ifs <;> rfl

theorem polled_cons (value : UInt8) (rest : List UInt8) (p : PollPrefix) (m : Modifiers) :
    polled keymap ⟨value :: rest, p, m⟩ =
      if value = 0xE0 then polled keymap ⟨rest, ⟨0xE000, .inr rfl⟩, m⟩
      else polled keymap
        ⟨rest, ⟨0, .inl rfl⟩, m.updateModifiers (value &&& 0x7F) (value &&& 0x80 ≠ 0)⟩ := by
  rw [polled, List.length_cons, Function.iterate_succ_apply, pollChar_snd]
  split_ifs <;> rfl

/-- The prefix and the modifiers that are left once every byte was read. -/
theorem polled_eq (bytes : List UInt8) (p : PollPrefix) (m : Modifiers) :
    polled keymap ⟨bytes, p, m⟩ = ⟨[], if prefixLeft (p.1 ≠ 0) bytes then ⟨0xE000, .inr rfl⟩
      else ⟨0, .inl rfl⟩, m.after (codes (p.1 ≠ 0) bytes)⟩ := by
  induction bytes generalizing p m with
  | nil => obtain ⟨p, rfl | rfl⟩ := p <;> rfl
  | cons value rest ih =>
    rw [polled_cons, prefixLeft, List.foldl_cons, codes]
    by_cases hvalue : value = 0xE0
    · rw [if_pos hvalue, if_pos hvalue, ih]
      simp [prefixLeft, hvalue]
    · rw [if_neg hvalue, if_neg hvalue, ih]
      simp [prefixLeft, hvalue, Modifiers.after]

/-- Only the codes without a prefix count when the bytes are discarded. -/
theorem discardPending_loop_eq (bytes : List UInt8) (extended : Bool) (m : Modifiers) :
    discardPending.loop bytes extended m = m.after ((codes extended bytes).filter (!·.1)) := by
  induction bytes generalizing extended m with
  | nil => rfl
  | cons value rest ih =>
    rw [discardPending.loop, codes]
    by_cases hvalue : value = 0xE0
    · rw [if_pos hvalue, if_pos hvalue, ih]
    · rw [if_neg hvalue, if_neg hvalue, ih]
      cases extended <;> simp [Modifiers.after]

theorem down_concat (scan : UInt8) (before : Bool) (row : List (Bool × UInt8))
    (c : Bool × UInt8) : down scan before (row ++ [c]) =
      if c.2 &&& 0x7F = scan then decide (c.2 &&& 0x80 = 0) else down scan before row := by
  by_cases hscan : c.2 &&& 0x7F = scan <;> simp [down, List.filter_append, hscan]

/-- Each shift key is as its last code left it; every press switched Caps Lock. -/
theorem after_eq (m : Modifiers) (row : List (Bool × UInt8)) :
    m.after row = ⟨down 0x2A m.shiftL row, down 0x36 m.shiftR row,
      m.capsLock ^^ row.countP (·.2 = 0x3A) % 2 = 1⟩ := by
  -- the last code decides, so that the row is taken apart at its end
  induction row using List.reverseRecOn with
  | nil => simp [Modifiers.after, down]
  | append_singleton row c ih =>
    obtain ⟨extended, code⟩ := c
    have hpress : code = 0x3A ↔ code &&& 0x7F = 0x3A ∧ code &&& 0x80 = 0 := by
      clear ih
      obtain ⟨⟨n⟩⟩ := code
      revert n
      decide +kernel
    rw [m.after_concat, ih, down_concat, down_concat, List.countP_append, List.countP_singleton]
    simp only [hpress, Modifiers.updateModifiers, decide_not, Bool.not_not]
    have hodd (n : ℕ) : decide ((n + 1) % 2 = 1) = !decide (n % 2 = 1) := by
      rw [← decide_not, decide_eq_decide]
      omega
    split_ifs <;> simp_all

/-- The presses of Caps Lock are those without a prefix and those behind one. -/
theorem countP_press (row : List (Bool × UInt8)) :
    row.countP (·.2 = 0x3A) = (row.filter (!·.1)).countP (·.2 = 0x3A) +
      (row.filter (·.1)).countP (·.2 = 0x3A) := by
  induction row with
  | nil => rfl
  | cons c row ih => obtain ⟨_ | _, code⟩ := c <;> simp [List.countP_cons, ih] <;> omega

/-- The modifiers do not show whether the codes behind a prefix were passed on. -/
theorem after_plain_eq_iff (m : Modifiers) (row : List (Bool × UInt8)) :
    m.after (row.filter (!·.1)) = m.after row ↔ Balanced m row := by
  rw [after_eq, after_eq, Modifiers.mk.injEq, Bool.xor_right_inj, decide_eq_decide,
    countP_press row, Balanced, Nat.even_iff]
  constructor
  · rintro ⟨hl, hr, hcaps⟩
    exact ⟨by omega, hl.symm, hr.symm⟩
  · rintro ⟨hcaps, hl, hr⟩
    exact ⟨hl.symm, hr.symm, by omega⟩

/-- Discarding the buffer leaves what reading it leaves just if no prefix is left over and the codes
behind a prefix make no difference to the modifiers. -/
theorem discardPending_eq_polled_iff :
    k.discardPending = k.polled keymap ↔
      prefixLeft (k.pollPrefix.1 ≠ 0) k.buffer = false ∧
        Balanced k.modifiers (codes (k.pollPrefix.1 ≠ 0) k.buffer) := by
  obtain ⟨bytes, p, m⟩ := k
  rw [polled_eq, discardPending, discardPending_loop_eq, Keyboard.mk.injEq, after_plain_eq_iff]
  cases prefixLeft (p.1 ≠ 0) bytes <;> simp

/-- A poll takes the fake shift `E0 2A` for the left shift key, discarding does not; and discarding
drops a prefix whose code has not arrived. -/
theorem discardPending_ne_polled :
    let keymap : ℕ → KeymapEntry := fun _ => ⟨97, 65⟩
    let idle : Modifiers := ⟨false, false, false⟩
    let k : Keyboard := ⟨[0xE0, 0x2A], ⟨0, .inl rfl⟩, idle⟩
    let l : Keyboard := ⟨[0xE0], ⟨0, .inl rfl⟩, idle⟩
    k.discardPending.modifiers.shiftL = false ∧ (k.polled keymap).modifiers.shiftL = true ∧
      l.discardPending.pollPrefix.1 = 0 ∧ (l.polled keymap).pollPrefix.1 = 0xE000 := by
  decide

end Keyboard

end Nostalux

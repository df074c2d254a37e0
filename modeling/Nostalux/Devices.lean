import Nostalux.App.Windows

/-!
# `kernel/timer.c` and `kernel/vmmouse_decode.c`: the clock and the absolute pointer

Both scale a machine word with rounding.

* `milliseconds_exact_iff`: the tick counts for which the clock is exact or saturated;
* `vmmouseDecodeEvent_scales`: the positions of the pointer.
-/

namespace Nostalux

/-! ### The clock -/

/-- `timer_phase`: the value of `g_freq_hz`. -/
def timerPhase (hz : ℤ) : ℤ :=
  let hz := if hz ≤ 0 then 100 else hz
  let hz := if hz > 1193180 then 1193180 else hz
  let divisor := 1193180 / hz
  let divisor := if divisor = 0 then 1 else divisor
  let divisor := if divisor > 0xFFFF then 0xFFFF else divisor
  1193180 / divisor

/-- `timer_get_milliseconds`, with the values of `g_freq_hz` and `g_ticks`. -/
def timerGetMilliseconds (freqHz : ℤ) (ticks : UInt64) : UInt64 :=
  let frequency := if freqHz > 0 then UInt64.ofNat freqHz.toNat else 1
  let seconds := ticks / frequency
  let remainder := ticks % frequency
  if seconds > 0xFFFFFFFFFFFFFFFF / 1000 then 0xFFFFFFFFFFFFFFFF
  else seconds * 1000 + remainder * 1000 / frequency

/-- The milliseconds of a tick count, at most `UINT64_MAX`. -/
def milliseconds (frequency ticks : ℕ) : ℕ := min (1000 * ticks / frequency) (2 ^ 64 - 1)

/-- The last second before the clock saturates, from the millisecond on that does not fit. -/
def Overflows (frequency ticks : ℕ) : Prop :=
  ticks / frequency = (2 ^ 64 - 1) / 1000 ∧ 2 ^ 64 ≤ 1000 * ticks / frequency

theorem timerPhase_mem (hz : ℤ) : 0 < timerPhase hz ∧ timerPhase hz ≤ 1193180 := by
  dsimp only [timerPhase]
  generalize hhz : (if hz ≤ 0 then 100 else hz) = rate
  have hrate : 0 < (if rate > 1193180 then 1193180 else rate) := by
    split_ifs at hhz ⊢ <;> omega
  have hquotient := Int.ediv_nonneg (show (0 : ℤ) ≤ 1193180 by decide) hrate.le
  generalize 1193180 / (if rate > 1193180 then 1193180 else rate) = quotient at hquotient
  generalize hdivisor : (if (if quotient = 0 then 1 else quotient) > 0xFFFF then 0xFFFF
    else if quotient = 0 then 1 else quotient) = divisor
  have hbounds : 0 < divisor ∧ divisor ≤ 0xFFFF := by
    split_ifs at hdivisor <;> omega
  exact ⟨Int.lt_of_lt_of_le one_pos ((Int.le_ediv_iff_mul_le hbounds.1).mpr (by omega)),
    Int.ediv_le_self _ (by decide)⟩

/-- The sum wraps in the last second before the clock saturates. -/
theorem toNat_timerGetMilliseconds {frequency : ℕ} (hpos : 0 < frequency)
    (hle : frequency ≤ 1193180) (ticks : UInt64) :
    (timerGetMilliseconds frequency ticks).toNat =
      if ticks.toNat / frequency > (2 ^ 64 - 1) / 1000 then 2 ^ 64 - 1
      else 1000 * ticks.toNat / frequency % 2 ^ 64 := by
  have hfrequency : (UInt64.ofNat frequency).toNat = frequency :=
    UInt64.toNat_ofNat_of_lt' (show frequency < 2 ^ 64 by omega)
  have hmod := Nat.mod_lt ticks.toNat hpos
  have hsum : 1000 * ticks.toNat / frequency =
      ticks.toNat / frequency * 1000 + ticks.toNat % frequency * 1000 / frequency := by
    conv_lhs => rw [← Nat.div_add_mod ticks.toNat frequency]
    rw [Nat.mul_add, Nat.mul_left_comm, Nat.mul_add_div hpos, Nat.mul_comm 1000, Nat.mul_comm 1000]
  rw [hsum]
  simp only [timerGetMilliseconds, Int.natCast_pos.mpr hpos, gt_iff_lt, if_true, Int.toNat_natCast,
    UInt64.lt_iff_toNat_lt, UInt64.toNat_div, hfrequency]
  split_ifs with h h' h'
  · rfl
  · exact absurd h h'
  · exact absurd h' h
  · have hlt : ticks.toNat % frequency * 1000 < 18446744073709551616 := by omega
    simp [hfrequency, Nat.mod_eq_of_lt hlt]

/-- The clock is exact or saturated, and has not gone back, unless the count is in the last second
before saturation and its milliseconds do not fit. -/
theorem milliseconds_exact_iff (hz : ℤ) (ticks : UInt64) :
    ((timerGetMilliseconds (timerPhase hz) ticks).toNat =
        milliseconds (timerPhase hz).toNat ticks.toNat ↔
      ¬Overflows (timerPhase hz).toNat ticks.toNat) ∧
    (¬Overflows (timerPhase hz).toNat ticks.toNat → ∀ before ≤ ticks,
      timerGetMilliseconds (timerPhase hz) before ≤
        timerGetMilliseconds (timerPhase hz) ticks) := by
  set frequency := (timerPhase hz).toNat
  set clock := timerGetMilliseconds (timerPhase hz)
  obtain ⟨hpos, hle⟩ := timerPhase_mem hz
  have hfrequency : (frequency : ℤ) = timerPhase hz := Int.toNat_of_nonneg hpos.le
  have hclock (t : UInt64) := toNat_timerGetMilliseconds (show 0 < frequency by omega)
    (show frequency ≤ 1193180 by omega) t
  rw [hfrequency] at hclock
  change ∀ t, (clock t).toNat = _ at hclock
  have hdiv (t : UInt64) : 1000 * t.toNat / frequency / 1000 = t.toNat / frequency := by
    rw [Nat.div_div_eq_div_mul, Nat.mul_comm frequency, Nat.mul_div_mul_left _ _ (by decide)]
  have hticks := hdiv ticks
  unfold Overflows milliseconds
  constructor
  · rw [hclock ticks]
    generalize 1000 * ticks.toNat / frequency = exact at hticks ⊢
    generalize ticks.toNat / frequency = seconds at hticks ⊢
    split_ifs <;> omega
  · intro hfits before hbefore
    have hmono : 1000 * before.toNat / frequency ≤ 1000 * ticks.toNat / frequency :=
      Nat.div_le_div_right (Nat.mul_le_mul_left _ (UInt64.le_iff_toNat_le.mp hbefore))
    rw [UInt64.le_iff_toNat_le, hclock before, hclock ticks, ← hdiv before, ← hticks]
    rw [← hticks] at hfits
    generalize 1000 * ticks.toNat / frequency = exact at hfits hmono ⊢
    generalize 1000 * before.toNat / frequency = exactBefore at hmono ⊢
    split_ifs <;> omega

/-- At 100 Hz the clock shows 4 milliseconds one tick after it has shown nearly `2 ^ 64`. -/
theorem clock_runs_backwards :
    timerPhase 100 = 100 ∧ timerGetMilliseconds 100 1844674407370955161 = 18446744073709551610 ∧
      timerGetMilliseconds 100 1844674407370955162 = 4 := by
  decide

/-! ### The absolute pointer -/

/-- `scale_coordinate`. -/
def scaleCoordinate (coordinate : UInt32) (extent : ℤ) : ℤ :=
  if extent ≤ 1 then 0
  else
    let coordinate := if coordinate > 65535 then 65535 else coordinate
    ((coordinate.toUInt64 * UInt64.ofNat (extent - 1).toNat + 65535 / 2) / 65535).toNat

/-- `vmmouse_decode_event`. -/
def vmmouseDecodeEvent (buttons absoluteX absoluteY : UInt32)
    (framebufferWidth framebufferHeight : ℤ) : App.MouseState where
  x := scaleCoordinate absoluteX framebufferWidth
  y := scaleCoordinate absoluteY framebufferHeight
  leftButton := buttons &&& 0x20 ≠ 0
  rightButton := buttons &&& 0x10 ≠ 0

/-- Coordinates up to 65535 are spread evenly over an axis; the other ones are its end. -/
structure Scales (extent : ℤ) (position : UInt32 → ℤ) : Prop where
  inside : ∀ c, 0 ≤ position c ∧ position c < extent
  monotone : ∀ c d, c ≤ d → position c ≤ position d
  first : position 0 = 0
  last : ∀ c ≥ 65535, position c = extent - 1
  /-- At most half a pixel from the exact position. -/
  near : ∀ c ≤ 65535, 2 * |65535 * position c - c.toNat * (extent - 1)| ≤ 65535
  onto : extent ≤ 65536 → ∀ pixel, 0 ≤ pixel → pixel < extent → ∃ c, position c = pixel

theorem scaleCoordinate_eq (c : UInt32) {n : ℕ} (hn : n < 2 ^ 31) :
    scaleCoordinate c (n + 1) = ((min c.toNat 65535 * n + 32767) / 65535 : ℕ) := by
  rw [scaleCoordinate]
  by_cases hone : (n : ℤ) + 1 ≤ 1
  · obtain rfl : n = 0 := by omega
    simp
  · have hc : (if c > 65535 then 65535 else c).toNat = min c.toNat 65535 := by
      split_ifs with h
      · exact (Nat.min_eq_right (UInt32.lt_iff_toNat_lt.mp h).le).symm
      · exact (Nat.min_eq_left (UInt32.le_iff_toNat_le.mp (UInt32.not_lt.mp h))).symm
    have hle : min c.toNat 65535 * n ≤ 65535 * n := Nat.mul_le_mul_right n (Nat.min_le_right _ _)
    have hlast : (UInt64.ofNat n).toNat = n := UInt64.toNat_ofNat_of_lt' (show n < 2 ^ 64 by omega)
    rw [if_neg hone, add_sub_cancel_right, Int.toNat_natCast]
    dsimp only
    rw [UInt64.toNat_div, UInt64.toNat_add, UInt64.toNat_mul, UInt32.toNat_toUInt64, hc, hlast,
      Nat.mod_eq_of_lt (a := _ * n) (by omega)]
    exact congrArg (fun k : ℕ => ((k / 65535 : ℕ) : ℤ))
      (Nat.mod_eq_of_lt (show _ + 32767 < _ by omega))

theorem scales_scaleCoordinate {n : ℕ} (hn : n < 2 ^ 31) :
    Scales (n + 1) (scaleCoordinate · (n + 1)) := by
  have heq (c : UInt32) := scaleCoordinate_eq c hn
  have hle (c : UInt32) : min c.toNat 65535 * n ≤ 65535 * n :=
    Nat.mul_le_mul_right n (Nat.min_le_right _ _)
  constructor
  · intro c
    have := hle c
    rw [heq]
    omega
  · intro c d hcd
    have hmin : min c.toNat 65535 ≤ min d.toNat 65535 :=
      min_le_min_right _ (UInt32.le_iff_toNat_le.mp hcd)
    rw [heq, heq]
    exact_mod_cast Nat.div_le_div_right (Nat.add_le_add_right (Nat.mul_le_mul_right n hmin) _)
  · rw [heq]
    simp
  · intro c hc
    rw [heq, Nat.min_eq_right (show 65535 ≤ c.toNat from UInt32.le_iff_toNat_le.mp hc)]
    omega
  · intro c hc
    rw [heq, Nat.min_eq_left (show c.toNat ≤ 65535 from UInt32.le_iff_toNat_le.mp hc),
      add_sub_cancel_right]
    have hcast : (c.toNat : ℤ) * n = (c.toNat * n : ℕ) := by push_cast; rfl
    rw [hcast, ← Int.natCast_natAbs]
    omega
  · intro hextent pixel hpixel hlt
    obtain ⟨p, rfl⟩ := Int.eq_ofNat_of_zero_le hpixel
    rcases Nat.eq_zero_or_pos n with rfl | hpos
    · exact ⟨0, by rw [heq]; simp; omega⟩
    · -- The coordinate nearest to the exact one of the pixel.
      have hdiv := Nat.div_add_mod (p * 65535 + n / 2) n
      have hmod := Nat.mod_lt (p * 65535 + n / 2) hpos
      have hc : (p * 65535 + n / 2) / n < 65536 := Nat.div_lt_of_lt_mul (by omega)
      generalize (p * 65535 + n / 2) / n = c at hdiv hc
      refine ⟨UInt32.ofNat c, ?_⟩
      rw [heq, UInt32.toNat_ofNat_of_lt' (show c < 2 ^ 32 by omega), Nat.min_eq_left (by omega),
        Nat.mul_comm c]
      omega

/-- The position of the pointer scales each coordinate to its axis. -/
theorem vmmouseDecodeEvent_scales (buttons : UInt32) {width height : ℤ}
    (hwidth : 0 < width ∧ width ≤ 2 ^ 31 - 1) (hheight : 0 < height ∧ height ≤ 2 ^ 31 - 1) :
    (∀ y, Scales width fun x => (vmmouseDecodeEvent buttons x y width height).x) ∧
      ∀ x, Scales height fun y => (vmmouseDecodeEvent buttons x y width height).y := by
  have haxis {extent : ℤ} (h : 0 < extent ∧ extent ≤ 2 ^ 31 - 1) :
      Scales extent (scaleCoordinate · extent) := by
    obtain ⟨n, hn⟩ := Int.eq_ofNat_of_zero_le (show 0 ≤ extent - 1 by omega)
    obtain rfl : extent = n + 1 := by omega
    exact scales_scaleCoordinate (by omega)
  exact ⟨fun _ => haxis hwidth, fun _ => haxis hheight⟩

theorem vmmouseDecodeEvent_scales_vga : (0 < (640 : ℤ) ∧ (640 : ℤ) ≤ 2 ^ 31 - 1) ∧
    (∀ y, Scales 640 fun x => (vmmouseDecodeEvent 0x20 x y 640 480).x) ∧
      ∀ x, Scales 480 fun y => (vmmouseDecodeEvent 0x20 x y 640 480).y :=
  ⟨by decide, vmmouseDecodeEvent_scales 0x20 (by decide) (by decide)⟩

/-- A coordinate beyond 65535 is not scaled. -/
theorem coordinate_beyond_end_is_clamped :
    (vmmouseDecodeEvent 0 131070 0 1000 1000).x = 999 ∧ (131070 : ℤ) * 999 / 65535 = 1998 := by
  decide

end Nostalux

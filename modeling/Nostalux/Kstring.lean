import Nostalux.Library.CString

/-!
# `kernel/kstring.c`: comparing and measuring C strings

`kstrcmp` is the comparison loop of the kernel.  Every file name test of the kernel is a test of
its result against zero, which `kstrcmp_eq_zero_iff` turns into equality of texts.
-/

namespace Nostalux

/-- The loop of `kstrcmp` on the remaining bytes of both strings. -/
def kstrcmpLoop : List UInt8 → List UInt8 → ℤ
  | a :: as, b :: bs => if a ≠ b then (a.toNat : ℤ) - b.toNat else kstrcmpLoop as bs
  | as, bs => ((as.headD 0).toNat : ℤ) - (bs.headD 0).toNat

/-- `kstrcmp`. -/
def kstrcmp (a b : CString) : ℤ := kstrcmpLoop a.bytes b.bytes

/-- `kstrlen`. -/
def kstrlen (s : CString) : ℕ := s.length

theorem kstrcmpLoop_eq_zero_iff {as bs : List UInt8} (ha : 0 ∉ as) (hb : 0 ∉ bs) :
    kstrcmpLoop as bs = 0 ↔ as = bs := by
  induction as generalizing bs with
  | nil =>
    cases bs with
    | nil => simp [kstrcmpLoop]
    | cons b bs =>
      have h0 : b ≠ 0 := fun h => hb (by simp [h])
      have hn : b.toNat ≠ 0 := fun h => h0 (UInt8.toNat_inj.1 h)
      simp [kstrcmpLoop, hn]
  | cons a as ih =>
    cases bs with
    | nil =>
      have h0 : a ≠ 0 := fun h => ha (by simp [h])
      have hn : a.toNat ≠ 0 := fun h => h0 (UInt8.toNat_inj.1 h)
      simp [kstrcmpLoop, hn]
    | cons b bs =>
      have ih' :=
        ih (fun h => ha (List.mem_cons_of_mem _ h)) (fun h => hb (List.mem_cons_of_mem _ h))
      by_cases hab : a = b
      · subst hab
        simpa [kstrcmpLoop] using ih'
      · have hn : a.toNat ≠ b.toNat := fun h => hab (UInt8.toNat_inj.1 h)
        simp only [kstrcmpLoop, if_pos hab, List.cons.injEq, hab, false_and, iff_false]
        omega

theorem kstrcmp_eq_zero_iff {a b : CString} : kstrcmp a b = 0 ↔ a = b := by
  rw [kstrcmp, kstrcmpLoop_eq_zero_iff a.noNul b.noNul]
  exact ⟨CString.ext, congrArg CString.bytes⟩

end Nostalux

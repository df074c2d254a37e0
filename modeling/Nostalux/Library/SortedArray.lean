import Mathlib.Tactic

/-!
# Sorting an array in place

An array is a function on indices of which only a front part is used.  The elements are compared by
a test of their own, which a key into a linear order explains.

* `insertDown`, `insertionSort`: insertion sort, which moves larger elements up until the place for
  the next one is found;
* `dedup`: the elements of a sorted array without repetitions, moved to its front;
* `sorted_insertionSort`, `among_insertionSort`, `deduped`: what the front holds then.
-/

namespace SortedArray

open Function Nat

variable {α : Type*}

/-- A value is among the first `n` elements. -/
def Among (a : ℕ → α) (n : ℕ) (x : α) : Prop := ∃ i < n, a i = x

section Loops

variable [LT α] [DecidableLT α] [DecidableEq α]

/-- The place at or below `p` for a value is found; larger elements move up. -/
def insertDown (value : α) : ℕ → (ℕ → α) → ℕ → α
  | 0, a => Function.update a 0 value
  | p + 1, a =>
    if value < a p then insertDown value p (Function.update a (p + 1) (a p))
    else Function.update a (p + 1) value

/-- The elements behind the first one are inserted in turn, `k` of them. -/
def insertionSort (a : ℕ → α) : ℕ → ℕ → α
  | 0 => a
  | k + 1 => insertDown (insertionSort a k (k + 1)) (k + 1) (insertionSort a k)

/-- The first `n` elements without repetitions: their number, and the array. -/
def dedup (a : ℕ → α) : ℕ → ℕ × (ℕ → α)
  | 0 => (0, a)
  | n + 1 =>
    let r := dedup a n
    if r.1 = 0 ∨ r.2 n ≠ r.2 (r.1 - 1) then (r.1 + 1, Function.update r.2 r.1 (r.2 n)) else r

end Loops

variable {β : Type*} [LinearOrder β]

/-- The first `n` elements are in order. -/
def Sorted (key : α → β) (a : ℕ → α) (n : ℕ) : Prop := ∀ i j, i < j → j < n → key (a i) ≤ key (a j)

/-- The first `n` elements are in order and different. -/
def StrictlySorted (key : α → β) (a : ℕ → α) (n : ℕ) : Prop :=
  ∀ i j, i < j → j < n → key (a i) < key (a j)

/-- The elements are compared by a key. -/
structure Keyed [LT α] (key : α → β) : Prop where
  lt_iff : ∀ a b, a < b ↔ key a < key b
  injective : Function.Injective key

variable {key : α → β} {a : ℕ → α} {n p : ℕ} {value x : α}

/-- `p` is a hole in an array that is in order, and what is behind the hole is not below the
value. -/
structure Hole (key : α → β) (a : ℕ → α) (n p : ℕ) (value : α) : Prop where
  lt : p < n
  sorted : ∀ i j, i < j → j < n → i ≠ p → j ≠ p → key (a i) ≤ key (a j)
  behind : ∀ j, p < j → j < n → key value ≤ key (a j)

/-- An element moves into the hole. -/
theorem Hole.move (h : Hole key a n (p + 1) value) (hlt : key value < key (a p)) :
    Hole key (update a (p + 1) (a p)) n p value where
  lt := lt_of_succ_lt h.lt
  sorted i j hij hj hi hjp := by
    by_cases hj1 : j = p + 1
    · subst hj1
      rw [update_self, update_of_ne (by omega)]
      exact h.sorted i p (by omega) (by omega) (by omega) (by omega)
    · rw [update_of_ne hj1]
      by_cases hi1 : i = p + 1
      · subst hi1
        rw [update_self]
        exact h.sorted p j (by omega) hj (by omega) hj1
      · rw [update_of_ne hi1]
        exact h.sorted i j hij hj hi1 hj1
  behind j hpj hj := by
    by_cases hj1 : j = p + 1
    · subst hj1
      rw [update_self]
      exact hlt.le
    · rw [update_of_ne hj1]
      exact h.behind j (by omega) hj

/-- The value goes into the hole once what is before it is not above the value. -/
theorem Hole.fill (h : Hole key a n p value) (hle : ∀ i < p, key (a i) ≤ key value) :
    Sorted key (update a p value) n := by
  intro i j hij hj
  by_cases hjp : j = p
  · subst hjp
    rw [update_self, update_of_ne (by omega)]
    exact hle i hij
  · rw [update_of_ne hjp]
    by_cases hip : i = p
    · subst hip
      rw [update_self]
      exact h.behind j hij hj
    · rw [update_of_ne hip]
      exact h.sorted i j hij hj hip hjp

theorem among_succ : Among a (n + 1) x ↔ Among a n x ∨ a n = x := by
  constructor
  · rintro ⟨i, hi, hix⟩
    obtain hin | rfl := Nat.lt_succ_iff_lt_or_eq.mp hi
    · exact .inl ⟨i, hin, hix⟩
    · exact .inr hix
  · rintro (⟨i, hi, hix⟩ | hx)
    · exact ⟨i, by omega, hix⟩
    · exact ⟨n, lt_succ_self n, hx⟩

variable {b : ℕ → α}

/-- An element behind the front is changed. -/
theorem among_update {i : ℕ} (h : n ≤ i) (value : α) :
    Among (update b i value) n x ↔ Among b n x := by
  refine exists_congr fun j => and_congr_right fun hj => ?_
  rw [update_of_ne (by omega)]

section

variable [LT α] [DecidableLT α]

theorem sorted_insertDown (hkey : Keyed key) (h : Hole key a n p value) :
    Sorted key (insertDown value p a) n := by
  induction p generalizing a with
  | zero => exact h.fill fun i hi => absurd hi (not_lt_zero i)
  | succ p ih =>
    rw [insertDown]
    by_cases hlt : value < a p
    · rw [if_pos hlt]
      exact ih (h.move ((hkey.lt_iff _ _).mp hlt))
    · rw [if_neg hlt]
      have hle : key (a p) ≤ key value := not_lt.mp fun h => hlt ((hkey.lt_iff _ _).mpr h)
      refine h.fill fun i hi => ?_
      obtain hip | rfl := Nat.lt_succ_iff_lt_or_eq.mp hi
      · exact (h.sorted i p hip (lt_of_succ_lt h.lt) (by omega) (by omega)).trans hle
      · exact hle

/-- The value takes the place of what was in the hole. -/
theorem among_insertDown (hp : p < n) :
    Among (insertDown value p a) n x ↔ x = value ∨ ∃ i < n, i ≠ p ∧ a i = x := by
  have hfill : ∀ (a : ℕ → α) (p : ℕ), p < n →
      (Among (update a p value) n x ↔ x = value ∨ ∃ i < n, i ≠ p ∧ a i = x) := by
    intro a p hp
    constructor
    · rintro ⟨i, hi, hix⟩
      by_cases hip : i = p
      · subst hip
        rw [update_self] at hix
        exact .inl hix.symm
      · rw [update_of_ne hip] at hix
        exact .inr ⟨i, hi, hip, hix⟩
    · rintro (rfl | ⟨i, hi, hip, hix⟩)
      · exact ⟨p, hp, update_self ..⟩
      · exact ⟨i, hi, (update_of_ne hip ..).trans hix⟩
  induction p generalizing a with
  | zero => exact hfill a 0 hp
  | succ p ih =>
    rw [insertDown]
    by_cases hlt : value < a p
    · rw [if_pos hlt]
      refine (ih (lt_of_succ_lt hp)).trans (or_congr_right ⟨?_, ?_⟩)
      · rintro ⟨i, hi, hip, hix⟩
        by_cases hi1 : i = p + 1
        · subst hi1
          rw [update_self] at hix
          exact ⟨p, by omega, by omega, hix⟩
        · rw [update_of_ne hi1] at hix
          exact ⟨i, hi, hi1, hix⟩
      · rintro ⟨i, hi, hi1, hix⟩
        by_cases hip : i = p
        · subst hip
          exact ⟨i + 1, hp, by omega, by rw [update_self]; exact hix⟩
        · exact ⟨i, hi, hip, by rw [update_of_ne hi1]; exact hix⟩
    · rw [if_neg hlt]
      exact hfill a (p + 1) hp

theorem insertDown_of_lt {i : ℕ} (h : p < i) : insertDown value p a i = a i := by
  induction p generalizing a with
  | zero => exact update_of_ne (by omega) ..
  | succ p ih =>
    rw [insertDown]
    split
    · rw [ih (by omega), update_of_ne (by omega)]
    · exact update_of_ne (by omega) ..

theorem insertionSort_of_lt {k i : ℕ} (h : k < i) : insertionSort a k i = a i := by
  induction k with
  | zero => rfl
  | succ k ih => rw [insertionSort, insertDown_of_lt h, ih (by omega)]

theorem sorted_insertionSort (hkey : Keyed key) (a : ℕ → α) (k : ℕ) :
    Sorted key (insertionSort a k) (k + 1) := by
  induction k with
  | zero => exact fun i j hij hj => by omega
  | succ k ih =>
    refine sorted_insertDown hkey ⟨lt_succ_self _, fun i j hij hj _ hjk => ?_,
      fun j hj hjn => by omega⟩
    exact ih i j hij (by omega)

/-- Sorting keeps the elements. -/
theorem among_insertionSort (a : ℕ → α) (k : ℕ) (x : α) :
    Among (insertionSort a k) (k + 1) x ↔ Among a (k + 1) x := by
  induction k with
  | zero => rfl
  | succ k ih =>
    rw [insertionSort, among_insertDown (lt_succ_self _), insertionSort_of_lt (lt_succ_self k)]
    constructor
    · rintro (rfl | ⟨i, hi, hik, hix⟩)
      · exact ⟨k + 1, lt_succ_self _, rfl⟩
      · obtain ⟨j, hj, hjx⟩ := ih.mp ⟨i, by omega, hix⟩
        exact ⟨j, by omega, hjx⟩
    · rintro ⟨i, hi, hix⟩
      by_cases hik : i = k + 1
      · exact .inl (by rw [← hix, hik])
      · obtain ⟨j, hj, hjx⟩ := ih.mpr ⟨i, by omega, hix⟩
        exact .inr ⟨j, by omega, by omega, hjx⟩

end

/-- What `dedup` has done after `n` elements: `u` of them are left, in `b`. -/
structure Deduped (key : α → β) (a : ℕ → α) (n u : ℕ) (b : ℕ → α) : Prop where
  le : u ≤ n
  rest : ∀ i, n ≤ i → b i = a i
  sorted : StrictlySorted key b u
  among : ∀ x, Among b u x ↔ Among a n x
  last : 0 < n → 0 < u ∧ b (u - 1) = a (n - 1)

/-- The next element is the last one again. -/
theorem Deduped.skip {u : ℕ} (h : Deduped key a n u b) (hu : u ≠ 0)
    (hsame : b n = b (u - 1)) : Deduped key a (n + 1) u b := by
  have hun := h.le
  have hnext : b n = a n := h.rest n le_rfl
  refine ⟨by omega, fun i hi => h.rest i (by omega), h.sorted, fun x => ?_,
    fun _ => ⟨by omega, by rw [Nat.add_sub_cancel, ← hnext, hsame]⟩⟩
  rw [among_succ, ← h.among]
  refine ⟨.inl, fun hx => hx.elim (fun hx => hx) fun hx => ?_⟩
  exact ⟨u - 1, by omega, by rw [← hsame, hnext, hx]⟩

variable [LT α]

/-- The next element is new. -/
theorem Deduped.push (hkey : Keyed key) {u : ℕ} (h : Deduped key a n u b)
    (hle : 0 < n → key (a (n - 1)) ≤ key (a n)) (hnew : u = 0 ∨ b n ≠ b (u - 1)) :
    Deduped key a (n + 1) (u + 1) (update b u (b n)) := by
  have hnext : b n = a n := h.rest n le_rfl
  have hun := h.le
  refine ⟨by omega, fun i hi => ?_, fun i j hij hj => ?_, fun x => ?_, fun _ => ⟨by omega, ?_⟩⟩
  · rw [update_of_ne (by omega)]
    exact h.rest i (by omega)
  · obtain hju | rfl := Nat.lt_succ_iff_lt_or_eq.mp hj
    · rw [update_of_ne (by omega), update_of_ne (by omega)]
      exact h.sorted i j hij hju
    · -- the last element so far is below the new one
      have hlast := h.last (by omega)
      have hlt : key (b (j - 1)) < key (a n) := by
        refine lt_of_le_of_ne (hlast.2 ▸ hle (by omega)) fun heq => ?_
        exact hnew.elim (by omega) fun hne => hne (hnext.trans (hkey.injective heq).symm)
      rw [update_self, update_of_ne (by omega), hnext]
      by_cases hi : i = j - 1
      · rw [hi]
        exact hlt
      · exact (h.sorted i (j - 1) (by omega) (by omega)).trans hlt
  · rw [among_succ, among_succ, among_update le_rfl, h.among, update_self, hnext]
  · rw [Nat.add_sub_cancel, Nat.add_sub_cancel, update_self, hnext]

variable [DecidableEq α]

theorem deduped (hkey : Keyed key) {m : ℕ} (hsorted : Sorted key a m) :
    ∀ n ≤ m, Deduped key a n (dedup a n).1 (dedup a n).2
  | 0, _ => ⟨le_rfl, fun _ _ => rfl, fun _ _ _ hj => absurd hj (not_lt_zero _), fun _ => Iff.rfl,
      fun h => absurd h (lt_irrefl 0)⟩
  | n + 1, hn => by
    have ih := deduped hkey hsorted n (by omega)
    rw [dedup]
    by_cases hnew : (dedup a n).1 = 0 ∨ (dedup a n).2 n ≠ (dedup a n).2 ((dedup a n).1 - 1)
    · rw [if_pos hnew]
      exact ih.push hkey (fun hpos => hsorted _ _ (by omega) (by omega)) hnew
    · rw [if_neg hnew]
      obtain ⟨hpos, hsame⟩ := not_or.mp hnew
      exact ih.skip hpos (not_not.mp hsame)

end SortedArray

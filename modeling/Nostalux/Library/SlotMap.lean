import Mathlib.Tactic

/-!
# A table of cells as a finite map

A fixed table of cells, each either free or holding one key with its value, represents the finite
map that sends a key to the value of the cell holding it.  The table is given by its list of cells
and a function `entry` that reads a cell.

* `lookup entry l` is the represented map and `Distinct entry l` says that no key is held twice;
* `lookup_eq_some_iff` and `lookup_eq_none_iff` characterize it by membership;
* `Distinct.set` and `lookup_set` say what overwriting one cell does: updating, inserting, erasing
  and renaming a key are its special cases.
-/

namespace SlotMap

open List

variable {α κ ν : Type*} (entry : α → Option (κ × ν))

/-- The key held by a cell. -/
def key (a : α) : Option κ := (entry a).map Prod.fst

/-- No key is held by two cells. -/
def Distinct (l : List α) : Prop :=
  ∀ (i j : ℕ) (a b : α) (k : κ), l[i]? = some a → l[j]? = some b →
    key entry a = some k → key entry b = some k → i = j

/-- No cell but possibly the `i`-th holds the key of `b`. -/
def FreshAt (l : List α) (i : ℕ) (b : α) : Prop :=
  ∀ (j : ℕ) (a : α) (k : κ), l[j]? = some a → key entry a = some k → key entry b = some k → j = i

variable {entry}

theorem key_of_entry {a : α} {k : κ} {v : ν} (h : entry a = some (k, v)) :
    key entry a = some k := by
  simp [key, h]

theorem exists_entry_of_key {a : α} {k : κ} (h : key entry a = some k) :
    ∃ v, entry a = some (k, v) := by
  obtain ⟨⟨k', v⟩, he, rfl⟩ := Option.map_eq_some_iff.1 h
  exact ⟨v, he⟩

theorem distinct_nil : Distinct entry [] := by
  intro i j a b k hi
  simp at hi

variable {l : List α}

theorem distinct_cons {a : α} : Distinct entry (a :: l) ↔
      (∀ k, key entry a = some k → ∀ b ∈ l, key entry b ≠ some k) ∧ Distinct entry l := by
  constructor
  · intro h
    refine ⟨fun k hk b hb hkb => ?_, fun i j x y k hi hj hx hy => ?_⟩
    · obtain ⟨j, hj⟩ := mem_iff_getElem?.1 hb
      have := h 0 (j + 1) a b k rfl (by simpa using hj) hk hkb
      omega
    · have := h (i + 1) (j + 1) x y k (by simpa using hi) (by simpa using hj) hx hy
      omega
  · rintro ⟨ha, hl⟩ i j x y k hi hj hx hy
    rcases i with _ | i <;> rcases j with _ | j
    · rfl
    · cases hi
      exact absurd hy (ha k hx y (mem_of_getElem? (by simpa using hj)))
    · cases hj
      exact absurd hx (ha k hy x (mem_of_getElem? (by simpa using hi)))
    · rw [hl i j x y k (by simpa using hi) (by simpa using hj) hx hy]

/-- Keys are distinct when the list of all keys held has no duplicates. -/
theorem distinct_iff_nodup : Distinct entry l ↔ (l.filterMap (key entry)).Nodup := by
  induction l with
  | nil => simp [distinct_nil]
  | cons a l ih =>
    rw [distinct_cons, ih]
    cases hk : key entry a with
    | none => simp [filterMap_cons_none hk]
    | some k =>
      rw [filterMap_cons_some hk, nodup_cons, mem_filterMap]
      simp

variable {i : ℕ}

/-- Overwriting one cell with a cell whose key is fresh keeps the keys distinct. -/
theorem Distinct.set {b : α} (h : Distinct entry l) (hb : FreshAt entry l i b) :
    Distinct entry (l.set i b) := by
  intro p q x y k hp hq hx hy
  rw [getElem?_set] at hp hq
  split_ifs at hp hq with h1 h2 h3 h4
  · omega
  · cases hp
    exact h1.symm.trans (hb q y k hq hy hx).symm
  · cases hq
    exact (hb p x k hp hx hy).trans ‹i = q›
  · exact h p q x y k hp hq hx hy

/-- A cell that holds no key is fresh everywhere. -/
theorem freshAt_of_key_eq_none {b : α} (h : key entry b = none) : FreshAt entry l i b := by
  intro j a k _ _ hb
  rw [h] at hb
  cases hb

/-- A cell holding a key that no cell of the table holds is fresh everywhere. -/
theorem freshAt_of_forall {b : α}
    (h : ∀ a ∈ l, ∀ k, key entry b = some k → key entry a ≠ some k) : FreshAt entry l i b := by
  intro j a k hj ha hb
  exact absurd ha (h a (mem_of_getElem? hj) k hb)

/-- A cell with the key that the overwritten cell already holds is fresh there. -/
theorem freshAt_of_key_eq {a b : α} (hd : Distinct entry l)
    (hi : l[i]? = some a) (h : key entry b = key entry a) : FreshAt entry l i b := by
  intro j c k hj hc hb
  exact hd j i c a k hj hi hc (h ▸ hb)

section Lookup

variable [DecidableEq κ] (entry)

/-- The map represented by the cells. -/
def lookup (l : List α) (k : κ) : Option ν :=
  (l.find? fun a => decide (key entry a = some k)).bind fun a => (entry a).map Prod.snd

variable {entry}

theorem lookup_eq_none_iff {l : List α} {k : κ} :
    lookup entry l k = none ↔ ∀ a ∈ l, key entry a ≠ some k := by
  unfold lookup
  constructor
  · intro h a ha hk
    cases hf : l.find? fun a => decide (key entry a = some k) with
    | none => simpa [hk] using find?_eq_none.1 hf a ha
    | some b =>
      obtain ⟨v, hv⟩ := exists_entry_of_key (by simpa using find?_some hf)
      simp [hf, hv] at h
  · intro h
    rw [find?_eq_none.2 fun a ha => by simpa using h a ha]
    rfl

theorem lookup_eq_some_iff {l : List α} {k : κ} {v : ν} (hd : Distinct entry l) :
    lookup entry l k = some v ↔ ∃ (i : ℕ) (a : α), l[i]? = some a ∧ entry a = some (k, v) := by
  constructor
  · intro h
    obtain ⟨a, ha, hv⟩ := Option.bind_eq_some_iff.1 h
    obtain ⟨i, hi⟩ := mem_iff_getElem?.1 (mem_of_find?_eq_some ha)
    obtain ⟨w, hw⟩ := exists_entry_of_key (by simpa using find?_some ha)
    rw [hw] at hv
    cases hv
    exact ⟨i, a, hi, hw⟩
  · rintro ⟨i, a, hi, ha⟩
    cases hl : lookup entry l k with
    | none => exact absurd (key_of_entry ha) (lookup_eq_none_iff.1 hl a (mem_of_getElem? hi))
    | some w =>
      obtain ⟨b, hb, hw⟩ := Option.bind_eq_some_iff.1 hl
      obtain ⟨j, hj⟩ := mem_iff_getElem?.1 (mem_of_find?_eq_some hb)
      have hij := hd j i b a k hj hi (by simpa using find?_some hb) (key_of_entry ha)
      subst hij
      rw [hi] at hj
      cases hj
      rw [ha] at hw
      exact hw.symm

/-- **Overwriting one cell.** The new cell's key gets its value, the key of the old cell is
released, and every other key keeps its value. -/
theorem lookup_set {l : List α} {i : ℕ} {a b : α} (hd : Distinct entry l) (hi : l[i]? = some a)
    (hb : FreshAt entry l i b) (k : κ) :
    lookup entry (l.set i b) k =
      if key entry b = some k then (entry b).map Prod.snd
      else if key entry a = some k then none else lookup entry l k := by
  have hlt : i < l.length := (List.getElem?_eq_some_iff.1 hi).1
  have hd' := hd.set hb
  have hib : (l.set i b)[i]? = some b := by simp [hlt]
  split_ifs with hkb hka
  · obtain ⟨v, hv⟩ := exists_entry_of_key hkb
    rw [(lookup_eq_some_iff hd').2 ⟨i, b, hib, hv⟩, hv]
    rfl
  · rw [lookup_eq_none_iff]
    intro c hc hk
    obtain ⟨j, hj⟩ := mem_iff_getElem?.1 hc
    rw [getElem?_set] at hj
    split_ifs at hj with h1
    · cases hj
      exact hkb hk
    · exact h1 (hd j i c a k hj hi hk hka).symm
  · cases hl : lookup entry l k with
    | none =>
      rw [lookup_eq_none_iff] at hl ⊢
      intro c hc
      rcases mem_or_eq_of_mem_set hc with hc | rfl
      · exact hl c hc
      · exact hkb
    | some v =>
      obtain ⟨j, c, hj, hc⟩ := (lookup_eq_some_iff hd).1 hl
      refine (lookup_eq_some_iff hd').2 ⟨j, c, ?_, hc⟩
      have hne : i ≠ j := by
        rintro rfl
        rw [hi] at hj
        cases hj
        exact hka (key_of_entry hc)
      rw [getElem?_set_ne hne, hj]

/-- The represented map is the association list of the entries in order. -/
theorem lookup_eq_find (l : List α) (k : κ) :
    lookup entry l k = ((l.filterMap entry).find? fun p => decide (p.1 = k)).map Prod.snd := by
  induction l with
  | nil => rfl
  | cons a l ih =>
    unfold lookup at ih ⊢
    cases ha : entry a with
    | none =>
      have hk : key entry a ≠ some k := by simp [key, ha]
      rw [filterMap_cons_none ha, find?_cons_of_neg (by simpa using hk), ih]
    | some p =>
      rw [filterMap_cons_some ha]
      by_cases hp : p.1 = k
      · rw [find?_cons_of_pos (by simp [key, ha, hp]), find?_cons_of_pos (by simp [hp])]
        simp [ha]
      · rw [find?_cons_of_neg (by simp [key, ha, hp]), find?_cons_of_neg (by simp [hp]), ih]

/-- Two tables with the same entries in order represent the same map. -/
theorem lookup_congr {l l' : List α} (h : l.filterMap entry = l'.filterMap entry) (k : κ) :
    lookup entry l k = lookup entry l' k := by
  rw [lookup_eq_find, lookup_eq_find, h]

end Lookup

end SlotMap

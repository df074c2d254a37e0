import Nostalux.Memtest.Model

/-!
# What memory detection finds

An address is usable if an enabled usable range covers it and no enabled range of another type does.
Between two neighbouring ends this is the same for all addresses, so the loop over the segments
counts the usable addresses below the end of the segment it has reached.

* `Usable`: the addresses;
* `usable_iff_of_segment`: within a segment all addresses or none are usable;
* `Swept`: what the loop has found so far, `Swept.segment` for one turn and `swept_sweep` for all;
* `memory_detection`: what `memtest_detect_memory` reports.
-/

namespace Nostalux.Memtest

open SortedArray List Nat Set Function

/-! ### The addresses -/

/-- An enabled range covers an address. -/
def Covers (entrySize : UInt32) (entry : E820Entry) (a : ℕ) : Prop :=
  entryIsEnabled entry entrySize = true ∧ entry.base.toNat ≤ a ∧ a < (rangeEnd entry).toNat

/-- An address is covered by a usable range, and by no other one. -/
def Usable (entrySize : UInt32) (entries : List E820Entry) (a : ℕ) : Prop :=
  (∃ entry ∈ entries, Covers entrySize entry a ∧ entry.type = e820TypeUsable) ∧
    ¬∃ entry ∈ entries, Covers entrySize entry a ∧ entry.type ≠ e820TypeUsable

instance (entrySize : UInt32) (entry : E820Entry) (a : ℕ) : Decidable (Covers entrySize entry a) :=
  inferInstanceAs (Decidable (_ ∧ _))

instance (entrySize : UInt32) (entries : List E820Entry) :
    DecidablePred (Usable entrySize entries) :=
  fun _ => inferInstanceAs (Decidable (_ ∧ _))

variable {entrySize : UInt32} {entries : List E820Entry} {entry : E820Entry} {a : ℕ}
  {start stop : UInt64}

theorem toNat_uint64Max : uint64Max.toNat = 2 ^ 64 - 1 := by decide

theorem toNat_rangeEnd (entry : E820Entry) :
    (rangeEnd entry).toNat = min (entry.base.toNat + entry.length.toNat) (2 ^ 64 - 1) := by
  have hbase := entry.base.toNat_lt
  have hsub : (uint64Max - entry.base).toNat = 2 ^ 64 - 1 - entry.base.toNat := by
    rw [UInt64.toNat_sub_of_le _ _ (UInt64.le_iff_toNat_le.mpr (by rw [toNat_uint64Max]; omega)),
      toNat_uint64Max]
  rw [rangeEnd]
  by_cases h : entry.length > uint64Max - entry.base
  · rw [if_pos h, toNat_uint64Max]
    rw [gt_iff_lt, UInt64.lt_iff_toNat_lt, hsub] at h
    omega
  · rw [if_neg h]
    rw [gt_iff_lt, UInt64.lt_iff_toNat_lt, hsub] at h
    rw [UInt64.toNat_add]
    omega

/-! ### Ends -/

/-- The two ends of an enabled range that is not empty. -/
def IsEnd (entrySize : UInt32) (entries : List E820Entry) (x : UInt64) : Prop :=
  ∃ entry ∈ entries, entryIsEnabled entry entrySize = true ∧ entry.base < rangeEnd entry ∧
    (x = entry.base ∨ x = rangeEnd entry)

open SortedArray in
theorem among_foldl_collectEntry (entrySize : UInt32) (x : UInt64) :
    ∀ (entries : List E820Entry) (r : ℕ × (ℕ → UInt64)),
      Among (entries.foldl (collectEntry entrySize) r).2
        (entries.foldl (collectEntry entrySize) r).1 x ↔
        Among r.2 r.1 x ∨ IsEnd entrySize entries x
  | [], r => by simp [IsEnd]
  | entry :: entries, r => by
    rw [foldl_cons, among_foldl_collectEntry entrySize x entries]
    have hcons : IsEnd entrySize (entry :: entries) x ↔
        (entryIsEnabled entry entrySize = true ∧ entry.base < rangeEnd entry ∧
          (x = entry.base ∨ x = rangeEnd entry)) ∨ IsEnd entrySize entries x := by
      simp [IsEnd]
    rw [hcons, ← or_assoc]
    refine or_congr_left ?_
    rw [collectEntry]
    by_cases henabled : entryIsEnabled entry entrySize = true
    · rw [if_neg (by simp [henabled])]
      by_cases hempty : rangeEnd entry ≤ entry.base
      · rw [if_pos hempty]
        have hnot : ¬entry.base < rangeEnd entry := UInt64.not_lt.mpr hempty
        simp [hnot]
      · rw [if_neg hempty]
        have hlt : entry.base < rangeEnd entry := UInt64.not_le.mp hempty
        rw [among_succ, among_succ, among_update (le_succ _), among_update le_rfl]
        dsimp only
        rw [update_of_ne (by omega), update_self, update_self]
        simp only [henabled, hlt, true_and]
        rw [or_assoc, eq_comm (a := entry.base), eq_comm (a := rangeEnd entry)]
    · rw [if_pos (by simpa using henabled)]
      simp [henabled]

/-- A key for the ends. -/
theorem keyed_toNat : Keyed UInt64.toNat :=
  ⟨fun _ _ => UInt64.lt_iff_toNat_lt, fun _ _ h => UInt64.toNat_inj.mp h⟩

/-- The ends in order: `n + 1` of them. -/
structure Ends (entrySize : UInt32) (entries : List E820Entry) (endpoints : ℕ → UInt64) (n : ℕ) :
    Prop where
  sorted : SortedArray.StrictlySorted UInt64.toNat endpoints (n + 1)
  among : ∀ x, SortedArray.Among endpoints (n + 1) x ↔ IsEnd entrySize entries x

/-- Sorted and without repetitions, the collected ends are the ends in order. -/
theorem ends_of_collect (entrySize : UInt32) (entries : List E820Entry) (array : ℕ → UInt64)
    (hcount : 2 ≤ (collectEndpoints entrySize entries array).1) :
    let collected := collectEndpoints entrySize entries array
    let unique := dedup (insertionSort collected.2 (collected.1 - 1)) collected.1
    Ends entrySize entries unique.2 (unique.1 - 1) := by
  have hcollected : ∀ x, Among (collectEndpoints entrySize entries array).2
      (collectEndpoints entrySize entries array).1 x ↔ IsEnd entrySize entries x := by
    intro x
    refine (among_foldl_collectEntry entrySize x entries (0, array)).trans ?_
    simp [Among]
  generalize collectEndpoints entrySize entries array = collected at hcount hcollected ⊢
  obtain ⟨k, hk⟩ : ∃ k, collected.1 = k + 1 := ⟨collected.1 - 1, by omega⟩
  have hsorted := sorted_insertionSort keyed_toNat collected.2 k
  have hdeduped := deduped keyed_toNat hsorted (k + 1) le_rfl
  dsimp only
  rw [hk, Nat.add_sub_cancel]
  have hpos := (hdeduped.last (succ_pos k)).1
  refine ⟨?_, fun x => ?_⟩
  · rw [Nat.sub_add_cancel hpos]
    exact hdeduped.sorted
  · rw [Nat.sub_add_cancel hpos, hdeduped.among, among_insertionSort, ← hk, hcollected]

variable {endpoints : ℕ → UInt64} {n k : ℕ}

section

variable (h : Ends entrySize entries endpoints n)

include h

theorem Ends.lt_iff {i j : ℕ} (hi : i ≤ n) (hj : j ≤ n) :
    (endpoints i).toNat < (endpoints j).toNat ↔ i < j := by
  refine ⟨fun hlt => ?_, fun hij => h.sorted i j hij (by omega)⟩
  by_contra hnot
  obtain rfl | hji := eq_or_lt_of_le (not_lt.mp hnot)
  · omega
  · have := h.sorted j i hji (by omega)
    omega

/-- There is no end within a segment. -/
theorem Ends.le_or_le (hk : k < n) {x : UInt64} (hx : IsEnd entrySize entries x) :
    x.toNat ≤ (endpoints k).toNat ∨ (endpoints (k + 1)).toNat ≤ x.toNat := by
  obtain ⟨i, hi, rfl⟩ := (h.among x).mpr hx
  by_cases hik : i ≤ k
  · exact .inl (not_lt.mp fun hlt => absurd ((h.lt_iff (by omega) (by omega)).mp hlt) (by omega))
  · exact .inr (not_lt.mp fun hlt => absurd ((h.lt_iff (by omega) (by omega)).mp hlt) (by omega))

theorem Ends.first_le {x : UInt64}
    (hx : IsEnd entrySize entries x) : (endpoints 0).toNat ≤ x.toNat := by
  obtain ⟨i, hi, rfl⟩ := (h.among x).mpr hx
  exact not_lt.mp fun hlt => absurd ((h.lt_iff (by omega) (by omega)).mp hlt) (by omega)

theorem Ends.le_last {x : UInt64}
    (hx : IsEnd entrySize entries x) : x.toNat ≤ (endpoints n).toNat := by
  obtain ⟨i, hi, rfl⟩ := (h.among x).mpr hx
  exact not_lt.mp fun hlt => absurd ((h.lt_iff (by omega) (by omega)).mp hlt) (by omega)

end

theorem isEnd_of_covers (hentry : entry ∈ entries) (hcovers : Covers entrySize entry a) :
    IsEnd entrySize entries entry.base ∧ IsEnd entrySize entries (rangeEnd entry) := by
  have hlt : entry.base < rangeEnd entry := by
    exact hcovers.2.1.trans_lt hcovers.2.2
  exact ⟨⟨entry, hentry, hcovers.1, hlt, .inl rfl⟩, ⟨entry, hentry, hcovers.1, hlt, .inr rfl⟩⟩

/-! ### Segments -/

/-- An enabled range meets a segment. -/
def Meets (entrySize : UInt32) (start stop : UInt64) (entry : E820Entry) : Prop :=
  entryIsEnabled entry entrySize = true ∧ ¬(entry.base ≥ stop ∨ rangeEnd entry ≤ start)

theorem coverEntry_iff (entrySize : UInt32) (start stop : UInt64) (covered : Bool × Bool)
    (entry : E820Entry) :
    ((coverEntry entrySize start stop covered entry).1 = true ↔
      covered.1 = true ∨ Meets entrySize start stop entry ∧ entry.type = e820TypeUsable) ∧
    ((coverEntry entrySize start stop covered entry).2 = true ↔
      covered.2 = true ∨ Meets entrySize start stop entry ∧ entry.type ≠ e820TypeUsable) := by
  rw [coverEntry, Meets]
  by_cases henabled : entryIsEnabled entry entrySize = true
  · rw [if_neg (by simp [henabled])]
    by_cases hapart : entry.base ≥ stop ∨ rangeEnd entry ≤ start
    · rw [if_pos hapart]
      simp [hapart]
    · rw [if_neg hapart]
      by_cases husable : entry.type = e820TypeUsable
      · rw [if_pos husable]
        simp [henabled, hapart, husable]
      · rw [if_neg husable]
        simp [henabled, hapart, husable]
  · rw [if_pos (by simpa using henabled)]
    simp [henabled]

theorem foldl_coverEntry_iff (entrySize : UInt32) (start stop : UInt64) :
    ∀ (entries : List E820Entry) (covered : Bool × Bool),
    ((entries.foldl (coverEntry entrySize start stop) covered).1 = true ↔
      covered.1 = true ∨
        ∃ entry ∈ entries, Meets entrySize start stop entry ∧ entry.type = e820TypeUsable) ∧
    ((entries.foldl (coverEntry entrySize start stop) covered).2 = true ↔
      covered.2 = true ∨
        ∃ entry ∈ entries, Meets entrySize start stop entry ∧ entry.type ≠ e820TypeUsable)
  | [], covered => by simp
  | entry :: entries, covered => by
    obtain ⟨husable, hother⟩ := foldl_coverEntry_iff entrySize start stop entries
      (coverEntry entrySize start stop covered entry)
    obtain ⟨husable', hother'⟩ := coverEntry_iff entrySize start stop covered entry
    rw [foldl_cons, husable, hother, husable', hother', or_assoc, or_assoc,
      exists_mem_cons_iff, exists_mem_cons_iff]
    exact ⟨Iff.rfl, Iff.rfl⟩

theorem coverage_iff : coverage entrySize entries start stop = (true, false) ↔
    (∃ entry ∈ entries, Meets entrySize start stop entry ∧ entry.type = e820TypeUsable) ∧
      ¬∃ entry ∈ entries, Meets entrySize start stop entry ∧ entry.type ≠ e820TypeUsable := by
  obtain ⟨husable, hother⟩ := foldl_coverEntry_iff entrySize start stop entries (false, false)
  simp only [Bool.false_eq_true, false_or] at husable hother
  rw [← husable, ← hother, Prod.ext_iff, coverage, Bool.not_eq_true]

section

variable (h : Ends entrySize entries endpoints n)
include h

/-- A range that meets a segment covers it. -/
theorem Ends.meets_iff (hk : k < n) (hentry : entry ∈ entries)
    (hstart : (endpoints k).toNat ≤ a) (hstop : a < (endpoints (k + 1)).toNat) :
    Meets entrySize (endpoints k) (endpoints (k + 1)) entry ↔ Covers entrySize entry a := by
  rw [Meets, Covers, not_or, ge_iff_le, UInt64.not_le, UInt64.not_le, UInt64.lt_iff_toNat_lt,
    UInt64.lt_iff_toNat_lt]
  refine and_congr_right fun henabled => ⟨?_, fun hcovers => ⟨by omega, by omega⟩⟩
  rintro ⟨hbase, hend⟩
  -- only the last address has an empty range, and no segment goes beyond it
  have hlt : entry.base < rangeEnd entry := by
    have hmax := (endpoints (k + 1)).toNat_lt
    have hlength : entry.length.toNat ≠ 0 := by
      rw [entryIsEnabled, Bool.and_eq_true, decide_eq_true_iff] at henabled
      exact fun h => henabled.1 (UInt64.toNat_inj.mp h)
    rw [UInt64.lt_iff_toNat_lt, toNat_rangeEnd]
    omega
  have hbase' := h.le_or_le hk ⟨entry, hentry, henabled, hlt, .inl rfl⟩
  have hend' := h.le_or_le hk ⟨entry, hentry, henabled, hlt, .inr rfl⟩
  omega

/-- Within a segment, all addresses or none are usable. -/
theorem Ends.usable_iff (hk : k < n)
    (hstart : (endpoints k).toNat ≤ a) (hstop : a < (endpoints (k + 1)).toNat) :
    Usable entrySize entries a ↔
      coverage entrySize entries (endpoints k) (endpoints (k + 1)) = (true, false) := by
  rw [coverage_iff, Usable]
  refine and_congr (exists_congr fun entry => and_congr_right fun hentry => ?_)
    (not_congr (exists_congr fun entry => and_congr_right fun hentry => ?_))
  · rw [h.meets_iff hk hentry hstart hstop]
  · rw [h.meets_iff hk hentry hstart hstop]

/-- Before the first end and from the last one on, no address is usable. -/
theorem Ends.of_usable (husable : Usable entrySize entries a) :
    (endpoints 0).toNat ≤ a ∧ a < (endpoints n).toNat := by
  obtain ⟨⟨entry, hentry, hcovers, -⟩, -⟩ := husable
  obtain ⟨hbase, hend⟩ := isEnd_of_covers hentry hcovers
  exact ⟨(h.first_le hbase).trans hcovers.2.1, hcovers.2.2.trans_le (h.le_last hend)⟩

end

/-! ### The loop over the segments -/

section Counting

variable {P : ℕ → Prop} [DecidablePred P] {s e : ℕ}

theorem count_of_all (hle : s ≤ e) (h : ∀ a, s ≤ a → a < e → P a) :
    count P e = count P s + (e - s) := by
  obtain ⟨d, rfl⟩ := Nat.exists_eq_add_of_le hle
  rw [count_add, count_of_forall fun i hi => h (s + i) (by omega) (by omega)]
  omega

theorem count_of_none (hle : s ≤ e) (h : ∀ a, s ≤ a → a < e → ¬P a) :
    count P e = count P s := by
  obtain ⟨d, rfl⟩ := Nat.exists_eq_add_of_le hle
  rw [count_add, count_of_forall_not fun i hi => h (s + i) (by omega) (by omega), add_zero]

end Counting

theorem toNat_saturatingAdd {left right : UInt64} (h : left.toNat + right.toNat < 2 ^ 64) :
    (saturatingAdd left right).toNat = left.toNat + right.toNat := by
  have hsub : (uint64Max - left).toNat = 2 ^ 64 - 1 - left.toNat := by
    rw [UInt64.toNat_sub_of_le _ _ (UInt64.le_iff_toNat_le.mpr (by rw [toNat_uint64Max]; omega)),
      toNat_uint64Max]
  have hnot : ¬right > uint64Max - left := by
    rw [gt_iff_lt, UInt64.lt_iff_toNat_lt, hsub]
    omega
  rw [saturatingAdd, if_neg hnot, UInt64.toNat_add]
  omega

theorem toNat_intersectionSize (start stop limit : UInt64) :
    (intersectionSize start stop 0 limit).toNat = min stop.toNat limit.toNat - start.toNat := by
  have hstart : (if start < 0 then 0 else start) = start := 
    if_neg (UInt64.not_lt.mpr UInt64.zero_le)
  have hstop : (if stop > limit then limit else stop).toNat = min stop.toNat limit.toNat := by
    by_cases h : stop > limit
    · rw [if_pos h]
      rw [gt_iff_lt, UInt64.lt_iff_toNat_lt] at h
      omega
    · rw [if_neg h]
      rw [gt_iff_lt, UInt64.lt_iff_toNat_lt] at h
      omega
  rw [intersectionSize, hstart]
  generalize (if stop > limit then limit else stop) = stop' at hstop ⊢
  by_cases h : stop' > start
  · rw [if_pos h, UInt64.toNat_sub_of_le _ _ (UInt64.le_of_lt h), hstop]
  · rw [if_neg h]
    rw [gt_iff_lt, UInt64.lt_iff_toNat_lt, hstop] at h
    rw [UInt64.toNat_zero]
    omega

/-- How far the heap reaches, as far as the addresses below `x` tell: to the first address behind
its base that is not usable, mapped and below `x`. -/
structure HeapSwept (P : ℕ → Prop) (x : ℕ) (found : Bool) (limit : ℕ) : Prop where
  found_iff : found = true ↔ 2 ^ 23 < x ∧ P (2 ^ 23)
  base_lt : found = true → 2 ^ 23 < limit
  le : found = true → limit ≤ min x (2 ^ 30)
  usable : found = true → ∀ a, 2 ^ 23 ≤ a → a < limit → P a
  ends : found = true → limit = min x (2 ^ 30) ∨ ¬P limit

/-- What the loop has found below the address `x`. -/
structure Swept (P : ℕ → Prop) [DecidablePred P] (x : ℕ) (w : Sweep) : Prop where
  physical : w.physicalUsableBytes.toNat = Nat.count P x
  mapped : w.mappedUsableBytes.toNat = Nat.count P (min x (2 ^ 30))
  low : w.reservedLowUsableBytes.toNat = Nat.count P (min x (2 ^ 23))
  heap : HeapSwept P x w.foundHeapBase w.heapLimit.toNat

section Sweep

variable {P : ℕ → Prop} {w : Sweep}

theorem toNat_clampMapped (limit : UInt64) :
    (clampMapped limit).toNat = min limit.toNat (2 ^ 30) := by
  have hlimit : mappedRamLimit.toNat = 2 ^ 30 := by decide
  rw [clampMapped]
  by_cases h : limit > mappedRamLimit
  · rw [if_pos h, hlimit]
    rw [gt_iff_lt, UInt64.lt_iff_toNat_lt, hlimit] at h
    omega
  · rw [if_neg h]
    rw [gt_iff_lt, UInt64.lt_iff_toNat_lt, hlimit] at h
    omega

variable {limit s e : ℕ}

/-- A segment that is not usable changes nothing. -/
theorem HeapSwept.skip {found : Bool} (h : HeapSwept P s found limit) (hlt : s < e)
    (hnone : ∀ a, s ≤ a → a < e → ¬P a) : HeapSwept P e found limit where
  found_iff := by
    rw [h.found_iff]
    refine ⟨fun ⟨hx, hP⟩ => ⟨by omega, hP⟩, fun ⟨hx, hP⟩ => ⟨?_, hP⟩⟩
    by_contra hnot
    exact hnone _ (by omega) hx hP
  base_lt := h.base_lt
  le hfound := by
    have := h.le hfound
    omega
  usable := h.usable
  ends hfound := by
    obtain heq | hnot := h.ends hfound
    · by_cases hmapped : 2 ^ 30 ≤ s
      · exact .inl (by omega)
      · exact .inr (hnone _ (by omega) (by omega))
    · exact .inr hnot

/-- The heap starts in a usable segment. -/
theorem HeapSwept.begin {s e : ℕ} (hs : s ≤ 2 ^ 23) (he : 2 ^ 23 < e)
    (hall : ∀ a, s ≤ a → a < e → P a) : HeapSwept P e true (min e (2 ^ 30)) where
  found_iff := ⟨fun _ => ⟨he, hall _ hs he⟩, fun _ => rfl⟩
  base_lt _ := by omega
  le _ := le_rfl
  usable _ a ha ha' := hall a (by omega) (by omega)
  ends _ := .inl rfl

/-- The heap goes on through a usable segment. -/
theorem HeapSwept.extend (h : HeapSwept P s true limit) (hs : s ≤ limit)
    (he : limit < e) (hall : ∀ a, s ≤ a → a < e → P a) : HeapSwept P e true (min e (2 ^ 30)) where
  found_iff := by
    have hbase := h.base_lt rfl
    exact ⟨fun _ => ⟨by omega, h.usable rfl _ le_rfl hbase⟩, fun _ => rfl⟩
  base_lt _ := by
    have := h.base_lt rfl
    omega
  le _ := le_rfl
  usable _ a ha ha' := by
    by_cases hold : a < limit
    · exact h.usable rfl a ha hold
    · exact hall a (by omega) (by omega)
  ends _ := .inl rfl

/-- The heap has ended before a segment, or it has not begun and does not begin in it. -/
theorem HeapSwept.stay {found : Bool} (h : HeapSwept P s found limit) (hlt : s < e)
    (hbegin : ¬(found = false ∧ s ≤ 2 ^ 23 ∧ 2 ^ 23 < e))
    (hgoes : ¬(found = true ∧ s ≤ limit ∧ limit < e ∧ limit < 2 ^ 30)) :
    HeapSwept P e found limit where
  found_iff := by
    cases found with
    | true =>
      have hfound := h.found_iff.mp rfl
      exact ⟨fun _ => ⟨by omega, hfound.2⟩, fun _ => rfl⟩
    | false =>
      refine ⟨fun h => absurd h (by simp), fun ⟨hx, hP⟩ => h.found_iff.mpr ⟨?_, hP⟩⟩
      by_contra hnot
      exact hbegin ⟨rfl, by omega, hx⟩
  base_lt := h.base_lt
  le hfound := by
    have := h.le hfound
    omega
  usable := h.usable
  ends hfound := by
    refine (h.ends hfound).imp_left fun heq => ?_
    by_contra hnot
    exact hgoes ⟨hfound, by omega, by omega, by omega⟩

/-- The heap after a usable segment. -/
theorem HeapSwept.extendHeap (h : HeapSwept P start.toNat w.foundHeapBase w.heapLimit.toNat)
    (hlt : start.toNat < stop.toNat) (hall : ∀ a, start.toNat ≤ a → a < stop.toNat → P a) :
    HeapSwept P stop.toNat (extendHeap w start stop).foundHeapBase
      (extendHeap w start stop).heapLimit.toNat := by
  have hheapBase : heapBaseAddr.toNat = 2 ^ 23 := by decide
  have hmapped : mappedRamLimit.toNat = 2 ^ 30 := by decide
  have hbegin : (w.foundHeapBase = false ∧ start ≤ heapBaseAddr ∧ stop > heapBaseAddr) ↔
      w.foundHeapBase = false ∧ start.toNat ≤ 2 ^ 23 ∧ 2 ^ 23 < stop.toNat := by
    rw [UInt64.le_iff_toNat_le, gt_iff_lt, UInt64.lt_iff_toNat_lt, hheapBase]
  have hgoes : (w.foundHeapBase = true ∧ start ≤ w.heapLimit ∧ stop > w.heapLimit ∧
      w.heapLimit < mappedRamLimit) ↔
      w.foundHeapBase = true ∧ start.toNat ≤ w.heapLimit.toNat ∧ w.heapLimit.toNat < stop.toNat ∧
        w.heapLimit.toNat < 2 ^ 30 := by
    rw [UInt64.le_iff_toNat_le, gt_iff_lt, UInt64.lt_iff_toNat_lt, UInt64.lt_iff_toNat_lt, hmapped]
  rw [Memtest.extendHeap]
  by_cases h₁ : w.foundHeapBase = false ∧ start ≤ heapBaseAddr ∧ stop > heapBaseAddr
  · rw [if_pos h₁]
    rw [toNat_clampMapped]
    exact HeapSwept.begin (hbegin.mp h₁).2.1 (hbegin.mp h₁).2.2 hall
  · rw [if_neg h₁]
    by_cases h₂ : w.foundHeapBase = true ∧ start ≤ w.heapLimit ∧ stop > w.heapLimit ∧
        w.heapLimit < mappedRamLimit
    · rw [if_pos h₂]
      rw [toNat_clampMapped, h₂.1]
      rw [h₂.1] at h
      exact h.extend (hgoes.mp h₂).2.1 (hgoes.mp h₂).2.2.1 hall
    · rw [if_neg h₂]
      exact h.stay hlt (mt hbegin.mpr h₁) (mt hgoes.mpr h₂)

variable [DecidablePred P]

theorem Swept.skip (h : Swept P start.toNat w) (hlt : start.toNat < stop.toNat)
    (hnone : ∀ a, start.toNat ≤ a → a < stop.toNat → ¬P a) : Swept P stop.toNat w where
  physical := by rw [count_of_none hlt.le hnone, h.physical]
  mapped := h.mapped.trans
    (count_of_none (by omega) fun a ha ha' => hnone a (by omega) (by omega)).symm
  low := h.low.trans (count_of_none (by omega) fun a ha ha' => hnone a (by omega) (by omega)).symm
  heap := h.heap.skip hlt hnone

/-- A count of usable bytes goes on over a usable segment. -/
theorem toNat_saturatingAdd_count {bytes size : UInt64} {s e : ℕ} (hle : s ≤ e) (he : e < 2 ^ 64)
    (hall : ∀ a, s ≤ a → a < e → P a) (hbytes : bytes.toNat = count P s)
    (hsize : size.toNat = e - s) : (saturatingAdd bytes size).toNat = count P e := by
  have hcount : count P s ≤ s := count_le P
  rw [toNat_saturatingAdd (by omega), hbytes, hsize, count_of_all hle hall]

/-- A usable segment. -/
theorem Swept.take (h : Swept P start.toNat w) (hlt : start.toNat < stop.toNat)
    (hall : ∀ a, start.toNat ≤ a → a < stop.toNat → P a) {w' : Sweep}
    (hw : w' = { w with
      physicalUsableBytes := saturatingAdd w.physicalUsableBytes (stop - start)
      mappedUsableBytes :=
        saturatingAdd w.mappedUsableBytes (intersectionSize start stop 0 mappedRamLimit)
      reservedLowUsableBytes :=
        saturatingAdd w.reservedLowUsableBytes (intersectionSize start stop 0 heapBaseAddr) }) :
    Swept P stop.toNat (extendHeap w' start stop) := by
  have hheapBase : heapBaseAddr.toNat = 2 ^ 23 := by decide
  have hmapped : mappedRamLimit.toNat = 2 ^ 30 := by decide
  have hstop := stop.toNat_lt
  have hsame : (extendHeap w' start stop).physicalUsableBytes = w'.physicalUsableBytes ∧
      (extendHeap w' start stop).mappedUsableBytes = w'.mappedUsableBytes ∧
      (extendHeap w' start stop).reservedLowUsableBytes = w'.reservedLowUsableBytes := by
    rw [extendHeap]
    split
    · exact ⟨rfl, rfl, rfl⟩
    · split <;> exact ⟨rfl, rfl, rfl⟩
  have hheap : HeapSwept P start.toNat w'.foundHeapBase w'.heapLimit.toNat := by
    rw [hw]
    exact h.heap
  refine ⟨?_, ?_, ?_, hheap.extendHeap hlt hall⟩
  · rw [hsame.1, hw]
    exact toNat_saturatingAdd_count hlt.le hstop hall h.physical
      (UInt64.toNat_sub_of_le _ _ (UInt64.le_iff_toNat_le.mpr hlt.le))
  · rw [hsame.2.1, hw]
    refine toNat_saturatingAdd_count (by omega) (by omega)
      (fun a ha ha' => hall a (by omega) (by omega)) h.mapped ?_
    rw [toNat_intersectionSize, hmapped]
    omega
  · rw [hsame.2.2, hw]
    refine toNat_saturatingAdd_count (by omega) (by omega)
      (fun a ha ha' => hall a (by omega) (by omega)) h.low ?_
    rw [toNat_intersectionSize, hheapBase]
    omega

end Sweep

/-- The loop counts what is usable below the end that it has reached. -/
theorem swept_sweep (h : Ends entrySize entries endpoints n) :
    ∀ k ≤ n, Swept (Usable entrySize entries) (endpoints k).toNat
      (sweep entrySize entries endpoints k)
  | 0, _ => by
    have hnone : ∀ a, a < (endpoints 0).toNat → ¬Usable entrySize entries a :=
      fun a ha husable => absurd (h.of_usable husable).1 (by omega)
    have hcount : ∀ x ≤ (endpoints 0).toNat, count (Usable entrySize entries) x = 0 :=
      fun x hx => count_of_forall_not fun a ha => hnone a (by omega)
    have hfalse : ¬false = true := by decide
    exact
      { physical := (hcount _ le_rfl).symm
        mapped := (hcount _ (by omega)).symm
        low := (hcount _ (by omega)).symm
        heap :=
          { found_iff := ⟨fun h => absurd h hfalse, fun h => absurd h.2 (hnone _ h.1)⟩
            base_lt := fun h => absurd h hfalse
            le := fun h => absurd h hfalse
            usable := fun h => absurd h hfalse
            ends := fun h => absurd h hfalse } }
  | k + 1, hk => by
    have ih := swept_sweep h k (by omega)
    have hlt : (endpoints k).toNat < (endpoints (k + 1)).toNat :=
      (h.lt_iff (by omega) hk).mpr (lt_succ_self k)
    rw [sweep, sweepSegment]
    by_cases hcoverage : coverage entrySize entries (endpoints k) (endpoints (k + 1)) =
      (true, false)
    · rw [if_neg (not_not.mpr hcoverage)]
      exact ih.take hlt (fun a ha ha' => (h.usable_iff (by omega) ha ha').mpr hcoverage) rfl
    · rw [if_pos hcoverage]
      exact ih.skip hlt fun a ha ha' husable =>
        hcoverage ((h.usable_iff (by omega) ha ha').mp husable)

/-! ### What is reported -/

theorem ncard_inter_Iio (P : ℕ → Prop) [DecidablePred P] (x : ℕ) :
    ({a | P a} ∩ Iio x).ncard = count P x := by
  have hset : {a | P a} ∩ Iio x = ((Finset.range x).filter P : Set ℕ) := by
    ext a
    simp [and_comm]
  rw [hset, ncard_coe_finset, count_eq_card_filter_range]

/-- The heap reaches as far as it can. -/
theorem HeapSwept.isGreatest {P : ℕ → Prop} {x limit : ℕ} (h : HeapSwept P x true limit)
    (hbelow : ∀ a, P a → a < x) :
    IsGreatest {L | L ≤ 2 ^ 30 ∧ ∀ a, 2 ^ 23 ≤ a → a < L → P a} limit := by
  have hbase := h.base_lt rfl
  have hle := h.le rfl
  refine ⟨⟨by omega, h.usable rfl⟩, ?_⟩
  rintro L ⟨hL, hall⟩
  by_contra hnot
  have hP : P limit := hall limit (by omega) (by omega)
  obtain heq | hend := h.ends rfl
  · have := hbelow limit hP
    omega
  · exact hend hP

/-- The variables after the loop describe the set of usable addresses. -/
theorem Swept.info {P : ℕ → Prop} [DecidablePred P] {x : ℕ} {w : Sweep} (h : Swept P x w)
    (hbelow : ∀ a, P a → a < x) :
    w.info.physicalUsableBytes.toNat = {a | P a}.ncard ∧
      w.info.mappedUsableBytes.toNat = ({a | P a} ∩ Iio (2 ^ 30)).ncard ∧
      w.info.reservedLowUsableBytes.toNat = ({a | P a} ∩ Iio (2 ^ 23)).ncard ∧
      (¬P (2 ^ 23) → w.info.heapUpperLimit = 0) ∧
      (P (2 ^ 23) → IsGreatest {L | L ≤ 2 ^ 30 ∧ ∀ a, 2 ^ 23 ≤ a → a < L → P a}
        w.info.heapUpperLimit.toNat) := by
  have hcount : ∀ y, count P (min x y) = count P y := fun y =>
    (count_of_none (by omega) fun a ha ha' hP => absurd (hbelow a hP) (by omega)).symm
  have hall : {a | P a} ∩ Iio x = {a | P a} := inter_eq_left.mpr hbelow
  refine ⟨?_, ?_, ?_, fun hP => ?_, fun hP => ?_⟩
  · rw [← hall, ncard_inter_Iio]
    exact h.physical
  · rw [ncard_inter_Iio, ← hcount]
    exact h.mapped
  · rw [ncard_inter_Iio, ← hcount]
    exact h.low
  · refine if_neg fun hfound => hP ?_
    exact (h.heap.found_iff.mp hfound).2
  · have hfound : w.foundHeapBase = true := h.heap.found_iff.mpr ⟨hbelow _ hP, hP⟩
    have hheap := h.heap
    rw [hfound] at hheap
    rw [Sweep.info]
    rw [if_pos hfound]
    exact hheap.isGreatest hbelow

/-- Memory detection reports the usable addresses. -/
theorem memory_detection {array : ℕ → UInt64} {boot : BootInfo} {mem : Memory} {info : MemoryInfo}
    (h : memtestDetectMemory array (some boot) mem = (true, info)) :
    let usable := {a | Usable boot.e820EntrySize (boot.entries mem) a}
    info.physicalUsableBytes.toNat = usable.ncard ∧
      info.mappedUsableBytes.toNat = (usable ∩ Iio (2 ^ 30)).ncard ∧
      info.reservedLowUsableBytes.toNat = (usable ∩ Iio (2 ^ 23)).ncard ∧
      (2 ^ 23 ∉ usable → info.heapUpperLimit = 0) ∧
      (2 ^ 23 ∈ usable →
        IsGreatest {L | L ≤ 2 ^ 30 ∧ Set.Ico (2 ^ 23) L ⊆ usable} info.heapUpperLimit.toNat) := by
  rw [memtestDetectMemory] at h
  dsimp only at h
  by_cases hvalid : boot.valid = false
  · rw [if_pos hvalid] at h
    exact absurd (congrArg Prod.fst h) (by simp)
  · rw [if_neg hvalid] at h
    by_cases hcount : (collectEndpoints boot.e820EntrySize (boot.entries mem) array).1 < 2
    · rw [if_pos hcount] at h
      exact absurd (congrArg Prod.fst h) (by simp)
    · rw [if_neg hcount] at h
      have hends := ends_of_collect boot.e820EntrySize (boot.entries mem) array (not_lt.mp hcount)
      dsimp only at hends
      generalize collectEndpoints boot.e820EntrySize (boot.entries mem) array = collected at h hends
      have hinfo := (swept_sweep hends _ le_rfl).info fun a ha => (hends.of_usable ha).2
      split at h
      · exact absurd (congrArg Prod.fst h) (by simp)
      · obtain rfl := congrArg Prod.snd h
        obtain ⟨hphysical, hmapped, hlow, hnone, hheap⟩ := hinfo
        refine ⟨hphysical, hmapped, hlow, hnone, fun hbase => ?_⟩
        have hset : {L : ℕ | L ≤ 2 ^ 30 ∧ Set.Ico (2 ^ 23) L ⊆
            {a | Usable boot.e820EntrySize (boot.entries mem) a}} =
            {L | L ≤ 2 ^ 30 ∧ ∀ a, 2 ^ 23 ≤ a → a < L →
              Usable boot.e820EntrySize (boot.entries mem) a} := by
          ext L
          exact and_congr_right fun _ =>
            ⟨fun h a ha ha' => h ⟨ha, ha'⟩, fun h a ha => h a ha.1 ha.2⟩
        rw [hset]
        exact hheap hbase

/-- A table of two entries: 16 MiB from 1 MiB on are usable, but for 1 MiB from 10 MiB on. -/
def twoRanges : Memory := fun a =>
  ([0, 0, 0x10, 0, 0, 0, 0, 0, 0, 0, 0, 1, 0, 0, 0, 0, 1, 0, 0, 0,
    0, 0, 0xA0, 0, 0, 0, 0, 0, 0, 0, 0x10, 0, 0, 0, 0, 0, 2, 0, 0, 0] : List UInt8).getD
      (a - 0x1000) 0

theorem memory_detection_twoRanges :
    memtestDetectMemory (fun _ => 0) (some ⟨2, 20, 0x1000⟩) twoRanges =
        (true, ⟨0xF00000, 0xF00000, 0x700000, 0xA00000⟩) ∧
      0xF00000 = {a | Usable 20 ((⟨2, 20, 0x1000⟩ : BootInfo).entries twoRanges) a}.ncard := by
  have h : memtestDetectMemory (fun _ => 0) (some ⟨2, 20, 0x1000⟩) twoRanges =
      (true, ⟨0xF00000, 0xF00000, 0x700000, 0xA00000⟩) := by decide +kernel
  exact ⟨h, (memory_detection h).1⟩

end Nostalux.Memtest

import Mathlib.Tactic

/-!
# Stores and sequences of writes

A store maps addresses to values; `WriteLog.apply` carries out a sequence of writes on it, and
`WriteLog.block` is the sequence that writes consecutive values from a base address on.

* `apply_eq_self`: an address that no write names keeps its value;
* `apply_eq`: an address that only one value is written to holds that value, as soon as one write
  names it or it held the value before.
-/

namespace WriteLog

variable {ι β : Type*} [DecidableEq ι]

/-- The store after a sequence of writes. -/
def apply (d : ι → β) (ws : List (ι × β)) : ι → β :=
  ws.foldl (fun d w => Function.update d w.1 w.2) d

@[simp] theorem apply_nil (d : ι → β) : apply d [] = d := rfl

theorem apply_eq {d : ι → β} {ws : List (ι × β)} {x : ι} {v : β}
    (hv : ∀ w ∈ ws, w.1 = x → w.2 = v) (h : (∃ w ∈ ws, w.1 = x) ∨ d x = v) : apply d ws x = v := by
  induction ws generalizing d with
  | nil => simpa using h
  | cons w ws ih =>
    rw [List.forall_mem_cons] at hv
    refine ih (d := Function.update d w.1 w.2) hv.2 ?_
    by_cases hw : w.1 = x
    · right
      rw [← hw, Function.update_self, hv.1 hw]
    · rw [Function.update_of_ne (Ne.symm hw)]
      rcases h with ⟨w', hmem, hx⟩ | h
      · rcases List.mem_cons.1 hmem with rfl | hmem
        · exact absurd hx hw
        · exact .inl ⟨w', hmem, hx⟩
      · exact .inr h

theorem apply_eq_self {d : ι → β} {ws : List (ι × β)} {x : ι} (h : ∀ w ∈ ws, w.1 ≠ x) :
    apply d ws x = d x :=
  apply_eq (fun w hw hx => absurd hx (h w hw)) (.inr rfl)

/-- The writes of consecutive values. -/
def block (base : ℕ) (data : List β) : List (ℕ × β) :=
  data.zipIdx.map fun p => (base + p.2, p.1)

theorem mem_block {base : ℕ} {data : List β} {w : ℕ × β} :
    w ∈ block base data ↔ ∃ i, data[i]? = some w.2 ∧ w.1 = base + i := by
  obtain ⟨x, v⟩ := w
  rw [block, List.mem_map]
  constructor
  · rintro ⟨⟨u, i⟩, hmem, heq⟩
    cases heq
    exact ⟨i, List.mem_zipIdx_iff_getElem?.1 hmem, rfl⟩
  · rintro ⟨i, hi, hx⟩
    exact ⟨(v, i), List.mem_zipIdx_iff_getElem?.2 hi, Prod.ext hx.symm rfl⟩

theorem bounds_of_mem_block {base : ℕ} {data : List β} {w : ℕ × β} (h : w ∈ block base data) :
    base ≤ w.1 ∧ w.1 < base + data.length := by
  obtain ⟨i, hi, hx⟩ := mem_block.1 h
  obtain ⟨hlt, -⟩ := List.getElem?_eq_some_iff.1 hi
  omega

end WriteLog

import Mathlib.Data.List.DropRight
import Mathlib.Data.List.Basic

/-!
# Dot segments of paths

`removeDotSegments` is the algorithm of RFC 3986, section 5.2.4: it moves the segments of a path
from an input to an output buffer.  On a path that starts with a slash it is a fold over the
segments.

* `removeDotSegments_pathOf`: the fold;
* `keepSegments_plain`, `keepSegments_of_plain`: no dot segment is left, and where there was none,
  nothing changes.
-/

namespace DotSegments

open List

/-- The last segment is removed together with the slash before it, if any. -/
def dropLastSegment (output : List UInt8) : List UInt8 := (output.rdropWhile (· ≠ 47)).dropLast

/-- The steps 2A to 2E on the input and the output buffer. -/
def removeLoop : List UInt8 → List UInt8 → List UInt8
  | [], output => output
  | 46 :: 46 :: 47 :: rest, output => removeLoop rest output
  | 46 :: 47 :: rest, output => removeLoop rest output
  | 47 :: 46 :: 47 :: rest, output => removeLoop (47 :: rest) output
  | [47, 46], output => removeLoop [47] output
  | 47 :: 46 :: 46 :: 47 :: rest, output => removeLoop (47 :: rest) (dropLastSegment output)
  | [47, 46, 46], output => removeLoop [47] (dropLastSegment output)
  | [46], output => output
  | [46, 46], output => output
  | c :: rest, output =>
    removeLoop (rest.dropWhile (· ≠ 47)) (output ++ c :: rest.takeWhile (· ≠ 47))
termination_by input => input.length
decreasing_by
  all_goals simp only [List.length_cons, List.length_nil]
  any_goals omega
  exact Nat.lt_succ_of_le (List.dropWhile_suffix _).length_le

/-- `remove_dot_segments`. -/
def removeDotSegments (path : List UInt8) : List UInt8 := removeLoop path []

/-- A path from its segments. -/
def pathOf (segments : List (List UInt8)) : List UInt8 := segments.flatMap (47 :: ·)

/-- One more segment, the last one of its path if `final` is set. -/
def keepSegment (kept : List (List UInt8)) (segment : List UInt8) (final : Bool) :
    List (List UInt8) :=
  if segment = [46] then if final then kept ++ [[]] else kept
  else if segment = [46, 46] then if final then kept.dropLast ++ [[]] else kept.dropLast
  else kept ++ [segment]

/-- The segments that are kept. -/
def keepSegments (kept : List (List UInt8)) : List (List UInt8) → List (List UInt8)
  | [] => kept
  | [segment] => keepSegment kept segment true
  | segment :: rest => keepSegments (keepSegment kept segment false) rest

/-- The segment is neither `.` nor `..`. -/
def Plain (segment : List UInt8) : Prop := segment ≠ [46] ∧ segment ≠ [46, 46]

/-! ### Paths and segments -/

@[simp] theorem pathOf_nil : pathOf [] = [] := rfl

@[simp] theorem pathOf_cons (segment : List UInt8) (segments : List (List UInt8)) :
    pathOf (segment :: segments) = 47 :: segment ++ pathOf segments := rfl

@[simp] theorem pathOf_append (first second : List (List UInt8)) :
    pathOf (first ++ second) = pathOf first ++ pathOf second := flatMap_append

theorem pathOf_splitOn (path : List UInt8) : pathOf (path.splitOn 47) = 47 :: path := by
  induction path with
  | nil => rfl
  | cons c path ih =>
    rw [splitOn_cons_eq_if_modifyHead]
    split
    · rename_i hc
      rw [pathOf_cons, ih, beq_iff_eq.1 hc]
      rfl
    · obtain ⟨segment, segments, hsplit⟩ := exists_cons_of_ne_nil (splitOn_ne_nil 47 path)
      rw [hsplit, pathOf_cons, cons_append, cons.injEq] at ih
      rw [hsplit, modifyHead_cons, pathOf_cons, cons_append, cons_append, ih.2]

theorem not_mem_of_mem_splitOn {path segment : List UInt8} (h : segment ∈ path.splitOn 47) :
    47 ∉ segment := by
  induction path generalizing segment with
  | nil =>
    rw [splitOn_nil, mem_singleton] at h
    rw [h]
    exact not_mem_nil
  | cons c path ih =>
    rw [splitOn_cons_eq_if_modifyHead] at h
    split at h
    · rcases mem_cons.1 h with rfl | h
      · exact not_mem_nil
      · exact ih h
    · rename_i hc
      obtain ⟨first, segments, hsplit⟩ := exists_cons_of_ne_nil (splitOn_ne_nil 47 path)
      rw [hsplit, modifyHead_cons] at h
      rcases mem_cons.1 h with rfl | h
      · have hfirst : 47 ∉ first := ih (by rw [hsplit]; exact mem_cons_self)
        rw [mem_cons, not_or]
        exact ⟨fun h => hc (by simp [h]), hfirst⟩
      · exact ih (by rw [hsplit]; exact mem_cons_of_mem _ h)

variable {segments : List (List UInt8)}

theorem splitOn_append_pathOf {segment : List UInt8}
    (hsegment : 47 ∉ segment) (hsegments : ∀ s ∈ segments, 47 ∉ s) :
    (segment ++ pathOf segments).splitOn 47 = segment :: segments := by
  induction segments generalizing segment with
  | nil => rw [pathOf_nil, append_nil, splitOn_eq_singleton hsegment]
  | cons next rest ih =>
    rw [pathOf_cons, cons_append, splitOn_append_cons_self_of_not_mem hsegment,
      ih (hsegments next mem_cons_self) fun s hs => hsegments s (mem_cons_of_mem _ hs)]

/-- The segments of a path, behind the empty text before its first slash. -/
theorem splitOn_pathOf (h : ∀ s ∈ segments, 47 ∉ s) :
    (pathOf segments).splitOn 47 = [] :: segments :=
  splitOn_append_pathOf not_mem_nil h

/-- A path of segments starts with a slash. -/
theorem head?_pathOf (h : segments ≠ []) : (pathOf segments).head? = some 47 := by
  cases segments with
  | nil => exact absurd rfl h
  | cons segment segments => rfl

/-- Dropping from the end stops at the last slash. -/
theorem rdropWhile_slash (front : List UInt8) {last : List UInt8} (h : 47 ∉ last) :
    (front ++ 47 :: last).rdropWhile (· ≠ 47) = front ++ [47] := by
  have hlast : ∀ c ∈ last.reverse, (decide (c ≠ 47)) = true := by
    intro c hc
    simpa using fun h47 : c = 47 => h (h47 ▸ mem_reverse.1 hc)
  have hreverse : (front ++ 47 :: last).reverse = last.reverse ++ 47 :: front.reverse := by simp
  rw [rdropWhile, hreverse, dropWhile_append_of_pos hlast]
  simp

/-- The last segment of a path is the last of its segments. -/
theorem dropLastSegment_pathOf (h : ∀ s ∈ segments, 47 ∉ s) :
    dropLastSegment (pathOf segments) = pathOf segments.dropLast := by
  rcases eq_nil_or_concat segments with rfl | ⟨front, last, rfl⟩
  · rfl
  · rw [concat_eq_append] at h ⊢
    rw [dropLastSegment, dropLast_concat, pathOf_append, pathOf_cons, pathOf_nil,
      append_nil, rdropWhile_slash _ (h last (by simp)), dropLast_concat]

/-! ### The algorithm on segments -/

/-- An ordinary segment goes to the output. -/
theorem removeLoop_segment {segment rest : List UInt8} (hplain : Plain segment)
    (hslash : 47 ∉ segment) (hrest : rest = [] ∨ rest.head? = some 47) (output : List UInt8) :
    removeLoop (47 :: segment ++ rest) output = removeLoop rest (output ++ 47 :: segment) := by
  have hsegment : ∀ c ∈ segment, (decide (c ≠ 47)) = true := by
    intro c hc
    simpa using fun h47 : c = 47 => hslash (h47 ▸ hc)
  have htake : (segment ++ rest).takeWhile (· ≠ 47) = segment := by
    rw [takeWhile_append_of_pos hsegment]
    rcases hrest with rfl | hrest
    · simp
    · obtain ⟨rest, rfl⟩ := head?_eq_some_iff.1 hrest
      simp
  have hdrop : (segment ++ rest).dropWhile (· ≠ 47) = rest := by
    rw [dropWhile_append_of_pos hsegment]
    rcases hrest with rfl | hrest
    · rfl
    · obtain ⟨rest, rfl⟩ := head?_eq_some_iff.1 hrest
      simp
  obtain ⟨hdot, hdots⟩ := hplain
  rw [cons_append, removeLoop]
  · rw [htake, hdrop]
  -- no other step applies: the segment is what stands before the next slash
  · exact fun _ h => absurd h (by decide)
  · exact fun _ h => absurd h (by decide)
  · exact fun _ _ h => hdot (by rw [← htake, h]; simp)
  · exact fun _ h => hdot (by rw [← htake, h]; simp)
  · exact fun _ _ h => hdots (by rw [← htake, h]; simp)
  · exact fun _ h => hdots (by rw [← htake, h]; simp)
  · exact fun h => absurd h (by decide)
  · exact fun h => absurd h (by decide)

/-- The segments are moved to the output one by one. -/
theorem removeLoop_pathOf {segments kept : List (List UInt8)} (hne : segments ≠ [])
    (hsegments : ∀ s ∈ segments, 47 ∉ s) (hkept : ∀ s ∈ kept, 47 ∉ s) :
    removeLoop (pathOf segments) (pathOf kept) = pathOf (keepSegments kept segments) := by
  induction segments generalizing kept with
  | nil => exact absurd rfl hne
  | cons segment rest ih =>
    have hsegment : 47 ∉ segment := hsegments segment mem_cons_self
    have hdropped : ∀ s ∈ kept.dropLast, 47 ∉ s := fun s hs => hkept s (dropLast_subset _ hs)
    have hempty (output : List UInt8) : removeLoop [47] output = output ++ [47] := by
      have h := removeLoop_segment ⟨by simp, by simp⟩ not_mem_nil (.inl rfl) output
      rw [removeLoop] at h
      exact h
    have hplain (hplain : Plain segment) (tail : List UInt8)
        (htail : tail = [] ∨ tail.head? = some 47) :
        removeLoop (47 :: segment ++ tail) (pathOf kept) =
          removeLoop tail (pathOf (kept ++ [segment])) := by
      rw [removeLoop_segment hplain hsegment htail, pathOf_append, pathOf_cons, pathOf_nil,
        append_nil]
    cases rest with
    | nil =>
      rw [pathOf_cons, pathOf_nil, keepSegments, keepSegment]
      by_cases hdot : segment = [46]
      · rw [if_pos hdot, if_pos rfl, hdot, pathOf_append]
        exact (removeLoop.eq_5 _).trans (hempty _)
      by_cases hdots : segment = [46, 46]
      · rw [if_neg hdot, if_pos hdots, if_pos rfl, hdots, pathOf_append,
          ← dropLastSegment_pathOf hkept]
        exact (removeLoop.eq_7 _).trans (hempty _)
      · rw [if_neg hdot, if_neg hdots, hplain ⟨hdot, hdots⟩ [] (.inl rfl), removeLoop]
    | cons next rest =>
      have ih' {kept' : List (List UInt8)} (hkept' : ∀ s ∈ kept', 47 ∉ s) :=
        @ih kept' (cons_ne_nil _ _)
          (fun s hs => hsegments s (mem_cons_of_mem _ hs)) hkept'
      rw [pathOf_cons, keepSegments.eq_3 _ _ _ (cons_ne_nil _ _), keepSegment]
      by_cases hdot : segment = [46]
      · rw [if_pos hdot, if_neg Bool.false_ne_true, ← ih' hkept, hdot]
        exact removeLoop.eq_4 _ _
      by_cases hdots : segment = [46, 46]
      · rw [if_neg hdot, if_pos hdots, if_neg Bool.false_ne_true, ← ih' hdropped, hdots,
          ← dropLastSegment_pathOf hkept]
        exact removeLoop.eq_6 _ _
      · rw [if_neg hdot, if_neg hdots, hplain ⟨hdot, hdots⟩ _ (.inr rfl)]
        refine ih' ?_
        intro s hs
        rcases mem_append.1 hs with hs | hs
        · exact hkept s hs
        · rw [mem_singleton.1 hs]
          exact hsegment

theorem removeDotSegments_pathOf (hne : segments ≠ []) (hsegments : ∀ s ∈ segments, 47 ∉ s) :
    removeDotSegments (pathOf segments) = pathOf (keepSegments [] segments) :=
  removeLoop_pathOf hne hsegments fun _ h => absurd h not_mem_nil

/-! ### The segments that are kept -/

theorem mem_keepSegment {kept : List (List UInt8)} {segment s : List UInt8} {final : Bool}
    (h : s ∈ keepSegment kept segment final) :
    s ∈ kept ∨ s = [] ∨ s = segment ∧ Plain segment := by
  unfold keepSegment at h
  split at h
  · split at h
    · rcases mem_append.1 h with h | h
      · exact .inl h
      · exact .inr (.inl (mem_singleton.1 h))
    · exact .inl h
  split at h
  · split at h
    · rcases mem_append.1 h with h | h
      · exact .inl (dropLast_subset _ h)
      · exact .inr (.inl (mem_singleton.1 h))
    · exact .inl (dropLast_subset _ h)
  · rename_i hdot hdots
    rcases mem_append.1 h with h | h
    · exact .inl h
    · exact .inr (.inr ⟨mem_singleton.1 h, hdot, hdots⟩)

/-- A kept segment is empty or an ordinary segment of the path. -/
theorem mem_keepSegments {kept segments : List (List UInt8)} {s : List UInt8}
    (h : s ∈ keepSegments kept segments) : s ∈ kept ∨ s = [] ∨ s ∈ segments ∧ Plain s := by
  induction segments generalizing kept with
  | nil => exact .inl h
  | cons segment rest ih =>
    have hstep {final : Bool} (h : s ∈ keepSegment kept segment final) :
        s ∈ kept ∨ s = [] ∨ s ∈ segment :: rest ∧ Plain s := by
      rcases mem_keepSegment h with h | h | ⟨rfl, h⟩
      · exact .inl h
      · exact .inr (.inl h)
      · exact .inr (.inr ⟨mem_cons_self, h⟩)
    cases rest with
    | nil => exact hstep h
    | cons next rest =>
      rcases ih h with h | h | h
      · exact hstep h
      · exact .inr (.inl h)
      · exact .inr (.inr ⟨mem_cons_of_mem _ h.1, h.2⟩)

/-- No dot segment is left. -/
theorem keepSegments_plain {s : List UInt8} (h : s ∈ keepSegments [] segments) : Plain s := by
  rcases mem_keepSegments h with h | rfl | h
  · cases h
  · exact ⟨by simp, by simp⟩
  · exact h.2

theorem keepSegments_ne_nil (kept : List (List UInt8))
    (h : segments ≠ []) : keepSegments kept segments ≠ [] := by
  induction segments generalizing kept with
  | nil => exact absurd rfl h
  | cons segment rest ih =>
    cases rest with
    | nil =>
      rw [keepSegments, keepSegment, if_pos rfl, if_pos rfl]
      split_ifs <;> simp
    | cons next rest => exact ih _ (cons_ne_nil _ _)

/-- A path without dot segments is kept, with its empty segments. -/
theorem keepSegments_of_plain (h : ∀ s ∈ segments, Plain s)
    (kept : List (List UInt8)) : keepSegments kept segments = kept ++ segments := by
  induction segments generalizing kept with
  | nil => simp [keepSegments]
  | cons segment rest ih =>
    have hstep (final : Bool) : keepSegment kept segment final = kept ++ [segment] := by
      obtain ⟨hdot, hdots⟩ := h segment mem_cons_self
      rw [keepSegment, if_neg hdot, if_neg hdots]
    cases rest with
    | nil => exact hstep true
    | cons next rest =>
      have hrest := ih (fun s hs => h s (mem_cons_of_mem _ hs)) (kept ++ [segment])
      rw [keepSegments.eq_3 _ _ _ (cons_ne_nil _ _), hstep, hrest, append_assoc]
      rfl

end DotSegments

import Mathlib.Data.List.Basic

/-!
# Lines that end with CR LF

Lines are byte sequences without a carriage return, and `lines` are the parts of a text between its
line ends.

* `lines_append`, `lines_joined`: the lines of a text.
-/

namespace Crlf

open List

/-- The parts of a text between its line ends. -/
def lines : List UInt8 → List (List UInt8)
  | [] => [[]]
  | 13 :: 10 :: rest => [] :: lines rest
  | c :: rest => (lines rest).modifyHead (c :: ·)

/-- Lines with a line end behind each of them. -/
def joined (ls : List (List UInt8)) : List UInt8 := ls.flatMap (· ++ [13, 10])

@[simp] theorem joined_cons (line : List UInt8) (ls : List (List UInt8)) :
    joined (line :: ls) = line ++ 13 :: 10 :: joined ls := by
  simp [joined]

theorem lines_cons_of_ne {c : UInt8} (h : c ≠ 13) (rest : List UInt8) :
    lines (c :: rest) = (lines rest).modifyHead (c :: ·) := by
  rw [lines]
  exact fun _ h13 => absurd h13 h

theorem lines_append {line : List UInt8} (h : 13 ∉ line) (rest : List UInt8) :
    lines (line ++ 13 :: 10 :: rest) = line :: lines rest := by
  induction line with
  | nil => rw [nil_append, lines]
  | cons c line ih =>
    rw [cons_append, lines_cons_of_ne fun h13 => h (h13 ▸ mem_cons_self),
      ih fun hmem => h (mem_cons_of_mem _ hmem)]
    rfl

/-- Joined lines are the parts of their text, and nothing follows the last line end. -/
theorem lines_joined {ls : List (List UInt8)} (h : ∀ line ∈ ls, 13 ∉ line) :
    lines (joined ls) = ls ++ [[]] := by
  induction ls with
  | nil => rfl
  | cons line ls ih =>
    rw [joined_cons, lines_append (h line mem_cons_self), ih fun l hl => h l (mem_cons_of_mem _ hl)]
    rfl

end Crlf

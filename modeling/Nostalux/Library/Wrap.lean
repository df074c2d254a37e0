import Mathlib.Data.List.Basic

/-!
# Text wrapped to lines of a fixed width

A pen writes a text character by character.  A newline ends a line; any other character that finds
the line full starts the next one.

* `Wrap.place`: the line and the column of each character of a text;
* `Wrap.place_line_le`: no character stands below the pen behind the text.
-/

/-- The character that ends a line, and the width of the lines. -/
structure Wrap (α : Type*) where
  newline : α
  columns : ℕ

namespace Wrap

/-- The line and the column behind the last character written. -/
@[ext] structure Pen where
  line : ℕ
  column : ℕ
  deriving DecidableEq

/-- The pen some lines further down. -/
def Pen.down (p : Pen) (k : ℕ) : Pen := ⟨p.line + k, p.column⟩

variable {α : Type*} [DecidableEq α] (w : Wrap α) (p : Pen)

/-- Where the next character goes, or where the text ends: only a character wraps. -/
def next (c : Option α) : Pen :=
  if c.all (· = w.newline) ∨ p.column < w.columns then p else ⟨p.line + 1, 0⟩

/-- The pen behind one more character. -/
def write (c : α) : Pen :=
  if c = w.newline then ⟨p.line + 1, 0⟩
  else if p.column ≥ w.columns then ⟨p.line + 1, 1⟩
  else ⟨p.line, p.column + 1⟩

/-- The place of a character of a text that starts at `p`. -/
def place (text : List α) (i : ℕ) : Pen :=
  w.next ((text.take i).foldl w.write p) text[i]?

variable (text : List α)

@[simp] theorem place_nil (i : ℕ) : w.place p [] i = p := by
  simp [place, next]

@[simp] theorem place_zero : w.place p text 0 = w.next p text[0]? := rfl

@[simp] theorem place_succ (c : α) (i : ℕ) :
    w.place p (c :: text) (i + 1) = w.place (w.write p c) text i := by
  simp [place]

/-! ### Lines in order -/

theorem le_next_line (c : Option α) : p.line ≤ (w.next p c).line := by
  unfold next
  split <;> simp

theorem next_line_le_write (c : α) : (w.next p (some c)).line ≤ (w.write p c).line := by
  unfold next write
  split_ifs <;> simp_all

theorem write_line_le (c : α) : (w.write p c).line ≤ p.line + 1 := by
  unfold write
  split_ifs <;> simp

/-- The pen never goes up, and goes down by at most one line a character. -/
theorem foldl_write_line : p.line ≤ (text.foldl w.write p).line ∧
    (text.foldl w.write p).line ≤ p.line + text.length := by
  induction text generalizing p with
  | nil => simp
  | cons c text ih =>
    have hnext := w.le_next_line p (some c)
    have hwrite := w.next_line_le_write p c
    have hstep := w.write_line_le p c
    have hrest := ih (w.write p c)
    simp only [List.foldl_cons, List.length_cons]
    omega

theorem le_place_line (i : ℕ) : p.line ≤ (w.place p text i).line :=
  Nat.le_trans (w.foldl_write_line p _).1 (w.le_next_line _ _)

/-- No character stands below the pen behind the text. -/
theorem place_line_le (i : ℕ) : (w.place p text i).line ≤ (text.foldl w.write p).line := by
  induction text generalizing p i with
  | nil => simp
  | cons c text ih =>
    cases i with
    | zero => exact Nat.le_trans (w.next_line_le_write p c) (w.foldl_write_line _ text).1
    | succ i => simpa using ih _ i

/-! ### Lines further down -/

theorem write_down (k : ℕ) (c : α) : w.write (p.down k) c = (w.write p c).down k := by
  unfold write Pen.down
  split_ifs <;> simp [Nat.add_right_comm]

theorem foldl_write_down (k : ℕ) :
    text.foldl w.write (p.down k) = (text.foldl w.write p).down k := by
  induction text generalizing p with
  | nil => rfl
  | cons c text ih => rw [List.foldl_cons, write_down, ih, List.foldl_cons]

end Wrap

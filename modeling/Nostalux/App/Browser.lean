import Nostalux.Library.Wrap
import Mathlib.Data.Int.Notation
import Mathlib.Tactic.SplitIfs

/-!
# `apps/browser.c`: the page on the screen

`browser_visual_line_count` and `browser_draw_page` wrap the display text in loops of their own.

* `loop_eq`: the drawing loop draws the characters at their places;
* `every_character_can_be_shown`: what is drawn, and that every part of a page can be scrolled to.
-/

namespace Nostalux.App

open Wrap

/-- A call of `app_ui_char`. -/
structure Glyph where
  x : ℤ
  y : ℤ
  value : UInt8
  deriving DecidableEq

/-- `g_browser.display` up to `display_length`. -/
abbrev Display := { text : List UInt8 // text.length ≤ 8191 }

/-- Lines of `BROWSER_COLUMNS` characters. -/
def browserWrap : Wrap UInt8 := ⟨10, 71⟩

/-- `browser_visual_line_count`. -/
def browserVisualLineCount (display : Display) : ℕ :=
  (display.1.foldl browserWrap.write ⟨1, 0⟩).line

/-- `browser_max_first_line`. -/
def browserMaxFirstLine (display : Display) : ℕ :=
  let lines := browserVisualLineCount display
  if lines > 21 then lines - 21 else 0

/-- The value of `y` behind the start of a line. -/
def lineTop (firstLine : UInt64) (line : ℕ) (y : ℤ) : ℤ :=
  if line ≥ firstLine.toNat then 83 + ((line - firstLine.toNat) * 10 : ℕ) else y

/-- A character is drawn if its line is visible. -/
def drawn (firstLine : UInt64) (line : ℕ) (glyph : Glyph) : List Glyph :=
  if line ≥ firstLine.toNat ∧ line < (firstLine + 21).toNat then [glyph] else []

/-- The loop of `browser_draw_page`. -/
def browserDrawPage.loop (firstLine : UInt64) : List UInt8 → Pen → ℤ → ℤ → List Glyph
  | [], _, _, _ => []
  | value :: rest, ⟨line, column⟩, x, y =>
    if line < (firstLine + 21).toNat then
      if value = 10 then loop firstLine rest ⟨line + 1, 0⟩ 13 (lineTop firstLine (line + 1) y)
      else if column ≥ 71 then
        let y := lineTop firstLine (line + 1) y
        drawn firstLine (line + 1) ⟨13, y, value⟩ ++
          loop firstLine rest ⟨line + 1, 1⟩ (13 + 6) y
      else
        drawn firstLine line ⟨x, y, value⟩ ++
          loop firstLine rest ⟨line, column + 1⟩ (x + 6) y
    else []

/-- `browser_draw_page`. -/
def browserDrawPage (display : Display) (firstLine : UInt64) : List Glyph :=
  browserDrawPage.loop firstLine display.1 ⟨0, 0⟩ 13 83

/-! ### The places of the characters -/

/-- The visual line and column of a character of a page. -/
abbrev Display.place (display : Display) (i : ℕ) : Pen := browserWrap.place ⟨0, 0⟩ display.1 i

/-- What is to be seen of a character at a place. -/
def glyphAt (firstLine : UInt64) (place : Pen) (value : Option UInt8) : Option Glyph :=
  if firstLine.toNat ≤ place.line ∧ place.line < firstLine.toNat + 21 then
    (value.filter (· ≠ 10)).map
      (⟨13 + 6 * place.column, 83 + 10 * (place.line - firstLine.toNat : ℕ), ·⟩)
  else none

theorem lineTop_eq (firstLine : UInt64) (line : ℕ) :
    lineTop firstLine (line + 1) (83 + 10 * (line - firstLine.toNat : ℕ)) =
      83 + 10 * (line + 1 - firstLine.toNat : ℕ) := by
  unfold lineTop
  split_ifs <;> omega

/-- With `first_line + BROWSER_VISIBLE_LINES` beyond `SIZE_MAX`, no page reaches `first_line`. -/
theorem drawn_eq (firstLine : UInt64) {q : Pen} (hq : q.line ≤ 8191) {value : UInt8}
    (hvalue : value ≠ 10) :
    drawn firstLine q.line ⟨13 + 6 * q.column, 83 + 10 * (q.line - firstLine.toNat : ℕ), value⟩ =
      (glyphAt firstLine q (some value)).toList := by
  have hlt := firstLine.toNat_lt
  have hsum : (firstLine + 21).toNat = (firstLine.toNat + 21) % 2 ^ 64 := UInt64.toNat_add _ _
  unfold drawn glyphAt
  simp only [Option.filter_some, hvalue, ne_eq, not_false_eq_true, decide_true, if_true]
  split_ifs <;> first | rfl | omega

theorem loop_eq (firstLine : UInt64) (text : List UInt8) (p : Pen)
    (hfits : p.line + text.length ≤ 8191) :
    browserDrawPage.loop firstLine text p (13 + 6 * p.column)
        (83 + 10 * (p.line - firstLine.toNat : ℕ)) =
      (List.range text.length).flatMap fun i =>
        (glyphAt firstLine (browserWrap.place p text i) text[i]?).toList := by
  induction text generalizing p with
  | nil => rfl
  | cons value text ih =>
    obtain ⟨line, column⟩ := p
    have hlt := firstLine.toNat_lt
    have hsum : (firstLine + 21).toNat = (firstLine.toNat + 21) % 2 ^ 64 := UInt64.toNat_add _ _
    dsimp only [List.length_cons] at hfits ⊢
    by_cases hline : line < (firstLine + 21).toNat
    · have hwrite := browserWrap.write_line_le ⟨line, column⟩ value
      have hrest := ih (browserWrap.write ⟨line, column⟩ value) (by dsimp only at *; omega)
      simp only [List.range_succ_eq_map, List.flatMap_cons, List.flatMap_map, place_zero,
        place_succ, List.getElem?_cons_zero, List.getElem?_cons_succ, browserDrawPage.loop]
      rw [if_pos hline, ← hrest]
      by_cases hvalue : value = 10
      · simp [glyphAt, Wrap.write, browserWrap, lineTop_eq, hvalue]
      · by_cases hcolumn : column ≥ 71
        · have hnext : browserWrap.next ⟨line, column⟩ (some value) = ⟨line + 1, 0⟩ := by
            simp [next, browserWrap, hvalue, hcolumn]
          rw [hnext, ← drawn_eq firstLine (by dsimp only; omega) hvalue]
          simp [Wrap.write, browserWrap, hvalue, hcolumn, lineTop_eq]
        · have hnext : browserWrap.next ⟨line, column⟩ (some value) = ⟨line, column⟩ := by
            simp [next, browserWrap, Nat.lt_of_not_le hcolumn]
          rw [hnext, ← drawn_eq firstLine (by dsimp only; omega) hvalue]
          simp [Wrap.write, browserWrap, hvalue, hcolumn, Int.mul_add, Int.add_assoc]
    · -- The loop has stopped: the other characters stand on lines below.
      have hnone (i : ℕ) : glyphAt firstLine (browserWrap.place ⟨line, column⟩ (value :: text) i)
          (value :: text)[i]? = none := by
        have hle := browserWrap.le_place_line ⟨line, column⟩ (value :: text) i
        have hge := browserWrap.place_line_le ⟨line, column⟩ (value :: text) i
        have hlength := (browserWrap.foldl_write_line ⟨line, column⟩ (value :: text)).2
        dsimp only [List.length_cons] at hle hlength
        exact if_neg (by omega)
      rw [browserDrawPage.loop, if_neg hline]
      exact (List.flatMap_eq_nil_iff.mpr fun i _ => by rw [hnone]; rfl).symm

theorem browserVisualLineCount_eq (display : Display) : browserVisualLineCount display =
    (display.1.foldl browserWrap.write ⟨0, 0⟩).line + 1 :=
  congrArg Pen.line (browserWrap.foldl_write_down ⟨0, 0⟩ display.1 1)

/-- A page shows the characters on its 21 lines from `first_line` on, each at its row and column,
and each character is shown for some `first_line` that the scroll bounds allow. -/
theorem every_character_can_be_shown (display : Display) :
    (∀ firstLine, browserDrawPage display firstLine =
      (List.range display.1.length).filterMap fun i =>
        glyphAt firstLine (display.place i) display.1[i]?) ∧
    ∀ i value, display.1[i]? = some value → value ≠ 10 →
      ∃ firstLine, firstLine.toNat ≤ browserMaxFirstLine display ∧
        (glyphAt firstLine (display.place i) (some value)).isSome := by
  refine ⟨fun firstLine => ?_, fun i value _ hvalue => ?_⟩
  · rw [List.filterMap_eq_flatMap_toList,
      ← loop_eq firstLine display.1 ⟨0, 0⟩ (by simpa using display.2)]
    simp [browserDrawPage]
  · have hline : (display.place i).line ≤ _ := browserWrap.place_line_le ⟨0, 0⟩ display.1 i
    have hlength : _ ≤ 0 + display.1.length := (browserWrap.foldl_write_line ⟨0, 0⟩ display.1).2
    have hfits := display.2
    have hcount := browserVisualLineCount_eq display
    have hmax : browserMaxFirstLine display = browserVisualLineCount display - 21 := by
      dsimp only [browserMaxFirstLine]
      split_ifs <;> omega
    -- The lines that no page starts with are those of the last page.
    let first := min (display.place i).line (browserMaxFirstLine display)
    have hfirst : (UInt64.ofNat first).toNat = first :=
      UInt64.toNat_ofNat_of_lt' (show first < 2 ^ 64 by omega)
    refine ⟨UInt64.ofNat first, by omega, ?_⟩
    rw [glyphAt, hfirst, if_pos (by omega)]
    simp [hvalue]

end Nostalux.App

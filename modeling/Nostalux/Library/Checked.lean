import Mathlib.Tactic

/-!
# Arithmetic that stops where a word would wrap around

The operations of 64-bit words, with no result if the exact one is not a word.  A computation that
is written with them and has a result did not wrap around anywhere.
-/

namespace Checked

/-- The sum, if it is a word. -/
def add (a b : UInt64) : Option UInt64 := if a.toNat + b.toNat < 2 ^ 64 then some (a + b) else none

/-- The difference, if it is not negative. -/
def sub (a b : UInt64) : Option UInt64 := if b ≤ a then some (a - b) else none

/-- The product, if it is a word. -/
def mul (a b : UInt64) : Option UInt64 := if a.toNat * b.toNat < 2 ^ 64 then some (a * b) else none

variable {a b : UInt64}

theorem add_of_lt (h : a.toNat + b.toNat < 2 ^ 64) : add a b = some (a + b) :=
  if_pos h

theorem sub_of_le (h : b ≤ a) : sub a b = some (a - b) := if_pos h

theorem mul_of_lt (h : a.toNat * b.toNat < 2 ^ 64) : mul a b = some (a * b) :=
  if_pos h

end Checked

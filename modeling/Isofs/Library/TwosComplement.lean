import Mathlib.Algebra.Group.Int.Defs
import Mathlib.Algebra.Group.Nat.Defs
import Mathlib.Data.Int.Notation
import Mathlib.Tactic.Common

/-!
# Two's-complement words

The value a 32-bit signed machine integer keeps of an exact integer. Signed
arithmetic of the target wraps, so every computed `int` or `long` of a model is
`wrap32` of the exact result.
-/

namespace TwosComplement

/-- The 32-bit two's-complement value congruent to `x` modulo `2 ^ 32`. -/
def wrap32 (x : ℤ) : ℤ := (x + 2 ^ 31) % 2 ^ 32 - 2 ^ 31

/-- A value that fits in 32 bits is kept. -/
theorem wrap32_eq_self {x : ℤ} (hlo : -2 ^ 31 ≤ x) (hhi : x < 2 ^ 31) : wrap32 x = x := by
  rw [wrap32]
  omega

/-- Wrapping a summand first changes nothing. -/
@[simp] theorem wrap32_wrap32_add (x y : ℤ) : wrap32 (wrap32 x + y) = wrap32 (x + y) := by
  unfold wrap32
  omega

/-- Shifting left by eleven bits may wrap its operand first. -/
@[simp] theorem wrap32_wrap32_mul_2048 (x : ℤ) : wrap32 (wrap32 x * 2048) = wrap32 (x * 2048) := by
  unfold wrap32
  omega

@[simp] theorem wrap32_wrap32 (x : ℤ) : wrap32 (wrap32 x) = wrap32 x := by
  unfold wrap32
  omega

/-- A block number shifted left by eleven bits depends on its low 21 bits only:
the lower half of them gives the offset of that block. -/
theorem wrap32_mul_2048_of_lt {x : ℤ} (h : x % 2 ^ 21 < 2 ^ 20) :
    wrap32 (x * 2048) = x % 2 ^ 21 * 2048 := by
  rw [wrap32]
  omega

/-- The upper half of the low 21 bits gives a negative offset. -/
theorem wrap32_mul_2048_neg {x : ℤ} (h : 2 ^ 20 ≤ x % 2 ^ 21) : wrap32 (x * 2048) < 0 := by
  rw [wrap32]
  omega

end TwosComplement

import Mathlib.Algebra.Group.Int.Defs
import Mathlib.Algebra.Group.Nat.Defs
import Mathlib.Data.Int.Order.Basic

/-!
# Signed 64-bit arithmetic

A 64-bit sum keeps of the exact sum its representative in the range of the type.
Wrapping commutes with subtraction, so a chain of operations is exact as soon as
its last value fits.
-/

namespace Ns3Cosim.Gateway

/-- The value fits 64 bits with a sign. -/
def InInt64 (t : ℤ) : Prop := -2 ^ 63 ≤ t ∧ t < 2 ^ 63

instance (t : ℤ) : Decidable (InInt64 t) := inferInstanceAs (Decidable (_ ∧ _))

/-- What 64 bits keep of a number. -/
def wrap64 (t : ℤ) : ℤ := t.bmod (2 ^ 64)

theorem wrap64_inInt64 (t : ℤ) : InInt64 (wrap64 t) := by
  have hlow := Int.le_bmod (x := t) (m := 2 ^ 64) (by decide)
  have hhigh := Int.bmod_lt (x := t) (m := 2 ^ 64) (by decide)
  constructor
  · exact hlow
  · exact hhigh

theorem wrap64_of_inInt64 {t : ℤ} (h : InInt64 t) : wrap64 t = t :=
  Int.bmod_eq_of_le h.1 h.2

/-- A difference does not see whether its operands were wrapped before. -/
theorem wrap64_sub_wrap64 (a b : ℤ) : wrap64 (wrap64 a - wrap64 b) = wrap64 (a - b) := by
  simp only [wrap64, Int.bmod_sub_bmod, Int.sub_bmod_bmod]

end Ns3Cosim.Gateway

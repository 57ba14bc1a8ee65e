import Mathlib.Algebra.Order.Field.Basic
import Mathlib.Tactic.GCongr
import Mathlib.Tactic.Linarith
import Mathlib.Tactic.Positivity
import Mathlib.Tactic.Ring

namespace Library
namespace RelativeErrors

/-!
# Relative errors

Two positive numbers agree up to a factor if each is at most the factor times the other.  Rounding
leaves a number within some factor, and products and quotients of numbers agree up to the
products of their factors, so the error of a computation is read off the operations in it.
-/

universe u

variable {Number : Type u} [Field Number] [LinearOrder Number] [IsStrictOrderedRing Number]

def Within (factor left right : Number) : Prop := left ≤ factor * right ∧ right ≤ factor * left

namespace Within

variable {factor other left middle right first second : Number}

theorem refl (atLeast : 1 ≤ factor) (nonneg : 0 ≤ left) : Within factor left left :=
  ⟨le_mul_of_one_le_left nonneg atLeast, le_mul_of_one_le_left nonneg atLeast⟩

/-- A common factor of the two numbers does not count. -/
theorem scale (nonneg : 0 ≤ middle) (within : Within factor left right) :
    Within factor (left * middle) (right * middle) := by
  constructor
  · rw [← mul_assoc]
    exact mul_le_mul_of_nonneg_right within.1 nonneg
  · rw [← mul_assoc]
    exact mul_le_mul_of_nonneg_right within.2 nonneg

theorem trans (factorNonneg : 0 ≤ factor) (otherNonneg : 0 ≤ other) (near : Within factor left middle)
    (far : Within other middle right) : Within (factor * other) left right := by
  constructor
  · calc left ≤ factor * middle := near.1
      _ ≤ factor * (other * right) := mul_le_mul_of_nonneg_left far.1 factorNonneg
      _ = factor * other * right := by ring
  · calc right ≤ other * middle := far.2
      _ ≤ other * (factor * left) := mul_le_mul_of_nonneg_left near.2 otherNonneg
      _ = factor * other * left := by ring

theorem mul (factorNonneg : 0 ≤ factor) (leftNonneg : 0 ≤ left) (rightNonneg : 0 ≤ right)
    (firstNonneg : 0 ≤ first) (secondNonneg : 0 ≤ second) (one : Within factor left right)
    (two : Within other first second) : Within (factor * other) (left * first) (right * second) := by
  constructor
  · calc left * first ≤ factor * right * (other * second) :=
        mul_le_mul one.1 two.1 firstNonneg (mul_nonneg factorNonneg rightNonneg)
      _ = factor * other * (right * second) := by ring
  · calc right * second ≤ factor * left * (other * first) :=
        mul_le_mul one.2 two.2 secondNonneg (mul_nonneg factorNonneg leftNonneg)
      _ = factor * other * (left * first) := by ring

theorem inv (leftPos : 0 < left) (rightPos : 0 < right) (within : Within factor left right) :
    Within factor left⁻¹ right⁻¹ := by
  constructor
  · rw [inv_le_iff_one_le_mul₀ leftPos]
    calc (1 : Number) = right⁻¹ * right := (inv_mul_cancel₀ rightPos.ne').symm
      _ ≤ right⁻¹ * (factor * left) := mul_le_mul_of_nonneg_left within.2 (inv_pos.mpr rightPos).le
      _ = factor * right⁻¹ * left := by ring
  · rw [inv_le_iff_one_le_mul₀ rightPos]
    calc (1 : Number) = left⁻¹ * left := (inv_mul_cancel₀ leftPos.ne').symm
      _ ≤ left⁻¹ * (factor * right) := mul_le_mul_of_nonneg_left within.1 (inv_pos.mpr leftPos).le
      _ = factor * left⁻¹ * right := by ring

theorem div (factorNonneg : 0 ≤ factor) (leftNonneg : 0 ≤ left) (rightNonneg : 0 ≤ right)
    (firstPos : 0 < first) (secondPos : 0 < second) (one : Within factor left right)
    (two : Within other first second) : Within (factor * other) (left / first) (right / second) := by
  rw [div_eq_mul_inv, div_eq_mul_inv]
  exact mul factorNonneg leftNonneg rightNonneg (inv_pos.mpr firstPos).le (inv_pos.mpr secondPos).le one
    (two.inv firstPos secondPos)

/-- The distance of two numbers that agree up to a factor. -/
theorem abs_sub_le (atLeast : 1 ≤ factor) (nonneg : 0 ≤ right) (within : Within factor left right) :
    |left - right| ≤ (factor - 1) * right := by
  rw [abs_le]
  constructor
  · rcases le_total right left with above | below
    · have excess := mul_nonneg (sub_nonneg.mpr atLeast) nonneg
      linarith
    · -- The smaller number loses no more than the factor takes from it.
      have less := mul_le_mul_of_nonneg_left below (sub_nonneg.mpr atLeast)
      have most := within.2
      linarith
  · have most := within.1
    linarith

end Within
end RelativeErrors
end Library

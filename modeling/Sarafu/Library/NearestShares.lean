import Mathlib

namespace Library
namespace NearestShares

/-!
# Shares rounded to the nearest integer

Every weight gets its share of a pool, rounded to the nearest integer on its own, ties up.
What the rounding adds is counted in parts of the total weight, so the shares of a list
compare with its weights exactly.
-/

/-- The nearest integer to a fraction, ties up. -/
def nearest (numerator denominator : Nat) : Nat := (2 * numerator + denominator) / (2 * denominator)

/-- What rounding adds, in parts of the denominator: the rest that is missing, or the one that
is dropped. -/
def excess (numerator denominator : Nat) : Int :=
  if denominator ≤ 2 * (numerator % denominator) then denominator - (numerator % denominator : Nat)
  else -(numerator % denominator : Nat)

theorem nearest_mul (numerator : Nat) {denominator : Nat} (positive : 0 < denominator) :
    (nearest numerator denominator * denominator : Int) = numerator + excess numerator denominator := by
  have division := Nat.div_add_mod numerator denominator
  have rest := Nat.mod_lt numerator positive
  have whole : nearest numerator denominator =
      numerator / denominator + if denominator ≤ 2 * (numerator % denominator) then 1 else 0 := by
    unfold nearest
    generalize numerator / denominator = quotient at division
    generalize numerator % denominator = part at division rest
    subst division
    split
    · apply Nat.div_eq_of_lt_le
      · linarith
      · linarith
    · apply Nat.div_eq_of_lt_le
      · linarith
      · linarith
  unfold excess
  rw [whole]
  generalize numerator / denominator = quotient at division
  generalize numerator % denominator = part at division rest
  subst division
  split
  · push_cast
    ring
  · push_cast
    ring

/-- A fraction that is at most an integer is rounded to at most that integer. -/
theorem nearest_le {numerator denominator bound : Nat} (positive : 0 < denominator)
    (most : numerator ≤ bound * denominator) : nearest numerator denominator ≤ bound := by
  apply Nat.le_of_lt_succ
  rw [nearest, Nat.div_lt_iff_lt_mul (Nat.mul_pos (by decide) positive)]
  linarith

/-- Rounding adds at most one half. -/
theorem two_mul_excess_le (numerator denominator : Nat) : 2 * excess numerator denominator ≤ denominator := by
  unfold excess
  split
  · omega
  · omega

theorem excess_zero (denominator : Nat) : excess 0 denominator ≤ 0 := by
  unfold excess
  rw [Nat.zero_mod]
  split
  · omega
  · omega

/-- The shares of some weights in a pool. -/
def shares (pool total : Nat) (weights : List Nat) : List Nat := weights.map fun weight => nearest (weight * pool) total

/-- What rounding adds to the shares of some weights. -/
def excessOf (pool total : Nat) (weights : List Nat) : Int :=
  (weights.map fun weight => excess (weight * pool) total).sum

/-- The shares of a list are its part of the pool and what rounding adds. -/
theorem sum_shares_mul (pool : Nat) {total : Nat} (positive : 0 < total) (weights : List Nat) :
    ((shares pool total weights).sum * total : Int) = weights.sum * pool + excessOf pool total weights := by
  induction weights with
  | nil => simp [shares, excessOf]
  | cons weight rest inductionHypothesis =>
      have first := nearest_mul (weight * pool) positive
      unfold shares excessOf at *
      simp only [List.map_cons, List.sum_cons]
      push_cast at *
      linarith

/-- A weight of zero gets nothing, so the excess is bounded by the weights. -/
theorem excessOf_le (pool total : Nat) (weights : List Nat) :
    excessOf pool total weights ≤ weights.sum * total := by
  induction weights with
  | nil => simp [excessOf]
  | cons weight rest inductionHypothesis =>
      have first : excess (weight * pool) total ≤ weight * total := by
        rcases Nat.eq_zero_or_pos weight with rfl | positive
        · rw [Nat.zero_mul]
          exact (excess_zero total).trans (by simp)
        · have half := two_mul_excess_le (weight * pool) total
          have more : (total : Int) ≤ weight * total := by exact_mod_cast Nat.le_mul_of_pos_left total positive
          have nonneg : (0 : Int) ≤ total := Int.natCast_nonneg total
          linarith
      unfold excessOf at *
      simp only [List.map_cons, List.sum_cons, Nat.cast_add]
      linarith

/-- Every share is at most half a unit too large. -/
theorem sum_shares_le (pool : Nat) {total : Nat} (positive : 0 < total) (weights : List Nat)
    (part : weights.sum ≤ total) : 2 * (shares pool total weights).sum ≤ 2 * pool + weights.length := by
  have halves : 2 * excessOf pool total weights ≤ weights.length * total := by
    clear part
    induction weights with
    | nil => simp [excessOf]
    | cons weight rest inductionHypothesis =>
        have first := two_mul_excess_le (weight * pool) total
        unfold excessOf at *
        simp only [List.map_cons, List.sum_cons, List.length_cons]
        push_cast
        linarith
  have sum := sum_shares_mul pool positive weights
  have pooled : (weights.sum * pool : Int) ≤ total * pool := by
    exact_mod_cast Nat.mul_le_mul_right pool part
  have scaled : (2 * (shares pool total weights).sum : Int) * total ≤ (2 * pool + weights.length) * total := by
    linarith
  exact_mod_cast le_of_mul_le_mul_right scaled (by exact_mod_cast positive)

end NearestShares
end Library

import Mathlib

namespace Library
namespace WordSums

/-!
# Sums of machine words

A loop that adds up 64-bit words computes the sum modulo `2^64`.
-/

universe u

variable {Item : Type u}

theorem toNat_foldl_add (word : Item -> UInt64) (items : List Item) (start : UInt64) :
    (items.foldl (fun total item => total + word item) start).toNat =
      (start.toNat + (items.map fun item => (word item).toNat).sum) % 2 ^ 64 := by
  induction items generalizing start with
  | nil => exact (Nat.mod_eq_of_lt start.toNat_lt).symm
  | cons item rest inductionHypothesis =>
      rw [List.foldl_cons, inductionHypothesis, UInt64.toNat_add, List.map_cons, List.sum_cons, Nat.mod_add_mod,
        Nat.add_assoc]

/-- The loop that starts at zero. -/
theorem toNat_sum (word : Item -> UInt64) (items : List Item) :
    (items.foldl (fun total item => total + word item) 0).toNat =
      (items.map fun item => (word item).toNat).sum % 2 ^ 64 := by
  rw [toNat_foldl_add, UInt64.toNat_zero, Nat.zero_add]

end WordSums
end Library

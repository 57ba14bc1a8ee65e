import Sarafu.Library.KeyedMaps

namespace Library
namespace WordCounters

/-!
# Counters of 64 bits under keys

A loop credits amounts to the counters of a map.  A counter is a word, so what it holds is
the sum of its credits modulo `2^64`.  The total over all counters is the sum of all credits
as long as no counter wraps around, and at least `2^64` less as soon as one does.
-/

universe u

variable {Key : Type u} {order : Key -> Key -> Ordering} [Std.TransCmp order] [Std.LawfulEqCmp order]

open Std KeyedMaps

/-- One credit; a missing counter starts at zero. -/
def credit (counters : ExtTreeMap Key UInt64 order) (entry : Key × UInt64) : ExtTreeMap Key UInt64 order :=
  counters.insert entry.1 ((counters[entry.1]?).getD 0 + entry.2)

def creditAll (entries : List (Key × UInt64)) : ExtTreeMap Key UInt64 order := entries.foldl credit ∅

/-- The sum of the counters. -/
def sumOf (counters : ExtTreeMap Key UInt64 order) : Nat := total UInt64.toNat counters

/-- The sum of the credits of a list. -/
def credits (entries : List (Key × UInt64)) : Nat := (entries.map fun entry => entry.2.toNat).sum

variable [DecidableEq Key]

/-- The sum of the credits of one key. -/
def creditsTo (key : Key) (entries : List (Key × UInt64)) : Nat := credits (entries.filter fun entry => entry.1 = key)

omit [DecidableEq Key] in
theorem credits_concat (entries : List (Key × UInt64)) (entry : Key × UInt64) :
    credits (entries ++ [entry]) = credits entries + entry.2.toNat := by
  simp [credits]

theorem creditsTo_concat (key : Key) (entries : List (Key × UInt64)) (entry : Key × UInt64) :
    creditsTo key (entries ++ [entry]) = creditsTo key entries + if entry.1 = key then entry.2.toNat else 0 := by
  unfold creditsTo
  rw [List.filter_append]
  split
  · rename_i own
    rw [List.filter_singleton, decide_eq_true own, cond_true, credits_concat]
  · rename_i other
    rw [List.filter_singleton, decide_eq_false other, cond_false, List.append_nil, Nat.add_zero]

omit [Std.LawfulEqCmp order] [DecidableEq Key] in
theorem creditAll_concat (entries : List (Key × UInt64)) (entry : Key × UInt64) :
    (creditAll (entries ++ [entry]) : ExtTreeMap Key UInt64 order) = credit (creditAll entries) entry :=
  List.foldl_concat _ _ _ _

omit [DecidableEq Key] in
theorem sumOf_credit (counters : ExtTreeMap Key UInt64 order) (entry : Key × UInt64) :
    sumOf (credit counters entry) + ((counters[entry.1]?).getD 0).toNat =
      sumOf counters + (((counters[entry.1]?).getD 0).toNat + entry.2.toNat) % 2 ^ 64 := by
  have replaced := total_insert UInt64.toNat counters entry.1 ((counters[entry.1]?).getD 0 + entry.2)
  have held : weightAt UInt64.toNat counters entry.1 = ((counters[entry.1]?).getD 0).toNat := by
    unfold weightAt
    cases counters[entry.1]? with
    | none => rfl
    | some value => rfl
  rw [held, UInt64.toNat_add] at replaced
  exact replaced

/-- A counter holds the credits of its key modulo `2^64`. -/
theorem toNat_creditAll (entries : List (Key × UInt64)) (key : Key) :
    (((creditAll entries : ExtTreeMap Key UInt64 order)[key]?).getD 0).toNat = creditsTo key entries % 2 ^ 64 := by
  induction entries using List.reverseRecOn with
  | nil =>
      have nothing : (creditAll [] : ExtTreeMap Key UInt64 order)[key]? = none := ExtTreeMap.getElem?_empty
      rw [nothing]
      rfl
  | append_singleton entries entry inductionHypothesis =>
      rw [creditAll_concat, creditsTo_concat, credit, ExtTreeMap.getElem?_insert]
      split
      · rename_i same
        have own := LawfulEqCmp.eq_of_compare same
        rw [Option.getD_some, if_pos own, UInt64.toNat_add, own, inductionHypothesis, Nat.mod_add_mod]
      · rename_i different
        have other : entry.1 ≠ key := fun own => different (own ▸ ReflCmp.compare_self)
        rw [if_neg other, inductionHypothesis, Nat.add_zero]

/-- Without a counter that wraps around, nothing is lost. -/
theorem sumOf_creditAll (entries : List (Key × UInt64)) (fits : forall key, creditsTo key entries < 2 ^ 64) :
    sumOf (creditAll entries : ExtTreeMap Key UInt64 order) = credits entries := by
  induction entries using List.reverseRecOn with
  | nil => rfl
  | append_singleton entries entry inductionHypothesis =>
      have before : forall key, creditsTo key entries < 2 ^ 64 := by
        intro key
        have later := fits key
        rw [creditsTo_concat] at later
        omega
      have here := fits entry.1
      rw [creditsTo_concat, if_pos rfl] at here
      have step := sumOf_credit (creditAll entries : ExtTreeMap Key UInt64 order) entry
      rw [toNat_creditAll, Nat.mod_eq_of_lt (before entry.1), Nat.mod_eq_of_lt here, inductionHypothesis before] at step
      rw [creditAll_concat, credits_concat]
      omega

omit [DecidableEq Key] in
theorem sumOf_creditAll_le (entries : List (Key × UInt64)) :
    sumOf (creditAll entries : ExtTreeMap Key UInt64 order) ≤ credits entries := by
  induction entries using List.reverseRecOn with
  | nil => exact Nat.le_refl 0
  | append_singleton entries entry inductionHypothesis =>
      have step := sumOf_credit (creditAll entries : ExtTreeMap Key UInt64 order) entry
      rw [creditAll_concat, credits_concat]
      omega

/-- A counter that wraps around loses at least `2^64`. -/
theorem sumOf_creditAll_of_wraps (entries : List (Key × UInt64)) (key : Key) (wraps : 2 ^ 64 ≤ creditsTo key entries) :
    sumOf (creditAll entries : ExtTreeMap Key UInt64 order) + 2 ^ 64 ≤ credits entries := by
  induction entries using List.reverseRecOn with
  | nil => exact absurd wraps (Nat.not_le.mpr (Nat.pow_pos (by decide)))
  | append_singleton entries entry inductionHypothesis =>
      have step := sumOf_credit (creditAll entries : ExtTreeMap Key UInt64 order) entry
      rw [creditAll_concat, credits_concat]
      by_cases earlier : 2 ^ 64 ≤ creditsTo key entries
      · have lost := inductionHypothesis earlier
        omega
      · have atMost : sumOf (creditAll entries : ExtTreeMap Key UInt64 order) ≤ credits entries :=
          sumOf_creditAll_le entries
        have word := entry.2.toNat_lt
        rw [creditsTo_concat] at wraps
        split at wraps
        · rename_i own
          rw [toNat_creditAll, own, Nat.mod_eq_of_lt (Nat.not_le.mp earlier)] at step
          omega
        · omega

end WordCounters
end Library

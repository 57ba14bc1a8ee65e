import Mathlib.Algebra.Order.Group.Abs
import Mathlib.Algebra.Order.BigOperators.Group.List
import Mathlib.Data.Int.ModEq
import Sarafu.Library.Runs

namespace Library
namespace RunSums

open Runs

/-!
# Sums along a run

An amount of each call, in the state in which the call is made, is summed over a run.  The sum says
by how much a component has changed, and errors of the single amounts add up.
-/

universe u v w

variable {State : Type u} {Call : Type v} {Amount : Type w}

def sumOver [AddCommMonoid Amount] (step : State -> Call -> State) (amount : State -> Call -> Amount) :
    State -> List Call -> Amount
  | _, [] => 0
  | state, call :: rest => amount state call + sumOver step amount (step state call) rest

variable {step : State -> Call -> State} {guard : State -> Call -> Prop}

/-- A component that gains and loses, up to multiples of a modulus. -/
theorem modEq_run {modulus : Nat} (read : State -> Nat) {gained lost : State -> Call -> Nat}
    (changes : forall state call, guard state call ->
      read (step state call) + lost state call ≡ read state + gained state call [MOD modulus])
    {start : State} {calls : List Call} (guarded : Along step guard start calls) :
    read (run step start calls) + sumOver step lost start calls ≡
      read start + sumOver step gained start calls [MOD modulus] := by
  induction calls generalizing start with
  | nil => exact Nat.ModEq.refl _
  | cons call rest inductionHypothesis =>
      have now := changes start call guarded.1
      have later := inductionHypothesis guarded.2
      rw [run_cons, sumOver, sumOver]
      calc read (run step (step start call) rest) + (lost start call + sumOver step lost (step start call) rest)
          = read (run step (step start call) rest) + sumOver step lost (step start call) rest + lost start call := by
            omega
        _ ≡ read (step start call) + sumOver step gained (step start call) rest + lost start call [MOD modulus] :=
          later.add_right _
        _ = read (step start call) + lost start call + sumOver step gained (step start call) rest := by omega
        _ ≡ read start + gained start call + sumOver step gained (step start call) rest [MOD modulus] :=
          now.add_right _
        _ = read start + (gained start call + sumOver step gained (step start call) rest) := by omega

section Sums

variable [AddCommMonoid Amount]

theorem sumOver_add (first second : State -> Call -> Amount) (start : State) (calls : List Call) :
    sumOver step (fun state call => first state call + second state call) start calls =
      sumOver step first start calls + sumOver step second start calls := by
  induction calls generalizing start with
  | nil => exact (add_zero 0).symm
  | cons call rest inductionHypothesis =>
      rw [sumOver, sumOver, sumOver, inductionHypothesis]
      exact add_add_add_comm _ _ _ _

theorem map_sumOver {Other : Type w} [AddCommMonoid Other] (image : Amount →+ Other) (amount : State -> Call -> Amount)
    (start : State) (calls : List Call) :
    image (sumOver step amount start calls) =
      sumOver step (fun state call => image (amount state call)) start calls := by
  induction calls generalizing start with
  | nil => exact image.map_zero
  | cons call rest inductionHypothesis => rw [sumOver, sumOver, image.map_add, inductionHypothesis]

/-- The same amount for each call that is counted. -/
theorem sumOver_counted (counted : Call -> Bool) (amount : Amount) (start : State) (calls : List Call) :
    sumOver step (fun _ call => if counted call = true then amount else 0) start calls =
      calls.countP counted • amount := by
  induction calls generalizing start with
  | nil => exact (zero_nsmul amount).symm
  | cons call rest inductionHypothesis =>
      rw [sumOver, inductionHypothesis]
      split
      · rename_i isCounted
        rw [List.countP_cons_of_pos isCounted, succ_nsmul']
      · rename_i notCounted
        rw [List.countP_cons_of_neg notCounted, zero_add]

end Sums

theorem sumOver_le_sumOver [AddCommMonoid Amount] [PartialOrder Amount] [IsOrderedAddMonoid Amount]
    {first second : State -> Call -> Amount}
    (atMost : forall state call, guard state call -> first state call ≤ second state call)
    {start : State} {calls : List Call} (guarded : Along step guard start calls) :
    sumOver step first start calls ≤ sumOver step second start calls := by
  induction calls generalizing start with
  | nil => exact le_refl 0
  | cons call rest inductionHypothesis =>
      exact add_le_add (atMost start call guarded.1) (inductionHypothesis guarded.2)

/-- The errors of the amounts add up. -/
theorem abs_sumOver_sub_le [AddCommGroup Amount] [LinearOrder Amount] [IsOrderedAddMonoid Amount]
    {first second error : State -> Call -> Amount}
    (close : forall state call, guard state call -> |first state call - second state call| ≤ error state call)
    {start : State} {calls : List Call} (guarded : Along step guard start calls) :
    |sumOver step first start calls - sumOver step second start calls| ≤ sumOver step error start calls := by
  induction calls generalizing start with
  | nil =>
      rw [sumOver, sumOver, sumOver, sub_zero, abs_zero]
  | cons call rest inductionHypothesis =>
      rw [sumOver, sumOver, sumOver, add_sub_add_comm]
      exact (abs_add_le _ _).trans (add_le_add (close start call guarded.1) (inductionHypothesis guarded.2))

end RunSums
end Library

import Sarafu.Library.Runs

namespace Library
namespace GeometricRuns

open Runs

/-!
# Amounts that change by a factor

Some of the calls of a machine are counted.  If each counted call multiplies an amount by at
most a rate, and no other call raises it, a run multiplies it by at most the rate to the number
of counted calls; and the same from below.
-/

universe u v w

variable {State : Type u} {Call : Type v} {Amount : Type w} [Semiring Amount]

/-- The rate of one call. -/
def rateOf (rate : Amount) (counted : Call -> Bool) (call : Call) : Amount := if counted call = true then rate else 1

variable {rate : Amount} {counted : Call -> Bool}

/-- The rates of some calls, one after the other. -/
theorem pow_countP_cons (call : Call) (rest : List Call) :
    rate ^ (call :: rest).countP counted = rate ^ rest.countP counted * rateOf rate counted call := by
  unfold rateOf
  split
  · rename_i isCounted
    rw [List.countP_cons_of_pos isCounted, pow_succ]
  · rename_i notCounted
    rw [List.countP_cons_of_neg notCounted, mul_one]

variable [PartialOrder Amount] [IsOrderedRing Amount] {step : State -> Call -> State}
  {guard : State -> Call -> Prop}

theorem run_le_pow_mul (amount : State -> Amount) (nonneg : 0 ≤ rate)
    (grows : forall state call, guard state call -> amount (step state call) ≤ rateOf rate counted call * amount state)
    {start : State} {calls : List Call} (guarded : Along step guard start calls) :
    amount (run step start calls) ≤ rate ^ calls.countP counted * amount start := by
  induction calls generalizing start with
  | nil => rw [run_nil, List.countP_nil, pow_zero, one_mul]
  | cons call rest inductionHypothesis =>
      calc amount (run step (step start call) rest)
          ≤ rate ^ rest.countP counted * amount (step start call) := inductionHypothesis guarded.2
        _ ≤ rate ^ rest.countP counted * (rateOf rate counted call * amount start) :=
          mul_le_mul_of_nonneg_left (grows start call guarded.1) (pow_nonneg nonneg _)
        _ = rate ^ (call :: rest).countP counted * amount start := by rw [pow_countP_cons, mul_assoc]

theorem pow_mul_le_run (amount : State -> Amount) (nonneg : 0 ≤ rate)
    (keeps : forall state call, guard state call -> rateOf rate counted call * amount state ≤ amount (step state call))
    {start : State} {calls : List Call} (guarded : Along step guard start calls) :
    rate ^ calls.countP counted * amount start ≤ amount (run step start calls) := by
  induction calls generalizing start with
  | nil => rw [run_nil, List.countP_nil, pow_zero, one_mul]
  | cons call rest inductionHypothesis =>
      calc rate ^ (call :: rest).countP counted * amount start
          = rate ^ rest.countP counted * (rateOf rate counted call * amount start) := by
            rw [pow_countP_cons, mul_assoc]
        _ ≤ rate ^ rest.countP counted * amount (step start call) :=
          mul_le_mul_of_nonneg_left (keeps start call guarded.1) (pow_nonneg nonneg _)
        _ ≤ amount (run step (step start call) rest) := inductionHypothesis guarded.2

end GeometricRuns
end Library

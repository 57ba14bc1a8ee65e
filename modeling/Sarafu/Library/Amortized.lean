import Sarafu.Library.Runs

namespace Library
namespace Amortized

open Runs

/-!
# Amortised costs along a run

Every call of a machine has a cost and brings a credit, and the states have a potential.  If
each call is paid for by what it brings and by the potential that it uses up, then the costs
of a whole run are paid for by its credits and by the potential of the state it starts from.
-/

universe u v

variable {State : Type u} {Call : Type v}

/-- The sum of an amount over the calls of a run, each in the state in which it is made. -/
def total (step : State -> Call -> State) (amount : State -> Call -> Nat) : State -> List Call -> Nat
  | _, [] => 0
  | state, call :: rest => amount state call + total step amount (step state call) rest

variable {step : State -> Call -> State} {guard : State -> Call -> Prop}

/-- The potential pays for the run. -/
theorem total_add_potential_le (potential : State -> Nat) {cost credit : State -> Call -> Nat}
    (pays : forall state call, guard state call ->
      cost state call + potential (step state call) ≤ potential state + credit state call)
    {start : State} {calls : List Call} (guarded : Along step guard start calls) :
    total step cost start calls + potential (run step start calls) ≤
      potential start + total step credit start calls := by
  induction calls generalizing start with
  | nil =>
      rw [total, total, run_nil]
      omega
  | cons call rest inductionHypothesis =>
      have now := pays start call guarded.1
      have later := inductionHypothesis guarded.2
      rw [total, total, run_cons]
      omega

/-- An amount that does not depend on the state is the sum over the calls. -/
theorem total_eq_sum (amount : Call -> Nat) (start : State) (calls : List Call) :
    total step (fun _ call => amount call) start calls = (calls.map amount).sum := by
  induction calls generalizing start with
  | nil => rfl
  | cons call rest inductionHypothesis => rw [total, inductionHypothesis, List.map_cons, List.sum_cons]

end Amortized
end Library

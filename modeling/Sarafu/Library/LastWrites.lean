import Mathlib.Data.List.Basic
import Sarafu.Library.Runs

namespace Library
namespace LastWrites

open Runs

/-!
# The last write

A register holds what the last call that writes to it has written.
-/

universe u v w

variable {State : Type u} {Call : Type v} {Value : Type w} {writes : Call -> Option Value} {initial : Value}

/-- What is left in a register by some calls. -/
def lastWrite (writes : Call -> Option Value) (initial : Value) (calls : List Call) : Value :=
  calls.foldl (fun value call => (writes call).getD value) initial

theorem lastWrite_concat (calls : List Call) (call : Call) :
    lastWrite writes initial (calls ++ [call]) = (writes call).getD (lastWrite writes initial calls) := by
  unfold lastWrite
  rw [List.foldl_append]
  exact rfl

/-- A component of a machine that each call overwrites or keeps is a register. -/
theorem read_run {step : State -> Call -> State} (read : State -> Value)
    (obeys : forall state call, read (step state call) = (writes call).getD (read state)) (start : State)
    (calls : List Call) : read (run step start calls) = lastWrite writes (read start) calls := by
  induction calls using List.reverseRecOn with
  | nil => exact rfl
  | append_singleton calls call inductionHypothesis =>
      rw [run_append, run_cons, run_nil, obeys, inductionHypothesis, lastWrite_concat]

/-- Where a longer sequence is cut at one of its calls, the last call is that one or comes after it. -/
theorem concat_eq_split_iff {calls before after : List Call} {last call : Call} :
    calls ++ [last] = before ++ call :: after <->
      (calls = before ∧ last = call ∧ after = []) ∨
        ∃ rest, after = rest ++ [last] ∧ calls = before ++ call :: rest := by
  constructor
  · intro split
    rcases List.eq_nil_or_concat after with rfl | ⟨rest, final, rfl⟩
    · rcases List.append_inj' split rfl with ⟨same, one⟩
      exact Or.inl ⟨same, (List.cons.inj one).1, rfl⟩
    · rw [List.concat_eq_append, ← List.cons_append, ← List.append_assoc] at split
      rcases List.append_inj' split rfl with ⟨same, one⟩
      rw [List.concat_eq_append, (List.cons.inj one).1]
      exact Or.inr ⟨rest, rfl, same⟩
  · rintro (⟨rfl, rfl, rfl⟩ | ⟨rest, rfl, rfl⟩)
    · exact rfl
    · simp only [List.append_assoc, List.cons_append]

end LastWrites
end Library

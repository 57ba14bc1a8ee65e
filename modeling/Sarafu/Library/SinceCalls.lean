import Sarafu.Library.Histories
import Sarafu.Library.LastWrites

namespace Library
namespace SinceCalls

open Runs LastWrites

/-!
# What has held since a call

A fact about the state that some calls begin and others end.  After a run it holds if and only if one
of the calls began it and none of those behind that one ended it.  Which calls begin or end
it may depend on the state in which they are made.
-/

universe u v

variable {State : Type u} {Call : Type v}

/-- Some call of a run began the fact, and no call since then has ended it. -/
def Since (step : State -> Call -> State) (begins ends : State -> Call -> Prop) (start : State) (calls : List Call) :
    Prop :=
  ∃ before call after, calls = before ++ call :: after ∧ begins (run step start before) call ∧
    Along step (fun state other => ¬ ends state other) (run step start (before ++ [call])) after

variable {step : State -> Call -> State} {begins ends : State -> Call -> Prop}

theorem since_concat (start : State) (calls : List Call) (last : Call) :
    Since step begins ends start (calls ++ [last]) <->
      begins (run step start calls) last ∨
        (Since step begins ends start calls ∧ ¬ ends (run step start calls) last) := by
  constructor
  · rintro ⟨before, call, after, split, began, kept⟩
    rcases concat_eq_split_iff.mp split with ⟨rfl, rfl, rfl⟩ | ⟨rest, rfl, rfl⟩
    · exact Or.inl began
    · rcases along_append.mp kept with ⟨meanwhile, now⟩
      refine Or.inr ⟨⟨before, call, rest, rfl, began, meanwhile⟩, ?_⟩
      rw [← run_append, List.append_assoc, List.singleton_append] at now
      exact now.1
  · rintro (began | ⟨⟨before, call, rest, rfl, began, kept⟩, stays⟩)
    · exact ⟨calls, last, [], rfl, began, trivial⟩
    · refine ⟨before, call, rest ++ [last], by rw [List.append_assoc, List.cons_append], began, ?_⟩
      refine along_append.mpr ⟨kept, ?_, trivial⟩
      rw [← run_append, List.append_assoc, List.singleton_append]
      exact stays

/-- A fact that each call begins, ends or keeps. -/
theorem holds_run_iff (holds : State -> Prop)
    (obeys : forall state call, holds (step state call) <-> begins state call ∨ (holds state ∧ ¬ ends state call))
    {start : State} (initially : ¬ holds start) (calls : List Call) :
    holds (run step start calls) <-> Since step begins ends start calls := by
  induction calls using List.reverseRecOn with
  | nil =>
      refine iff_of_false initially ?_
      rintro ⟨before, call, after, split, _⟩
      exact absurd split.symm (List.append_ne_nil_of_right_ne_nil before (List.cons_ne_nil call after))
  | append_singleton calls last inductionHypothesis =>
      rw [run_append, run_cons, run_nil, obeys, inductionHypothesis, since_concat]

end SinceCalls
end Library

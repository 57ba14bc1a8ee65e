import Sarafu.Library.Runs

namespace Library
namespace Runs

/-!
# What happened in a run

A fact about a single call happened if it holds of some call of the run, in the state in
which that call is made.  It is the dual of a guard along the run.  The main rule traces a
property of the final state back: if a step can only keep the property or bring it about by
a certain kind of call, then a run that reaches it starts with it or contains such a call.
-/

universe u v w

variable {State : Type u} {Call : Type v} {step : State -> Call -> State} {fact guard : State -> Call -> Prop}

/-- Some call of the run satisfies `fact` in the state in which it is made. -/
def Happened (step : State -> Call -> State) (fact : State -> Call -> Prop) : State -> List Call -> Prop
  | _, [] => False
  | state, call :: rest => fact state call ∨ Happened step fact (step state call) rest

theorem happened_append {start : State} {before after : List Call} :
    Happened step fact start (before ++ after) <->
      Happened step fact start before ∨ Happened step fact (run step start before) after := by
  induction before generalizing start with
  | nil => exact (or_iff_right id).symm
  | cons call rest inductionHypothesis =>
      rw [List.cons_append, Happened, Happened, inductionHypothesis, run_cons, or_assoc]

/-- The last call is the latest that can have happened. -/
theorem happened_concat {start : State} {calls : List Call} {call : Call} :
    Happened step fact start (calls ++ [call]) <->
      Happened step fact start calls ∨ fact (run step start calls) call := by
  rw [happened_append]
  exact or_congr Iff.rfl (or_iff_left id)

theorem Happened.mono {other : State -> Call -> Prop} {start : State} {calls : List Call}
    (implies : forall state call, fact state call -> other state call) (happened : Happened step fact start calls) :
    Happened step other start calls := by
  induction calls generalizing start with
  | nil => exact happened
  | cons call rest inductionHypothesis =>
      rcases happened with now | later
      · exact Or.inl (implies start call now)
      · exact Or.inr (inductionHypothesis later)

/-- Trace a property back to the start or to a call that brings it about. -/
theorem happened_of_run (property : State -> Prop)
    (origin : forall state call, guard state call -> property (step state call) -> property state ∨ fact state call)
    {start : State} {calls : List Call} (guarded : Along step guard start calls)
    (reached : property (run step start calls)) : property start ∨ Happened step fact start calls := by
  induction calls generalizing start with
  | nil => exact Or.inl reached
  | cons call rest inductionHypothesis =>
      rcases inductionHypothesis guarded.2 reached with sooner | later
      · exact (origin start call guarded.1 sooner).imp_right Or.inl
      · exact Or.inr (Or.inr later)

/-- A property that a call brings about and no step takes away holds at the end. -/
theorem run_of_happened (property : State -> Prop)
    (kept : forall state call, property state -> property (step state call))
    (brought : forall state call, fact state call -> property (step state call)) {start : State} {calls : List Call}
    (happened : Happened step fact start calls) : property (run step start calls) := by
  have remains : forall (rest : List Call) (state : State), property state -> property (run step state rest) := by
    intro rest state holds
    exact invariant_run property (fun state call holds _ => kept state call holds) holds (along_true state rest)
  induction calls generalizing start with
  | nil => exact happened.elim
  | cons call rest inductionHypothesis =>
      rcases happened with now | later
      · exact remains rest _ (brought start call now)
      · exact inductionHypothesis later

theorem along_append {start : State} {before after : List Call} :
    Along step guard start (before ++ after) <->
      Along step guard start before ∧ Along step guard (run step start before) after := by
  induction before generalizing start with
  | nil => exact (and_iff_right trivial).symm
  | cons call rest inductionHypothesis =>
      rw [List.cons_append, Along, Along, inductionHypothesis, run_cons, and_assoc]

/-- A guard along a run is a guard at the end of every beginning of it. -/
theorem along_iff_forall_split {start : State} {calls : List Call} :
    Along step guard start calls <->
      forall before call after, calls = before ++ call :: after -> guard (run step start before) call := by
  constructor
  · rintro guarded before call after rfl
    exact (along_append.mp guarded).2.1
  · intro every
    induction calls generalizing start with
    | nil => exact trivial
    | cons call rest inductionHypothesis =>
        refine ⟨every [] call rest rfl, inductionHypothesis ?_⟩
        rintro before other after rfl
        exact every (call :: before) other after rfl

/-- Induction on the beginnings of a run. -/
theorem beginnings_induction {calls : List Call} (property : List Call -> Prop) (empty : property [])
    (extend : forall before call after, calls = before ++ call :: after -> property before ->
      property (before ++ [call])) : forall before after, calls = before ++ after -> property before := by
  intro before
  induction before using List.reverseRecOn with
  | nil => exact fun _ _ => empty
  | append_singleton before call inductionHypothesis =>
      intro after split
      rw [List.append_assoc] at split
      exact extend before call after split (inductionHypothesis (call :: after) split)

/-- Something that happened is an output of some call. -/
theorem mem_outputs_iff {Output : Type w} {output : State -> Call -> Option Output} {start : State}
    {calls : List Call} {produced : Output} : produced ∈ outputs step output start calls <->
      Happened step (fun state call => output state call = some produced) start calls := by
  induction calls generalizing start with
  | nil => exact iff_of_false List.not_mem_nil id
  | cons call rest inductionHypothesis =>
      rw [outputs, List.mem_append, Option.mem_toList, inductionHypothesis]
      exact Iff.rfl

/-- What happened is the work of one of the calls. -/
theorem Happened.exists_mem {start : State} {calls : List Call} (happened : Happened step fact start calls) :
    ∃ state call, call ∈ calls ∧ fact state call := by
  induction calls generalizing start with
  | nil => exact happened.elim
  | cons call rest inductionHypothesis =>
      rcases happened with now | later
      · exact ⟨start, call, List.mem_cons_self, now⟩
      · rcases inductionHypothesis later with ⟨state, other, member, holds⟩
        exact ⟨state, other, List.mem_cons_of_mem _ member, holds⟩

end Runs
end Library

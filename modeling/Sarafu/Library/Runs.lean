import Mathlib

namespace Library
namespace Runs

/-!
# Runs of a deterministic machine

A machine is a step function on an arbitrary state type.  A run is the fold of
its calls, and a guarded run is one whose calls each satisfy a condition in the
state in which they are made.  Calls may also produce outputs, which a run
collects in order.  One rule below carries an invariant to the final state, one
turns an invariant into a fact about every single call, and one orders the
outputs by a rank that the steps never lower.
-/

universe u v

variable {State : Type u} {Call : Type v}

/-- The state after a finite sequence of calls, in order. -/
def run (step : State -> Call -> State) (start : State) (calls : List Call) : State :=
  calls.foldl step start

/-- Every call satisfies `guard` in the state in which it is made. -/
def Along (step : State -> Call -> State) (guard : State -> Call -> Prop) :
    State -> List Call -> Prop
  | _, [] => True
  | state, call :: rest => guard state call ∧ Along step guard (step state call) rest

variable {step : State -> Call -> State} {guard : State -> Call -> Prop}

instance Along.decidable [forall state call, Decidable (guard state call)] :
    forall start calls, Decidable (Along step guard start calls)
  | _, [] => isTrue trivial
  | state, call :: rest =>
      have := Along.decidable (step state call) rest
      inferInstanceAs (Decidable (guard state call ∧ Along step guard (step state call) rest))

@[simp] theorem run_nil (start : State) : run step start [] = start := rfl

@[simp] theorem run_cons (start : State) (call : Call) (rest : List Call) :
    run step start (call :: rest) = run step (step start call) rest := rfl

theorem run_append (start : State) (before after : List Call) :
    run step start (before ++ after) = run step (run step start before) after :=
  List.foldl_append

/-- The unguarded condition holds of every run, so the rules below also cover
invariants that need no guard. -/
theorem along_true (start : State) (calls : List Call) :
    Along step (fun _ _ => True) start calls := by
  induction calls generalizing start with
  | nil => exact trivial
  | cons call rest inductionHypothesis => exact ⟨trivial, inductionHypothesis (step start call)⟩

/-- A condition on each single call, whatever the state. -/
theorem along_of_forall {fact : Call -> Prop} (start : State) {calls : List Call}
    (facts : forall call, call ∈ calls -> fact call) : Along step (fun _ call => fact call) start calls := by
  induction calls generalizing start with
  | nil => exact trivial
  | cons call rest inductionHypothesis =>
      rw [List.forall_mem_cons] at facts
      exact ⟨facts.1, inductionHypothesis (step start call) facts.2⟩

/-- Two guards can be read together. -/
theorem along_and {other : State -> Call -> Prop} {start : State} {calls : List Call}
    (guarded : Along step guard start calls) (also : Along step other start calls) :
    Along step (fun state call => guard state call ∧ other state call) start calls := by
  induction calls generalizing start with
  | nil => exact trivial
  | cons call rest inductionHypothesis =>
      exact ⟨⟨guarded.1, also.1⟩, inductionHypothesis guarded.2 also.2⟩

/-- A rank that no step lowers stays below whatever bounds it at the end. -/
theorem along_of_grows (rank : State -> Nat) (grows : forall state call, rank state ≤ rank (step state call))
    {bound : Nat} {start : State} {calls : List Call} (below : rank (run step start calls) < bound) :
    Along step (fun state call => rank (step state call) < bound) start calls := by
  have least : forall (rest : List Call) (state : State), rank state ≤ rank (run step state rest) := by
    intro rest
    induction rest with
    | nil => exact fun _ => Nat.le_refl _
    | cons call rest inductionHypothesis =>
        exact fun state => Nat.le_trans (grows state call) (inductionHypothesis (step state call))
  induction calls generalizing start with
  | nil => exact trivial
  | cons call rest inductionHypothesis =>
      exact ⟨Nat.lt_of_le_of_lt (least rest (step start call)) below, inductionHypothesis below⟩

/-- An invariant preserved by every guarded call holds at the end of every
guarded run that starts inside it. -/
theorem invariant_run (Invariant : State -> Prop)
    (preserved : forall state call, Invariant state -> guard state call -> Invariant (step state call))
    {start : State} (initial : Invariant start) {calls : List Call}
    (guarded : Along step guard start calls) : Invariant (run step start calls) := by
  induction calls generalizing start with
  | nil => exact initial
  | cons call rest inductionHypothesis =>
      exact inductionHypothesis (preserved start call initial guarded.1) guarded.2

/-- Read off what an invariant says about each call.  The conclusion may speak
about the result of the call, so it is stated for the state before it. -/
theorem along_of_invariant (Invariant : State -> Prop) {fact : State -> Call -> Prop}
    (preserved : forall state call, Invariant state -> guard state call -> Invariant (step state call))
    (consequence : forall state call, Invariant state -> guard state call -> fact state call)
    {start : State} (initial : Invariant start) {calls : List Call}
    (guarded : Along step guard start calls) : Along step fact start calls := by
  induction calls generalizing start with
  | nil => exact trivial
  | cons call rest inductionHypothesis =>
      exact ⟨consequence start call initial guarded.1,
        inductionHypothesis (preserved start call initial guarded.1) guarded.2⟩

/-! ## Simulations -/

section Simulations

variable {Other : Type u} {Move : Type v} {move : Other -> Move -> Other} {otherGuard : Other -> Move -> Prop}
  {Related : State -> Other -> Prop} {translate : Call -> Move} {valid : Call -> Prop}

/-- Related states stay related along runs that do the same. -/
theorem related_run
    (preserved : forall state other call, Related state other -> valid call ->
      Related (step state call) (move other (translate call)))
    {start : State} {otherStart : Other} (initial : Related start otherStart) {calls : List Call}
    (allValid : forall call, call ∈ calls -> valid call) :
    Related (run step start calls) (run move otherStart (calls.map translate)) := by
  induction calls generalizing start otherStart with
  | nil => exact initial
  | cons call rest inductionHypothesis =>
      rw [List.forall_mem_cons] at allValid
      exact inductionHypothesis (preserved start otherStart call initial allValid.1) allValid.2

/-- A guard holds along a run if and only if the guard that corresponds to it holds along
the related run. -/
theorem along_iff_of_related
    (preserved : forall state other call, Related state other -> valid call ->
      Related (step state call) (move other (translate call)))
    (guards : forall state other call, Related state other -> valid call ->
      (guard state call <-> otherGuard other (translate call)))
    {start : State} {otherStart : Other} (initial : Related start otherStart) {calls : List Call}
    (allValid : forall call, call ∈ calls -> valid call) :
    Along step guard start calls <-> Along move otherGuard otherStart (calls.map translate) := by
  induction calls generalizing start otherStart with
  | nil => exact Iff.rfl
  | cons call rest inductionHypothesis =>
      rw [List.forall_mem_cons] at allValid
      exact and_congr (guards start otherStart call initial allValid.1)
        (inductionHypothesis (preserved start otherStart call initial allValid.1) allValid.2)

end Simulations

/-! ## Outputs -/

universe w

variable {Output : Type w}

/-- The outputs of a run, in the order of the calls that produced them. -/
def outputs (step : State -> Call -> State) (output : State -> Call -> Option Output) :
    State -> List Call -> List Output
  | _, [] => []
  | state, call :: rest => (output state call).toList ++ outputs step output (step state call) rest

theorem outputs_append {output : State -> Call -> Option Output} (start : State) (before after : List Call) :
    outputs step output start (before ++ after) =
      outputs step output start before ++ outputs step output (run step start before) after := by
  induction before generalizing start with
  | nil => rfl
  | cons call rest inductionHypothesis =>
      rw [List.cons_append, outputs, outputs, inductionHypothesis, run_cons, List.append_assoc]

/-- The output of the last call comes last. -/
theorem outputs_concat {output : State -> Call -> Option Output} (start : State) (calls : List Call) (call : Call) :
    outputs step output start (calls ++ [call]) =
      outputs step output start calls ++ (output (run step start calls) call).toList := by
  rw [outputs_append, outputs, outputs, List.append_nil]

/-- What an invariant says about every output holds along the outputs of a run. -/
theorem forall_mem_outputs_of_invariant (Invariant : State -> Prop) {output : State -> Call -> Option Output}
    {fact : Output -> Prop} (preserved : forall state call, Invariant state -> Invariant (step state call))
    (holds : forall state call produced, Invariant state -> output state call = some produced -> fact produced)
    {start : State} (initial : Invariant start) (calls : List Call) :
    forall produced, produced ∈ outputs step output start calls -> fact produced := by
  induction calls generalizing start with
  | nil => exact nofun
  | cons call rest inductionHypothesis =>
      intro produced member
      rcases List.mem_append.mp member with now | later
      · exact holds start call produced initial (Option.mem_toList.mp now)
      · exact inductionHypothesis (preserved start call initial) produced later

/-- What holds of every output holds along the outputs of a run. -/
theorem forall_mem_outputs {output : State -> Call -> Option Output} {fact : Output -> Prop}
    (holds : forall state call produced, output state call = some produced -> fact produced)
    (start : State) (calls : List Call) :
    forall produced, produced ∈ outputs step output start calls -> fact produced :=
  forall_mem_outputs_of_invariant (fun _ => True) (fun _ _ _ => trivial)
    (fun state call produced _ => holds state call produced) trivial calls

/-- Outputs that carry the rank of the state they are produced in are ordered
by it, and none lies below the rank of the first state. -/
theorem outputs_ranked {output : State -> Call -> Option Output} (rank : State -> Nat) (carried : Output -> Nat)
    (grows : forall state call, rank state ≤ rank (step state call))
    (carries : forall state call produced, output state call = some produced -> carried produced = rank state)
    (start : State) (calls : List Call) :
    (outputs step output start calls).Pairwise (fun earlier later => carried earlier ≤ carried later) ∧
      forall produced, produced ∈ outputs step output start calls -> rank start ≤ carried produced := by
  induction calls generalizing start with
  | nil => exact ⟨List.Pairwise.nil, nofun⟩
  | cons call rest inductionHypothesis =>
      rcases inductionHypothesis (step start call) with ⟨ordered, above⟩
      have later : forall produced, produced ∈ outputs step output (step start call) rest ->
          rank start ≤ carried produced := fun produced member =>
        Nat.le_trans (grows start call) (above produced member)
      cases now : output start call with
      | none =>
          simp only [outputs, now, Option.toList_none, List.nil_append]
          exact ⟨ordered, later⟩
      | some first =>
          have rankOfFirst := carries start call first now
          simp only [outputs, now, Option.toList_some, List.singleton_append]
          refine ⟨List.pairwise_cons.mpr ⟨?_, ordered⟩, ?_⟩
          · intro produced member
            rw [rankOfFirst]
            exact later produced member
          · intro produced member
            rcases List.mem_cons.mp member with rfl | behind
            · exact Nat.le_of_eq rankOfFirst.symm
            · exact later produced behind

/-- Ranks that never decrease along a list and change from each item to the
next increase strictly throughout. -/
theorem pairwise_lt_of_isChain_ne {Item : Type w} (rank : Item -> Nat) {items : List Item}
    (ordered : items.Pairwise fun earlier later => rank earlier ≤ rank later)
    (changes : items.IsChain fun earlier later => rank earlier ≠ rank later) :
    items.Pairwise fun earlier later => rank earlier < rank later := by
  have increasing : items.IsChain fun earlier later => rank earlier < rank later := by
    rw [List.isChain_iff_forall_rel_of_append_cons_cons] at changes ⊢
    intro earlier later before after split
    have neighbours := List.isChain_iff_forall_rel_of_append_cons_cons.mp ordered.isChain split
    exact Nat.lt_of_le_of_ne neighbours (changes split)
  have transitive : IsTrans Item fun earlier later => rank earlier < rank later :=
    ⟨fun _ _ _ => Nat.lt_trans⟩
  exact List.isChain_iff_pairwise.mp increasing

end Runs
end Library

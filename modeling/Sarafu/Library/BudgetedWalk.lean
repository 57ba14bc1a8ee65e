import Sarafu.Library.Runs

namespace Library
namespace BudgetedWalk

open Runs

/-!
# Walks within a budget

A walk goes through a list once.  It takes an item if the item is eligible in the current
state and its cost, added to the costs so far, is within the budget.  What adds the costs
is a parameter: the exact walk adds natural numbers, a machine adds them modulo the size
of a word.  The machine stays within its budget if and only if the exact walk meets no
eligible item with which the sum wraps around into the budget.
-/

universe u v w

/-- What decides about an item, apart from the sum of the costs. -/
structure Rules (Item : Type u) (State : Type v) where
  eligible : State -> Item -> Bool
  advance : State -> Item -> State
  cost : Item -> Nat
  budget : Nat

/-- The variables of a walk. -/
structure Walk (Item : Type u) (State : Type v) where
  taken : List Item
  used : Nat
  state : State

variable {Item : Type u} {State : Type v}

namespace Rules

variable (rules : Rules Item State) (add : Nat -> Nat -> Nat)

/-- The walk takes the item. -/
def Takes (walk : Walk Item State) (item : Item) : Prop :=
  rules.eligible walk.state item = true ∧ add walk.used (rules.cost item) ≤ rules.budget

instance (walk : Walk Item State) (item : Item) : Decidable (rules.Takes add walk item) :=
  inferInstanceAs (Decidable (_ ∧ _))

/-- The walk with one more item. -/
def take (walk : Walk Item State) (item : Item) : Walk Item State :=
  ⟨walk.taken ++ [item], add walk.used (rules.cost item), rules.advance walk.state item⟩

/-- One step of the walk. -/
def visit (walk : Walk Item State) (item : Item) : Walk Item State :=
  if rules.Takes add walk item then rules.take add walk item else walk

/-- A walk that has taken nothing yet. -/
def begin (state : State) : Walk Item State := ⟨[], 0, state⟩

variable {rules} {add} {walk : Walk Item State} {item : Item} {items : List Item}

theorem visit_cases (rules : Rules Item State) (add : Nat -> Nat -> Nat) (walk : Walk Item State) (item : Item) :
    (rules.Takes add walk item ∧ rules.visit add walk item = rules.take add walk item) ∨
      (¬rules.Takes add walk item ∧ rules.visit add walk item = walk) := by
  unfold visit
  split
  · rename_i takes
    exact Or.inl ⟨takes, rfl⟩
  · rename_i leaves
    exact Or.inr ⟨leaves, rfl⟩

/-! ## What is taken -/

/-- The taken items keep their order, and none is taken twice. -/
theorem taken_run (rules : Rules Item State) (add : Nat -> Nat -> Nat) (walk : Walk Item State) (items : List Item) :
    ∃ chosen, (run (rules.visit add) walk items).taken = walk.taken ++ chosen ∧ chosen.Sublist items := by
  induction items generalizing walk with
  | nil => exact ⟨[], by simp, List.Sublist.refl []⟩
  | cons item rest inductionHypothesis =>
      rw [run_cons]
      rcases visit_cases rules add walk item with ⟨_, taken⟩ | ⟨_, left⟩
      · rcases inductionHypothesis (rules.take add walk item) with ⟨chosen, same, sublist⟩
        refine ⟨item :: chosen, ?_, sublist.cons_cons item⟩
        rw [taken, same]
        simp [take]
      · rcases inductionHypothesis walk with ⟨chosen, same, sublist⟩
        rw [left]
        exact ⟨chosen, same, sublist.cons item⟩

/-- What follows from eligibility holds of every item that is taken. -/
theorem forall_taken (fact : Item -> Prop)
    (holds : forall state item, rules.eligible state item = true -> fact item)
    (before : forall item, item ∈ walk.taken -> fact item) (items : List Item) :
    forall item, item ∈ (run (rules.visit add) walk items).taken -> fact item := by
  refine invariant_run (fun walk : Walk Item State => forall item, item ∈ walk.taken -> fact item) ?_ before
    (along_true walk items)
  intro walk item known _
  rcases visit_cases rules add walk item with ⟨takes, taken⟩ | ⟨_, left⟩
  · rw [taken]
    intro other member
    rcases List.mem_append.mp member with earlier | now
    · exact known other earlier
    · rw [List.mem_singleton.mp now]
      exact holds walk.state item takes.1
  · rw [left]
    exact known

/-- With a budget that no sum exceeds, whatever is eligible is taken. -/
theorem taken_of_unlimited {test : Item -> Bool} (eligible : forall state item, rules.eligible state item = test item)
    (unlimited : forall used cost, add used cost ≤ rules.budget) (walk : Walk Item State) (items : List Item) :
    (run (rules.visit add) walk items).taken = walk.taken ++ items.filter test := by
  induction items generalizing walk with
  | nil => simp
  | cons item rest inductionHypothesis =>
      rw [run_cons, inductionHypothesis]
      rcases visit_cases rules add walk item with ⟨takes, taken⟩ | ⟨leaves, left⟩
      · have passes := (eligible walk.state item).symm.trans takes.1
        rw [taken, List.filter_cons_of_pos passes]
        simp [take]
      · have fails : ¬test item = true := fun passes =>
          leaves ⟨(eligible walk.state item).trans passes, unlimited _ _⟩
        rw [left, List.filter_cons_of_neg fails]

/-! ## Numbered items

The state holds the next number of some keys, and an item of such a key is eligible only if
it has that number. -/

section Numbers

variable {Key : Type w} [DecidableEq Key] {key : Item -> Key} {number : Item -> Nat}
  {next : State -> Key -> Option Nat} {owner : Key} {first : Nat}

/-- The items of a key are numbered consecutively from the first number. -/
def Consecutive (key : Item -> Key) (number : Item -> Nat) (next : State -> Key -> Option Nat) (owner : Key)
    (first : Nat) (walk : Walk Item State) : Prop :=
  ∃ count, (walk.taken.filter fun item => decide (key item = owner)).map number = List.range' first count ∧
    next walk.state owner = some (first + count)

theorem Consecutive.take (consecutive : Consecutive key number next owner first walk)
    (numbered : forall expected, key item = owner -> next walk.state owner = some expected -> number item = expected)
    (advances : forall expected, next walk.state owner = some expected ->
      next (rules.advance walk.state item) owner = some (if key item = owner then expected + 1 else expected)) :
    Consecutive key number next owner first (rules.take add walk item) := by
  rcases consecutive with ⟨count, numbers, expected⟩
  have advanced : next (rules.take add walk item).state owner = next (rules.advance walk.state item) owner := rfl
  have taken : (rules.take add walk item).taken = walk.taken ++ [item] := rfl
  rw [Consecutive, advanced, advances _ expected, taken, List.filter_append, List.map_append, numbers]
  by_cases own : key item = owner
  · have same := numbered _ own expected
    refine ⟨count + 1, ?_, ?_⟩
    · simp [own, List.range'_concat, same]
    · rw [if_pos own, Nat.add_assoc]
  · refine ⟨count, ?_, ?_⟩
    · simp [own]
    · rw [if_neg own]

theorem consecutive_run (add : Nat -> Nat -> Nat)
    (numbered : forall state item expected, item ∈ items -> rules.eligible state item = true -> key item = owner ->
      next state owner = some expected -> number item = expected)
    (advances : forall state item expected, item ∈ items -> rules.eligible state item = true ->
      next state owner = some expected ->
        next (rules.advance state item) owner = some (if key item = owner then expected + 1 else expected))
    {state : State} (initial : next state owner = some first) :
    Consecutive key number next owner first (run (rules.visit add) (begin state) items) := by
  have listed : Along (rules.visit add) (fun _ item => item ∈ items) (begin state) items :=
    along_of_forall (begin state) fun _ member => member
  refine invariant_run (Consecutive key number next owner first) ?_ ⟨0, rfl, initial⟩ listed
  intro walk item consecutive member
  rcases visit_cases rules add walk item with ⟨takes, taken⟩ | ⟨_, left⟩
  · rw [taken]
    apply consecutive.take
    · exact fun expected => numbered walk.state item expected member takes.1
    · exact fun expected => advances walk.state item expected member takes.1
  · rw [left]
    exact consecutive

end Numbers

/-! ## The budget -/

/-- The sum of the costs of what is taken. -/
def spent (rules : Rules Item State) (walk : Walk Item State) : Nat := (walk.taken.map rules.cost).sum

theorem spent_take (rules : Rules Item State) (add : Nat -> Nat -> Nat) (walk : Walk Item State) (item : Item) :
    rules.spent (rules.take add walk item) = rules.spent walk + rules.cost item := by
  simp [spent, take]

theorem spent_le_run (rules : Rules Item State) (add : Nat -> Nat -> Nat) (walk : Walk Item State)
    (items : List Item) : rules.spent walk ≤ rules.spent (run (rules.visit add) walk items) := by
  rcases taken_run rules add walk items with ⟨chosen, same, _⟩
  unfold spent
  rw [same, List.map_append, List.sum_append]
  exact Nat.le_add_right _ _

/-- Addition modulo the size of a word. -/
def addModulo (size : Nat) (left right : Nat) : Nat := (left + right) % size

/-- No eligible item makes the sum wrap around into the budget. -/
def Plain (rules : Rules Item State) (size : Nat) (walk : Walk Item State) (item : Item) : Prop :=
  rules.eligible walk.state item = true -> size ≤ walk.used + rules.cost item ->
    rules.budget < (walk.used + rules.cost item) % size

/-- The exact walk counts what it spends, and stays within the budget. -/
def Counts (rules : Rules Item State) (walk : Walk Item State) : Prop :=
  rules.spent walk = walk.used ∧ walk.used ≤ rules.budget

theorem Counts.visit (counts : Counts rules walk) (item : Item) :
    Counts rules (rules.visit Nat.add walk item) := by
  rcases visit_cases rules Nat.add walk item with ⟨takes, taken⟩ | ⟨_, left⟩
  · rw [taken]
    refine ⟨?_, takes.2⟩
    rw [spent_take, counts.1]
    rfl
  · rw [left]
    exact counts

/-- Where nothing wraps, the machine does what the exact walk does. -/
theorem visit_addModulo {size : Nat} (small : rules.budget < size) (plain : Plain rules size walk item) :
    rules.visit (addModulo size) walk item = rules.visit Nat.add walk item := by
  by_cases eligible : rules.eligible walk.state item = true
  · by_cases fits : walk.used + rules.cost item < size
    · have same : addModulo size walk.used (rules.cost item) = Nat.add walk.used (rules.cost item) :=
        Nat.mod_eq_of_lt fits
      have takes : rules.Takes (addModulo size) walk item <-> rules.Takes Nat.add walk item := by
        rw [Takes, same, Takes]
      unfold visit take
      rw [same]
      exact if_congr takes rfl rfl
    · -- the true sum is beyond the word, and so is the budget
      have above := plain eligible (Nat.not_lt.mp fits)
      rw [visit, if_neg fun takes => Nat.not_le.mpr above takes.2, visit, if_neg]
      intro takes
      exact fits (Nat.lt_of_le_of_lt takes.2 small)
  · rw [visit, if_neg fun takes => eligible takes.1, visit, if_neg fun takes => eligible takes.1]

/-- A sum that wraps around into the budget is spent nevertheless. -/
theorem spent_of_not_plain {size : Nat} (counts : Counts rules walk) (wraps : ¬Plain rules size walk item) :
    size ≤ rules.spent (rules.visit (addModulo size) walk item) := by
  unfold Plain at wraps
  push Not at wraps
  rcases wraps with ⟨eligible, beyond, within⟩
  rw [visit, if_pos ⟨eligible, within⟩, spent_take, counts.1]
  exact beyond

/-- The machine stays within its budget if and only if nothing wraps around into it. -/
theorem spent_le_iff (rules : Rules Item State) {size : Nat} (small : rules.budget < size)
    (counts : Counts rules walk) (items : List Item) :
    rules.spent (run (rules.visit (addModulo size)) walk items) ≤ rules.budget <->
      Along (rules.visit Nat.add) (Plain rules size) walk items := by
  induction items generalizing walk with
  | nil => exact iff_of_true (counts.1 ▸ counts.2) trivial
  | cons item rest inductionHypothesis =>
      rw [run_cons, Along]
      by_cases plain : Plain rules size walk item
      · rw [visit_addModulo small plain, inductionHypothesis (counts.visit item), and_iff_right plain]
      · refine iff_of_false ?_ fun along => plain along.1
        have beyond := spent_of_not_plain counts plain
        have kept := spent_le_run rules (addModulo size) (rules.visit (addModulo size) walk item) rest
        omega

end Rules
end BudgetedWalk
end Library

import Sarafu.Library.Runs

namespace Library
namespace Runs

/-!
# What a run breaks and what it repairs

Some calls bring a property about, whatever the state, and others take it away in the state
in which they are made.  The rest leaves it as it is.  Then the last of these calls decides:
a property that is there at the start or repaired on the way holds at the end of a run if
and only if every call that breaks it is followed by one that repairs it.
-/

universe u v

variable {State : Type u} {Call : Type v}

/-- A call breaks something that no later call repairs. -/
def Unrepaired (step : State -> Call -> State) (breaks : State -> Call -> Prop) (repairs : Call -> Prop) :
    State -> List Call -> Prop
  | _, [] => False
  | state, call :: rest => (breaks state call ∧ forall later, later ∈ rest -> ¬repairs later) ∨
      Unrepaired step breaks repairs (step state call) rest

variable {step : State -> Call -> State} {breaks : State -> Call -> Prop} {repairs : Call -> Prop}

/-- The breaking call, by the calls before and after it. -/
theorem unrepaired_iff_exists_split {start : State} {calls : List Call} :
    Unrepaired step breaks repairs start calls <-> ∃ before call after, calls = before ++ call :: after ∧
      breaks (run step start before) call ∧ forall later, later ∈ after -> ¬repairs later := by
  constructor
  · intro broken
    induction calls generalizing start with
    | nil => exact broken.elim
    | cons call rest inductionHypothesis =>
        rcases broken with now | later
        · exact ⟨[], call, rest, rfl, now⟩
        · rcases inductionHypothesis later with ⟨before, other, after, rfl, there⟩
          exact ⟨call :: before, other, after, rfl, there⟩
  · rintro ⟨before, call, after, rfl, broken⟩
    induction before generalizing start with
    | nil => exact Or.inl broken
    | cons first rest inductionHypothesis => exact Or.inr (inductionHypothesis broken)

/-- One more call that repairs nothing. -/
theorem unrepaired_concat {start : State} {calls : List Call} {call : Call} (harmless : ¬repairs call) :
    Unrepaired step breaks repairs start (calls ++ [call]) <->
      Unrepaired step breaks repairs start calls ∨ breaks (run step start calls) call := by
  induction calls generalizing start with
  | nil =>
      constructor
      · rintro (⟨breaking, _⟩ | never)
        · exact Or.inr breaking
        · exact never.elim
      · rintro (never | breaking)
        · exact never.elim
        · exact Or.inl ⟨breaking, nofun⟩
  | cons first rest inductionHypothesis =>
      have later : (forall later, later ∈ rest ++ [call] -> ¬repairs later) <->
          forall later, later ∈ rest -> ¬repairs later := by
        rw [List.forall_mem_append, List.forall_mem_singleton]
        exact and_iff_left harmless
      rw [List.cons_append, Unrepaired, Unrepaired, inductionHypothesis, later, run_cons, or_assoc]

/-- How the calls act on a property in the states of an invariant. -/
structure Decides (step : State -> Call -> State) (Invariant property : State -> Prop)
    (breaks : State -> Call -> Prop) (repairs : Call -> Prop) : Prop where
  preserved : forall state call, Invariant state -> Invariant (step state call)
  repaired : forall state call, Invariant state -> repairs call -> property (step state call)
  broken : forall state call, Invariant state -> breaks state call -> ¬property (step state call)
  kept : forall state call, Invariant state -> ¬repairs call -> ¬breaks state call ->
    (property (step state call) <-> property state)

variable {Invariant property : State -> Prop}

/-- What is not there stays away until it is repaired. -/
theorem Decides.absent_run (decides : Decides step Invariant property breaks repairs) {start : State}
    (initial : Invariant start) {calls : List Call} (unrepaired : forall call, call ∈ calls -> ¬repairs call)
    (absent : ¬property start) : ¬property (run step start calls) := by
  induction calls generalizing start with
  | nil => exact absent
  | cons call rest inductionHypothesis =>
      rw [List.forall_mem_cons] at unrepaired
      refine inductionHypothesis (decides.preserved start call initial) unrepaired.2 ?_
      by_cases breaking : breaks start call
      · exact decides.broken start call initial breaking
      · exact fun there => absent ((decides.kept start call initial unrepaired.1 breaking).mp there)

/-- The run lemma: the last call that acts on the property decides. -/
theorem Decides.holds_run_iff (decides : Decides step Invariant property breaks repairs) {start : State}
    (initial : Invariant start) {calls : List Call} (brought : property start ∨ ∃ call, call ∈ calls ∧ repairs call) :
    property (run step start calls) <-> ¬Unrepaired step breaks repairs start calls := by
  induction calls generalizing start with
  | nil =>
      rcases brought with there | ⟨call, member, _⟩
      · exact iff_of_true there id
      · cases member
  | cons call rest inductionHypothesis =>
      have next := decides.preserved start call initial
      by_cases again : ∃ later, later ∈ rest ∧ repairs later
      · -- a later call repairs whatever this one does
        rw [run_cons, inductionHypothesis next (Or.inr again)]
        refine not_congr ⟨Or.inr, ?_⟩
        rintro (⟨_, never⟩ | later)
        · rcases again with ⟨repair, member, repairing⟩
          exact (never repair member repairing).elim
        · exact later
      · have never : forall later, later ∈ rest -> ¬repairs later := fun later member repairing =>
          again ⟨later, member, repairing⟩
        by_cases there : property (step start call)
        · rw [run_cons, inductionHypothesis next (Or.inl there)]
          refine not_congr ⟨Or.inr, ?_⟩
          rintro (⟨breaking, _⟩ | later)
          · exact (decides.broken start call initial breaking there).elim
          · exact later
        · -- the property was there before the call, so the call breaks it
          have notRepairing : ¬repairs call := fun repairing => there (decides.repaired start call initial repairing)
          have before : property start := by
            rcases brought with holds | ⟨repair, member, repairing⟩
            · exact holds
            · rcases List.mem_cons.mp member with rfl | later
              · exact (notRepairing repairing).elim
              · exact (never repair later repairing).elim
          have breaking : breaks start call := by
            by_contra harmless
            exact there ((decides.kept start call initial notRepairing harmless).mpr before)
          refine iff_of_false (decides.absent_run next never there) ?_
          exact not_not.mpr (Or.inl ⟨breaking, never⟩)

end Runs
end Library

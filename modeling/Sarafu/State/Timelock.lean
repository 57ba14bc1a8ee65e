import Sarafu.State.ProposalLifeCycle

namespace Sarafu
namespace State
namespace GovernanceModule

open Crypto Library.Runs GovernanceEvent

/-!
# Statuses and timelocks over every history

One call moves one proposal along the machine and leaves the others alone.  Together with
the account of the log this gives the life cycle: the order of submission, approval and
execution, the single execution, and the tallies.
-/

/-- The moves of the status machine; a call that does not decide a proposal keeps its status. -/
inductive Moves : ProposalStatus -> ProposalStatus -> Prop
  | stays (status : ProposalStatus) : Moves status status
  | approved : Moves .active .approved
  | rejected : Moves .active .rejected
  | executed : Moves .approved .executed

/-- The proposal that a call names; a submission names the next id. -/
def named (governance : GovernanceModule) : GovernanceCall -> UInt64
  | .submitProposal _ => governance.nextProposalId
  | .vote id _ _ _ _ => id
  | .finalizeVoting id _ _ => id
  | .executeProposal id _ => id

/-- What a call does to the proposals. -/
structure Steps (before : GovernanceModule) (step : GovernanceCall) (after : GovernanceModule) : Prop where
  others : forall id, id ≠ before.named step -> after.getProposal id = before.getProposal id
  moves : forall id proposal, before.getProposal id = some proposal ->
    ∃ moved, after.getProposal id = some moved ∧ Moves proposal.status moved.status
  starts : forall id proposal, before.getProposal id = none -> after.getProposal id = some proposal ->
    proposal.status = .active

variable {round : Rat -> Rat} {period id : UInt64} {governance : GovernanceModule} {events : List GovernanceEvent}
  {proposal changed : Proposal}

theorem moves_finalized (active : proposal.status = .active) (totalStake height : UInt64) :
    Moves proposal.status (governance.finalized round proposal totalStake height).status := by
  unfold finalized
  rw [active]
  split
  · exact Moves.approved
  · exact Moves.rejected

/-- A write through the reference is a step if the status may move so. -/
theorem Steps.store {step : GovernanceCall} (found : governance.proposals[id]? = some proposal)
    (moves : Moves proposal.status changed.status) (same : governance.named step = id) :
    Steps governance step (governance.store id changed) where
  others := by
    intro other differs
    exact (getElem?_store governance id other changed).trans (if_neg (same ▸ differs))
  moves := by
    intro other stored before
    by_cases same : other = id
    · rw [same] at before ⊢
      rw [getProposal, found] at before
      rw [← Option.some.inj before]
      exact ⟨changed, getProposal_store governance id changed, moves⟩
    · exact ⟨stored, (getElem?_store governance id other changed).trans ((if_neg same).trans before),
        Moves.stays stored.status⟩
  starts := by
    intro other stored missing written
    have same : other = id := by
      by_contra differs
      have kept := (getElem?_store governance id other changed).trans (if_neg differs)
      exact nomatch written.symm.trans (kept.trans missing)
    rw [same] at missing
    exact nomatch found.symm.trans missing

/-- A submission under a new id is a step. -/
theorem Steps.submit (submission : Submission) (missing : governance.proposals[governance.nextProposalId]? = none) :
    Steps governance (.submitProposal submission)
      { governance with
        proposals := governance.proposals.insert governance.nextProposalId (governance.proposalOf submission)
        nextProposalId := governance.nextProposalId + 1 } := by
  have lookup := getElem?_submitted governance submission
  constructor
  case others => exact fun other differs => (lookup other).trans (if_neg differs)
  case moves =>
    intro other stored before
    refine ⟨stored, (lookup other).trans ((if_neg ?_).trans before), Moves.stays stored.status⟩
    intro same
    rw [same] at before
    exact nomatch before.symm.trans missing
  case starts =>
    intro other stored absent written
    rw [getProposal, lookup] at written
    split at written
    · rw [← Option.some.inj written]
      rfl
    · exact nomatch written.symm.trans absent

/-- Every call in range is a step. -/
theorem steps_call (recorded : Recorded period governance events) (step : GovernanceCall)
    (inRange : governance.InRange round step) : Steps governance step (governance.call round step) := by
  have outcome := outcome_call round governance step
  unfold InRange at inRange
  generalize governance.call round step = after, eventOf round governance step = logged at outcome inRange ⊢
  cases outcome with
  | refused =>
      exact ⟨fun _ _ => rfl, fun _ proposal found => ⟨proposal, found, Moves.stays proposal.status⟩,
        fun _ _ missing found => nomatch found.symm.trans missing⟩
  | submitted submission => exact Steps.submit submission (recorded.fresh (inRange rfl).2).2
  | voted found active running first =>
      refine Steps.store found ?_ rfl
      exact Moves.stays _
  | finalized found active ended => exact Steps.store found (moves_finalized active _ _) rfl
  | executed found approved waited =>
      refine Steps.store found ?_ rfl
      rw [approved]
      exact Moves.executed

/-! ## Every history -/

theorem recorded_create (blocksPerDay : UInt64) : Recorded blocksPerDay (create blocksPerDay) [] := by
  have empty : forall id : UInt64, (create blocksPerDay).proposals[id]? = none := fun _ =>
    Std.ExtTreeMap.getElem?_empty
  constructor
  case perDay => rfl
  case next => rfl
  case numbered => exact fun id proposal found => nomatch (empty id).symm.trans found
  case proposals => exact fun id proposal found => nomatch (empty id).symm.trans found
  case silent => exact fun id _ event listed => absurd listed List.not_mem_nil
  case lawful =>
    constructor
    case unique => exact List.nodup_nil
    case voters => exact fun _ => List.nodup_nil
    case inTime => exact fun id voter inFavor stake height listed => absurd listed List.not_mem_nil
    case once => exact fun _ => Nat.zero_le 1
    case delayed =>
      intro before after id height split
      exact absurd split.symm (List.append_ne_nil_of_right_ne_nil before (List.cons_ne_nil _ _))

/-- The run lemma: the module is an account of the log, at every point of a history. -/
theorem recorded_run {start : GovernanceModule} {earlier : List GovernanceEvent}
    (recorded : Recorded period start earlier)
    {calls : List GovernanceCall} (inRange : Along (call round) (InRange round) start calls) :
    Recorded period (run (call round) start calls) (earlier ++ log round start calls) ∧
      Along (call round) (fun governance step => Steps governance step (governance.call round step)) start calls := by
  induction calls generalizing start earlier with
  | nil =>
      refine ⟨?_, trivial⟩
      rw [log, outputs, List.append_nil]
      exact recorded
  | cons step rest inductionHypothesis =>
      rcases inductionHypothesis (recorded.call step inRange.1) inRange.2 with ⟨ends, steps⟩
      refine ⟨?_, steps_call recorded step inRange.1, steps⟩
      rw [log, outputs, ← List.append_assoc]
      exact ends

/-- The life cycle over any history of calls whose successes are in range.  Each call moves the status of the
proposal that it names along the machine and changes no other proposal.  In the log of
the history the submitted ids are distinct, every validator's vote on a proposal is
counted once and before the voting period is over, every proposal is executed at most
once, and before an execution stands an approval that came after the voting period and at
least a timelock earlier.  The tallies are the sums of the stakes of the counted votes. -/
theorem governance_life_cycle (round : Rat -> Rat) (blocksPerDay : UInt64) (calls : List GovernanceCall)
    (inRange : Along (call round) (InRange round) (create blocksPerDay) calls) :
    Along (call round) (fun governance step => Steps governance step (governance.call round step))
        (create blocksPerDay) calls ∧
      Lawful blocksPerDay (log round (create blocksPerDay) calls) ∧
      forall id proposal, (run (call round) (create blocksPerDay) calls).getProposal id = some proposal ->
        proposal.votesFor.toNat = stakesOn id true (log round (create blocksPerDay) calls) ∧
          proposal.votesAgainst.toNat = stakesOn id false (log round (create blocksPerDay) calls) := by
  rcases recorded_run (recorded_create blocksPerDay) inRange with ⟨recorded, steps⟩
  rw [List.nil_append] at recorded
  refine ⟨steps, recorded.lawful, ?_⟩
  intro id proposal found
  have ok := recorded.proposals id proposal found
  exact ⟨ok.votesFor, ok.votesAgainst⟩

instance (governance : GovernanceModule) : forall step, Decidable (governance.Fits step)
  | .submitProposal _ => inferInstanceAs (Decidable (_ ∧ _))
  | .vote id _ _ _ _ => inferInstanceAs (Decidable (forall proposal, proposal ∈ governance.proposals[id]? -> _))
  | .finalizeVoting id _ _ => inferInstanceAs (Decidable (forall proposal, proposal ∈ governance.proposals[id]? -> _))
  | .executeProposal _ _ => isTrue trivial

instance (governance : GovernanceModule) (step : GovernanceCall) : Decidable (governance.InRange round step) :=
  inferInstanceAs (Decidable (_ = true -> _))

/-- Arithmetic that does not round. -/
def exactly (quotient : Rat) : Rat := quotient

/-- A new block size, voted for by the validator that backs it, with one block a day. -/
def approvedCalls : List GovernanceCall :=
  [.submitProposal
      ⟨.blockSize, [1, 0, 0, 0, 0, 0, 0, 0], [], [], [7], (∅ : OrderedMap UInt64 UInt64).insert 7 5, 100, 10⟩,
    .vote 1 7 true 80 12, .vote 1 7 true 80 13, .executeProposal 1 16, .finalizeVoting 1 100 17,
    .executeProposal 1 19, .executeProposal 1 20, .executeProposal 1 21]

theorem governance_life_cycle_approved :
    log exactly (create 1) approvedCalls =
        [.submitted 1 .blockSize 10, .voted 1 7 true 80 12, .finalized 1 .approved 17, .executed 1 20] ∧
      Lawful 1 (log exactly (create 1) approvedCalls) :=
  ⟨by decide +kernel, (governance_life_cycle exactly 1 approvedCalls (by decide +kernel)).2.1⟩

end GovernanceModule
end State
end Sarafu

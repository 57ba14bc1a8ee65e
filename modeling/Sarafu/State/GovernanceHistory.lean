import Sarafu.Library.Runs
import Sarafu.State.Governance

namespace Sarafu
namespace State

open Crypto Library.Runs

/-!
# The life of a proposal

A history of governance calls leaves a log of the calls that succeeded.  The module is an
account of that log: every proposal knows where it was submitted, who has voted on it and
with which stake, when it was approved and whether it was executed.  What the log says
about an execution, in particular that an approval came early enough before it, follows
from what the module records when the execution is accepted.
-/

/-- What a successful call has done. -/
inductive GovernanceEvent
  | submitted (proposal : UInt64) (parameter : ParameterType) (height : UInt64)
  | voted (proposal voter : UInt64) (inFavor : Bool) (stake height : UInt64)
  | finalized (proposal : UInt64) (status : ProposalStatus) (height : UInt64)
  | executed (proposal height : UInt64)
deriving DecidableEq

namespace GovernanceEvent

/-- The proposal that an event is about. -/
def proposal : GovernanceEvent -> UInt64
  | submitted proposal _ _ => proposal
  | voted proposal _ _ _ _ => proposal
  | finalized proposal _ _ => proposal
  | executed proposal _ => proposal

def submission : GovernanceEvent -> Option UInt64
  | submitted proposal _ _ => some proposal
  | _ => none

def voterOn (id : UInt64) : GovernanceEvent -> Option UInt64
  | voted proposal voter _ _ _ => if proposal = id then some voter else none
  | _ => none

/-- The stake that an event adds to one side of a proposal. -/
def stakeOn (id : UInt64) (side : Bool) : GovernanceEvent -> Nat
  | voted proposal _ inFavor stake _ => if proposal = id ∧ inFavor = side then stake.toNat else 0
  | _ => 0

def executes (id : UInt64) : GovernanceEvent -> Bool
  | executed proposal _ => decide (proposal = id)
  | _ => false

end GovernanceEvent

open GovernanceEvent

/-- The ids that were given out. -/
def submittedIds (events : List GovernanceEvent) : List UInt64 := events.filterMap submission

/-- The validators whose votes on a proposal were counted. -/
def votersOn (id : UInt64) (events : List GovernanceEvent) : List UInt64 := events.filterMap (voterOn id)

/-- The stake of the votes counted for or against a proposal. -/
def stakesOn (id : UInt64) (side : Bool) (events : List GovernanceEvent) : Nat := (events.map (stakeOn id side)).sum

/-- How often a proposal was executed. -/
def executionsOf (id : UInt64) (events : List GovernanceEvent) : Nat := events.countP (executes id)

namespace GovernanceModule

variable (round : Rat -> Rat)

/-- What a call adds to the log, read off its result. -/
def eventOf (governance : GovernanceModule) : GovernanceCall -> Option GovernanceEvent
  | .submitProposal submission => (governance.submitProposal round submission).1.map fun id =>
      .submitted id submission.parameter submission.currentHeight
  | .vote id voter inFavor stake height =>
      if (governance.vote id voter inFavor stake height).1 then some (.voted id voter inFavor stake height) else none
  | .finalizeVoting id totalStake height =>
      if (governance.finalizeVoting round id totalStake height).1 then
        ((governance.finalizeVoting round id totalStake height).2.getProposal id).map fun proposal =>
          .finalized id proposal.status height
      else none
  | .executeProposal id height =>
      if (governance.executeProposal round id height).1 then some (.executed id height) else none

/-- The log of a run. -/
def log (governance : GovernanceModule) (calls : List GovernanceCall) : List GovernanceEvent :=
  outputs (call round) (eventOf round) governance calls

/-- The height with its period or the tally stays below `2^64`, and so does the size of the
map. -/
def Fits (governance : GovernanceModule) : GovernanceCall -> Prop
  | .submitProposal submission =>
      submission.currentHeight.toNat + 7 * governance.blocksPerDay.toNat < 2 ^ 64 ∧
        governance.proposals.size + 1 < 2 ^ 64
  | .vote id _ inFavor stake _ => forall proposal, governance.proposals[id]? = some proposal ->
      (if inFavor then proposal.votesFor else proposal.votesAgainst).toNat + stake.toNat < 2 ^ 64
  | .finalizeVoting id _ height => forall proposal, governance.proposals[id]? = some proposal ->
      height.toNat + (timelockDays proposal.parameter).toNat * governance.blocksPerDay.toNat < 2 ^ 64
  | .executeProposal _ _ => True

/-- What a call that succeeds writes is in range. -/
def InRange (governance : GovernanceModule) (step : GovernanceCall) : Prop :=
  (eventOf round governance step).isSome = true -> governance.Fits step

/-! ## What a call can do -/

/-- The outcomes of a call: the event that it logs and the module that it leaves. -/
inductive Outcome (governance : GovernanceModule) :
    GovernanceCall -> Option GovernanceEvent -> GovernanceModule -> Prop
  | refused (call : GovernanceCall) : Outcome governance call none governance
  | submitted (submission : Submission) :
      Outcome governance (.submitProposal submission)
        (some (.submitted governance.nextProposalId submission.parameter submission.currentHeight))
        { governance with
          proposals := governance.proposals.insert governance.nextProposalId (governance.proposalOf submission)
          nextProposalId := governance.nextProposalId + 1 }
  | voted {id voter : UInt64} {inFavor : Bool} {stake height : UInt64} {proposal : Proposal}
      (found : governance.proposals[id]? = some proposal) (active : proposal.status = .active)
      (running : height < proposal.votingEndsAtHeight) (first : proposal.votes[voter]? = none) :
      Outcome governance (.vote id voter inFavor stake height) (some (.voted id voter inFavor stake height))
        (governance.store id (Proposal.withVote proposal voter inFavor stake))
  | finalized {id totalStake height : UInt64} {proposal : Proposal}
      (found : governance.proposals[id]? = some proposal) (active : proposal.status = .active)
      (ended : proposal.votingEndsAtHeight ≤ height) :
      Outcome governance (.finalizeVoting id totalStake height)
        (some (.finalized id (governance.finalized round proposal totalStake height).status height))
        (governance.store id (governance.finalized round proposal totalStake height))
  | executed {id height : UInt64} {proposal : Proposal}
      (found : governance.proposals[id]? = some proposal) (approved : proposal.status = .approved)
      (waited : proposal.timelockEndsAtHeight ≤ height) :
      Outcome governance (.executeProposal id height) (some (.executed id height))
        (governance.store id { proposal with status := .executed })

variable {round} {governance : GovernanceModule}

theorem getElem?_store (governance : GovernanceModule) (id other : UInt64) (proposal : Proposal) :
    (governance.store id proposal).proposals[other]? =
      if other = id then some proposal else governance.proposals[other]? :=
  OrderedMap.find_insert governance.proposals id other proposal

theorem getProposal_store (governance : GovernanceModule) (id : UInt64) (proposal : Proposal) :
    (governance.store id proposal).getProposal id = some proposal :=
  (getElem?_store governance id id proposal).trans (if_pos rfl)

theorem outcome_vote (id voter : UInt64) (inFavor : Bool) (stake height : UInt64) :
    Outcome round governance (.vote id voter inFavor stake height)
      (eventOf round governance (.vote id voter inFavor stake height))
      (governance.vote id voter inFavor stake height).2 := by
  cases found : governance.proposals[id]? with
  | none =>
      simp only [eventOf, vote, found]
      exact Outcome.refused _
  | some proposal =>
      simp only [eventOf, vote, found]
      by_cases active : proposal.status = .active
      · rw [if_neg (not_not.mpr active)]
        by_cases closed : proposal.votingEndsAtHeight ≤ height
        · rw [if_pos closed]
          exact Outcome.refused _
        · rw [if_neg closed]
          by_cases again : (proposal.votes[voter]?).isSome = true
          · rw [if_pos again]
            exact Outcome.refused _
          · rw [if_neg again]
            by_cases empty : stake = 0
            · rw [if_pos empty]
              exact Outcome.refused _
            · rw [if_neg empty]
              exact Outcome.voted found active (UInt64.not_le.mp closed) (Option.not_isSome_iff_eq_none.mp again)
      · rw [if_pos active]
        exact Outcome.refused _

theorem outcome_finalizeVoting (id totalStake height : UInt64) :
    Outcome round governance (.finalizeVoting id totalStake height)
      (eventOf round governance (.finalizeVoting id totalStake height))
      (governance.finalizeVoting round id totalStake height).2 := by
  cases found : governance.proposals[id]? with
  | none =>
      simp only [eventOf, finalizeVoting, found]
      exact Outcome.refused _
  | some proposal =>
      simp only [eventOf, finalizeVoting, found]
      by_cases active : proposal.status = .active
      · rw [if_neg (not_not.mpr active)]
        by_cases running : height < proposal.votingEndsAtHeight
        · rw [if_pos running]
          exact Outcome.refused _
        · rw [if_neg running]
          simp only [getProposal_store]
          exact Outcome.finalized found active (UInt64.not_lt.mp running)
      · rw [if_pos active]
        exact Outcome.refused _

theorem outcome_executeProposal (id height : UInt64) :
    Outcome round governance (.executeProposal id height) (eventOf round governance (.executeProposal id height))
      (governance.executeProposal round id height).2 := by
  cases found : governance.proposals[id]? with
  | none =>
      simp only [eventOf, executeProposal, found]
      exact Outcome.refused _
  | some proposal =>
      simp only [eventOf, executeProposal, found]
      by_cases approved : proposal.status = .approved
      · rw [if_neg (not_not.mpr approved)]
        by_cases early : height < proposal.timelockEndsAtHeight
        · rw [if_pos early]
          exact Outcome.refused _
        · rw [if_neg early]
          by_cases invalid : validateParameterValue round proposal.parameter proposal.newValue = false
          · rw [if_pos invalid]
            exact Outcome.refused _
          · rw [if_neg invalid]
            exact Outcome.executed found approved (UInt64.not_lt.mp early)
      · rw [if_pos approved]
        exact Outcome.refused _

/-- Every call has one of these outcomes. -/
theorem outcome_call (round : Rat -> Rat) (governance : GovernanceModule) (step : GovernanceCall) :
    Outcome round governance step (eventOf round governance step) (governance.call round step) := by
  cases step with
  | submitProposal submission =>
      simp only [eventOf, call, submitProposal]
      split
      · exact Outcome.refused _
      · split
        · exact Outcome.refused _
        · exact Outcome.submitted submission
  | vote id voter inFavor stake height => exact outcome_vote id voter inFavor stake height
  | finalizeVoting id totalStake height => exact outcome_finalizeVoting id totalStake height
  | executeProposal id height => exact outcome_executeProposal id height

end GovernanceModule
end State
end Sarafu

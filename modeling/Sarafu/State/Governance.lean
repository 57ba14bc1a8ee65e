import Sarafu.Crypto.Bytes

namespace Sarafu
namespace State

open Crypto

/-!
# Governance proposals

Validators are numbers here, addresses and texts are byte strings.  Three comparisons are
made between `double` values.  What conversion, division and constants round to is a
parameter, `round`: the source uses `toDouble` of the registry, and the identity gives
the exact quotients.  A quotient with denominator zero is infinite or not a number.
-/

inductive ParameterType
  | blockSize
  | gasLimit
  | issuanceCoefficient
  | slashingAlpha
  | slashingBeta
  | validatorSetSize
  | minimumSelfBond
  | baseFeeAdjustment
deriving DecidableEq, Repr

inductive ProposalStatus
  | pending
  | active
  | approved
  | rejected
  | executed
deriving DecidableEq, Repr

structure Proposal where
  id : UInt64
  parameter : ParameterType
  description : List UInt8
  newValue : List UInt8
  proposer : List UInt8
  stakeBacking : UInt64
  createdAtHeight : UInt64
  votingEndsAtHeight : UInt64
  timelockEndsAtHeight : UInt64
  status : ProposalStatus
  votesFor : UInt64
  votesAgainst : UInt64
  votes : OrderedMap UInt64 Bool

structure GovernanceModule where
  proposals : OrderedMap UInt64 Proposal
  nextProposalId : UInt64
  blocksPerDay : UInt64

namespace GovernanceModule

def create (blocksPerDay : UInt64) : GovernanceModule := ⟨∅, 1, blocksPerDay⟩

/-! ## Parameter values -/

/-- `memcpy` into a `uint64_t` on a little-endian host. -/
def wordOfBytes (value : List UInt8) : Nat := Nat.ofDigits 256 (value.map UInt8.toNat)

/-- `memcpy` into a `double`; infinities and values that are no number are `none`. -/
def doubleOfBytes (value : List UInt8) : Option Rat :=
  let bits := wordOfBytes value
  let exponent : Nat := bits / 2 ^ 52 % 2048
  let fraction : Nat := bits % 2 ^ 52
  if exponent = 2047 then none
  else
    let magnitude : Rat :=
      if exponent = 0 then fraction / 2 ^ 1074 else ((2 ^ 52 + fraction : Nat) : Rat) * 2 ^ ((exponent : Int) - 1075)
    some (if bits / 2 ^ 63 % 2 = 1 then -magnitude else magnitude)

/-- A value of eight bytes that is a `double` within bounds. -/
def isRealWithin (value : List UInt8) (within : Rat -> Bool) : Bool :=
  decide (value.length = 8) && (doubleOfBytes value).any within

/-- A value of eight bytes that is a `uint64_t` within bounds. -/
def isWordWithin (value : List UInt8) (within : Nat -> Bool) : Bool :=
  decide (value.length = 8) && within (wordOfBytes value)

variable (round : Rat -> Rat)

def validateParameterValue (parameter : ParameterType) (value : List UInt8) : Bool :=
  match parameter with
  | .issuanceCoefficient => isRealWithin value fun k => decide (round (5 / 100) ≤ k ∧ k ≤ round (2 / 10))
  | .slashingAlpha => isRealWithin value fun alpha => decide (0 < alpha ∧ alpha ≤ 1)
  | .slashingBeta => isRealWithin value fun beta => decide (0 < beta ∧ beta ≤ 1)
  | .blockSize => isWordWithin value fun size => decide (0 < size)
  | .gasLimit => isWordWithin value fun limit => decide (0 < limit)
  | .validatorSetSize => isWordWithin value fun n => decide (100 ≤ n ∧ n ≤ 500)
  | .minimumSelfBond => isWordWithin value fun bond => decide (0 < bond)
  | .baseFeeAdjustment => isRealWithin value fun gamma => decide (0 < gamma ∧ gamma ≤ 1)

/-! ## The operations -/

/-- `TIMELOCK_SAFETY_DAYS`, `TIMELOCK_ADMIN_DAYS` and `TIMELOCK_PERFORMANCE_DAYS`. -/
def timelockDays : ParameterType -> UInt64
  | .issuanceCoefficient => 14
  | .slashingAlpha => 14
  | .slashingBeta => 14
  | .validatorSetSize => 7
  | .minimumSelfBond => 7
  | .blockSize => 3
  | .gasLimit => 3
  | .baseFeeAdjustment => 3

def calculateTimelock (governance : GovernanceModule) (parameter : ParameterType) : UInt64 :=
  timelockDays parameter * governance.blocksPerDay

/-- `VOTING_PERIOD_DAYS * blocks_per_day_`. -/
def votingPeriod (governance : GovernanceModule) : UInt64 := 7 * governance.blocksPerDay

/-- The stakes of the backers that are found, summed modulo `2^64`; a backer that is
listed twice counts twice. -/
def backingStake (backers : List UInt64) (validatorStakes : OrderedMap UInt64 UInt64) : UInt64 :=
  backers.foldl (fun total backer => total + (validatorStakes[backer]?).getD 0) 0

/-- The arguments of `submit_proposal`. -/
structure Submission where
  parameter : ParameterType
  newValue : List UInt8
  description : List UInt8
  proposer : List UInt8
  backers : List UInt64
  validatorStakes : OrderedMap UInt64 UInt64
  totalStake : UInt64
  currentHeight : UInt64

def Submission.backing (submission : Submission) : UInt64 :=
  backingStake submission.backers submission.validatorStakes

/-- The proposal of a submission, voted on from now on. -/
def proposalOf (governance : GovernanceModule) (submission : Submission) : Proposal where
  id := governance.nextProposalId
  parameter := submission.parameter
  description := submission.description
  newValue := submission.newValue
  proposer := submission.proposer
  stakeBacking := submission.backing
  createdAtHeight := submission.currentHeight
  votingEndsAtHeight := submission.currentHeight + governance.votingPeriod
  timelockEndsAtHeight := 0
  status := .active
  votesFor := 0
  votesAgainst := 0
  votes := ∅

def submitProposal (governance : GovernanceModule) (submission : Submission) : Option UInt64 × GovernanceModule :=
  if validateParameterValue round submission.parameter submission.newValue = false then (none, governance)
  else if submission.backing * 1000 < submission.totalStake then (none, governance)
  else
    let proposal := governance.proposalOf submission
    (some proposal.id, { governance with
      proposals := governance.proposals.insert proposal.id proposal
      nextProposalId := governance.nextProposalId + 1 })

/-- Writes through the reference into the map. -/
def store (governance : GovernanceModule) (proposalId : UInt64) (proposal : Proposal) : GovernanceModule :=
  { governance with proposals := governance.proposals.insert proposalId proposal }

/-- A counted vote. -/
def Proposal.withVote (proposal : Proposal) (voter : UInt64) (inFavor : Bool) (voterStake : UInt64) : Proposal :=
  { proposal with
    votes := proposal.votes.insert voter inFavor
    votesFor := if inFavor then proposal.votesFor + voterStake else proposal.votesFor
    votesAgainst := if inFavor then proposal.votesAgainst else proposal.votesAgainst + voterStake }

def vote (governance : GovernanceModule) (proposalId voter : UInt64) (inFavor : Bool)
    (voterStake currentHeight : UInt64) : Bool × GovernanceModule :=
  match governance.proposals[proposalId]? with
  | none => (false, governance)
  | some proposal =>
      if proposal.status ≠ .active then (false, governance)
      else if proposal.votingEndsAtHeight ≤ currentHeight then (false, governance)
      else if (proposal.votes[voter]?).isSome then (false, governance)
      else if voterStake = 0 then (false, governance)
      else (true, governance.store proposalId (Proposal.withVote proposal voter inFavor voterStake))

/-- `numerator / denominator < threshold`: an infinite quotient and no number are not below. -/
def quotientBelow (numerator denominator : UInt64) (threshold : Rat) : Bool :=
  decide (denominator ≠ 0 ∧ round (round numerator.toNat / round denominator.toNat) < round threshold)

/-- `numerator / denominator >= threshold`: an infinite quotient is above. -/
def quotientAtLeast (numerator denominator : UInt64) (threshold : Rat) : Bool :=
  if denominator = 0 then decide (numerator ≠ 0)
  else decide (round threshold ≤ round (round numerator.toNat / round denominator.toNat))

/-- What the tallies decide: `QUORUM_THRESHOLD` is `0.10` and `APPROVAL_THRESHOLD` is
`0.667`. -/
def outcome (proposal : Proposal) (totalStake : UInt64) : ProposalStatus :=
  let totalVotes := proposal.votesFor + proposal.votesAgainst
  if quotientBelow round totalVotes totalStake (10 / 100) then .rejected
  else if quotientAtLeast round proposal.votesFor totalVotes (667 / 1000) then .approved
  else .rejected

/-- The proposal after its votes have been counted. -/
def finalized (governance : GovernanceModule) (proposal : Proposal) (totalStake currentHeight : UInt64) : Proposal :=
  if outcome round proposal totalStake = .approved then
    { proposal with
      status := .approved
      timelockEndsAtHeight := currentHeight + governance.calculateTimelock proposal.parameter }
  else { proposal with status := .rejected }

def finalizeVoting (governance : GovernanceModule) (proposalId totalStake currentHeight : UInt64) :
    Bool × GovernanceModule :=
  match governance.proposals[proposalId]? with
  | none => (false, governance)
  | some proposal =>
      if proposal.status ≠ .active then (false, governance)
      else if currentHeight < proposal.votingEndsAtHeight then (false, governance)
      else (true, governance.store proposalId (governance.finalized round proposal totalStake currentHeight))

def executeProposal (governance : GovernanceModule) (proposalId currentHeight : UInt64) : Bool × GovernanceModule :=
  match governance.proposals[proposalId]? with
  | none => (false, governance)
  | some proposal =>
      if proposal.status ≠ .approved then (false, governance)
      else if currentHeight < proposal.timelockEndsAtHeight then (false, governance)
      else if validateParameterValue round proposal.parameter proposal.newValue = false then (false, governance)
      else (true, governance.store proposalId { proposal with status := .executed })

def getProposal (governance : GovernanceModule) (proposalId : UInt64) : Option Proposal :=
  governance.proposals[proposalId]?

end GovernanceModule

/-- The calls that write the module. -/
inductive GovernanceCall
  | submitProposal (submission : GovernanceModule.Submission)
  | vote (proposalId voter : UInt64) (inFavor : Bool) (voterStake currentHeight : UInt64)
  | finalizeVoting (proposalId totalStake currentHeight : UInt64)
  | executeProposal (proposalId currentHeight : UInt64)

/-- The module after a call. -/
def GovernanceModule.call (round : Rat -> Rat) (governance : GovernanceModule) : GovernanceCall -> GovernanceModule
  | .submitProposal submission => (governance.submitProposal round submission).2
  | .vote proposalId voter inFavor voterStake currentHeight =>
      (governance.vote proposalId voter inFavor voterStake currentHeight).2
  | .finalizeVoting proposalId totalStake currentHeight =>
      (governance.finalizeVoting round proposalId totalStake currentHeight).2
  | .executeProposal proposalId currentHeight => (governance.executeProposal round proposalId currentHeight).2

end State
end Sarafu

import Sarafu.Consensus.Validator

namespace Sarafu
namespace Consensus

open Crypto State

/-!
# The vote aggregator

Votes are recorded per pair of height and hash, first come first served for
each claimed validator id.  No signature is checked on intake: the only
signature check is the aggregate verification of the resulting certificate.
-/

structure BlockKey where
  height : UInt64
  hash : Blake3Hash
deriving DecidableEq

namespace BlockKey

/-- `operator<`: height first, then hash. -/
instance : Ord BlockKey := ⟨fun left right =>
  (compare left.height right.height).then (compare left.hash right.hash)⟩

theorem compare_def (left right : BlockKey) :
    compare left right = compareLex (compareOn BlockKey.height) (compareOn BlockKey.hash) left right := rfl

instance : Std.TransOrd BlockKey where
  eq_swap := by
    intro left right
    rw [compare_def, compare_def]
    exact Std.OrientedCmp.eq_swap
  isLE_trans := by
    intro first second third firstLe secondLe
    rw [compare_def] at *
    exact Std.TransCmp.isLE_trans firstLe secondLe

instance : Std.LawfulEqOrd BlockKey where
  compare_self := by
    intro key
    rw [compare_def]
    exact Std.ReflCmp.compare_self
  eq_of_compare := by
    intro left right same
    rcases Ordering.then_eq_eq.mp same with ⟨heights, hashes⟩
    cases left
    cases right
    cases Std.LawfulEqCmp.eq_of_compare heights
    cases Std.LawfulEqCmp.eq_of_compare hashes
    rfl

end BlockKey

structure BlockVotes where
  votes : List Vote
  voted : OrderedMap ValidatorID Bool
  totalStake : UInt64

/-- `votes_by_block_[key]` value-initializes a missing entry. -/
def BlockVotes.empty : BlockVotes := ⟨[], ∅, 0⟩

structure VoteAggregator where
  validatorSet : ValidatorSet
  votesByBlock : OrderedMap BlockKey BlockVotes

namespace VoteAggregator

def create (validatorSet : ValidatorSet) : VoteAggregator := ⟨validatorSet, ∅⟩

/-- The stake of the first entry with this id, or zero. -/
def getValidatorStake (set : ValidatorSet) (id : ValidatorID) : UInt64 :=
  match set.findValidator id with
  | none => 0
  | some validator => validator.bondedStake

/-- Some entry carries this id and is active. -/
def isActiveValidator (set : ValidatorSet) (id : ValidatorID) : Bool :=
  set.validators.any fun validator => validator.id == id && validator.isActive

/-- The record of a block, as `votes_by_block_[key]` reads it. -/
def blockVotes (aggregator : VoteAggregator) (key : BlockKey) : BlockVotes :=
  (aggregator.votesByBlock[key]?).getD BlockVotes.empty

/-- The block a vote is recorded for. -/
def keyOf (vote : Vote) : BlockKey := ⟨vote.blockHeight, vote.blockHash⟩

/-- The three updates of an accepted vote. -/
def BlockVotes.push (record : BlockVotes) (vote : Vote) (stake : UInt64) : BlockVotes :=
  ⟨record.votes ++ [vote], record.voted.insert vote.validatorId true, record.totalStake + stake⟩

def addVote (aggregator : VoteAggregator) (vote : Vote) : Bool × VoteAggregator :=
  if isActiveValidator aggregator.validatorSet vote.validatorId = false then (false, aggregator)
  else
    let record := aggregator.blockVotes (keyOf vote)
    if (record.voted[vote.validatorId]?).getD false then (false, aggregator)
    else
      let stake := getValidatorStake aggregator.validatorSet vote.validatorId
      (true, { aggregator with
        votesByBlock := aggregator.votesByBlock.insert (keyOf vote) (BlockVotes.push record vote stake) })

/-- Neither the individual signatures nor the view numbers of the recorded
votes are compared with anything. -/
def aggregateVotes (prim : Primitives) (aggregator : VoteAggregator) (blockHeight : UInt64)
    (blockHash : Blake3Hash) (viewNumber : UInt64) : Except Failure (Option QuorumCertificate) :=
  match aggregator.votesByBlock[(⟨blockHeight, blockHash⟩ : BlockKey)]? with
  | none => .ok none
  | some record =>
      if record.totalStake < ValidatorSet.requiredStake aggregator.validatorSet.totalStake then .ok none
      else
        match BLS12381.aggregate prim (record.votes.map Vote.signature) with
        | .error failure => .error failure
        | .ok aggregatedSig => .ok (some ⟨blockHeight, blockHash, viewNumber, aggregatedSig,
            record.votes.map Vote.validatorId, record.totalStake⟩)

def hasSupermajority (aggregator : VoteAggregator) (blockHeight : UInt64) (blockHash : Blake3Hash) : Bool :=
  match aggregator.votesByBlock[(⟨blockHeight, blockHash⟩ : BlockKey)]? with
  | none => false
  | some record => decide (ValidatorSet.requiredStake aggregator.validatorSet.totalStake ≤ record.totalStake)

def getStakeForBlock (aggregator : VoteAggregator) (blockHeight : UInt64) (blockHash : Blake3Hash) : UInt64 :=
  match aggregator.votesByBlock[(⟨blockHeight, blockHash⟩ : BlockKey)]? with
  | none => 0
  | some record => record.totalStake

/-- Erase the records at or below the height. -/
def clearVotesUpToHeight (aggregator : VoteAggregator) (height : UInt64) : VoteAggregator :=
  { aggregator with votesByBlock := aggregator.votesByBlock.filter fun key _ => decide (height < key.height) }

def updateValidatorSet (aggregator : VoteAggregator) (validatorSet : ValidatorSet) : VoteAggregator :=
  { aggregator with validatorSet := validatorSet }

end VoteAggregator
end Consensus
end Sarafu

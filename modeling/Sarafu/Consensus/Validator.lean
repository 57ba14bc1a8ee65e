import Sarafu.Consensus.Block

namespace Sarafu
namespace Consensus

open Crypto State

/-!
# Validators and validator sets

A validator set lists active and inactive validators together.  `total_stake`
is a cached field; the header documents it as the sum of the active stakes, and
`WellFormed` states that reading together with distinctness of the ids.
-/

inductive ValidatorStatus
  | active
  | standby
  | jailed
  | tombstoned
deriving DecidableEq, Repr

/-- `static_cast<uint8_t>(status)`. -/
def ValidatorStatus.toByte : ValidatorStatus -> UInt8
  | .active => 0
  | .standby => 1
  | .jailed => 2
  | .tombstoned => 3

structure Validator where
  id : ValidatorID
  consensusKey : BLS12381PublicKey
  withdrawalKey : Ed25519PublicKey
  bondedStake : UInt64
  status : ValidatorStatus
  jailedUntilEpoch : UInt64
  consecutiveDowntimeEpochs : UInt64
  blocksSignedThisEpoch : UInt64
  blocksMissedThisEpoch : UInt64
deriving DecidableEq

namespace Validator

/-- The four-argument constructor. -/
def make (id : ValidatorID) (consensusKey : BLS12381PublicKey) (withdrawalKey : Ed25519PublicKey)
    (stake : UInt64) : Validator :=
  ⟨id, consensusKey, withdrawalKey, stake, .standby, 0, 0, 0, 0⟩

def serialize (validator : Validator) : List UInt8 :=
  validator.id.serialize ++ validator.consensusKey.serialize ++ validator.withdrawalKey.serialize ++
    littleEndian64 validator.bondedStake ++ [validator.status.toByte] ++
    littleEndian64 validator.jailedUntilEpoch ++ littleEndian64 validator.consecutiveDowntimeEpochs ++
    littleEndian64 validator.blocksSignedThisEpoch ++ littleEndian64 validator.blocksMissedThisEpoch

def hash (prim : Primitives) (validator : Validator) : Blake3Hash := prim.blake3 validator.serialize

/-- `operator<`: larger stake first, ties by id. -/
def ranksBefore (left right : Validator) : Bool :=
  if left.bondedStake ≠ right.bondedStake then decide (right.bondedStake < left.bondedStake)
  else (compare left.id right.id).isLT

def isActive (validator : Validator) : Bool := validator.status == .active

end Validator

structure ValidatorSet where
  epoch : UInt64
  validators : List Validator
  totalStake : UInt64
  merkleRoot : Blake3Hash
deriving DecidableEq

namespace ValidatorSet

/-- The default constructor. -/
def empty : ValidatorSet := ⟨0, [], 0, Blake3Hash.zero⟩

def getActiveValidators (set : ValidatorSet) : List Validator := set.validators.filter Validator.isActive

/-- The first validator with the given id, if any. -/
def findValidator (set : ValidatorSet) (id : ValidatorID) : Option Validator :=
  set.validators.find? fun validator => validator.id == id

def isActive (set : ValidatorSet) (id : ValidatorID) : Bool :=
  match set.findValidator id with
  | none => false
  | some validator => validator.isActive

/-- `compute_validator_set_root` of the registry does not use the registry. -/
def computeRoot (prim : Primitives) (set : ValidatorSet) : Blake3Hash :=
  if set.validators.isEmpty then Blake3Hash.zero
  else MerkleTree.rootOf prim (set.validators.map (Validator.hash prim))

/-- `(total_stake * 2 + 2) / 3` in `uint64_t` arithmetic: the threshold of the
aggregator, of the verifier and of the epoch transition. -/
def requiredStake (totalStake : UInt64) : UInt64 := (totalStake * 2 + 2) / 3

/-- The ids of a set are pairwise distinct. -/
def DistinctIds (set : ValidatorSet) : Prop := (set.validators.map Validator.id).Nodup

/-- The sum of the active stakes over the natural numbers. -/
def activeStake (set : ValidatorSet) : Nat := (set.getActiveValidators.map fun v => v.bondedStake.toNat).sum

/-- Distinct ids, and the cached total is the sum of the active stakes. -/
structure WellFormed (set : ValidatorSet) : Prop where
  distinct : set.DistinctIds
  total : set.totalStake.toNat = set.activeStake

/-- The stake that an id brings to a quorum: its bonded stake if it is active. -/
def activeStakeOf (set : ValidatorSet) (id : ValidatorID) : Nat :=
  match set.findValidator id with
  | none => 0
  | some validator => if validator.isActive then validator.bondedStake.toNat else 0

/-- The consensus key found for an id; unknown ids have the default key. -/
def consensusKeyOf (set : ValidatorSet) (id : ValidatorID) : BLS12381PublicKey :=
  match set.findValidator id with
  | none => FixedBytes.zero 48
  | some validator => validator.consensusKey

end ValidatorSet
end Consensus
end Sarafu

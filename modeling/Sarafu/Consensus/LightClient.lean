import Sarafu.Consensus.QCVerifier
import Sarafu.Library.WordSums

namespace Sarafu
namespace Consensus

open Crypto State Library.WordSums

/-!
# The light client

A light client keeps an epoch, the root of its validator set and the last header it
accepted.  A header proof brings the signers as whole validators, together with the
stake of the set that they are to be measured against.  The Merkle proofs of the
signers are computed, and their answers are dropped.  An epoch update reads one number of
its certificate.
-/

structure LightClientState where
  currentEpoch : UInt64
  validatorSetRoot : Blake3Hash
  finalizedHeight : UInt64
  finalizedBlockHash : Blake3Hash
deriving DecidableEq

structure HeaderProof where
  header : BlockHeader
  qc : QuorumCertificate
  validatorSetMerkleProof : List Blake3Hash
  signingValidators : List Validator
  totalValidatorSetStake : UInt64

structure LightClient where
  state : LightClientState
  initialized : Bool
deriving DecidableEq

namespace LightClient

/-- The default constructor. -/
def create : LightClient := ⟨⟨0, Blake3Hash.zero, 0, Blake3Hash.zero⟩, false⟩

def initializeFrom (client : LightClient) (checkpoint : LightClientState) : Bool × LightClient :=
  if client.initialized then (false, client) else (true, ⟨checkpoint, true⟩)

def calculateTotalStake (validators : List Validator) : UInt64 :=
  validators.foldl (fun total v => total + v.bondedStake) 0

/-- All products are `uint64_t`. -/
def hasSupermajority (signers : List Validator) (totalStake : UInt64) : Bool :=
  if totalStake = 0 then false else decide (2 * totalStake ≤ 3 * calculateTotalStake signers)

variable (prim : Primitives)

/-- The index is always zero. -/
def verifyMerkleProof (leaf : Blake3Hash) (proof : List Blake3Hash) (root : Blake3Hash) : Bool :=
  MerkleTree.verifyProof prim ⟨0, leaf, proof⟩ root

def verifyAggregatedSignature (signature : BLS12381Signature) (message : Blake3Hash)
    (publicKeys : List BLS12381PublicKey) : Except Failure Bool :=
  if publicKeys.isEmpty then .ok false else BLS12381.verifyAggregated prim signature message.serialize publicKeys

/-- Steps 1 to 3: the epoch, the height and, for the next block, the parent. -/
def followsState (client : LightClient) (header : BlockHeader) : Bool :=
  header.epoch == client.state.currentEpoch && decide (client.state.finalizedHeight < header.height) &&
    (header.height != client.state.finalizedHeight + 1 || header.previousHash == client.state.finalizedBlockHash)

def verifyHeader (client : LightClient) (proof : HeaderProof) : Except Failure Bool × LightClient :=
  if client.initialized = false then (.ok false, client)
  else if client.followsState proof.header = false then (.ok false, client)
  else
    -- step 4: the branch for a failed proof is empty
    let _membership := proof.signingValidators.map fun validator =>
      verifyMerkleProof prim (validator.hash prim) proof.validatorSetMerkleProof client.state.validatorSetRoot
    if hasSupermajority proof.signingValidators proof.totalValidatorSetStake = false then (.ok false, client)
    else
      let blockHash := proof.header.hash prim
      match verifyAggregatedSignature prim proof.qc.aggregatedSignature blockHash
          (proof.signingValidators.map Validator.consensusKey) with
      | .error failure => (.error failure, client)
      | .ok false => (.ok false, client)
      | .ok true =>
          (.ok true, { client with state := { client.state with
            finalizedHeight := proof.header.height
            finalizedBlockHash := blockHash } })

/-- Of the certificate only `total_stake_signed` is read. -/
def updateEpoch (client : LightClient) (newEpoch : UInt64) (newValidatorSetRoot : Blake3Hash)
    (transitionQc : QuorumCertificate) : Bool × LightClient :=
  if client.initialized = false then (false, client)
  else if newEpoch ≠ client.state.currentEpoch + 1 then (false, client)
  else if transitionQc.totalStakeSigned = 0 then (false, client)
  else
    (true, { client with state := { client.state with
      currentEpoch := newEpoch
      validatorSetRoot := newValidatorSetRoot } })

/-! ## What a call can do -/

variable {prim} {client : LightClient}

/-- What the acceptance of a header says. -/
structure Accepts (prim : Primitives) (client : LightClient) (proof : HeaderProof) : Prop where
  initialized : client.initialized = true
  follows : client.followsState proof.header = true
  supermajority : hasSupermajority proof.signingValidators proof.totalValidatorSetStake = true
  verified : BLS12381.verifyAggregated prim proof.qc.aggregatedSignature (proof.header.hash prim).serialize
    (proof.signingValidators.map Validator.consensusKey) = .ok true

/-- A header is accepted, or the client stays as it is; its root stays in both cases. -/
theorem verifyHeader_cases (prim : Primitives) (client : LightClient) (proof : HeaderProof) :
    (Accepts prim client proof ∧ (client.verifyHeader prim proof).1 = .ok true ∧
      (client.verifyHeader prim proof).2 = { client with state := { client.state with
        finalizedHeight := proof.header.height
        finalizedBlockHash := proof.header.hash prim } }) ∨
    ((client.verifyHeader prim proof).1 ≠ .ok true ∧ (client.verifyHeader prim proof).2 = client) := by
  unfold verifyHeader
  split
  · exact Or.inr ⟨nofun, rfl⟩
  · rename_i initialized
    split
    · exact Or.inr ⟨nofun, rfl⟩
    · rename_i follows
      simp only []
      split
      · exact Or.inr ⟨nofun, rfl⟩
      · rename_i supermajority
        split
        · exact Or.inr ⟨nofun, rfl⟩
        · exact Or.inr ⟨nofun, rfl⟩
        · rename_i verified
          refine Or.inl ⟨⟨Bool.eq_true_of_not_eq_false initialized, Bool.eq_true_of_not_eq_false follows,
            Bool.eq_true_of_not_eq_false supermajority, ?_⟩, rfl, rfl⟩
          unfold verifyAggregatedSignature at verified
          split at verified
          · cases verified
          · exact verified

theorem updateEpoch_cases (client : LightClient) (newEpoch : UInt64) (newValidatorSetRoot : Blake3Hash)
    (transitionQc : QuorumCertificate) :
    (newEpoch = client.state.currentEpoch + 1 ∧ transitionQc.totalStakeSigned ≠ 0 ∧
      client.updateEpoch newEpoch newValidatorSetRoot transitionQc =
        (true, { client with state := { client.state with
          currentEpoch := newEpoch
          validatorSetRoot := newValidatorSetRoot } })) ∨
    client.updateEpoch newEpoch newValidatorSetRoot transitionQc = (false, client) := by
  unfold updateEpoch
  split
  · exact Or.inr rfl
  · split
    · exact Or.inr rfl
    · rename_i next
      split
      · exact Or.inr rfl
      · rename_i signed
        exact Or.inl ⟨not_not.mp next, signed, rfl⟩

/-- The sum of stakes, taken modulo `2^64`. -/
theorem toNat_calculateTotalStake (validators : List Validator) :
    (calculateTotalStake validators).toNat = (validators.map fun v => v.bondedStake.toNat).sum % 2 ^ 64 :=
  toNat_sum Validator.bondedStake validators

/-- Wrapping on the side of the signers works against them. -/
theorem supermajority_of_fits {signers : List Validator} {totalStake : UInt64} (fits : 2 * totalStake.toNat < 2 ^ 64)
    (passed : hasSupermajority signers totalStake = true) :
    2 * totalStake.toNat ≤ 3 * (signers.map fun v => v.bondedStake.toNat).sum := by
  unfold hasSupermajority at passed
  split at passed
  · cases passed
  · have compared := UInt64.le_iff_toNat_le.mp (of_decide_eq_true passed)
    rw [UInt64.toNat_mul, UInt64.toNat_mul, toNat_calculateTotalStake] at compared
    have double : (2 : UInt64).toNat * totalStake.toNat % 2 ^ 64 = 2 * totalStake.toNat := Nat.mod_eq_of_lt fits
    have least : (3 : UInt64).toNat * ((signers.map fun v => v.bondedStake.toNat).sum % 2 ^ 64) % 2 ^ 64 ≤
        3 * (signers.map fun v => v.bondedStake.toNat).sum :=
      Nat.le_trans (Nat.mod_le _ _) (Nat.mul_le_mul_left 3 (Nat.mod_le _ _))
    rw [double] at compared
    exact Nat.le_trans compared least

end LightClient

/-- The calls of a client that has been initialized. -/
inductive LightClientCall
  | verifyHeader (proof : HeaderProof)
  | updateEpoch (newEpoch : UInt64) (newValidatorSetRoot : Blake3Hash) (transitionQc : QuorumCertificate)

/-- The client after a call. -/
def LightClient.call (prim : Primitives) (client : LightClient) : LightClientCall -> LightClient
  | .verifyHeader proof => (client.verifyHeader prim proof).2
  | .updateEpoch newEpoch newValidatorSetRoot transitionQc =>
      (client.updateEpoch newEpoch newValidatorSetRoot transitionQc).2

end Consensus
end Sarafu

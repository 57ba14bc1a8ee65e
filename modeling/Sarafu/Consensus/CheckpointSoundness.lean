import Sarafu.Consensus.CheckpointManager

namespace Sarafu
namespace Consensus

open Crypto State

/-!
# What an accepted checkpoint says about its signers

The stake that `verify_checkpoint` counts agrees with the stake of the distinct active
signers if no signer is repeated and all of them are active.  Otherwise it can be padded:
any single member with some stake reaches every threshold if it is listed often enough.
A validator set is therefore safe against all checkpoints only if each of its members
already holds two thirds alone.
-/

namespace CheckpointManager

open QCVerifier (SignedByTwoThirds permissive permissive_verifyAggregated signedByTwoThirds_replicate)

/-- An id that can pass the threshold at all: it has some stake, or the threshold is
zero. -/
def Reaches (set : ValidatorSet) (validator : Validator) : Prop :=
  0 < validator.bondedStake ∨ ValidatorSet.requiredStake set.totalStake = 0

/-- Pairwise distinct active signers, without wrapping. -/
structure Plain (checkpoint : WeakSubjectivityCheckpoint) (set : ValidatorSet) : Prop where
  distinct : checkpoint.signers.Nodup
  active : forall signer, signer ∈ checkpoint.signers -> set.isActive signer = true
  fits : 2 * set.totalStake.toNat + 2 < 2 ^ 64

variable {set : ValidatorSet}

theorem requiredStake_toNat_le (total : UInt64) : 3 * (ValidatorSet.requiredStake total).toNat < 2 ^ 64 := by
  rw [ValidatorSet.requiredStake, UInt64.toNat_div]
  have below := (total * 2 + 2).toNat_lt
  have three : (3 : UInt64).toNat = 3 := rfl
  rw [three]
  omega

/-- How often a signer is listed to reach a threshold. -/
def repetitions (required stake : UInt64) : Nat := required.toNat / stake.toNat + 1

/-- The repeated stake reaches the threshold and does not wrap around. -/
theorem repetitions_reach {required stake : UInt64} (low : 3 * required.toNat < 2 ^ 64)
    (some : 0 < stake ∨ required = 0) :
    required.toNat ≤ repetitions required stake * stake.toNat ∧
      repetitions required stake * stake.toNat < 2 ^ 64 := by
  unfold repetitions
  have size := stake.toNat_lt
  have parts := Nat.div_add_mod required.toNat stake.toNat
  rw [Nat.add_mul, Nat.one_mul, Nat.mul_comm]
  by_cases positive : 0 < stake.toNat
  · have rest := Nat.mod_lt required.toNat positive
    refine ⟨by omega, ?_⟩
    by_cases less : required.toNat < stake.toNat
    · rw [Nat.div_eq_of_lt less, Nat.mul_zero, Nat.zero_add]
      exact size
    · omega
  · have zero : stake.toNat = 0 := Nat.eq_zero_of_not_pos positive
    rcases some with impossible | nothing
    · rw [UInt64.lt_iff_toNat_lt, zero] at impossible
      exact absurd impossible (Nat.lt_irrefl _)
    · rw [nothing, zero]
      exact ⟨Nat.zero_le _, by decide⟩

/-- A checkpoint that lists one signer often enough. -/
def repeated (set : ValidatorSet) (validator : Validator) : WeakSubjectivityCheckpoint where
  blockHeight := 0
  blockHash := Blake3Hash.zero
  epoch := 0
  timestamp := 0
  stateRoot := Blake3Hash.zero
  validatorSetRoot := Blake3Hash.zero
  aggregatedSignature := FixedBytes.zero 96
  signers := List.replicate (repetitions (ValidatorSet.requiredStake set.totalStake) validator.bondedStake) validator.id
  totalStakeSigned := set.countedStake
    (List.replicate (repetitions (ValidatorSet.requiredStake set.totalStake) validator.bondedStake) validator.id)

/-- The first of three validators signs and is listed twice. -/
def doubledCheckpoint : WeakSubjectivityCheckpoint :=
  let unsigned : WeakSubjectivityCheckpoint :=
    ⟨1000000, FixedBytes.ofNat 32 7, 1, 0, Blake3Hash.zero, Blake3Hash.zero, FixedBytes.zero 96,
      [FixedBytes.ofNat 32 1, FixedBytes.ofNat 32 1], 2⟩
  { unsigned with aggregatedSignature :=
      BLS12381.sign Transparent.primitives (unsigned.hash Transparent.primitives).serialize (FixedBytes.ofNat 32 1) }

end CheckpointManager
end Consensus
end Sarafu

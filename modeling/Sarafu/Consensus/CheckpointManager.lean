import Sarafu.Consensus.CertificateSoundness
import Sarafu.Library.WordSums

namespace Sarafu
namespace Consensus

open Crypto State Library.WordSums

/-!
# Weak subjectivity checkpoints

A checkpoint lists its signers and claims the stake that they hold.  `verify_checkpoint`
counts that stake again.  Its loop adds the bonded stake of every listed signer, as
often as the signer is listed and whatever its status is, and compares the sum with the
claim.
-/

structure WeakSubjectivityCheckpoint where
  blockHeight : UInt64
  blockHash : Blake3Hash
  epoch : UInt64
  timestamp : UInt64
  stateRoot : Blake3Hash
  validatorSetRoot : Blake3Hash
  aggregatedSignature : BLS12381Signature
  signers : List ValidatorID
  totalStakeSigned : UInt64
deriving DecidableEq

/-- The signature fields do not enter the hash.  Integers are copied from memory, which
is little endian on the supported platforms. -/
def WeakSubjectivityCheckpoint.hash (prim : Primitives) (checkpoint : WeakSubjectivityCheckpoint) : Blake3Hash :=
  prim.blake3 (littleEndian64 checkpoint.blockHeight ++ checkpoint.blockHash.serialize ++
    littleEndian64 checkpoint.epoch ++ littleEndian64 checkpoint.timestamp ++ checkpoint.stateRoot.serialize ++
    checkpoint.validatorSetRoot.serialize)

structure CheckpointConfig where
  checkpointInterval : UInt64 := 1000000
  maxCheckpointAge : UInt64 := 1000000

namespace CheckpointManager

/-- The loop over the signers: their keys and the sum of their stakes, or `none` for a
signer that is not in the set. -/
def collectSigners (set : ValidatorSet) : List ValidatorID -> UInt64 -> Option (List BLS12381PublicKey × UInt64)
  | [], verifiedStake => some ([], verifiedStake)
  | signer :: rest, verifiedStake =>
      match set.findValidator signer with
      | none => none
      | some validator =>
          (collectSigners set rest (verifiedStake + validator.bondedStake)).map fun collected =>
            (validator.consensusKey :: collected.1, collected.2)

/-- An empty signer list that passes the first checks makes the verification throw. -/
def verifyCheckpoint (prim : Primitives) (checkpoint : WeakSubjectivityCheckpoint) (set : ValidatorSet) :
    Except Failure Bool :=
  if checkpoint.totalStakeSigned < ValidatorSet.requiredStake set.totalStake then .ok false
  else
    match collectSigners set checkpoint.signers 0 with
    | none => .ok false
    | some collected =>
        if collected.2 ≠ checkpoint.totalStakeSigned then .ok false
        else BLS12381.verifyAggregated prim checkpoint.aggregatedSignature (checkpoint.hash prim).serialize collected.1

def checkCheckpointAge (config : CheckpointConfig) (checkpointHeight currentHeight : UInt64) : Bool :=
  if currentHeight < checkpointHeight then false
  else decide (currentHeight - checkpointHeight < config.maxCheckpointAge)

end CheckpointManager

namespace ValidatorSet

/-- The bonded stake of the entry of an id, active or not. -/
def listedStake (set : ValidatorSet) (id : ValidatorID) : UInt64 :=
  match set.findValidator id with
  | none => 0
  | some validator => validator.bondedStake

/-- What the loop counts: every listed signer, with repetitions, modulo `2^64`. -/
def countedStake (set : ValidatorSet) (signers : List ValidatorID) : UInt64 :=
  signers.foldl (fun total signer => total + set.listedStake signer) 0

theorem countedStake_toNat (set : ValidatorSet) (signers : List ValidatorID) :
    (set.countedStake signers).toNat = (signers.map fun signer => (set.listedStake signer).toNat).sum % 2 ^ 64 :=
  toNat_sum set.listedStake signers

end ValidatorSet

namespace CheckpointManager

variable {prim : Primitives} {checkpoint : WeakSubjectivityCheckpoint} {set : ValidatorSet}

theorem collectSigners_eq (signers : List ValidatorID) (verifiedStake : UInt64)
    (known : forall signer, signer ∈ signers -> (set.findValidator signer).isSome = true) :
    collectSigners set signers verifiedStake = some (signers.map set.consensusKeyOf,
      signers.foldl (fun total signer => total + set.listedStake signer) verifiedStake) := by
  induction signers generalizing verifiedStake with
  | nil => rfl
  | cons signer rest inductionHypothesis =>
      rcases Option.isSome_iff_exists.mp (known signer List.mem_cons_self) with ⟨validator, found⟩
      have tail := inductionHypothesis (verifiedStake + validator.bondedStake) fun other member =>
        known other (List.mem_cons_of_mem signer member)
      simp only [collectSigners, found, tail, Option.map_some, List.map_cons, List.foldl_cons,
        ValidatorSet.consensusKeyOf, ValidatorSet.listedStake]

theorem collectSigners_eq_none (signers : List ValidatorID) (verifiedStake : UInt64) {stranger : ValidatorID}
    (member : stranger ∈ signers) (unknown : (set.findValidator stranger).isSome = false) :
    collectSigners set signers verifiedStake = none := by
  induction signers generalizing verifiedStake with
  | nil => cases member
  | cons signer rest inductionHypothesis =>
      cases found : set.findValidator signer with
      | none => simp only [collectSigners, found]
      | some validator =>
          rcases List.mem_cons.mp member with rfl | later
          · rw [found] at unknown
            cases unknown
          · simp only [collectSigners, found, inductionHypothesis _ later, Option.map_none]

/-- What acceptance says. -/
theorem verifyCheckpoint_eq_true_iff : verifyCheckpoint prim checkpoint set = .ok true <->
    ValidatorSet.requiredStake set.totalStake ≤ checkpoint.totalStakeSigned ∧
    (forall signer, signer ∈ checkpoint.signers -> (set.findValidator signer).isSome = true) ∧
    set.countedStake checkpoint.signers = checkpoint.totalStakeSigned ∧
    BLS12381.verifyAggregated prim checkpoint.aggregatedSignature (checkpoint.hash prim).serialize
      (checkpoint.signers.map set.consensusKeyOf) = .ok true := by
  unfold verifyCheckpoint
  by_cases short : checkpoint.totalStakeSigned < ValidatorSet.requiredStake set.totalStake
  · rw [if_pos short]
    constructor
    · exact nofun
    · exact fun ⟨enough, _⟩ => absurd short (UInt64.not_lt.mpr enough)
  · rw [if_neg short]
    by_cases known : forall signer, signer ∈ checkpoint.signers -> (set.findValidator signer).isSome = true
    · have counted : checkpoint.signers.foldl (fun total signer => total + set.listedStake signer) 0 =
          set.countedStake checkpoint.signers := rfl
      simp only [collectSigners_eq checkpoint.signers 0 known, counted]
      split
      · rename_i differs
        constructor
        · exact nofun
        · exact fun ⟨_, _, same, _⟩ => absurd same differs
      · rename_i same
        exact ⟨fun verified => ⟨UInt64.not_lt.mp short, known, not_not.mp same, verified⟩,
          fun ⟨_, _, _, verified⟩ => verified⟩
    · have unknown := known
      push Not at unknown
      rcases unknown with ⟨stranger, member, absent⟩
      rw [collectSigners_eq_none checkpoint.signers 0 member (Bool.eq_false_iff.mpr absent)]
      constructor
      · exact nofun
      · exact fun ⟨_, all, _⟩ => absurd all known

end CheckpointManager
end Consensus
end Sarafu

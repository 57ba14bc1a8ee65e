import Sarafu.Consensus.CheckpointSoundness
import Sarafu.Consensus.ValidatorRegistry

namespace Sarafu
namespace Consensus

open Crypto State Library.WeightedQuorum Library.WordSums
open QCVerifier (SignedByTwoThirds signedByTwoThirds_replicate)
open CheckpointManager (repetitions repetitions_reach requiredStake_toNat_le)

/-!
# Certificates for an epoch transition

`require_epoch_transition_qc` adds up the stake of the active signers itself and does not
rely on the number in the certificate.  It adds a signer as often as the certificate lists
it, so the sum is the stake of the distinct active signers and, on top of it, the stake of
their repetitions, modulo `2^64`.
-/

namespace ValidatorRegistry

/-- The loop over the signers. -/
def transitionStake (set : ValidatorSet) (signers : List ValidatorID) : UInt64 :=
  signers.foldl (fun totalStakeSigned signer =>
    match set.findValidator signer with
    | none => totalStakeSigned
    | some validator =>
        if validator.status = .active then totalStakeSigned + validator.bondedStake else totalStakeSigned) 0

/-- The registry is not read. -/
def requireEpochTransitionQc (qc : QuorumCertificate) (set : ValidatorSet) : Bool :=
  decide (ValidatorSet.requiredStake set.totalStake ≤ transitionStake set qc.signers)

variable {set : ValidatorSet} {signers : List ValidatorID} {qc : QuorumCertificate}

theorem requireEpochTransitionQc_iff : requireEpochTransitionQc qc set = true <->
    ValidatorSet.requiredStake set.totalStake ≤ transitionStake set qc.signers := decide_eq_true_iff

/-- The loop counts every mention of an active member. -/
theorem transitionStake_toNat (set : ValidatorSet) (signers : List ValidatorID) :
    (transitionStake set signers).toNat = (signers.map set.activeStakeOf).sum % 2 ^ 64 := by
  let word : ValidatorID -> UInt64 := fun signer =>
    match set.findValidator signer with
    | none => 0
    | some validator => if validator.status = .active then validator.bondedStake else 0
  have adds : transitionStake set signers = signers.foldl (fun total signer => total + word signer) 0 := by
    unfold transitionStake
    congr 1
    funext total signer
    simp only [word]
    split
    · exact (UInt64.add_zero total).symm
    · split
      · rfl
      · exact (UInt64.add_zero total).symm
  have stakes : (fun signer => (word signer).toNat) = set.activeStakeOf := by
    funext signer
    simp only [word, ValidatorSet.activeStakeOf, Validator.isActive, beq_iff_eq]
    cases set.findValidator signer with
    | none => rfl
    | some validator => exact apply_ite UInt64.toNat _ _ _
  rw [adds, toNat_sum, stakes]

/-- Counted are the distinct active signers and their repetitions. -/
theorem transitionStake_eq_distinct_add_repeated (set : ValidatorSet) (signers : List ValidatorID) :
    (transitionStake set signers).toNat =
      (set.distinctStake signers + repeatedWeight set.activeStakeOf signers) % 2 ^ 64 := by
  rw [transitionStake_toNat, sum_map_eq_weightOf_add, ValidatorSet.distinctStake]

/-- The distinct active signers hold less than two thirds, and their repetitions make up
for the rest of the threshold. -/
structure Inflated (set : ValidatorSet) (signers : List ValidatorID) : Prop where
  short : 3 * set.distinctStake signers < 2 * set.totalStake.toNat
  lifted : (ValidatorSet.requiredStake set.totalStake).toNat ≤
    (set.distinctStake signers + repeatedWeight set.activeStakeOf signers) % 2 ^ 64

theorem signedByTwoThirds_iff_not_inflated (qc : QuorumCertificate) (set : ValidatorSet) :
    (requireEpochTransitionQc qc set = true -> SignedByTwoThirds set qc.signers) <-> ¬ Inflated set qc.signers := by
  rw [requireEpochTransitionQc_iff, UInt64.le_iff_toNat_le, transitionStake_eq_distinct_add_repeated]
  constructor
  · intro contract inflated
    exact Nat.not_lt.mpr (contract inflated.lifted) inflated.short
  · intro honest lifted
    by_contra short
    exact honest ⟨Nat.lt_of_not_le short, lifted⟩

/-- Only two things inflate a certificate: an active signer with some stake that is listed
twice, and a total whose double overflows. -/
theorem Inflated.cause (inflated : Inflated set signers) :
    (∃ signer, 1 < signers.count signer ∧ 0 < set.activeStakeOf signer) ∨
      2 ^ 64 ≤ 2 * set.totalStake.toNat + 2 := by
  by_cases counted : 0 < repeatedWeight set.activeStakeOf signers
  · exact Or.inl (exists_repeated counted)
  · by_cases fits : 2 * set.totalStake.toNat + 2 < 2 ^ 64
    · have short := inflated.short
      have reached := inflated.lifted
      rw [Nat.eq_zero_of_not_pos counted, Nat.add_zero] at reached
      have most := Nat.mod_le (set.distinctStake signers) (2 ^ 64)
      have below : (ValidatorSet.requiredStake set.totalStake).toNat ≤ set.distinctStake signers := by omega
      rw [ValidatorSet.requiredStake, UInt64.toNat_div, UInt64.toNat_add, UInt64.toNat_mul] at below
      simp only [UInt64.reduceToNat] at below
      omega
    · exact Or.inr (Nat.not_lt.mp fits)

/-! ## All certificates for one set -/

/-- A certificate that lists one signer often enough. -/
def repeatedQc (set : ValidatorSet) (validator : Validator) : QuorumCertificate :=
  ⟨0, Blake3Hash.zero, 0, FixedBytes.zero 96,
    List.replicate (repetitions (ValidatorSet.requiredStake set.totalStake) validator.bondedStake) validator.id, 0⟩

theorem requireEpochTransitionQc_repeatedQc {validator : Validator}
    (found : set.findValidator validator.id = some validator) (active : validator.isActive = true)
    (stake : 0 < validator.bondedStake) : requireEpochTransitionQc (repeatedQc set validator) set = true := by
  have amount := repetitions_reach (requiredStake_toNat_le set.totalStake) (Or.inl stake)
  have held : set.activeStakeOf validator.id = validator.bondedStake.toNat := by
    rw [ValidatorSet.activeStakeOf, found]
    exact if_pos active
  rw [requireEpochTransitionQc_iff, UInt64.le_iff_toNat_le, transitionStake_toNat, repeatedQc, List.map_replicate,
    List.sum_replicate, smul_eq_mul, held, Nat.mod_eq_of_lt amount.2]
  exact amount.1

/-- An id brings stake to a quorum as an active member with stake. -/
theorem exists_of_activeStakeOf {signer : ValidatorID} (positive : 0 < set.activeStakeOf signer) :
    ∃ validator, validator ∈ set.validators ∧ validator.id = signer ∧ validator.isActive = true ∧
      0 < validator.bondedStake := by
  unfold ValidatorSet.activeStakeOf at positive
  cases found : set.findValidator signer with
  | none =>
      rw [found] at positive
      exact absurd positive (Nat.lt_irrefl 0)
  | some validator =>
      simp only [found] at positive
      split at positive
      · rename_i active
        rcases ValidatorSet.findValidator_mem found with ⟨listed, own⟩
        exact ⟨validator, listed, own, active, UInt64.lt_iff_toNat_lt.mpr positive⟩
      · exact absurd positive (Nat.lt_irrefl 0)

/-- No certificate deceives a set exactly when every active member with some stake holds
two thirds alone and the threshold is not wrapped to zero. -/
theorem signedByTwoThirds_iff_activeMembers (set : ValidatorSet) (distinct : set.DistinctIds) :
    (forall qc, requireEpochTransitionQc qc set = true -> SignedByTwoThirds set qc.signers) <->
      (ValidatorSet.requiredStake set.totalStake = 0 -> set.totalStake = 0) ∧
      forall validator, validator ∈ set.validators -> validator.isActive = true -> 0 < validator.bondedStake ->
        SignedByTwoThirds set [validator.id] := by
  constructor
  · intro contract
    constructor
    · intro zero
      have accepted : requireEpochTransitionQc ⟨0, Blake3Hash.zero, 0, FixedBytes.zero 96, [], 0⟩ set = true := by
        rw [requireEpochTransitionQc_iff, zero]
        exact UInt64.le_refl 0
      have signed : 2 * set.totalStake.toNat ≤ 3 * 0 := contract _ accepted
      apply UInt64.toNat_inj.mp
      rw [UInt64.toNat_zero]
      omega
    · intro validator listed active stake
      have found := ValidatorSet.findValidator_of_mem distinct listed
      have signed := contract _ (requireEpochTransitionQc_repeatedQc found active stake)
      exact (signedByTwoThirds_replicate set validator.id _).mp signed
  · rintro ⟨unwrapped, members⟩ qc accepted
    rw [requireEpochTransitionQc_iff, UInt64.le_iff_toNat_le, transitionStake_toNat] at accepted
    by_cases counted : (qc.signers.map set.activeStakeOf).sum = 0
    · -- nothing was counted, so the threshold is zero
      rw [counted, Nat.zero_mod] at accepted
      have zero := unwrapped (UInt64.toNat_inj.mp (Nat.eq_zero_of_le_zero accepted))
      unfold SignedByTwoThirds
      rw [zero]
      exact Nat.zero_le _
    · rcases List.exists_mem_ne_zero_of_sum_ne_zero counted with ⟨stake, counts, some⟩
      rcases List.mem_map.mp counts with ⟨signer, member, rfl⟩
      rcases exists_of_activeStakeOf (Nat.pos_of_ne_zero some) with ⟨validator, listed, rfl, active, bonded⟩
      exact (members validator listed active bonded).of_alone member

/-- Exactly when the certificate for a transition is signed by two thirds: for a
certificate, when its repetitions do not lift it over the threshold; for a set with
distinct ids as a whole, when each active member with some stake holds two thirds alone. -/
theorem requireEpochTransitionQc_signedByTwoThirds_iff (set : ValidatorSet) (distinct : set.DistinctIds) :
    (forall qc, (requireEpochTransitionQc qc set = true -> SignedByTwoThirds set qc.signers) <->
      ¬ Inflated set qc.signers) ∧
    (forall signers, Inflated set signers ->
      (∃ signer, 1 < signers.count signer ∧ 0 < set.activeStakeOf signer) ∨
        2 ^ 64 ≤ 2 * set.totalStake.toNat + 2) ∧
    ((forall qc, requireEpochTransitionQc qc set = true -> SignedByTwoThirds set qc.signers) <->
      (ValidatorSet.requiredStake set.totalStake = 0 -> set.totalStake = 0) ∧
      forall validator, validator ∈ set.validators -> validator.isActive = true -> 0 < validator.bondedStake ->
        SignedByTwoThirds set [validator.id]) :=
  ⟨fun qc => signedByTwoThirds_iff_not_inflated qc set, fun _ inflated => inflated.cause,
    signedByTwoThirds_iff_activeMembers set distinct⟩

theorem requireEpochTransitionQc_signedByTwoThirds_iff_unit :
    (forall qc, (requireEpochTransitionQc qc (unitSet 3) = true -> SignedByTwoThirds (unitSet 3) qc.signers) <->
      ¬ Inflated (unitSet 3) qc.signers) ∧
    (forall signers, Inflated (unitSet 3) signers ->
      (∃ signer, 1 < signers.count signer ∧ 0 < (unitSet 3).activeStakeOf signer) ∨
        2 ^ 64 ≤ 2 * (unitSet 3).totalStake.toNat + 2) ∧
    ((forall qc, requireEpochTransitionQc qc (unitSet 3) = true -> SignedByTwoThirds (unitSet 3) qc.signers) <->
      (ValidatorSet.requiredStake (unitSet 3).totalStake = 0 -> (unitSet 3).totalStake = 0) ∧
      forall validator, validator ∈ (unitSet 3).validators -> validator.isActive = true ->
        0 < validator.bondedStake -> SignedByTwoThirds (unitSet 3) [validator.id]) :=
  requireEpochTransitionQc_signedByTwoThirds_iff (unitSet 3) (by unfold ValidatorSet.DistinctIds; decide +kernel)

/-- One of three validators, listed twice. -/
theorem requireEpochTransitionQc_accepts_doubled :
    let qc : QuorumCertificate := { boastfulQc with signers := [FixedBytes.ofNat 32 1, FixedBytes.ofNat 32 1] }
    (unitSet 3).DistinctIds ∧ ((unitSet 3).validators.map fun v => v.bondedStake.toNat).sum < 2 ^ 64 ∧
      requireEpochTransitionQc qc (unitSet 3) = true ∧
      3 * (unitSet 3).distinctStake qc.signers < 2 * (unitSet 3).totalStake.toNat := by
  refine ⟨by unfold ValidatorSet.DistinctIds; decide +kernel, by decide +kernel, by decide +kernel,
    by decide +kernel⟩

end ValidatorRegistry
end Consensus
end Sarafu

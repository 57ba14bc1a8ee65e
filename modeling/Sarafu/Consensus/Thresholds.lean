import Sarafu.Consensus.CheckpointAggregation
import Sarafu.Consensus.EpochTransitionQC
import Sarafu.Consensus.LightClient

namespace Sarafu
namespace Consensus

open Crypto State

/-!
# The supermajority tests

Two formulas test for two thirds of the stake.  The aggregator, the certificate verifier,
the epoch transition and the checkpoint manager compare with a rounded quotient, and the
light client compares two products.  Both are computed modulo `2^64`.  The quotient is wrong
when twice the total overflows and the products are wrong when they overflow a different
number of times, with some exceptions far from the threshold.
-/

/-- The exact rule. -/
def TwoThirds (signed total : UInt64) : Prop := 2 * total.toNat ≤ 3 * signed.toNat

instance (signed total : UInt64) : Decidable (TwoThirds signed total) := inferInstanceAs (Decidable (_ ≤ _))

/-- Every test accepts `signed` out of `total` exactly by the rule.  What a test checks
besides the threshold is assumed to pass, and an exception of the aggregation comes after
the threshold. -/
structure TestsExact (signed total : UInt64) : Prop where
  hasSupermajority : forall (aggregator : VoteAggregator) height hash record,
    aggregator.votesByBlock[(⟨height, hash⟩ : BlockKey)]? = some record -> record.totalStake = signed ->
    aggregator.validatorSet.totalStake = total ->
    (aggregator.hasSupermajority height hash = true <-> TwoThirds signed total)
  aggregateVotes : forall prim (aggregator : VoteAggregator) height hash viewNumber record,
    aggregator.votesByBlock[(⟨height, hash⟩ : BlockKey)]? = some record -> record.totalStake = signed ->
    aggregator.validatorSet.totalStake = total ->
    (aggregator.aggregateVotes prim height hash viewNumber ≠ .ok none <-> TwoThirds signed total)
  checkSupermajority : forall (qc : QuorumCertificate) (set : ValidatorSet), qc.totalStakeSigned = signed ->
    set.totalStake = total -> (QCVerifier.checkSupermajority qc set = true <-> TwoThirds signed total)
  requireEpochTransitionQc : forall (qc : QuorumCertificate) (set : ValidatorSet),
    ValidatorRegistry.transitionStake set qc.signers = signed -> set.totalStake = total ->
    (ValidatorRegistry.requireEpochTransitionQc qc set = true <-> TwoThirds signed total)
  aggregateSignatures : forall prim checkpoint signatures (set : ValidatorSet),
    (CheckpointManager.gatherAll set signatures).totalStake = signed -> set.totalStake = total ->
    (CheckpointManager.aggregateSignatures prim checkpoint signatures set ≠ .ok none <-> TwoThirds signed total)
  verifyCheckpoint : forall prim (checkpoint : WeakSubjectivityCheckpoint) (set : ValidatorSet),
    checkpoint.totalStakeSigned = signed -> set.totalStake = total ->
    (forall signer, signer ∈ checkpoint.signers -> (set.findValidator signer).isSome = true) ->
    set.countedStake checkpoint.signers = checkpoint.totalStakeSigned ->
    BLS12381.verifyAggregated prim checkpoint.aggregatedSignature (checkpoint.hash prim).serialize
      (checkpoint.signers.map set.consensusKeyOf) = .ok true ->
    (CheckpointManager.verifyCheckpoint prim checkpoint set = .ok true <-> TwoThirds signed total)
  lightClient : forall signers, LightClient.calculateTotalStake signers = signed ->
    (LightClient.hasSupermajority signers total = true <-> TwoThirds signed total)

variable {signed total : UInt64}

/-! ## The two formulas -/

/-- Rounding up is harmless, and overflow is harmless above the threshold and far below
it.  The largest total overflows twice. -/
theorem requiredStake_le_iff_twoThirds_iff (signed total : UInt64) :
    ((ValidatorSet.requiredStake total ≤ signed) <-> TwoThirds signed total) <->
      2 * total.toNat + 2 < 2 ^ 64 ∨ 2 * total.toNat ≤ 3 * signed.toNat ∨
        (3 * signed.toNat + 2 ^ 64 < 2 * total.toNat ∧ total.toNat + 1 < 2 ^ 64) := by
  have totalSize := total.toNat_lt
  have signedSize := signed.toNat_lt
  rw [UInt64.le_iff_toNat_le, ValidatorSet.requiredStake, UInt64.toNat_div, UInt64.toNat_add, UInt64.toNat_mul,
    TwoThirds]
  simp only [UInt64.reduceToNat]
  rw [Nat.mod_add_mod]
  by_cases fits : 2 * total.toNat + 2 < 2 ^ 64
  · have doubled : (total.toNat * 2 + 2) % 2 ^ 64 = 2 * total.toNat + 2 := by omega
    rw [doubled]
    omega
  · by_cases largest : total.toNat + 1 < 2 ^ 64
    · have doubled : (total.toNat * 2 + 2) % 2 ^ 64 = 2 * total.toNat + 2 - 2 ^ 64 := by omega
      rw [doubled]
      omega
    · have doubled : (total.toNat * 2 + 2) % 2 ^ 64 = 0 := by omega
      rw [doubled]
      omega

/-- The products compare as the numbers do, unless one of them loses more than the other
and the difference is smaller than that. -/
theorem products_le_iff_twoThirds_iff (signed total : UInt64) :
    ((2 * total ≤ 3 * signed) <-> TwoThirds signed total) <->
      3 * signed.toNat / 2 ^ 64 = 2 * total.toNat / 2 ^ 64 ∨
      (2 * total.toNat ≤ 3 * signed.toNat ∧
        2 * total.toNat + (3 * signed.toNat / 2 ^ 64 - 2 * total.toNat / 2 ^ 64) * 2 ^ 64 ≤ 3 * signed.toNat) ∨
      3 * signed.toNat + 2 ^ 64 < 2 * total.toNat := by
  have totalSize := total.toNat_lt
  have signedSize := signed.toNat_lt
  rw [UInt64.le_iff_toNat_le, UInt64.toNat_mul, UInt64.toNat_mul, TwoThirds]
  simp only [UInt64.reduceToNat]
  have doubled : 2 * total.toNat / 2 ^ 64 = 0 ∨ 2 * total.toNat / 2 ^ 64 = 1 := by omega
  have tripled : 3 * signed.toNat / 2 ^ 64 = 0 ∨ 3 * signed.toNat / 2 ^ 64 = 1 ∨ 3 * signed.toNat / 2 ^ 64 = 2 := by
    omega
  rcases doubled with doubled | doubled
  · rcases tripled with tripled | tripled | tripled
    · omega
    · omega
    · omega
  · rcases tripled with tripled | tripled | tripled
    · omega
    · omega
    · omega

/-- Nothing overflows; or the signed stake is enough and stays enough after what its
product loses in excess of the other; or it is short by more than one overflow, and the
total is not the largest number. -/
def SumsFit (signed total : Nat) : Prop :=
  (2 * total + 2 < 2 ^ 64 ∧ 3 * signed < 2 ^ 64) ∨
  (2 * total ≤ 3 * signed ∧ 2 * total + (3 * signed / 2 ^ 64 - 2 * total / 2 ^ 64) * 2 ^ 64 ≤ 3 * signed) ∨
  (3 * signed + 2 ^ 64 < 2 * total ∧ total + 1 < 2 ^ 64)

theorem formulas_iff_sumsFit (signed total : UInt64) :
    ((ValidatorSet.requiredStake total ≤ signed <-> TwoThirds signed total) ∧
      (2 * total ≤ 3 * signed <-> TwoThirds signed total)) <-> SumsFit signed.toNat total.toNat := by
  have totalSize := total.toNat_lt
  have signedSize := signed.toNat_lt
  rw [requiredStake_le_iff_twoThirds_iff, products_le_iff_twoThirds_iff, SumsFit]
  have doubled : 2 * total.toNat / 2 ^ 64 = 0 ∨ 2 * total.toNat / 2 ^ 64 = 1 := by omega
  rcases doubled with doubled | doubled
  · rw [doubled]
    omega
  · rw [doubled]
    omega

/-! ## The tests by their formulas -/

theorem hasSupermajority_iff {aggregator : VoteAggregator} {height : UInt64} {hash : Blake3Hash} {record : BlockVotes}
    (stored : aggregator.votesByBlock[(⟨height, hash⟩ : BlockKey)]? = some record) :
    aggregator.hasSupermajority height hash = true <->
      ValidatorSet.requiredStake aggregator.validatorSet.totalStake ≤ record.totalStake := by
  simp only [VoteAggregator.hasSupermajority, stored, decide_eq_true_eq]

/-- Nothing is returned exactly if the stake is short. -/
theorem unlessShort_ne_none_iff {Certificate : Type} {short : Prop} [Decidable short]
    {aggregated : Except Failure (Option Certificate)} (returns : aggregated ≠ .ok none) :
    (if short then .ok none else aggregated) ≠ .ok none <-> ¬short := by
  split
  · rename_i few
    exact ⟨fun returned => absurd rfl returned, fun enough => absurd few enough⟩
  · rename_i enough
    exact ⟨fun _ => enough, fun _ => returns⟩

theorem aggregateVotes_ne_none_iff (prim : Primitives) {aggregator : VoteAggregator} {height : UInt64}
    {hash : Blake3Hash} (viewNumber : UInt64) {record : BlockVotes}
    (stored : aggregator.votesByBlock[(⟨height, hash⟩ : BlockKey)]? = some record) :
    aggregator.aggregateVotes prim height hash viewNumber ≠ .ok none <->
      ValidatorSet.requiredStake aggregator.validatorSet.totalStake ≤ record.totalStake := by
  rw [← UInt64.not_lt]
  simp only [VoteAggregator.aggregateVotes, stored]
  refine unlessShort_ne_none_iff ?_
  split
  · exact nofun
  · exact nofun

theorem aggregateSignatures_ne_none_iff (prim : Primitives) (checkpoint : WeakSubjectivityCheckpoint)
    (signatures : OrderedMap ValidatorID BLS12381Signature) (set : ValidatorSet) :
    CheckpointManager.aggregateSignatures prim checkpoint signatures set ≠ .ok none <->
      ValidatorSet.requiredStake set.totalStake ≤ (CheckpointManager.gatherAll set signatures).totalStake := by
  rw [← UInt64.not_lt]
  simp only [CheckpointManager.aggregateSignatures]
  refine unlessShort_ne_none_iff ?_
  split
  · exact nofun
  · exact nofun

theorem lightClient_hasSupermajority_iff {signers : List Validator} (positive : 0 < total) :
    LightClient.hasSupermajority signers total = true <-> 2 * total ≤ 3 * LightClient.calculateTotalStake signers := by
  rw [LightClient.hasSupermajority, if_neg (UInt64.ne_of_lt positive).symm, decide_eq_true_eq]

/-- The tests are exact exactly if both formulas are. -/
theorem testsExact_iff_formulas (positive : 0 < total) : TestsExact signed total <->
    (ValidatorSet.requiredStake total ≤ signed <-> TwoThirds signed total) ∧
      (2 * total ≤ 3 * signed <-> TwoThirds signed total) := by
  constructor
  · intro exact
    constructor
    · have compared := exact.checkSupermajority { boastfulQc with totalStakeSigned := signed }
        { ValidatorSet.empty with totalStake := total } rfl rfl
      rw [QCVerifier.checkSupermajority, decide_eq_true_eq] at compared
      exact compared
    · have alone : LightClient.calculateTotalStake [numberedValidator 1 signed] = signed := UInt64.zero_add signed
      have compared := exact.lightClient [numberedValidator 1 signed] alone
      rw [lightClient_hasSupermajority_iff positive, alone] at compared
      exact compared
  · rintro ⟨ceiling, products⟩
    refine ⟨?_, ?_, ?_, ?_, ?_, ?_, ?_⟩
    · intro aggregator height hash record stored rfl rfl
      exact (hasSupermajority_iff stored).trans ceiling
    · intro prim aggregator height hash viewNumber record stored rfl rfl
      exact (aggregateVotes_ne_none_iff prim viewNumber stored).trans ceiling
    · intro qc set rfl rfl
      exact decide_eq_true_iff.trans ceiling
    · intro qc set rfl rfl
      exact ValidatorRegistry.requireEpochTransitionQc_iff.trans ceiling
    · intro prim checkpoint signatures set rfl rfl
      exact (aggregateSignatures_ne_none_iff prim checkpoint signatures set).trans ceiling
    · intro prim checkpoint set rfl rfl known counted verified
      rw [CheckpointManager.verifyCheckpoint_eq_true_iff, ← ceiling]
      exact ⟨fun accepted => accepted.1, fun reached => ⟨reached, known, counted, verified⟩⟩
    · rintro signers rfl
      exact (lightClient_hasSupermajority_iff positive).trans products

/-- For which stakes all supermajority tests follow the exact rule. -/
theorem testsExact_iff_sumsFit (signed total : UInt64) (positive : 0 < total) :
    TestsExact signed total <-> SumsFit signed.toNat total.toNat :=
  (testsExact_iff_formulas positive).trans (formulas_iff_sumsFit signed total)

theorem testsExact_iff_sumsFit_three :
    TestsExact 2 3 <-> SumsFit (2 : UInt64).toNat (3 : UInt64).toNat :=
  testsExact_iff_sumsFit 2 3 (by decide)

/-- Nothing out of `2^63` passes both formulas, and the light client refuses the whole of
a total whose triple overflows, which the verifier accepts. -/
theorem tests_accept_nothing :
    let half : UInt64 := 9223372036854775808
    let third : UInt64 := 6148914691236517206
    QCVerifier.checkSupermajority { boastfulQc with totalStakeSigned := 0 }
        { ValidatorSet.empty with totalStake := half } = true ∧
      LightClient.hasSupermajority [] half = true ∧ ¬ TwoThirds 0 half ∧
      QCVerifier.checkSupermajority { boastfulQc with totalStakeSigned := third }
        { ValidatorSet.empty with totalStake := third } = true ∧
      LightClient.hasSupermajority [numberedValidator 1 third] third = false ∧ TwoThirds third third := by
  refine ⟨by decide +kernel, by decide +kernel, by decide +kernel, by decide +kernel, by decide +kernel,
    by decide +kernel⟩

end Consensus
end Sarafu

import Sarafu.Consensus.QCVerifier
import Sarafu.Consensus.StakeQuorum
import Sarafu.Crypto.Transparent

namespace Sarafu
namespace Consensus

open Crypto State Library.WeightedQuorum

/-!
# What an accepted certificate says about its signers

The contract of `verify_qc` is that the signers represent two thirds of the
total stake.  The function compares the threshold with the number written in the
certificate and never with the signers, so acceptance says nothing about them.
The certificates on which contract and code part are exactly the overstating
ones, and a validator set is free of them only if every single member already
holds two thirds on its own.
-/

namespace QCVerifier

/-- The distinct active signers hold two thirds of the total stake. -/
def SignedByTwoThirds (set : ValidatorSet) (signers : List ValidatorID) : Prop :=
  2 * set.totalStake.toNat ≤ 3 * set.distinctStake signers

/-- A certificate that claims more than its signers hold, across the threshold:
the signers are listed and hold less than two thirds, the claimed stake passes. -/
structure Overstates (qc : QuorumCertificate) (set : ValidatorSet) : Prop where
  nonempty : qc.signers ≠ []
  known : forall signer, signer ∈ qc.signers -> (set.findValidator signer).isSome = true
  claimed : ValidatorSet.requiredStake set.totalStake ≤ qc.totalStakeSigned
  short : 3 * set.distinctStake qc.signers < 2 * set.totalStake.toNat

/-- Primitives whose pairing check always succeeds. -/
def permissive : Primitives where
  blake3 := Transparent.digest
  blst := { Transparent.blst with coreVerifyPkInG1 := fun _ _ _ _ => true }
  cryptoSignVerifyDetached := fun _ _ _ => true

theorem permissive_verifyAggregated (signature : BLS12381Signature) (message : List UInt8)
    {keys : List BLS12381PublicKey} (nonempty : keys ≠ []) :
    BLS12381.verifyAggregated permissive signature message keys = .ok true := by
  rcases List.exists_cons_of_ne_nil nonempty with ⟨first, rest, rfl⟩
  have summed : forall keys : List BLS12381PublicKey,
      BLS12381.aggregateKeys permissive () keys = some () := by
    intro keys
    induction keys with
    | nil => rfl
    | cons key rest inductionHypothesis => exact inductionHypothesis
  have signaturePoint : BLS12381.decodeSignature permissive signature =
      some (Transparent.uncompress signature) := rfl
  have keyPoint : BLS12381.decodePublicKey permissive first = some () := rfl
  simp only [BLS12381.verifyAggregated, signaturePoint, keyPoint, summed rest, Except.ok.injEq]
  rfl

/-- An accepted certificate always has signers: with none, the aggregate
verification throws instead of returning. -/
theorem signers_ne_nil_of_verifyQc {prim : Primitives} {qc : QuorumCertificate} {set : ValidatorSet}
    (accepted : verifyQc prim qc set = .ok true) : qc.signers ≠ [] := by
  intro empty
  have verified := (verifyQc_eq_true_iff.mp accepted).2.2
  rw [empty] at verified
  cases verified

theorem distinctStake_singleton_le (set : ValidatorSet) {signer : ValidatorID} {signers : List ValidatorID}
    (member : signer ∈ signers) : set.distinctStake [signer] ≤ set.distinctStake signers := by
  apply weightOf_mono
  intro id inside
  rw [List.mem_toFinset] at inside ⊢
  rw [List.mem_singleton.mp inside]
  exact member

/-- One signer with two thirds is enough. -/
theorem SignedByTwoThirds.of_alone {set : ValidatorSet} {signer : ValidatorID} {signers : List ValidatorID}
    (alone : SignedByTwoThirds set [signer]) (member : signer ∈ signers) : SignedByTwoThirds set signers :=
  Nat.le_trans alone (Nat.mul_le_mul_left 3 (distinctStake_singleton_le set member))

/-- Repetitions add nothing to the distinct signers. -/
theorem signedByTwoThirds_replicate (set : ValidatorSet) (signer : ValidatorID) (again : Nat) :
    SignedByTwoThirds set (List.replicate (again + 1) signer) <-> SignedByTwoThirds set [signer] := by
  have same : (List.replicate (again + 1) signer).toFinset = [signer].toFinset :=
    List.toFinset_replicate_of_ne_zero (Nat.succ_ne_zero again)
  unfold SignedByTwoThirds ValidatorSet.distinctStake
  rw [same]

/-- One certificate: the contract holds under every signature predicate exactly
when the certificate does not overstate its signers' stake. -/
theorem signedByTwoThirds_iff_not_overstates (qc : QuorumCertificate) (set : ValidatorSet) :
    (forall prim, verifyQc prim qc set = .ok true -> SignedByTwoThirds set qc.signers) <->
      ¬ Overstates qc set := by
  constructor
  · intro contract overstates
    have keys : qc.signers.map set.consensusKeyOf ≠ [] := fun empty =>
      overstates.nonempty (List.map_eq_nil_iff.mp empty)
    have accepted : verifyQc permissive qc set = .ok true :=
      verifyQc_eq_true_iff.mpr ⟨overstates.claimed, overstates.known, permissive_verifyAggregated _ _ keys⟩
    exact Nat.not_lt.mpr (contract permissive accepted) overstates.short
  · intro truthful prim accepted
    rcases verifyQc_eq_true_iff.mp accepted with ⟨claimed, known, _⟩
    by_contra short
    exact truthful ⟨signers_ne_nil_of_verifyQc accepted, known, claimed, Nat.lt_of_not_le short⟩

/-- One validator set: no overstating certificate exists exactly when every
listed validator is active and holds two thirds of the total by itself. -/
theorem not_overstates_iff_members (set : ValidatorSet) :
    (forall qc, ¬ Overstates qc set) <->
      forall validator, validator ∈ set.validators -> SignedByTwoThirds set [validator.id] := by
  constructor
  · intro truthful validator listed
    by_contra short
    let qc : QuorumCertificate :=
      ⟨0, Blake3Hash.zero, 0, FixedBytes.zero 96, [validator.id], ValidatorSet.requiredStake set.totalStake⟩
    refine truthful qc ⟨List.cons_ne_nil _ _, ?_, UInt64.le_refl _, Nat.lt_of_not_le short⟩
    intro signer member
    rw [List.mem_singleton.mp member]
    exact (ValidatorSet.findValidator_isSome_iff validator.id).mpr (List.mem_map_of_mem listed)
  · intro members qc overstates
    rcases List.exists_cons_of_ne_nil overstates.nonempty with ⟨signer, rest, split⟩
    have member : signer ∈ qc.signers := split ▸ List.mem_cons_self
    rcases Option.isSome_iff_exists.mp (overstates.known signer member) with ⟨validator, found⟩
    rcases ValidatorSet.findValidator_mem found with ⟨listed, rfl⟩
    exact Nat.not_lt.mpr ((members validator listed).of_alone member) overstates.short

/-- Exactly when acceptance by `verify_qc` means two thirds of the stake: for a
certificate, when it does not overstate; for a validator set as a whole, when
every member alone holds two thirds. -/
theorem verifyQc_signedByTwoThirds_iff (set : ValidatorSet) :
    (forall qc : QuorumCertificate,
      (forall prim, verifyQc prim qc set = .ok true -> SignedByTwoThirds set qc.signers) <->
        ¬ Overstates qc set) ∧
    ((forall qc prim, verifyQc prim qc set = .ok true -> SignedByTwoThirds set qc.signers) <->
      forall validator, validator ∈ set.validators -> SignedByTwoThirds set [validator.id]) := by
  refine ⟨fun qc => signedByTwoThirds_iff_not_overstates qc set, ?_⟩
  rw [← not_overstates_iff_members]
  exact forall_congr' fun qc => signedByTwoThirds_iff_not_overstates qc set

/-- A certificate whose claimed stake is covered by its distinct active signers
meets the contract whenever the threshold does not wrap. -/
theorem signedByTwoThirds_of_covered {prim : Primitives} {qc : QuorumCertificate} {set : ValidatorSet}
    (fits : 2 * set.totalStake.toNat + 2 < 2 ^ 64)
    (covered : qc.totalStakeSigned.toNat ≤ set.distinctStake qc.signers)
    (accepted : verifyQc prim qc set = .ok true) : SignedByTwoThirds set qc.signers := by
  have claimed := (ValidatorSet.requiredStake_le_iff fits).mp (verifyQc_eq_true_iff.mp accepted).1
  unfold SignedByTwoThirds
  omega

end QCVerifier

/-! ## A certificate signed by one validator out of three -/

/-- An active validator whose id and keys are a number. -/
def numberedValidator (number : Nat) (stake : UInt64) : Validator :=
  ⟨FixedBytes.ofNat 32 number, FixedBytes.ofNat 48 number, FixedBytes.ofNat 32 number, stake, .active, 0, 0, 0, 0⟩

/-- Active validators `1`, ..., `count` with one unit of stake each. -/
def unitSet (count : Nat) : ValidatorSet :=
  ⟨0, (List.range count).map fun index => numberedValidator (index + 1) 1, UInt64.ofNat count, Blake3Hash.zero⟩

/-- The first validator alone signs, and the certificate claims the stake of all. -/
def boastfulQc : QuorumCertificate where
  blockHeight := 1
  blockHash := FixedBytes.ofNat 32 7
  viewNumber := 0
  aggregatedSignature := BLS12381.sign Transparent.primitives (FixedBytes.ofNat 32 7 : Blake3Hash).serialize
    (FixedBytes.ofNat 32 1)
  signers := [FixedBytes.ofNat 32 1]
  totalStakeSigned := 3

/-- The boastful certificate is accepted although its signer holds one third. -/
theorem verifyQc_accepts_boastfulQc :
    (unitSet 3).DistinctIds ∧
      QCVerifier.verifyQc Transparent.primitives boastfulQc (unitSet 3) = .ok true ∧
      3 * (unitSet 3).distinctStake boastfulQc.signers < 2 * (unitSet 3).totalStake.toNat := by
  refine ⟨by unfold ValidatorSet.DistinctIds; decide +kernel, by decide +kernel, by decide +kernel⟩

end Consensus
end Sarafu

import Sarafu.Consensus.Validator

namespace Sarafu
namespace Consensus

open Crypto State

/-!
# The quorum certificate verifier

`verify_qc` performs three checks in order.  The stake check reads the number
that the certificate claims, the membership check accepts a validator of any
status, and the signature check collects one key per listed signer.  The
function `calculate_signer_stake` exists beside them and is not called.
-/

namespace QCVerifier

/-- `find_validator` is the same first-match loop as the one of the set. -/
def findValidator (id : ValidatorID) (set : ValidatorSet) : Option Validator := set.findValidator id

def checkSupermajority (qc : QuorumCertificate) (set : ValidatorSet) : Bool :=
  decide (ValidatorSet.requiredStake set.totalStake ≤ qc.totalStakeSigned)

def verifySignersInSet (qc : QuorumCertificate) (set : ValidatorSet) : Bool :=
  qc.signers.all fun signer => (findValidator signer set).isSome

/-- The keys of the signers in order; `none` when a signer is unknown. -/
def collectKeys (set : ValidatorSet) : List ValidatorID -> Option (List BLS12381PublicKey)
  | [] => some []
  | signer :: rest =>
      match findValidator signer set with
      | none => none
      | some validator => (collectKeys set rest).map (validator.consensusKey :: ·)

def verifyAggregatedSignature (prim : Primitives) (qc : QuorumCertificate) (set : ValidatorSet) :
    Except Failure Bool :=
  match collectKeys set qc.signers with
  | none => .ok false
  | some keys => BLS12381.verifyAggregated prim qc.aggregatedSignature qc.blockHash.serialize keys

def calculateSignerStake (qc : QuorumCertificate) (set : ValidatorSet) : UInt64 :=
  match qc.signers.mapM fun signer => findValidator signer set with
  | none => 0
  | some validators => validators.foldl (fun total v => total + v.bondedStake) 0

/-- An empty signer list that passes the first check makes the aggregate
verification throw, and the exception leaves `verify_qc`. -/
def verifyQc (prim : Primitives) (qc : QuorumCertificate) (set : ValidatorSet) : Except Failure Bool :=
  if checkSupermajority qc set = false then .ok false
  else if verifySignersInSet qc set = false then .ok false
  else verifyAggregatedSignature prim qc set

variable {prim : Primitives} {qc : QuorumCertificate} {set : ValidatorSet}

/-- For known signers the collected keys are their consensus keys, in order. -/
theorem collectKeys_eq (signers : List ValidatorID)
    (known : forall signer, signer ∈ signers -> (set.findValidator signer).isSome = true) :
    collectKeys set signers = some (signers.map set.consensusKeyOf) := by
  induction signers with
  | nil => rfl
  | cons signer rest inductionHypothesis =>
      rcases Option.isSome_iff_exists.mp (known signer List.mem_cons_self) with ⟨validator, found⟩
      have tail := inductionHypothesis fun other member => known other (List.mem_cons_of_mem signer member)
      simp only [collectKeys, findValidator, found, tail, Option.map_some, List.map_cons,
        ValidatorSet.consensusKeyOf]

/-- What acceptance says: the claimed stake reaches the threshold, the signers
are listed, and the aggregate verifies under their keys. -/
theorem verifyQc_eq_true_iff : verifyQc prim qc set = .ok true <->
    ValidatorSet.requiredStake set.totalStake ≤ qc.totalStakeSigned ∧
    (forall signer, signer ∈ qc.signers -> (set.findValidator signer).isSome = true) ∧
    BLS12381.verifyAggregated prim qc.aggregatedSignature qc.blockHash.serialize
      (qc.signers.map set.consensusKeyOf) = .ok true := by
  by_cases enough : ValidatorSet.requiredStake set.totalStake ≤ qc.totalStakeSigned
  · by_cases known : forall signer, signer ∈ qc.signers -> (set.findValidator signer).isSome = true
    · have listed : verifySignersInSet qc set = true := List.all_eq_true.mpr known
      simp only [verifyQc, checkSupermajority, enough, decide_true, listed, Bool.true_eq_false, if_false,
        verifyAggregatedSignature, collectKeys_eq qc.signers known, true_and]
      exact ⟨fun verified => ⟨known, verified⟩, fun verified => verified.2⟩
    · have unlisted : verifySignersInSet qc set = false :=
        Bool.eq_false_iff.mpr fun all => known (List.all_eq_true.mp all)
      simp only [verifyQc, checkSupermajority, enough, decide_true, unlisted, Bool.true_eq_false, if_false,
        if_true, Except.ok.injEq, Bool.false_eq_true, known, false_and, and_false]
  · simp only [verifyQc, checkSupermajority, enough, decide_false, if_true, Except.ok.injEq,
      Bool.false_eq_true, false_and]

end QCVerifier
end Consensus
end Sarafu

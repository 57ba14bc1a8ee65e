import Sarafu.Consensus.CertificateSoundness
import Sarafu.Consensus.LightClient
import Sarafu.Library.Runs

namespace Sarafu
namespace Consensus

open Crypto State Library.Runs Library.WeightedQuorum

/-!
# What a light client may conclude

A light client is sound if every header that it accepts is signed by two thirds of the
set behind its root, and every epoch update by two thirds of the set before.  The
client compares the signers with nothing: neither their membership nor the total that
the proof declares is checked against the root, and the signers of a transition
certificate are not looked at.  Soundness along a run is therefore what the proofs and
certificates bring along.
-/

/-- Distinct active members with two thirds of the active stake, under whose keys the
signature verifies. -/
structure SignedByMajority (prim : Primitives) (set : ValidatorSet) (signature : BLS12381Signature)
    (message : Blake3Hash) (members : List Validator) : Prop where
  distinct : (members.map Validator.id).Nodup
  active : forall member, member ∈ members -> member ∈ set.getActiveValidators
  majority : 2 * set.activeStake ≤ 3 * (members.map fun v => v.bondedStake.toNat).sum
  verified : BLS12381.verifyAggregated prim signature message.serialize (members.map Validator.consensusKey) = .ok true

namespace LightClient

variable (prim : Primitives) (sets : Set ValidatorSet)

/-- One of the known sets is behind the current root. -/
def Committed (client : LightClient) (set : ValidatorSet) : Prop :=
  set ∈ sets ∧ set.computeRoot prim = client.state.validatorSetRoot

/-- A header is signed by a majority of the set behind the current root. -/
def HeaderSigned (client : LightClient) (proof : HeaderProof) : Prop :=
  ∃ set, Committed prim sets client set ∧
    ∃ members, SignedByMajority prim set proof.qc.aggregatedSignature (proof.header.hash prim) members

/-- A certificate is signed by a majority of the set behind the current root. -/
def UpdateSigned (client : LightClient) (qc : QuorumCertificate) : Prop :=
  ∃ set, Committed prim sets client set ∧
    ∃ members, SignedByMajority prim set qc.aggregatedSignature qc.blockHash members

/-- What is accepted is signed by a majority. -/
def SoundCall (client : LightClient) : LightClientCall -> Prop
  | .verifyHeader proof => (client.verifyHeader prim proof).1 = .ok true -> HeaderSigned prim sets client proof
  | .updateEpoch newEpoch newValidatorSetRoot transitionQc =>
      (client.updateEpoch newEpoch newValidatorSetRoot transitionQc).1 = true ->
        UpdateSigned prim sets client transitionQc

/-- The signers of a proof are distinct active members of the set, and the declared
total is at least the active stake. -/
structure TruthfulProof (set : ValidatorSet) (proof : HeaderProof) : Prop where
  distinct : proof.signingValidators.Nodup
  active : forall signer, signer ∈ proof.signingValidators -> signer ∈ set.getActiveValidators
  total : set.activeStake ≤ proof.totalValidatorSetStake.toNat
  fits : 2 * proof.totalValidatorSetStake.toNat < 2 ^ 64

/-- A certificate that `verify_qc` accepts for the set, with distinct active signers
that hold what it claims. -/
structure TruthfulCertificate (set : ValidatorSet) (qc : QuorumCertificate) : Prop where
  accepted : QCVerifier.verifyQc prim qc set = .ok true
  distinct : qc.signers.Nodup
  active : forall signer, signer ∈ qc.signers -> set.isActive signer = true
  covered : qc.totalStakeSigned.toNat ≤ set.distinctStake qc.signers
  total : set.totalStake.toNat = set.activeStake
  fits : 2 * set.totalStake.toNat + 2 < 2 ^ 64

/-- A call that brings along what the client does not check, unless it fails one of the
checks that the client does make. -/
def Truthful (client : LightClient) : LightClientCall -> Prop
  | .verifyHeader proof => client.followsState proof.header = true ->
      forall set, Committed prim sets client set -> TruthfulProof set proof
  | .updateEpoch newEpoch newValidatorSetRoot transitionQc =>
      newEpoch = client.state.currentEpoch + 1 -> transitionQc.totalStakeSigned ≠ 0 ->
        (∃ next, next ∈ sets ∧ next.computeRoot prim = newValidatorSetRoot) ∧
        forall set, Committed prim sets client set -> TruthfulCertificate prim set transitionQc

variable {prim sets} {client : LightClient} {set : ValidatorSet}

/-- A truthful proof that is accepted is signed by its own signers. -/
theorem signed_of_truthfulProof (distinct : set.DistinctIds) {proof : HeaderProof} (truthful : TruthfulProof set proof)
    (accepts : Accepts prim client proof) :
    SignedByMajority prim set proof.qc.aggregatedSignature (proof.header.hash prim) proof.signingValidators where
  distinct := by
    apply truthful.distinct.map_on
    intro first firstSigns second secondSigns same
    exact List.inj_on_of_nodup_map distinct (List.mem_of_mem_filter (truthful.active first firstSigns))
      (List.mem_of_mem_filter (truthful.active second secondSigns)) same
  active := truthful.active
  majority :=
    Nat.le_trans (Nat.mul_le_mul_left 2 truthful.total) (supermajority_of_fits truthful.fits accepts.supermajority)
  verified := accepts.verified

/-- The members that a list of active ids finds. -/
theorem exists_members (distinct : set.DistinctIds) {signers : List ValidatorID}
    (active : forall signer, signer ∈ signers -> set.isActive signer = true) :
    ∃ members : List Validator, members.map Validator.id = signers ∧
      (forall member, member ∈ members -> member ∈ set.getActiveValidators) ∧
      members.map Validator.consensusKey = signers.map set.consensusKeyOf ∧
      (members.map fun v => v.bondedStake.toNat) = signers.map set.activeStakeOf := by
  induction signers with
  | nil => exact ⟨[], rfl, nofun, rfl, rfl⟩
  | cons signer rest inductionHypothesis =>
      rcases inductionHypothesis fun other member => active other (List.mem_cons_of_mem signer member) with
        ⟨members, ids, listed, keys, stakes⟩
      have here := active signer List.mem_cons_self
      rw [ValidatorSet.isActive_eq_isActiveValidator distinct] at here
      rcases ValidatorSet.findValidator_of_active distinct here with ⟨validator, found, isActive⟩
      rcases ValidatorSet.findValidator_mem found with ⟨member, own⟩
      refine ⟨validator :: members, ?_, ?_, ?_, ?_⟩
      · rw [List.map_cons, own, ids]
      · rw [List.forall_mem_cons]
        exact ⟨List.mem_filter.mpr ⟨member, isActive⟩, listed⟩
      · rw [List.map_cons, List.map_cons, keys, ValidatorSet.consensusKeyOf, found]
      · rw [List.map_cons, List.map_cons, stakes, ValidatorSet.activeStakeOf, found]
        simp only [isActive, if_true]

/-- A truthful certificate is signed by its signers. -/
theorem signed_of_truthfulCertificate (distinct : set.DistinctIds) {qc : QuorumCertificate}
    (truthful : TruthfulCertificate prim set qc) :
    ∃ members, SignedByMajority prim set qc.aggregatedSignature qc.blockHash members := by
  rcases exists_members distinct truthful.active with ⟨members, ids, listed, keys, stakes⟩
  refine ⟨members, ⟨ids ▸ truthful.distinct, listed, ?_, ?_⟩⟩
  · have signed := QCVerifier.signedByTwoThirds_of_covered truthful.fits truthful.covered truthful.accepted
    have sum : set.distinctStake qc.signers = (qc.signers.map set.activeStakeOf).sum :=
      List.sum_toFinset _ truthful.distinct
    rw [stakes, ← sum, ← truthful.total]
    exact signed
  · rw [keys]
    exact (QCVerifier.verifyQc_eq_true_iff.mp truthful.accepted).2.2

/-! ## Runs -/

/-- Some known set is behind the root of an initialized client. -/
structure Anchored (prim : Primitives) (sets : Set ValidatorSet) (client : LightClient) : Prop where
  initialized : client.initialized = true
  committed : ∃ set, Committed prim sets client set

/-- The step lemma. -/
theorem Anchored.call (anchored : Anchored prim sets client) {call : LightClientCall}
    (truthful : Truthful prim sets client call) : Anchored prim sets (client.call prim call) := by
  cases call with
  | verifyHeader proof =>
      rcases verifyHeader_cases prim client proof with ⟨_, _, after⟩ | ⟨_, after⟩
      · rw [LightClient.call, after]
        exact ⟨anchored.initialized, anchored.committed⟩
      · rw [LightClient.call, after]
        exact anchored
  | updateEpoch newEpoch newValidatorSetRoot transitionQc =>
      rcases client.updateEpoch_cases newEpoch newValidatorSetRoot transitionQc with ⟨next, signed, after⟩ | after
      · rw [LightClient.call, after]
        rcases (truthful next signed).1 with ⟨set, known, root⟩
        exact ⟨anchored.initialized, set, known, root⟩
      · rw [LightClient.call, after]
        exact anchored

/-- What one call concludes. -/
theorem Anchored.sound (distinct : forall set, set ∈ sets -> set.DistinctIds) (anchored : Anchored prim sets client)
    {call : LightClientCall} (truthful : Truthful prim sets client call) : SoundCall prim sets client call := by
  rcases anchored.committed with ⟨set, committed⟩
  cases call with
  | verifyHeader proof =>
      intro accepted
      rcases verifyHeader_cases prim client proof with ⟨accepts, _, _⟩ | ⟨refused, _⟩
      · exact ⟨set, committed, proof.signingValidators, signed_of_truthfulProof (distinct set committed.1)
          (truthful accepts.follows set committed) accepts⟩
      · exact absurd accepted refused
  | updateEpoch newEpoch newValidatorSetRoot transitionQc =>
      intro accepted
      rcases client.updateEpoch_cases newEpoch newValidatorSetRoot transitionQc with ⟨next, signed, _⟩ | refused
      · exact ⟨set, committed, signed_of_truthfulCertificate (distinct set committed.1)
          ((truthful next signed).2 set committed)⟩
      · rw [refused] at accepted
        cases accepted

/-- Along every run from a trusted state, everything that is accepted is signed by two
thirds of the set behind the root, as long as the calls are truthful. -/
theorem sound_of_truthful (prim : Primitives) (sets : Set ValidatorSet)
    (distinct : forall set, set ∈ sets -> set.DistinctIds) (checkpoint : LightClientState) (trusted : ValidatorSet)
    (known : trusted ∈ sets) (root : trusted.computeRoot prim = checkpoint.validatorSetRoot)
    (calls : List LightClientCall)
    (truthful : Along (LightClient.call prim) (Truthful prim sets) (create.initializeFrom checkpoint).2 calls) :
    Along (LightClient.call prim) (SoundCall prim sets) (create.initializeFrom checkpoint).2 calls :=
  along_of_invariant (Anchored prim sets) (fun _ _ anchored truthful => anchored.call truthful)
    (fun _ _ anchored truthful => anchored.sound distinct truthful) ⟨rfl, trusted, known, root⟩ truthful

/-- A header on top of the checkpoint. -/
def nextHeader : BlockHeader :=
  ⟨1, 0, Blake3Hash.zero, Blake3Hash.zero, Blake3Hash.zero, Blake3Hash.zero, FixedBytes.zero 32, 0⟩

/-- A checkpoint at height zero for three validators of unit stake. -/
def unitCheckpoint (prim : Primitives) : LightClientState :=
  ⟨0, (unitSet 3).computeRoot prim, 0, Blake3Hash.zero⟩

/-- Two of the three validators sign the next header. -/
def pairQc : QuorumCertificate :=
  ⟨1, nextHeader.hash Transparent.primitives, 0,
    BLS12381.sign Transparent.primitives (nextHeader.hash Transparent.primitives).serialize (FixedBytes.ofNat 32 1),
    [FixedBytes.ofNat 32 1, FixedBytes.ofNat 32 2], 2⟩

/-- They come with the stake of the whole set, and the same set signs for the next epoch. -/
def pairCalls : List LightClientCall :=
  [.verifyHeader ⟨nextHeader, pairQc, [], [numberedValidator 1 1, numberedValidator 2 1], 3⟩,
    .updateEpoch 1 ((unitSet 3).computeRoot Transparent.primitives) pairQc]

theorem distinctIds_unitSet_three : (unitSet 3).DistinctIds := by
  unfold ValidatorSet.DistinctIds
  decide +kernel

theorem truthful_pairCalls : Along (LightClient.call Transparent.primitives)
    (Truthful Transparent.primitives {unitSet 3}) (create.initializeFrom (unitCheckpoint Transparent.primitives)).2
      pairCalls := by
  refine ⟨?_, ?_, trivial⟩
  · rintro _ set ⟨rfl, _⟩
    exact ⟨by decide +kernel, by decide +kernel, by decide +kernel, by decide⟩
  · intro _ _
    refine ⟨⟨unitSet 3, rfl, rfl⟩, ?_⟩
    rintro set ⟨rfl, _⟩
    exact ⟨by decide +kernel, by decide, by decide +kernel, by decide +kernel, by decide +kernel, by decide⟩

theorem sound_of_truthful_pair :
    (run (LightClient.call Transparent.primitives) (create.initializeFrom (unitCheckpoint Transparent.primitives)).2
      pairCalls).state.finalizedHeight = 1 ∧
    (run (LightClient.call Transparent.primitives) (create.initializeFrom (unitCheckpoint Transparent.primitives)).2
      pairCalls).state.currentEpoch = 1 ∧
    Along (LightClient.call Transparent.primitives) (SoundCall Transparent.primitives {unitSet 3})
      (create.initializeFrom (unitCheckpoint Transparent.primitives)).2 pairCalls := by
  refine ⟨by decide +kernel, by decide +kernel, ?_⟩
  apply sound_of_truthful Transparent.primitives {unitSet 3} _ _ (unitSet 3) rfl rfl _ truthful_pairCalls
  rintro set rfl
  exact distinctIds_unitSet_three

/-! ## A signer of its own -/

/-- The signature of the owner of a key: the key, and then the message. -/
def ownSignature (key : BLS12381PublicKey) (message : List UInt8) : BLS12381Signature :=
  ⟨key.bytes ++ (message ++ List.replicate 48 0).take 48, by simp [key.length_bytes]⟩

/-- Primitives in which a signature verifies under the one key that it names. -/
def ownKeys : Primitives where
  blake3 := Transparent.digest
  blst := {
    G1 := List BLS12381PublicKey
    G2 := BLS12381Signature
    p1Uncompress := fun key => some [key]
    p1AffineInG1 := fun _ => true
    p1Add := fun left right => left ++ right
    p2Uncompress := fun signature => some signature
    p2AffineInG2 := fun _ => true
    p2Add := fun left _ => left
    p2Compress := fun point => point
    hashToG2 := fun message _ => ownSignature (FixedBytes.zero 48) message
    signPkInG1 := fun point _ => point
    coreVerifyPkInG1 := fun keys signature message _ =>
      match keys with
      | [key] => decide (signature = ownSignature key message)
      | _ => false }
  cryptoSignVerifyDetached := fun _ _ _ => true

/-- Only the key that a signature names verifies it. -/
theorem ownKeys_verifies {signature : BLS12381Signature} {message : List UInt8} {keys : List BLS12381PublicKey}
    (verified : BLS12381.verifyAggregated ownKeys signature message keys = .ok true) :
    ∃ key, keys = [key] ∧ signature = ownSignature key message := by
  have summed : forall (rest start : List BLS12381PublicKey),
      BLS12381.aggregateKeys ownKeys start rest = some (start ++ rest) := by
    intro rest
    induction rest with
    | nil => exact fun start => congrArg some (List.append_nil start).symm
    | cons key rest inductionHypothesis =>
        intro start
        exact (inductionHypothesis (start ++ [key])).trans (congrArg some (List.append_cons start key rest).symm)
  cases keys with
  | nil => cases verified
  | cons first rest =>
      have signaturePoint : BLS12381.decodeSignature ownKeys signature = some signature := rfl
      have keyPoint : BLS12381.decodePublicKey ownKeys first = some [first] := rfl
      simp only [BLS12381.verifyAggregated, signaturePoint, keyPoint, summed rest, Except.ok.injEq] at verified
      cases rest with
      | nil => exact ⟨first, rfl, of_decide_eq_true verified⟩
      | cons second rest => cases verified

/-- A key of nobody in the set. -/
def strangerKey : BLS12381PublicKey := FixedBytes.ofNat 48 9

/-- The stranger signs the next header and declares its own stake to be the whole. -/
def strangerProof : HeaderProof :=
  ⟨nextHeader, { QuorumCertificate.empty with
    aggregatedSignature := ownSignature strangerKey (nextHeader.hash ownKeys).serialize }, [],
      [numberedValidator 9 1], 1⟩

/-- A stranger alone has its header accepted, and a certificate without signers changes
the epoch. -/
theorem stranger_accepted :
    let client := (create.initializeFrom (unitCheckpoint ownKeys)).2
    (client.verifyHeader ownKeys strangerProof).1 = .ok true ∧
    ¬ SoundCall ownKeys {unitSet 3} client (.verifyHeader strangerProof) ∧
    (client.updateEpoch 1 Blake3Hash.zero { QuorumCertificate.empty with totalStakeSigned := 1 }).1 = true ∧
    ¬ SoundCall ownKeys {unitSet 3} client
      (.updateEpoch 1 Blake3Hash.zero { QuorumCertificate.empty with totalStakeSigned := 1 }) := by
  have strangers : forall member, member ∈ (unitSet 3).getActiveValidators -> forall message : List UInt8,
      strangerProof.qc.aggregatedSignature ≠ ownSignature member.consensusKey message ∧
      FixedBytes.zero 96 ≠ ownSignature member.consensusKey message := by
    have keys : forall member, member ∈ (unitSet 3).getActiveValidators ->
        strangerProof.qc.aggregatedSignature.bytes.take 48 ≠ member.consensusKey.bytes ∧
        (FixedBytes.zero 96).bytes.take 48 ≠ member.consensusKey.bytes := by decide +kernel
    intro member listed message
    have named : (ownSignature member.consensusKey message).bytes.take 48 = member.consensusKey.bytes :=
      List.take_left' member.consensusKey.length_bytes
    refine ⟨fun same => (keys member listed).1 ?_, fun same => (keys member listed).2 ?_⟩
    · rw [same]
      exact named
    · rw [same]
      exact named
  have accepted : ((create.initializeFrom (unitCheckpoint ownKeys)).2.verifyHeader ownKeys strangerProof).1 =
      .ok true := by decide +kernel
  have updated : ((create.initializeFrom (unitCheckpoint ownKeys)).2.updateEpoch 1 Blake3Hash.zero
      { QuorumCertificate.empty with totalStakeSigned := 1 }).1 = true := by decide +kernel
  refine ⟨accepted, ?_, updated, ?_⟩
  · intro sound
    rcases sound accepted with ⟨set, ⟨rfl, _⟩, members, signed⟩
    rcases ownKeys_verifies signed.verified with ⟨key, keys, names⟩
    rcases List.map_eq_singleton_iff.mp keys with ⟨member, rfl, rfl⟩
    exact (strangers member (signed.active member List.mem_cons_self) _).1 names
  · intro sound
    rcases sound updated with ⟨set, ⟨rfl, _⟩, members, signed⟩
    rcases ownKeys_verifies signed.verified with ⟨key, keys, names⟩
    rcases List.map_eq_singleton_iff.mp keys with ⟨member, rfl, rfl⟩
    exact (strangers member (signed.active member List.mem_cons_self) _).2 names

end LightClient
end Consensus
end Sarafu

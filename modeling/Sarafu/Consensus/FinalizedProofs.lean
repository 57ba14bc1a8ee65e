import Sarafu.Consensus.EpochTransitionQC
import Sarafu.Consensus.Finality
import Sarafu.Consensus.LightClientSoundness

namespace Sarafu
namespace Consensus

open Crypto State Library.Runs VoteAggregator
open ConsensusEngine (initial)
open LightClient (nextHeader unitCheckpoint)

/-!
# What finalization proves to others

The engine, the certificate verifier, the check of an epoch transition and the light client
test a certificate each in its own way.  The votes behind a finalized block pass all of them,
and a light client that is led from one finalized header to the next follows.
-/

variable {prim : Primitives} {set : ValidatorSet} {hash : Blake3Hash} {signed : List Vote}

/-- The certificate of these votes. -/
def certificateOf (set : ValidatorSet) (height : UInt64) (hash : Blake3Hash) (view : UInt64) (signed : List Vote)
    (aggregated : BLS12381Signature) : QuorumCertificate :=
  ⟨height, hash, view, aggregated, voters signed, UInt64.ofNat (stakeOf set signed)⟩

/-- Voters that are counted once and only if they are active. -/
structure ActiveVoters (set : ValidatorSet) (signed : List Vote) : Prop where
  distinct : (voters signed).Nodup
  active : forall id, id ∈ voters signed -> isActiveValidator set id = true

theorem ActiveVoters.stakeOf_le (activeVoters : ActiveVoters set signed) (distinct : set.DistinctIds) :
    stakeOf set signed ≤ set.activeStake :=
  ValidatorSet.sum_activeStakeOf_le distinct activeVoters.distinct activeVoters.active

theorem ActiveVoters.toNat_stake (activeVoters : ActiveVoters set signed) (fixed : FixedSet set) :
    (UInt64.ofNat (stakeOf set signed)).toNat = stakeOf set signed :=
  UInt64.toNat_ofNat_of_lt' (Nat.lt_of_le_of_lt (activeVoters.stakeOf_le fixed.distinct) fixed.bounded)

/-- The verifier counts nothing again, and the number in the certificate is the true one. -/
theorem verifyQc_certificateOf (fixed : FixedSet set) (activeVoters : ActiveVoters set signed)
    (twoThirds : 2 * set.totalStake.toNat ≤ 3 * stakeOf set signed) {aggregated : BLS12381Signature}
    (verified : BLS12381.verifyAggregated prim aggregated hash.serialize
      ((voters signed).map set.consensusKeyOf) = .ok true) (height view : UInt64) :
    QCVerifier.verifyQc prim (certificateOf set height hash view signed aggregated) set = .ok true := by
  refine QCVerifier.verifyQc_eq_true_iff.mpr ⟨?_, ?_, verified⟩
  · apply (ValidatorSet.requiredStake_le_iff fixed.fits).mpr
    rw [certificateOf, activeVoters.toNat_stake fixed]
    exact twoThirds
  · intro signer member
    rcases ValidatorSet.findValidator_of_active fixed.distinct (activeVoters.active signer member) with ⟨_, found, _⟩
    exact Option.isSome_of_eq_some found

/-- The registry counts the active signers again and comes to the same number. -/
theorem requireEpochTransitionQc_certificateOf (fixed : FixedSet set) (activeVoters : ActiveVoters set signed)
    (twoThirds : 2 * set.totalStake.toNat ≤ 3 * stakeOf set signed) (height view : UInt64)
    (aggregated : BLS12381Signature) :
    ValidatorRegistry.requireEpochTransitionQc (certificateOf set height hash view signed aggregated) set = true := by
  have bound := Nat.lt_of_le_of_lt (activeVoters.stakeOf_le fixed.distinct) fixed.bounded
  have counted : (ValidatorRegistry.transitionStake set (voters signed)).toNat = stakeOf set signed := by
    rw [ValidatorRegistry.transitionStake_toNat]
    exact Nat.mod_eq_of_lt bound
  apply ValidatorRegistry.requireEpochTransitionQc_iff.mpr
  apply (ValidatorSet.requiredStake_le_iff fixed.fits).mpr
  rw [certificateOf, counted]
  exact twoThirds

namespace LightClient

/-- The client after it has accepted a header. -/
def accept (prim : Primitives) (client : LightClient) (header : BlockHeader) : LightClient :=
  { client with state := { client.state with
    finalizedHeight := header.height
    finalizedBlockHash := header.hash prim } }

/-- The checks of `verify_header` are all there is to acceptance. -/
theorem verifyHeader_of_accepts {client : LightClient} {proof : HeaderProof} (accepts : Accepts prim client proof) :
    client.verifyHeader prim proof = (.ok true, client.accept prim proof.header) := by
  have keys : (proof.signingValidators.map Validator.consensusKey).isEmpty = false := by
    cases signers : proof.signingValidators.map Validator.consensusKey with
    | nil =>
        have verified := accepts.verified
        rw [signers] at verified
        cases verified
    | cons key rest => exact rfl
  simp only [verifyHeader, verifyAggregatedSignature, accepts.initialized, accepts.follows, accepts.supermajority,
    accepts.verified, keys, Bool.true_eq_false, if_false, Bool.false_eq_true, accept]

/-- Neither product of the client's test wraps, so it agrees with the votes. -/
theorem hasSupermajority_of_members {members : List Validator} (positive : 0 < set.totalStake)
    (small : 3 * set.activeStake < 2 ^ 64) (fixed : FixedSet set) (activeVoters : ActiveVoters set signed)
    (twoThirds : 2 * set.totalStake.toNat ≤ 3 * stakeOf set signed)
    (stakes : (members.map fun v => v.bondedStake.toNat) = (voters signed).map set.activeStakeOf) :
    hasSupermajority members set.totalStake = true := by
  have least := activeVoters.stakeOf_le fixed.distinct
  have fits := fixed.fits
  have total : (calculateTotalStake members).toNat = stakeOf set signed := by
    rw [toNat_calculateTotalStake, stakes]
    exact Nat.mod_eq_of_lt (Nat.lt_of_le_of_lt least fixed.bounded)
  have doubled : 2 * set.totalStake.toNat % 2 ^ 64 = 2 * set.totalStake.toNat := Nat.mod_eq_of_lt (by omega)
  have tripled : 3 * stakeOf set signed % 2 ^ 64 = 3 * stakeOf set signed := Nat.mod_eq_of_lt (by omega)
  rw [hasSupermajority, if_neg (UInt64.pos_iff_ne_zero.mp positive), decide_eq_true_eq, UInt64.le_iff_toNat_le,
    UInt64.toNat_mul, UInt64.toNat_mul, total]
  simp only [UInt64.reduceToNat]
  rw [doubled, tripled]
  exact twoThirds

/-- The votes make a header proof that the client accepts, wherever it stands. -/
theorem exists_proof_of_certified (positive : 0 < set.totalStake) (small : 3 * set.activeStake < 2 ^ 64)
    (fixed : FixedSet set) (activeVoters : ActiveVoters set signed) {header : BlockHeader}
    (certified : Certified prim set (header.hash prim) signed) {client : LightClient}
    (initialized : client.initialized = true) (follows : client.followsState header = true) :
    ∃ proof : HeaderProof, proof.header = header ∧
      client.verifyHeader prim proof = (.ok true, client.accept prim header) := by
  have active : forall id, id ∈ voters signed -> set.isActive id = true := by
    intro id member
    rw [ValidatorSet.isActive_eq_isActiveValidator fixed.distinct]
    exact activeVoters.active id member
  rcases certified.verified with ⟨aggregated, _, verified⟩
  rcases exists_members fixed.distinct active with ⟨members, _, _, keys, stakes⟩
  refine ⟨⟨header, certificateOf set 0 (header.hash prim) 0 signed aggregated, [], members, set.totalStake⟩, rfl,
    verifyHeader_of_accepts ⟨initialized, follows, ?_, ?_⟩⟩
  · exact hasSupermajority_of_members positive small fixed activeVoters certified.twoThirds stakes
  · rw [keys]
    exact verified

/-- The client accepts one proof after the other. -/
def AcceptsAll (prim : Primitives) (client : LightClient) (proofs : List HeaderProof) : Prop :=
  Along (fun client proof => (client.verifyHeader prim proof).2)
    (fun client proof => (client.verifyHeader prim proof).1 = .ok true) client proofs

/-- Each header passes steps 1 to 3 where the headers before it have led the client. -/
def FollowsAll (prim : Primitives) (client : LightClient) (headers : List BlockHeader) : Prop :=
  Along (accept prim) (fun client header => client.followsState header = true) client headers

/-- For headers with certified votes, steps 1 to 3 are all that matters. -/
theorem exists_acceptsAll_iff {headers : List BlockHeader}
    (convincing : forall header, header ∈ headers -> forall client : LightClient,
      client.initialized = true -> client.followsState header = true ->
      ∃ proof : HeaderProof, proof.header = header ∧
        client.verifyHeader prim proof = (.ok true, client.accept prim header))
    {client : LightClient} (initialized : client.initialized = true) :
    (∃ proofs : List HeaderProof, proofs.map HeaderProof.header = headers ∧ AcceptsAll prim client proofs) <->
      FollowsAll prim client headers := by
  induction headers generalizing client with
  | nil => exact iff_of_true ⟨[], rfl, trivial⟩ trivial
  | cons header rest inductionHypothesis =>
      rw [List.forall_mem_cons] at convincing
      have stays : (client.accept prim header).initialized = true := initialized
      have later := inductionHypothesis convincing.2 stays
      constructor
      · rintro ⟨proofs, headersOf, accepted⟩
        rcases List.map_eq_cons_iff.mp headersOf with ⟨proof, others, rfl, rfl, same⟩
        rcases verifyHeader_cases prim client proof with ⟨accepts, _, next⟩ | ⟨refused, _⟩
        · have led : AcceptsAll prim (client.accept prim proof.header) others := by
            rw [accept, ← next]
            exact accepted.2
          exact ⟨accepts.follows, later.mp ⟨others, same, led⟩⟩
        · exact absurd accepted.1 refused
      · rintro ⟨follows, ascends⟩
        rcases convincing.1 client initialized follows with ⟨proof, rfl, accepted⟩
        rcases later.mpr ascends with ⟨others, same, led⟩
        refine ⟨proof :: others, by rw [List.map_cons, same], congrArg Prod.fst accepted, ?_⟩
        dsimp only
        rw [accepted]
        exact led

end LightClient

namespace ConsensusEngine

/-- The recorded votes were delivered by calls of the run. -/
theorem delivered_of_mem_votesFor {start : ConsensusEngine}
    (silent : forall key, start.voteAggregator.votesFor key = [])
    (calls : List EngineCall) {key : BlockKey} {vote : Vote}
    (member : vote ∈ (run (call prim) start calls).voteAggregator.votesFor key) :
    EngineCall.onReceiveVote vote ∈ calls := by
  induction calls using List.reverseRecOn with
  | nil =>
      rw [run_nil, silent] at member
      cases member
  | append_singleton calls last inductionHypothesis =>
      rw [run_append] at member
      rcases mem_votesFor_call member with earlier | rfl
      · exact List.mem_append_left _ (inductionHypothesis earlier)
      · exact List.mem_append_right _ List.mem_cons_self

/-- In every run of an engine over a fixed set, each finalized block but genesis has a
certificate of votes that the engine received, and the verifier and the check of the epoch
transition accept it.  A light client can be led over finalized headers, one after the other,
exactly if each of them passes its steps 1 to 3 where the ones before have led it. -/
theorem finalized_convinces (prim : Primitives) (registry : ValidatorRegistry) (machine : StateMachine)
    (config : EngineConfig) (genesis : Block) (fixed : FixedSet registry.currentSet)
    (start : ConsensusEngine) (given : (initial registry machine config).setGenesisBlock prim genesis = .ok start)
    (calls : List EngineCall) :
    (forall hash, hash ≠ genesis.hash prim -> (run (call prim) start calls).isFinalized hash = true ->
      ∃ (qc : QuorumCertificate) (signed : List Vote),
        (forall vote, vote ∈ signed -> EngineCall.onReceiveVote vote ∈ calls ∧ vote.blockHash = hash ∧
          vote.blockHeight = qc.blockHeight) ∧
        qc.blockHash = hash ∧ qc.signers = voters signed ∧
        BLS12381.aggregate prim (signed.map Vote.signature) = .ok qc.aggregatedSignature ∧
        QCVerifier.verifyQc prim qc registry.currentSet = .ok true ∧
        ValidatorRegistry.requireEpochTransitionQc qc registry.currentSet = true) ∧
    (0 < registry.currentSet.totalStake -> 3 * registry.currentSet.activeStake < 2 ^ 64 ->
      forall (headers : List BlockHeader) (client : LightClient),
        (forall header, header ∈ headers -> header.hash prim ≠ genesis.hash prim ∧
          (run (call prim) start calls).isFinalized (header.hash prim) = true) ->
        client.initialized = true ->
        ((∃ proofs : List HeaderProof, proofs.map HeaderProof.header = headers ∧
            LightClient.AcceptsAll prim client proofs) <->
          LightClient.FollowsAll prim client headers)) := by
  rcases withGenesis_of_setGenesisBlock given with ⟨_, same⟩
  have path : VotePath prim registry.currentSet (· = genesis.hash prim) (run (call prim) start calls) := by
    refine invariant_run (VotePath prim registry.currentSet (· = genesis.hash prim))
      (fun state step path _ => path.call fixed step) ?_ (along_true start calls)
    rw [same]
    exact (votePath_initial registry machine config).withGenesis rfl
  have silent : forall key, start.voteAggregator.votesFor key = [] := by
    intro key
    rw [same]
    exact rfl
  have behind : forall hash, hash ≠ genesis.hash prim -> (run (call prim) start calls).isFinalized hash = true ->
      ∃ height signed, signed <+: (run (call prim) start calls).voteAggregator.votesFor ⟨height, hash⟩ ∧
        ActiveVoters registry.currentSet signed ∧ Certified prim registry.currentSet hash signed := by
    intro hash other marked
    rcases path.finalized hash marked with exempt | ⟨height, signed, shorter, certified⟩
    · exact absurd exempt other
    · rcases path.consistent.of_prefix shorter with ⟨_, distinct, active⟩
      rw [path.copy] at active
      exact ⟨height, signed, shorter, ⟨distinct, active⟩, certified⟩
  constructor
  · intro hash other marked
    rcases behind hash other marked with ⟨height, signed, shorter, activeVoters, certified⟩
    rcases certified.verified with ⟨aggregated, summed, verified⟩
    refine ⟨certificateOf registry.currentSet height hash 0 signed aggregated, signed, ?_, rfl, rfl, summed,
      verifyQc_certificateOf fixed activeVoters certified.twoThirds verified height 0,
      requireEpochTransitionQc_certificateOf fixed activeVoters certified.twoThirds height 0 aggregated⟩
    intro vote member
    have key := (path.consistent.of_prefix shorter).1 vote member
    exact ⟨delivered_of_mem_votesFor silent calls (shorter.subset member), congrArg BlockKey.hash key,
      congrArg BlockKey.height key⟩
  · intro positive small headers client finalized initialized
    refine LightClient.exists_acceptsAll_iff ?_ initialized
    intro header member client initialized follows
    rcases behind _ (finalized header member).1 (finalized header member).2 with ⟨_, signed, _, activeVoters, certified⟩
    exact LightClient.exists_proof_of_certified positive small fixed activeVoters certified initialized follows

/-- Two of three validators vote for a header, and a client at genesis is led to it. -/
theorem finalized_convinces_two_of_three :
    ∃ proofs : List HeaderProof, proofs.map HeaderProof.header = [nextHeader] ∧
      LightClient.AcceptsAll Transparent.primitives ⟨unitCheckpoint Transparent.primitives, true⟩ proofs := by
  have given : (initial (registryWith (unitSet 3)) (StateMachine.create 1) {}).setGenesisBlock
      Transparent.primitives (genesisAt 0) = .ok (unitEngine 3) := setGenesisBlock_of_zero _ _ rfl
  refine ((finalized_convinces Transparent.primitives (registryWith (unitSet 3)) (StateMachine.create 1) {}
    (genesisAt 0) fixedSet_unitSet (unitEngine 3) given
    [.onReceiveVote (signedVote 1 1 (nextHeader.hash Transparent.primitives)),
      .onReceiveVote (signedVote 2 1 (nextHeader.hash Transparent.primitives))]).2
    (by decide +kernel) (by decide +kernel) [nextHeader] ⟨unitCheckpoint Transparent.primitives, true⟩ ?_ rfl).mpr
    ⟨by decide +kernel, trivial⟩
  rw [List.forall_mem_singleton]
  exact ⟨by decide +kernel, by decide +kernel⟩

end ConsensusEngine
end Consensus
end Sarafu

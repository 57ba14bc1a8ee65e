import Sarafu.Consensus.Proposals

namespace Sarafu
namespace Consensus

open Crypto State Library.Runs
open VoteAggregator

/-!
# The aggregator's copy of the validator set

The constructor copies the current set into the aggregator, and no engine
operation calls `update_validator_set` afterwards; finalization reads the live
registry.  Listed ids are never lost by the registry, so certificates of the
copy name known signers under every later set.  What may drift apart is who is
active and where the threshold lies, and vote intake follows the current set as
long as neither of the two does.

Of aggregation it is asked only that the votes at hand aggregate if they are valid.
It cannot be asked of all signatures: the points are added with `blst_p2_add`, which
is not made for two equal ones.
-/

namespace ConsensusEngine

variable {prim : Primitives} {engine : ConsensusEngine}

/-- The aggregator's records are consistent with its copy, and the ids of the
copy are listed in the current set of a consistent registry. -/
structure CopyListed (engine : ConsensusEngine) : Prop where
  consistent : engine.voteAggregator.Consistent
  registry : engine.validatorRegistry.RegistryOk
  listed : forall id, id ∈ engine.voteAggregator.validatorSet.validators.map Validator.id ->
    id ∈ engine.validatorRegistry.listedIds

theorem CopyListed.recorded (copied : CopyListed engine) {vote : Vote} (takes : engine.TakesVote vote) :
    CopyListed (engine.recorded vote) :=
  ⟨copied.consistent.recordVote takes.1 takes.2, copied.registry, copied.listed⟩

theorem CopyListed.nodeCall (copied : CopyListed engine) (step : NodeCall) :
    CopyListed (engine.nodeCall prim step) := by
  cases step with
  | registry step =>
      rcases copied.registry.call prim step with ⟨ok, carried⟩
      exact ⟨copied.consistent, ok, fun id listed => carried.listed id (copied.listed id listed)⟩
  | genesis block =>
      rcases nodeCall_genesis_cases prim engine block with ⟨_, outcome⟩ | outcome
      · rw [outcome]
        exact ⟨copied.consistent, copied.registry, copied.listed⟩
      · rw [outcome]
        exact copied
  | engine step =>
      rcases call_cases prim engine step with ⟨vote, rfl⟩ | same
      · rcases onReceiveVote_cases prim engine vote with
          ⟨_, outcome⟩ | ⟨takes, outcome, _, _⟩ | ⟨takes, qc, _, _, outcome⟩
        · simp only [ConsensusEngine.nodeCall, call, outcome]
          exact copied
        · simp only [ConsensusEngine.nodeCall, call, outcome]
          exact copied.recorded takes
        · simp only [ConsensusEngine.nodeCall, call, outcome]
          exact ⟨(copied.recorded takes).consistent, copied.registry, copied.listed⟩
      · refine ⟨?_, ?_, ?_⟩
        · simp only [ConsensusEngine.nodeCall, same.aggregator]
          exact copied.consistent
        · simp only [ConsensusEngine.nodeCall, same.registry]
          exact copied.registry
        · simp only [ConsensusEngine.nodeCall, same.aggregator, same.registry]
          exact copied.listed

theorem copyListed_initial {registry : ValidatorRegistry} (ok : registry.RegistryOk) (machine : StateMachine)
    (config : EngineConfig) : CopyListed (initial registry machine config) :=
  ⟨consistent_create registry.currentSet, ok, fun _ listed => listed⟩

/-- At a delivered vote, an id that is active in the current set is active in
the copy, and the current threshold is not above the copy's. -/
def SetsAgree (engine : ConsensusEngine) (step : NodeCall) : Prop :=
  forall vote, step = .engine (.onReceiveVote vote) ->
    (engine.currentSet.isActive vote.validatorId = true ->
      isActiveValidator engine.voteAggregator.validatorSet vote.validatorId = true) ∧
    ValidatorSet.requiredStake engine.currentSet.totalStake ≤
      ValidatorSet.requiredStake engine.voteAggregator.validatorSet.totalStake

/-- At a delivered vote, the votes for its block and itself aggregate under the
current keys if all of them are valid. -/
def VotesAggregate (prim : Primitives) (engine : ConsensusEngine) (step : NodeCall) : Prop :=
  forall vote, step = .engine (.onReceiveVote vote) ->
    (forall other, other ∈ engine.voteAggregator.votesFor (keyOf vote) ++ [vote] ->
      ValidVote prim engine.currentSet other) ->
    ∃ aggregated,
      BLS12381.aggregate prim ((engine.voteAggregator.votesFor (keyOf vote) ++ [vote]).map Vote.signature) =
        .ok aggregated ∧
      BLS12381.verifyAggregated prim aggregated vote.blockHash.serialize
        ((voters (engine.voteAggregator.votesFor (keyOf vote) ++ [vote])).map engine.currentSet.consensusKeyOf) =
        .ok true

/-- Intake and verification follow the current set at a delivered vote.  A
certificate made of votes that are valid under the current keys verifies and
finalizes the block, and a valid vote of an active validator that has none
recorded for the block is recorded. -/
def FollowsCurrentSet (prim : Primitives) (engine : ConsensusEngine) (step : NodeCall) : Prop :=
  forall vote, step = .engine (.onReceiveVote vote) ->
    (forall qc, (engine.onReceiveVote prim vote).1 = .ok (some qc) ->
      (forall other, other ∈ (engine.onReceiveVote prim vote).2.voteAggregator.votesFor (keyOf vote) ->
        ValidVote prim engine.currentSet other) ->
      QCVerifier.verifyQc prim qc engine.currentSet = .ok true ∧
        (engine.onReceiveVote prim vote).2.isFinalized vote.blockHash = true) ∧
    (engine.currentSet.isActive vote.validatorId = true -> ValidVote prim engine.currentSet vote ->
      vote.validatorId ∉ voters (engine.voteAggregator.votesFor (keyOf vote)) ->
      vote ∈ (engine.onReceiveVote prim vote).2.voteAggregator.votesFor (keyOf vote))

/-- A certificate of the copy verifies against the current set when its votes
are valid there and the threshold has not risen. -/
theorem verifyQc_of_copy (copied : CopyListed engine) {vote : Vote}
    (aggregate : engine.VotesAggregate prim (.engine (.onReceiveVote vote)))
    (takes : engine.TakesVote vote) {qc : QuorumCertificate}
    (formed : engine.certificateFor prim vote = .ok (some qc))
    (threshold : ValidatorSet.requiredStake engine.currentSet.totalStake ≤
      ValidatorSet.requiredStake engine.voteAggregator.validatorSet.totalStake)
    (valid : forall other, other ∈ engine.voteAggregator.votesFor (keyOf vote) ++ [vote] ->
      ValidVote prim engine.currentSet other) :
    QCVerifier.verifyQc prim qc engine.currentSet = .ok true := by
  rcases certificateFor_spec copied.consistent takes formed with
    ⟨record, aggregated, _, votes, ok, enough, summed, rfl⟩
  rcases aggregate vote rfl valid with ⟨other, otherSummed, verified⟩
  rw [← votes, summed] at otherSummed
  rw [← votes, ← Except.ok.inj otherSummed] at verified
  refine QCVerifier.verifyQc_eq_true_iff.mpr ⟨UInt64.le_trans threshold enough, ?_, verified⟩
  intro signer member
  rcases (ValidatorSet.isActiveValidator_iff signer).mp (ok.active signer member) with ⟨validator, inCopy, rfl, _⟩
  exact (ValidatorSet.findValidator_isSome_iff validator.id).mpr (copied.listed _ (List.mem_map_of_mem inCopy))

theorem votesFor_recorded (vote : Vote) :
    (engine.recorded vote).voteAggregator.votesFor (keyOf vote) =
      engine.voteAggregator.votesFor (keyOf vote) ++ [vote] := by
  rw [recorded, votesFor_recordVote, if_pos rfl]

theorem followsCurrentSet_of_setsAgree (copied : CopyListed engine) {step : NodeCall}
    (aggregate : engine.VotesAggregate prim step) (agree : engine.SetsAgree step) :
    engine.FollowsCurrentSet prim step := by
  intro vote same
  rw [same] at aggregate
  rcases agree vote same with ⟨activeInCopy, threshold⟩
  rcases onReceiveVote_cases prim engine vote with
    ⟨refused, outcome⟩ | ⟨takes, outcome, unverified, returned⟩ | ⟨takes, certificate, formed, verified, outcome⟩
  · refine ⟨?_, ?_⟩
    · intro qc result
      rw [outcome] at result
      cases Except.ok.inj result
    · intro active _ unvoted
      exact absurd ⟨activeInCopy active, (copied.consistent.unrecorded_iff vote).mpr unvoted⟩ refused
  · rw [outcome, votesFor_recorded]
    refine ⟨?_, fun _ _ _ => List.mem_append_right _ (List.mem_singleton_self vote)⟩
    intro qc result valid
    -- the certificate verifies after all, so the block would have been finalized
    have formed := returned qc result
    exact absurd (verifyQc_of_copy copied aggregate takes formed threshold valid) (unverified qc formed)
  · rw [outcome]
    refine ⟨?_, ?_⟩
    · intro qc result _
      cases Option.some.inj (Except.ok.inj result)
      exact ⟨verified, (isFinalized_finalizeVerified _ _ _).mpr (Or.inl rfl)⟩
    · intro _ _ _
      change vote ∈ (engine.recorded vote).voteAggregator.votesFor (keyOf vote)
      rw [votesFor_recorded]
      exact List.mem_append_right _ (List.mem_singleton_self vote)

/-- In every interleaving of engine and registry operations, intake and
verification follow the current set at every delivered vote at which the copy
has not drifted from it, if the votes at hand aggregate. -/
theorem intake_followsCurrentSet (prim : Primitives) (registryConfig : RegistryConfig)
    (registryCalls : List RegistryCall) (machine : StateMachine) (config : EngineConfig) (calls : List NodeCall) :
    Along (nodeCall prim)
      (fun engine step => engine.VotesAggregate prim step -> engine.SetsAgree step ->
        engine.FollowsCurrentSet prim step)
      (initial (run (ValidatorRegistry.call prim) (ValidatorRegistry.create registryConfig) registryCalls)
        machine config) calls := by
  refine along_of_invariant CopyListed ?_ ?_
    (copyListed_initial (ValidatorRegistry.registryOk_run prim registryConfig registryCalls) machine config)
    (along_true _ calls)
  · intro engine step copied _
    exact copied.nodeCall step
  · intro engine step copied _ aggregate agree
    exact followsCurrentSet_of_setsAgree copied aggregate agree

/-! ## Before and after the set is known -/

/-- The vote of a numbered validator for the block of height one. -/
def bondedVote (number : Nat) : Vote := signedVote number 1 (bondedBlock.hash Transparent.primitives)

/-- The engine over the bonded registry, with the vote of the first validator. -/
def votedEngine : ConsensusEngine :=
  bondedEngine.nodeCall Transparent.primitives (.engine (.onReceiveVote (bondedVote 1)))

/-- The certificate that the second vote completes. -/
def bondedQc : QuorumCertificate :=
  ⟨1, bondedBlock.hash Transparent.primitives, 0, (bondedVote 1).signature,
    [FixedBytes.ofNat 32 1, FixedBytes.ofNat 32 2], 200000⟩

theorem validVotes_votedEngine :
    forall other, other ∈ (votedEngine.onReceiveVote Transparent.primitives (bondedVote 2)).2.voteAggregator.votesFor
      (keyOf (bondedVote 2)) -> ValidVote Transparent.primitives votedEngine.currentSet other := by
  decide +kernel

/-- An engine built after the validators have bonded: the second vote returns a
certificate, which verifies and finalizes the block. -/
theorem intake_followsCurrentSet_bonded :
    (votedEngine.onReceiveVote Transparent.primitives (bondedVote 2)).1 = .ok (some bondedQc) ∧
    QCVerifier.verifyQc Transparent.primitives bondedQc votedEngine.currentSet = .ok true ∧
    (votedEngine.onReceiveVote Transparent.primitives (bondedVote 2)).2.isFinalized (bondedVote 2).blockHash =
      true := by
  have agree : votedEngine.SetsAgree (.engine (.onReceiveVote (bondedVote 2))) := by
    intro vote same
    cases same
    exact ⟨fun _ => by decide +kernel, by decide +kernel⟩
  have result : (votedEngine.onReceiveVote Transparent.primitives (bondedVote 2)).1 = .ok (some bondedQc) := by
    decide +kernel
  have aggregate : votedEngine.VotesAggregate Transparent.primitives (.engine (.onReceiveVote (bondedVote 2))) := by
    intro vote same _
    cases same
    exact ⟨bondedQc.aggregatedSignature, by decide +kernel, by decide +kernel⟩
  have follows : votedEngine.FollowsCurrentSet Transparent.primitives (.engine (.onReceiveVote (bondedVote 2))) := by
    unfold votedEngine at agree aggregate ⊢
    exact (intake_followsCurrentSet Transparent.primitives {} bondingCalls (StateMachine.create 1) {}
      [.genesis (genesisAt 0), .engine (.onReceiveVote (bondedVote 1)),
        .engine (.onReceiveVote (bondedVote 2))]).2.2.1 aggregate agree
  exact ⟨result, (follows (bondedVote 2) rfl).1 bondedQc result validVotes_votedEngine⟩

/-- The engine is built on the empty registry, and the validators bond afterwards. -/
def lateEngine : ConsensusEngine :=
  run (nodeCall Transparent.primitives)
    (started Transparent.primitives (ValidatorRegistry.create {}) (StateMachine.create 1) {} (genesisAt 0))
    (bondingCalls.map NodeCall.registry)

/-- A valid vote of a validator that is active in the current set and has not
voted on the block is rejected, because the aggregator still holds the empty
set. -/
theorem stale_copy_rejects_vote :
    lateEngine.currentSet.isActive (bondedVote 1).validatorId = true ∧
    ValidVote Transparent.primitives lateEngine.currentSet (bondedVote 1) ∧
    (bondedVote 1).validatorId ∉ voters (lateEngine.voteAggregator.votesFor (keyOf (bondedVote 1))) ∧
    (lateEngine.voteAggregator.addVote (bondedVote 1)).1 = false ∧
    bondedVote 1 ∉
      (lateEngine.onReceiveVote Transparent.primitives (bondedVote 1)).2.voteAggregator.votesFor
        (keyOf (bondedVote 1)) := by
  exact ⟨by decide +kernel, by decide +kernel, by decide +kernel, by decide +kernel, by decide +kernel⟩

end ConsensusEngine
end Consensus
end Sarafu

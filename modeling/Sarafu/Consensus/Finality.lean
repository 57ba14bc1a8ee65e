import Sarafu.Consensus.EngineCalls
import Sarafu.Consensus.CertificateSoundness

namespace Sarafu
namespace Consensus

open Crypto State Library.Runs

/-!
# Finality on the vote path

A block is finalized through votes only if the aggregator holds two thirds of
the stake for it.  The verifier's own stake check is weak, but the certificate
it sees here is built by the aggregator, whose records are consistent.  The
invariant combines both components over runs of any length, for an engine whose
registry keeps one current set.
-/

open VoteAggregator

/-- Votes with two thirds of the stake whose aggregated signature verifies on
the hash under the keys of exactly their voters. -/
structure Certified (prim : Primitives) (set : ValidatorSet) (hash : Blake3Hash) (votes : List Vote) : Prop where
  twoThirds : 2 * set.totalStake.toNat ≤ 3 * stakeOf set votes
  verified : ∃ aggregated, BLS12381.aggregate prim (votes.map Vote.signature) = .ok aggregated ∧
    BLS12381.verifyAggregated prim aggregated hash.serialize ((voters votes).map set.consensusKeyOf) = .ok true

/-- The evidence behind a finalized hash: at some height the aggregator holds
votes of distinct active validators with two thirds of the stake, and a prefix
of them is certified. -/
structure Evidence (prim : Primitives) (set : ValidatorSet) (votes : List Vote) (height : UInt64)
    (hash : Blake3Hash) : Prop where
  keyed : forall vote, vote ∈ votes -> vote.blockHeight = height ∧ vote.blockHash = hash
  distinct : (voters votes).Nodup
  active : forall id, id ∈ voters votes -> set.isActive id = true
  twoThirds : 2 * set.totalStake.toNat ≤ 3 * stakeOf set votes
  certified : ∃ signed, signed <+: votes ∧ Certified prim set hash signed

/-- What the vote path assumes of the fixed set: distinct ids, an active stake
below `2^64`, and a threshold that does not wrap. -/
structure FixedSet (set : ValidatorSet) : Prop where
  distinct : set.DistinctIds
  bounded : set.activeStake < 2 ^ 64
  fits : 2 * set.totalStake.toNat + 2 < 2 ^ 64

theorem stakeOf_append (set : ValidatorSet) (first second : List Vote) :
    stakeOf set (first ++ second) = stakeOf set first + stakeOf set second := by
  simp only [stakeOf, voters, List.map_append, List.sum_append]

theorem stakeOf_prefix_le (set : ValidatorSet) {signed votes : List Vote} (shorter : signed <+: votes) :
    stakeOf set signed ≤ stakeOf set votes := by
  rcases shorter with ⟨rest, rfl⟩
  rw [stakeOf_append]
  exact Nat.le_add_right _ _

namespace VoteAggregator

/-- Recorded votes, up to any point of their arrival: they are for their key,
and their voters are distinct and active. -/
theorem Consistent.of_prefix {aggregator : VoteAggregator} (consistent : aggregator.Consistent) {key : BlockKey}
    {signed : List Vote} (shorter : signed <+: aggregator.votesFor key) :
    (forall vote, vote ∈ signed -> keyOf vote = key) ∧ (voters signed).Nodup ∧
      forall id, id ∈ voters signed -> isActiveValidator aggregator.validatorSet id = true := by
  rcases consistent.blockVotes key with empty | ok
  · have none : signed = [] := by
      rw [votesFor, empty] at shorter
      exact List.prefix_nil.mp shorter
    rw [none]
    exact ⟨fun _ member => absurd member List.not_mem_nil, List.nodup_nil,
      fun _ member => absurd member List.not_mem_nil⟩
  · refine ⟨fun vote member => ok.keyed vote (shorter.subset member), ?_, ?_⟩
    · exact (shorter.sublist.map Vote.validatorId).nodup ok.distinct
    · intro id member
      exact ok.active id ((shorter.sublist.map Vote.validatorId).subset member)

/-- A certified prefix turns the whole record into evidence. -/
theorem Consistent.evidence {prim : Primitives} {aggregator : VoteAggregator}
    (consistent : aggregator.Consistent) (distinct : aggregator.validatorSet.DistinctIds) {height : UInt64}
    {hash : Blake3Hash} {signed : List Vote} (shorter : signed <+: aggregator.votesFor ⟨height, hash⟩)
    (certified : Certified prim aggregator.validatorSet hash signed) :
    Evidence prim aggregator.validatorSet (aggregator.votesFor ⟨height, hash⟩) height hash := by
  rcases consistent.of_prefix (List.prefix_refl (aggregator.votesFor ⟨height, hash⟩)) with ⟨keyed, nodup, active⟩
  refine ⟨?_, nodup, ?_, ?_, signed, shorter, certified⟩
  · intro vote member
    have key := keyed vote member
    exact ⟨congrArg BlockKey.height key, congrArg BlockKey.hash key⟩
  · intro id member
    rw [ValidatorSet.isActive_eq_isActiveValidator distinct]
    exact active id member
  · exact Nat.le_trans certified.twoThirds (Nat.mul_le_mul_left 3 (stakeOf_prefix_le _ shorter))

end VoteAggregator

namespace ConsensusEngine

variable {prim : Primitives} {engine : ConsensusEngine} {set : ValidatorSet} {exempt : Blake3Hash -> Prop}

theorem isFinalized_finalizeVerified (blockHash hash : Blake3Hash) (qc : QuorumCertificate) :
    (engine.finalizeVerified blockHash qc).isFinalized hash = true <->
      hash = blockHash ∨ engine.isFinalized hash = true := by
  unfold isFinalized finalizeVerified
  rw [OrderedMap.find_insert]
  by_cases same : hash = blockHash
  · rw [if_pos same]
    exact ⟨fun _ => Or.inl same, fun _ => rfl⟩
  · rw [if_neg same]
    exact ⟨Or.inr, fun either => either.resolve_left same⟩

/-- The record that a taken vote completes. -/
theorem recordOk_taken (consistent : engine.voteAggregator.Consistent) {vote : Vote}
    (takes : engine.TakesVote vote) :
    ∃ record, (engine.voteAggregator.recordVote vote).votesByBlock[keyOf vote]? = some record ∧
      record.votes = engine.voteAggregator.votesFor (keyOf vote) ++ [vote] ∧
      RecordOk engine.voteAggregator.validatorSet (keyOf vote) record := by
  refine ⟨_, by rw [recordVote_getElem, if_pos rfl], rfl, ?_⟩
  exact recordOk_push (consistent.blockVotes (keyOf vote)) rfl takes.1 takes.2

/-- The certificate completed by a vote: it names the vote's block, its signers
are the recorded voters, and its claimed stake is theirs. -/
theorem certificateFor_spec (consistent : engine.voteAggregator.Consistent) {vote : Vote}
    (takes : engine.TakesVote vote) {qc : QuorumCertificate}
    (formed : engine.certificateFor prim vote = .ok (some qc)) :
    ∃ record aggregated,
      (engine.voteAggregator.recordVote vote).votesByBlock[keyOf vote]? = some record ∧
      record.votes = engine.voteAggregator.votesFor (keyOf vote) ++ [vote] ∧
      RecordOk engine.voteAggregator.validatorSet (keyOf vote) record ∧
      ValidatorSet.requiredStake engine.voteAggregator.validatorSet.totalStake ≤ record.totalStake ∧
      BLS12381.aggregate prim (record.votes.map Vote.signature) = .ok aggregated ∧
      qc = ⟨vote.blockHeight, vote.blockHash, vote.viewNumber, aggregated, voters record.votes,
        record.totalStake⟩ := by
  rcases (aggregateVotes_eq_some_iff prim _ _ _ _ qc).mp formed with
    ⟨record, aggregated, found, enough, summed, equal⟩
  rcases recordOk_taken consistent takes with ⟨same, sameFound, votes, ok⟩
  cases Option.some.inj (sameFound.symm.trans found)
  exact ⟨record, aggregated, found, votes, ok, enough, summed, equal⟩

/-- A certificate is for the hash of the vote that completes it. -/
theorem blockHash_of_certificateFor {vote : Vote} {qc : QuorumCertificate}
    (formed : engine.certificateFor prim vote = .ok (some qc)) : qc.blockHash = vote.blockHash := by
  rcases (aggregateVotes_eq_some_iff prim _ _ _ _ qc).mp formed with ⟨_, _, _, _, _, rfl⟩
  rfl

/-- A vote that finalizes its block leaves a certified record behind. -/
theorem certified_of_finalizing (fixed : FixedSet set) (copy : engine.voteAggregator.validatorSet = set)
    (consistent : engine.voteAggregator.Consistent) {vote : Vote} (takes : engine.TakesVote vote)
    {qc : QuorumCertificate} (formed : engine.certificateFor prim vote = .ok (some qc))
    (verified : QCVerifier.verifyQc prim qc set = .ok true) :
    Certified prim set vote.blockHash (engine.voteAggregator.votesFor (keyOf vote) ++ [vote]) := by
  rcases certificateFor_spec consistent takes formed with ⟨record, aggregated, _, votes, ok, enough, summed, rfl⟩
  rw [copy] at ok enough
  rw [← votes]
  refine ⟨?_, aggregated, summed, (QCVerifier.verifyQc_eq_true_iff.mp verified).2.2⟩
  rw [← ok.totalStake_toNat fixed.distinct fixed.bounded]
  exact (ValidatorSet.requiredStake_le_iff fixed.fits).mp enough

/-- The invariant of the vote path.  Genesis hashes are exempt: they are marked
without votes. -/
structure VotePath (prim : Primitives) (set : ValidatorSet) (exempt : Blake3Hash -> Prop)
    (engine : ConsensusEngine) : Prop where
  current : engine.currentSet = set
  copy : engine.voteAggregator.validatorSet = set
  consistent : engine.voteAggregator.Consistent
  finalized : forall hash, engine.isFinalized hash = true -> exempt hash ∨
    ∃ height signed, signed <+: engine.voteAggregator.votesFor ⟨height, hash⟩ ∧ Certified prim set hash signed
  height : engine.finalizedHeight = engine.highestQc.blockHeight

theorem votesFor_prefix_recorded (vote : Vote) (key : BlockKey) :
    engine.voteAggregator.votesFor key <+: (engine.recorded vote).voteAggregator.votesFor key := by
  rw [recorded, votesFor_recordVote]
  split
  · exact List.prefix_append _ _
  · exact List.prefix_refl _

/-- The votes recorded after a call are the earlier ones and the delivered one. -/
theorem mem_votesFor_call {step : EngineCall} {key : BlockKey} {vote : Vote}
    (member : vote ∈ (engine.call prim step).voteAggregator.votesFor key) :
    vote ∈ engine.voteAggregator.votesFor key ∨ step = .onReceiveVote vote := by
  rcases call_cases prim engine step with ⟨delivered, rfl⟩ | same
  · have recording : forall other, other ∈ (engine.recorded delivered).voteAggregator.votesFor key ->
        other ∈ engine.voteAggregator.votesFor key ∨ EngineCall.onReceiveVote delivered = .onReceiveVote other := by
      intro other listed
      rw [recorded, votesFor_recordVote] at listed
      split at listed
      · rcases List.mem_append.mp listed with earlier | last
        · exact Or.inl earlier
        · rw [List.mem_singleton.mp last]
          exact Or.inr rfl
      · exact Or.inl listed
    rcases onReceiveVote_cases prim engine delivered with
      ⟨_, outcome⟩ | ⟨_, outcome, _, _⟩ | ⟨_, qc, _, _, outcome⟩
    · simp only [call, outcome] at member
      exact Or.inl member
    · simp only [call, outcome] at member
      exact recording vote member
    · simp only [call, outcome] at member
      exact recording vote member
  · rw [same.aggregator] at member
    exact Or.inl member

/-- What is finalized after a call was so before, or a vote has completed a
certificate for it that verifies. -/
theorem isFinalized_call_cases {step : EngineCall} {hash : Blake3Hash}
    (finalized : (engine.call prim step).isFinalized hash = true) :
    engine.isFinalized hash = true ∨
      ∃ vote qc, step = .onReceiveVote vote ∧ vote.blockHash = hash ∧ engine.TakesVote vote ∧
        engine.certificateFor prim vote = .ok (some qc) ∧
        QCVerifier.verifyQc prim qc engine.currentSet = .ok true := by
  rcases call_cases prim engine step with ⟨vote, rfl⟩ | same
  · rcases onReceiveVote_cases prim engine vote with
      ⟨_, outcome⟩ | ⟨_, outcome, _, _⟩ | ⟨takes, qc, formed, verified, outcome⟩
    · simp only [call, outcome] at finalized
      exact Or.inl finalized
    · simp only [call, outcome] at finalized
      exact Or.inl finalized
    · simp only [call, outcome] at finalized
      rcases (isFinalized_finalizeVerified _ _ _).mp finalized with rfl | earlier
      · exact Or.inr ⟨vote, qc, rfl, rfl, takes, formed, verified⟩
      · exact Or.inl earlier
  · rw [isFinalized, same.finalizedBlocks] at finalized
    exact Or.inl finalized

/-- Recording a vote keeps the invariant. -/
theorem VotePath.recorded (path : VotePath prim set exempt engine) {vote : Vote}
    (takes : engine.TakesVote vote) : VotePath prim set exempt (engine.recorded vote) where
  current := path.current
  copy := path.copy
  consistent := path.consistent.recordVote takes.1 takes.2
  finalized := by
    intro hash marked
    rcases path.finalized hash marked with genesis | ⟨height, signed, shorter, certified⟩
    · exact Or.inl genesis
    · exact Or.inr ⟨height, signed, shorter.trans (votesFor_prefix_recorded vote _), certified⟩
  height := path.height

/-- Finalizing the block of a recorded vote keeps the invariant. -/
theorem VotePath.finalizeVerified (path : VotePath prim set exempt engine) (fixed : FixedSet set)
    {vote : Vote} (takes : engine.TakesVote vote) {qc : QuorumCertificate}
    (formed : engine.certificateFor prim vote = .ok (some qc))
    (verified : QCVerifier.verifyQc prim qc set = .ok true) :
    VotePath prim set exempt ((engine.recorded vote).finalizeVerified vote.blockHash qc) where
  current := path.current
  copy := path.copy
  consistent := (path.recorded takes).consistent
  finalized := by
    intro hash marked
    rcases (isFinalized_finalizeVerified _ _ _).mp marked with rfl | earlier
    · have certified := certified_of_finalizing fixed path.copy path.consistent takes formed verified
      refine Or.inr ⟨vote.blockHeight, _, ?_, certified⟩
      change _ <+: (engine.voteAggregator.recordVote vote).votesFor (keyOf vote)
      rw [votesFor_recordVote, if_pos rfl]
    · exact (path.recorded takes).finalized hash earlier
  height := by
    simp only [ConsensusEngine.finalizeVerified]
    split
    · rfl
    · exact (path.recorded takes).height

/-- The invariant reads the voting state only. -/
theorem VotePath.sameVoting {after : ConsensusEngine} (path : VotePath prim set exempt engine)
    (same : SameVoting engine after) : VotePath prim set exempt after where
  current := by
    rw [currentSet, same.registry]
    exact path.current
  copy := by
    rw [same.aggregator]
    exact path.copy
  consistent := by
    rw [same.aggregator]
    exact path.consistent
  finalized := by
    unfold isFinalized
    rw [same.aggregator, same.finalizedBlocks]
    exact path.finalized
  height := by
    rw [same.finalizedHeight, same.highestQc]
    exact path.height

/-- Every engine call keeps the invariant. -/
theorem VotePath.call (path : VotePath prim set exempt engine) (fixed : FixedSet set) (step : EngineCall) :
    VotePath prim set exempt (engine.call prim step) := by
  rcases call_cases prim engine step with ⟨vote, rfl⟩ | same
  · rcases onReceiveVote_cases prim engine vote with
      ⟨_, outcome⟩ | ⟨takes, outcome, _, _⟩ | ⟨takes, qc, formed, verified, outcome⟩
    · simp only [ConsensusEngine.call, outcome]
      exact path
    · simp only [ConsensusEngine.call, outcome]
      exact path.recorded takes
    · simp only [ConsensusEngine.call, outcome]
      rw [path.current] at verified
      exact path.finalizeVerified fixed takes formed verified
  · exact path.sameVoting same

theorem isFinalized_withGenesis (genesis : Block) (hash : Blake3Hash) :
    (engine.withGenesis prim genesis).isFinalized hash = true <->
      hash = genesis.hash prim ∨ engine.isFinalized hash = true :=
  -- a genesis block is marked in the same way as a verified one
  isFinalized_finalizeVerified (genesis.hash prim) hash engine.highestQc

/-- Giving the engine a genesis block keeps the invariant if its hash is exempt. -/
theorem VotePath.withGenesis (path : VotePath prim set exempt engine) {genesis : Block}
    (exempted : exempt (genesis.hash prim)) : VotePath prim set exempt (engine.withGenesis prim genesis) where
  current := path.current
  copy := path.copy
  consistent := path.consistent
  finalized := by
    intro hash marked
    rcases (isFinalized_withGenesis genesis hash).mp marked with rfl | earlier
    · exact Or.inl exempted
    · exact path.finalized hash earlier
  height := rfl

theorem isFinalized_initial (registry : ValidatorRegistry) (machine : StateMachine) (config : EngineConfig)
    (hash : Blake3Hash) : (initial registry machine config).isFinalized hash = false := by
  simp only [isFinalized, initial, Std.ExtTreeMap.getElem?_empty, Option.getD_none]

theorem votePath_initial (registry : ValidatorRegistry) (machine : StateMachine) (config : EngineConfig) :
    VotePath prim registry.currentSet exempt (initial registry machine config) where
  current := rfl
  copy := rfl
  consistent := consistent_create registry.currentSet
  finalized := by
    intro hash marked
    rw [isFinalized_initial] at marked
    cases marked
  height := rfl

/-! ## Finalization is never undone -/

/-- What never decreases along engine calls. -/
structure Grows (before after : ConsensusEngine) : Prop where
  finalized : forall hash, before.isFinalized hash = true -> after.isFinalized hash = true
  height : before.highestQc.blockHeight ≤ after.highestQc.blockHeight

theorem Grows.refl (engine : ConsensusEngine) : Grows engine engine :=
  ⟨fun _ marked => marked, UInt64.le_refl _⟩

theorem Grows.trans {first second third : ConsensusEngine} (earlier : Grows first second)
    (later : Grows second third) : Grows first third :=
  ⟨fun hash marked => later.finalized hash (earlier.finalized hash marked),
    UInt64.le_trans earlier.height later.height⟩

theorem grows_finalizeVerified (hash : Blake3Hash) (qc : QuorumCertificate) :
    Grows engine (engine.finalizeVerified hash qc) := by
  refine ⟨fun other marked => (isFinalized_finalizeVerified hash other qc).mpr (Or.inr marked), ?_⟩
  simp only [finalizeVerified]
  split
  · rename_i raises
    exact UInt64.le_of_lt raises
  · exact UInt64.le_refl _

theorem grows_of_sameVoting {after : ConsensusEngine} (same : SameVoting engine after) : Grows engine after where
  finalized := by
    unfold isFinalized
    rw [same.finalizedBlocks]
    exact fun _ marked => marked
  height := by
    rw [same.highestQc]
    exact UInt64.le_refl _

theorem grows_call (prim : Primitives) (engine : ConsensusEngine) (step : EngineCall) :
    Grows engine (engine.call prim step) := by
  rcases call_cases prim engine step with ⟨vote, rfl⟩ | same
  · have recording : Grows engine (engine.recorded vote) := ⟨fun _ marked => marked, UInt64.le_refl _⟩
    rcases onReceiveVote_cases prim engine vote with
      ⟨_, outcome⟩ | ⟨_, outcome, _, _⟩ | ⟨_, qc, _, _, outcome⟩
    · simp only [call, outcome]
      exact Grows.refl engine
    · simp only [call, outcome]
      exact recording
    · simp only [call, outcome]
      exact recording.trans (grows_finalizeVerified vote.blockHash qc)
  · exact grows_of_sameVoting same

theorem grows_run (prim : Primitives) (start : ConsensusEngine) (calls : List EngineCall) :
    Grows start (run (call prim) start calls) := by
  refine invariant_run (Grows start) ?_ (Grows.refl start) (along_true start calls)
  intro state step grown _
  exact grown.trans (grows_call prim state step)

/-- Finality soundness of the vote path.  Whatever the arguments of the calls,
a finalized hash other than genesis is backed by evidence held in the
aggregator; finalization is never undone; and the finalized height is the
height of the highest certificate and never decreases. -/
theorem finalized_has_evidence (prim : Primitives) (registry : ValidatorRegistry) (machine : StateMachine)
    (config : EngineConfig) (genesis : Block) (fixed : FixedSet registry.currentSet)
    (start : ConsensusEngine) (given : (initial registry machine config).setGenesisBlock prim genesis = .ok start)
    (calls : List EngineCall) :
    (forall hash, hash ≠ genesis.hash prim -> (run (call prim) start calls).isFinalized hash = true ->
      ∃ height, Evidence prim registry.currentSet
        ((run (call prim) start calls).voteAggregator.votesFor ⟨height, hash⟩) height hash) ∧
    (run (call prim) start calls).finalizedHeight = (run (call prim) start calls).highestQc.blockHeight ∧
    forall more : List EngineCall,
      (forall hash, (run (call prim) start calls).isFinalized hash = true ->
        (run (call prim) start (calls ++ more)).isFinalized hash = true) ∧
      (run (call prim) start calls).finalizedHeight ≤ (run (call prim) start (calls ++ more)).finalizedHeight := by
  rcases withGenesis_of_setGenesisBlock given with ⟨_, same⟩
  have path : forall calls, VotePath prim registry.currentSet (· = genesis.hash prim)
      (run (call prim) start calls) := by
    intro calls
    refine invariant_run (VotePath prim registry.currentSet (· = genesis.hash prim))
      (fun state step path _ => path.call fixed step) ?_ (along_true start calls)
    rw [same]
    exact (votePath_initial registry machine config).withGenesis rfl
  refine ⟨?_, (path calls).height, ?_⟩
  · intro hash other marked
    rcases (path calls).finalized hash marked with genesisHash | ⟨height, signed, shorter, certified⟩
    · exact absurd genesisHash other
    · have reached := path calls
      have copy := reached.copy
      have evidence := reached.consistent.evidence (copy.symm ▸ fixed.distinct) shorter (copy.symm ▸ certified)
      rw [copy] at evidence
      exact ⟨height, evidence⟩
  · intro more
    have grown := grows_run prim (run (call prim) start calls) more
    rw [run_append]
    refine ⟨grown.finalized, ?_⟩
    rw [(path calls).height, ← run_append, (path (calls ++ more)).height, run_append]
    exact grown.height

/-! ## Engines over validators of unit stake -/

/-- A registry that has only its current set. -/
def registryWith (set : ValidatorSet) : ValidatorRegistry := ⟨{}, set, ∅, []⟩

/-- A genesis block with the given timestamp. -/
def genesisAt (timestamp : UInt64) : Block :=
  ⟨⟨0, timestamp, Blake3Hash.zero, Blake3Hash.zero, Blake3Hash.zero, Blake3Hash.zero, FixedBytes.zero 32, 0⟩, [],
    QuorumCertificate.empty⟩

/-- An engine over `count` validators of unit stake, right after genesis. -/
def unitEngine (count : Nat) : ConsensusEngine :=
  started Transparent.primitives (registryWith (unitSet count)) (StateMachine.create 1) {} (genesisAt 0)

/-- The vote of a numbered validator, signed on the hash. -/
def signedVote (number : Nat) (height : UInt64) (hash : Blake3Hash) : Vote :=
  ⟨FixedBytes.ofNat 32 number, height, hash, 0,
    BLS12381.sign Transparent.primitives hash.serialize (FixedBytes.ofNat 32 number)⟩

theorem fixedSet_unitSet : FixedSet (unitSet 3) :=
  ⟨by unfold ValidatorSet.DistinctIds; decide +kernel, by decide +kernel, by decide +kernel⟩

/-- Two of three validators vote; the block they vote for is finalized and has
its evidence. -/
theorem finalized_has_evidence_two_of_three :
    (run (call Transparent.primitives) (unitEngine 3)
      [.onReceiveVote (signedVote 1 1 (FixedBytes.ofNat 32 7)), .triggerViewChange,
        .onReceiveVote (signedVote 2 1 (FixedBytes.ofNat 32 7))]).isFinalized (FixedBytes.ofNat 32 7) = true ∧
    ∃ height, Evidence Transparent.primitives (unitSet 3)
      ((run (call Transparent.primitives) (unitEngine 3)
        [.onReceiveVote (signedVote 1 1 (FixedBytes.ofNat 32 7)), .triggerViewChange,
          .onReceiveVote (signedVote 2 1 (FixedBytes.ofNat 32 7))]).voteAggregator.votesFor
            ⟨height, FixedBytes.ofNat 32 7⟩) height (FixedBytes.ofNat 32 7) := by
  have finalized : (run (call Transparent.primitives) (unitEngine 3)
      [.onReceiveVote (signedVote 1 1 (FixedBytes.ofNat 32 7)), .triggerViewChange,
        .onReceiveVote (signedVote 2 1 (FixedBytes.ofNat 32 7))]).isFinalized (FixedBytes.ofNat 32 7) = true := by
    decide +kernel
  have other : (FixedBytes.ofNat 32 7 : Blake3Hash) ≠ (genesisAt 0).hash Transparent.primitives := by
    decide +kernel
  have given : (initial (registryWith (unitSet 3)) (StateMachine.create 1) {}).setGenesisBlock
      Transparent.primitives (genesisAt 0) = .ok (unitEngine 3) := setGenesisBlock_of_zero _ _ rfl
  exact ⟨finalized, (finalized_has_evidence Transparent.primitives (registryWith (unitSet 3))
    (StateMachine.create 1) {} (genesisAt 0) fixedSet_unitSet (unitEngine 3) given _).1 _ other finalized⟩

end ConsensusEngine
end Consensus
end Sarafu

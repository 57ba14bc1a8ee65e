import Sarafu.Consensus.ConsensusEngine
import Sarafu.Consensus.VoteRecords
import Sarafu.Library.Runs

namespace Sarafu
namespace Consensus

open Crypto State

/-!
# The calls of a node and what each of them can do

A node gives its engine the genesis block and drives it by proposing, by
delivering blocks and votes, and by changing views; other components change the
registry between those calls.  The inversion lemmas say once what each engine
operation can do.  Every invariant of the engine is derived from them, without
opening the operations again.
-/

/-- The engine operations of a running node. -/
inductive EngineCall
  | proposeBlock (proposal : ConsensusEngine.Proposal)
  | onReceiveBlock (block : Block)
  | onReceiveVote (vote : Vote)
  | triggerViewChange

/-- An interleaving of both kinds, with `set_genesis_block` at any point. -/
inductive NodeCall
  | engine (call : EngineCall)
  | registry (call : RegistryCall)
  | genesis (block : Block)

namespace ConsensusEngine

variable (prim : Primitives)

/-- The engine after a call, whether it returned or threw. -/
def call (engine : ConsensusEngine) : EngineCall -> ConsensusEngine
  | .proposeBlock proposal => (engine.proposeBlock prim proposal).2
  | .onReceiveBlock block => (engine.onReceiveBlock prim block).2
  | .onReceiveVote vote => (engine.onReceiveVote prim vote).2
  | .triggerViewChange => engine.triggerViewChange.2

/-- The engine after a call of the node. -/
def nodeCall (engine : ConsensusEngine) : NodeCall -> ConsensusEngine
  | .engine call => engine.call prim call
  | .registry call => { engine with validatorRegistry := engine.validatorRegistry.call prim call }
  | .genesis block =>
      match engine.setGenesisBlock prim block with
      | .error _ => engine
      | .ok started => started

/-- The engine after a successful `set_genesis_block`. -/
def withGenesis (engine : ConsensusEngine) (genesis : Block) : ConsensusEngine :=
  { engine.storeBlock prim genesis with
    currentHeight := 0
    finalizedHeight := 0
    finalizedBlocks := engine.finalizedBlocks.insert (genesis.hash prim) true
    highestQc := ⟨0, genesis.hash prim, 0, FixedBytes.zero 96, [], 0⟩ }

/-- The state of a fresh engine after a successful `set_genesis_block`. -/
def started (registry : ValidatorRegistry) (machine : StateMachine) (config : EngineConfig) (genesis : Block) :
    ConsensusEngine :=
  (initial registry machine config).withGenesis prim genesis

theorem setGenesisBlock_of_zero (engine : ConsensusEngine) {genesis : Block}
    (genesisHeight : genesis.header.height = 0) :
    engine.setGenesisBlock prim genesis = .ok (engine.withGenesis prim genesis) := by
  unfold setGenesisBlock
  rw [if_neg (not_not_intro genesisHeight)]
  rfl

variable {prim} {engine : ConsensusEngine}

/-- A genesis block of height zero only is accepted. -/
theorem withGenesis_of_setGenesisBlock {genesis : Block} {start : ConsensusEngine}
    (given : engine.setGenesisBlock prim genesis = .ok start) :
    genesis.header.height = 0 ∧ start = engine.withGenesis prim genesis := by
  have zero : genesis.header.height = 0 := by
    by_contra nonzero
    simp only [setGenesisBlock, ne_eq, nonzero, not_false_eq_true, if_true] at given
    cases given
  rw [setGenesisBlock_of_zero prim engine zero] at given
  exact ⟨zero, (Except.ok.inj given).symm⟩

/-- What `set_genesis_block` does to an engine: it takes the block, or throws
and changes nothing. -/
theorem nodeCall_genesis_cases (prim : Primitives) (engine : ConsensusEngine) (genesis : Block) :
    (genesis.header.height = 0 ∧ engine.nodeCall prim (.genesis genesis) = engine.withGenesis prim genesis) ∨
      engine.nodeCall prim (.genesis genesis) = engine := by
  cases given : engine.setGenesisBlock prim genesis with
  | error failure =>
      refine Or.inr ?_
      simp only [nodeCall, given]
  | ok start =>
      refine Or.inl ?_
      simp only [nodeCall, given]
      exact withGenesis_of_setGenesisBlock given

/-! ## Inversion of the operations -/

/-- The engine after a successful proposal. -/
def afterProposal (prim : Primitives) (engine : ConsensusEngine) (proposal : Proposal) (parent : Option Block) :
    ConsensusEngine :=
  ({ engine with stateMachine := (engine.executeProposal prim proposal).2 }).storeBlock prim
    (engine.assembleBlock prim proposal parent)

/-- Everything `propose_block` can do. -/
theorem proposeBlock_cases (prim : Primitives) (engine : ConsensusEngine) (proposal : Proposal) :
    (∃ parent, engine.isCurrentLeader proposal.proposerId = true ∧ engine.parentBlock = some parent ∧
      engine.proposeBlock prim proposal =
        (some (engine.assembleBlock prim proposal parent), engine.afterProposal prim proposal parent)) ∨
    engine.proposeBlock prim proposal = (none, engine) := by
  unfold proposeBlock
  cases leads : engine.isCurrentLeader proposal.proposerId with
  | false => exact Or.inr rfl
  | true =>
      cases found : engine.parentBlock with
      | none => exact Or.inr rfl
      | some parent => exact Or.inl ⟨parent, rfl, rfl, rfl⟩

/-- A returned proposal comes from the first case. -/
theorem proposeBlock_eq_some {proposal : Proposal} {block : Block}
    (returned : (engine.proposeBlock prim proposal).1 = some block) :
    ∃ parent, engine.isCurrentLeader proposal.proposerId = true ∧ engine.parentBlock = some parent ∧
      block = engine.assembleBlock prim proposal parent ∧
      (engine.proposeBlock prim proposal).2 = engine.afterProposal prim proposal parent := by
  rcases proposeBlock_cases prim engine proposal with ⟨parent, leads, found, outcome⟩ | outcome
  · rw [outcome] at returned
    exact ⟨parent, leads, found, (Option.some.inj returned).symm, by rw [outcome]⟩
  · rw [outcome] at returned
    cases returned

/-- Everything `on_receive_block` can do. -/
theorem onReceiveBlock_cases (prim : Primitives) (engine : ConsensusEngine) (block : Block) :
    (engine.verifyBlock prim block = .ok true ∧
      engine.onReceiveBlock prim block = (.ok true, engine.acceptVerified prim block)) ∨
    (engine.verifyBlock prim block ≠ .ok true ∧ (engine.onReceiveBlock prim block).1 ≠ .ok true ∧
      (engine.onReceiveBlock prim block).2 = engine) := by
  unfold onReceiveBlock
  cases verdict : engine.verifyBlock prim block with
  | error failure => exact Or.inr ⟨nofun, nofun, rfl⟩
  | ok accepted =>
      cases accepted with
      | false => exact Or.inr ⟨nofun, nofun, rfl⟩
      | true => exact Or.inl ⟨rfl, rfl⟩

theorem onReceiveBlock_eq_true_iff (block : Block) :
    (engine.onReceiveBlock prim block).1 = .ok true <-> engine.verifyBlock prim block = .ok true := by
  rcases onReceiveBlock_cases prim engine block with ⟨verified, outcome⟩ | ⟨unverified, outcome, _⟩
  · rw [outcome]
    exact ⟨fun _ => verified, fun _ => rfl⟩
  · exact ⟨fun accepted => absurd accepted outcome, fun verified => absurd verified unverified⟩

/-- Two engines agree on everything that voting reads and writes. -/
structure SameVoting (before after : ConsensusEngine) : Prop where
  registry : after.validatorRegistry = before.validatorRegistry
  aggregator : after.voteAggregator = before.voteAggregator
  highestQc : after.highestQc = before.highestQc
  finalizedHeight : after.finalizedHeight = before.finalizedHeight
  finalizedBlocks : after.finalizedBlocks = before.finalizedBlocks

theorem SameVoting.refl (engine : ConsensusEngine) : SameVoting engine engine := ⟨rfl, rfl, rfl, rfl, rfl⟩

/-- Only a delivered vote touches the voting state. -/
theorem call_cases (prim : Primitives) (engine : ConsensusEngine) (step : EngineCall) :
    (∃ vote, step = .onReceiveVote vote) ∨ SameVoting engine (engine.call prim step) := by
  cases step with
  | onReceiveVote vote => exact Or.inl ⟨vote, rfl⟩
  | proposeBlock proposal =>
      refine Or.inr ?_
      rcases proposeBlock_cases prim engine proposal with ⟨parent, _, _, outcome⟩ | outcome
      · simp only [call, outcome]
        exact ⟨rfl, rfl, rfl, rfl, rfl⟩
      · simp only [call, outcome]
        exact SameVoting.refl engine
  | onReceiveBlock block =>
      refine Or.inr ?_
      rcases onReceiveBlock_cases prim engine block with ⟨_, outcome⟩ | ⟨_, _, unchanged⟩
      · simp only [call, outcome]
        exact ⟨rfl, rfl, rfl, rfl, rfl⟩
      · simp only [call, unchanged]
        exact SameVoting.refl engine
  | triggerViewChange => exact Or.inr ⟨rfl, rfl, rfl, rfl, rfl⟩

/-- The checks of `verify_block`, as one conjunction. -/
theorem verifyBlock_eq_true_iff (block : Block) :
    engine.verifyBlock prim block = .ok true <->
      engine.extendsHighestQc block = true ∧ engine.isCurrentLeader block.header.proposer = true ∧
      (0 < block.header.height -> engine.checksParent block = true) ∧
      engine.currentSet.isActive block.header.proposer = true ∧
      (0 < block.header.height -> QCVerifier.verifyQc prim block.justify engine.currentSet = .ok true) := by
  unfold verifyBlock
  cases engine.extendsHighestQc block <;> cases engine.isCurrentLeader block.header.proposer <;>
    cases engine.currentSet.isActive block.header.proposer <;> cases engine.checksParent block <;>
    by_cases positive : 0 < block.header.height <;> simp [positive]

/-- The engine after a vote has been recorded. -/
def recorded (engine : ConsensusEngine) (vote : Vote) : ConsensusEngine :=
  { engine with voteAggregator := engine.voteAggregator.recordVote vote }

/-- The certificate that the recorded votes for the vote's block give. -/
def certificateFor (prim : Primitives) (engine : ConsensusEngine) (vote : Vote) :
    Except Failure (Option QuorumCertificate) :=
  (engine.voteAggregator.recordVote vote).aggregateVotes prim vote.blockHeight vote.blockHash vote.viewNumber

/-- The vote's id is active in the aggregator's copy and has no vote recorded
for the block yet. -/
def TakesVote (engine : ConsensusEngine) (vote : Vote) : Prop :=
  VoteAggregator.isActiveValidator engine.voteAggregator.validatorSet vote.validatorId = true ∧
    engine.voteAggregator.Unrecorded vote

/-- Everything `on_receive_vote` can do: reject the vote, record it, or record
it and finalize the block with the certificate it completes. -/
theorem onReceiveVote_cases (prim : Primitives) (engine : ConsensusEngine) (vote : Vote) :
    (¬ engine.TakesVote vote ∧ engine.onReceiveVote prim vote = (.ok none, engine)) ∨
    (engine.TakesVote vote ∧ (engine.onReceiveVote prim vote).2 = engine.recorded vote ∧
      (forall qc, engine.certificateFor prim vote = .ok (some qc) ->
        QCVerifier.verifyQc prim qc engine.currentSet ≠ .ok true) ∧
      forall qc, (engine.onReceiveVote prim vote).1 = .ok (some qc) ->
        engine.certificateFor prim vote = .ok (some qc)) ∨
    (engine.TakesVote vote ∧ ∃ qc, engine.certificateFor prim vote = .ok (some qc) ∧
      QCVerifier.verifyQc prim qc engine.currentSet = .ok true ∧
      engine.onReceiveVote prim vote =
        (.ok (some qc), (engine.recorded vote).finalizeVerified vote.blockHash qc)) := by
  rcases engine.voteAggregator.addVote_cases vote with ⟨added, active, fresh⟩ | ⟨rejected, refused⟩
  · refine Or.inr ?_
    unfold onReceiveVote
    simp only [added, Bool.true_eq_false, if_false]
    cases formed : engine.certificateFor prim vote with
    | error failure =>
        unfold certificateFor at formed
        refine Or.inl ⟨⟨active, fresh⟩, ?_⟩
        simp only [formed]
        exact ⟨rfl, nofun, nofun⟩
    | ok certificate =>
        unfold certificateFor at formed
        cases certificate with
        | none =>
            refine Or.inl ⟨⟨active, fresh⟩, ?_⟩
            simp only [formed]
            exact ⟨rfl, nofun, nofun⟩
        | some qc =>
            simp only [formed]
            have sameSet : ({ engine with voteAggregator := engine.voteAggregator.recordVote vote } :
                ConsensusEngine).currentSet = engine.currentSet := rfl
            cases verdict : QCVerifier.verifyQc prim qc engine.currentSet with
            | error failure =>
                refine Or.inl ⟨⟨active, fresh⟩, ?_⟩
                simp only [markFinalized, sameSet, verdict]
                refine ⟨rfl, ?_, nofun⟩
                intro other same
                cases Except.ok.inj same
                rw [verdict]
                exact nofun
            | ok accepted =>
                cases accepted with
                | false =>
                    refine Or.inl ⟨⟨active, fresh⟩, ?_⟩
                    simp only [markFinalized, sameSet, verdict]
                    refine ⟨rfl, ?_, fun other same => same⟩
                    intro other same
                    cases Except.ok.inj same
                    rw [verdict]
                    exact nofun
                | true =>
                    refine Or.inr ⟨⟨active, fresh⟩, qc, rfl, verdict, ?_⟩
                    simp only [markFinalized, sameSet, verdict]
                    rfl
  · refine Or.inl ⟨refused, ?_⟩
    unfold onReceiveVote
    simp only [rejected, if_true]

/-! ## Votes that do not decode -/

/-- Two engines agree on everything that finality is read from. -/
structure SameFinality (before after : ConsensusEngine) : Prop where
  highestQc : after.highestQc = before.highestQc
  finalizedHeight : after.finalizedHeight = before.finalizedHeight
  finalizedBlocks : after.finalizedBlocks = before.finalizedBlocks

theorem SameFinality.refl (engine : ConsensusEngine) : SameFinality engine engine := ⟨rfl, rfl, rfl⟩

theorem SameFinality.trans {first second third : ConsensusEngine} (earlier : SameFinality first second)
    (later : SameFinality second third) : SameFinality first third where
  highestQc := later.highestQc.trans earlier.highestQc
  finalizedHeight := later.finalizedHeight.trans earlier.finalizedHeight
  finalizedBlocks := later.finalizedBlocks.trans earlier.finalizedBlocks

theorem SameVoting.sameFinality {after : ConsensusEngine} (same : SameVoting engine after) :
    SameFinality engine after := ⟨same.highestQc, same.finalizedHeight, same.finalizedBlocks⟩

/-- A vote whose signature does not decode completes no certificate: the aggregation throws. -/
theorem certificateFor_ne_of_undecodable {vote : Vote}
    (undecodable : BLS12381.decodeSignature prim vote.signature = none) (qc : QuorumCertificate) :
    engine.certificateFor prim vote ≠ .ok (some qc) := by
  intro formed
  rcases (VoteAggregator.aggregateVotes_eq_some_iff prim _ _ _ _ qc).mp formed with
    ⟨record, aggregated, found, _, summed, _⟩
  have signatures := ((BLS12381.exists_aggregate_iff _).mp ⟨aggregated, summed⟩).2
  have recorded : vote ∈ record.votes := by
    change (engine.voteAggregator.recordVote vote).votesByBlock[VoteAggregator.keyOf vote]? = some record at found
    rw [VoteAggregator.recordVote_getElem, if_pos rfl] at found
    rw [← Option.some.inj found]
    exact List.mem_append_right _ (List.mem_singleton_self vote)
  have decodes := signatures vote.signature (List.mem_map_of_mem recorded)
  rw [undecodable] at decodes
  cases decodes

/-- A call whose vote, if it delivers one, does not decode. -/
theorem sameFinality_call {step : EngineCall}
    (undecodable : forall vote, step = .onReceiveVote vote -> BLS12381.decodeSignature prim vote.signature = none) :
    SameFinality engine (engine.call prim step) := by
  rcases call_cases prim engine step with ⟨vote, rfl⟩ | same
  · rcases onReceiveVote_cases prim engine vote with ⟨_, outcome⟩ | ⟨_, outcome, _⟩ | ⟨_, qc, formed, _⟩
    · rw [call, outcome]
      exact SameFinality.refl engine
    · rw [call, outcome]
      exact ⟨rfl, rfl, rfl⟩
    · exact absurd formed (certificateFor_ne_of_undecodable (undecodable vote rfl) qc)
  · exact same.sameFinality

end ConsensusEngine
end Consensus
end Sarafu

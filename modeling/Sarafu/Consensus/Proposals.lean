import Sarafu.Consensus.ChainExtension
import Sarafu.Consensus.RegistryRecords

namespace Sarafu
namespace Consensus

open Crypto State Library.Runs

/-!
# What a leader proposes and what its peers verify

`propose_block` and `verify_block` are two code paths that have to agree.  They
agree on the leader and, above height one, on the parent.  They do not agree
right after genesis: the parent hash of the first proposal is zero, and the
genesis certificate that justifies it has no signers.  The results below say
exactly when a peer in the same state accepts a proposal.
-/

namespace ConsensusEngine

variable {prim : Primitives} {engine first second : ConsensusEngine} {headers : Set BlockHeader}

/-! ## Reachable engines -/

theorem call_registry (prim : Primitives) (engine : ConsensusEngine) (step : EngineCall) :
    (engine.call prim step).validatorRegistry = engine.validatorRegistry := by
  rcases call_cases prim engine step with ⟨vote, rfl⟩ | same
  · rcases onReceiveVote_cases prim engine vote with
      ⟨_, outcome⟩ | ⟨_, outcome, _, _⟩ | ⟨_, qc, _, _, outcome⟩
    · simp only [call, outcome]
    · simp only [call, outcome]
      rfl
    · simp only [call, outcome]
      rfl
  · exact same.registry

/-- The store and the registry of an engine are consistent. -/
structure EngineOk (prim : Primitives) (headers : Set BlockHeader) (engine : ConsensusEngine) : Prop where
  store : StoreOk prim headers engine
  registry : engine.validatorRegistry.RegistryOk

theorem EngineOk.nodeCall (ok : EngineOk prim headers engine) (free : CollisionFree prim headers) {step : NodeCall}
    (within : engine.NodeWithinHeaders prim headers step) : EngineOk prim headers (engine.nodeCall prim step) where
  store := ok.store.nodeCall free within
  registry := by
    cases step with
    | engine step =>
        simp only [ConsensusEngine.nodeCall, call_registry]
        exact ok.registry
    | registry step => exact (ok.registry.call prim step).1
    | genesis block =>
        rcases nodeCall_genesis_cases prim engine block with ⟨_, outcome⟩ | outcome
        · rw [outcome]
          exact ok.registry
        · rw [outcome]
          exact ok.registry

/-- Every engine that a node reaches from a registry of its own making. -/
theorem engineOk_run (registryConfig : RegistryConfig) (registryCalls : List RegistryCall) (machine : StateMachine)
    (config : EngineConfig) (free : CollisionFree prim headers) {calls : List NodeCall}
    (guarded : Along (nodeCall prim) (NodeWithinHeaders prim headers)
      (initial (run (ValidatorRegistry.call prim) (ValidatorRegistry.create registryConfig) registryCalls)
        machine config) calls) :
    EngineOk prim headers (run (nodeCall prim)
      (initial (run (ValidatorRegistry.call prim) (ValidatorRegistry.create registryConfig) registryCalls)
        machine config) calls) :=
  invariant_run (EngineOk prim headers) (fun _ _ ok within => ok.nodeCall free within)
    ⟨storeOk_initial _ machine config, ValidatorRegistry.registryOk_run prim registryConfig registryCalls⟩ guarded

/-! ## A proposal and its verification -/

/-- Two engines that agree on everything verification reads. -/
structure Peers (first second : ConsensusEngine) : Prop where
  sets : second.currentSet = first.currentSet
  views : second.currentView = first.currentView
  blocks : forall hash, second.getBlock hash = first.getBlock hash
  heights : second.currentHeight = first.currentHeight
  certificates : second.highestQc = first.highestQc

theorem Peers.isCurrentLeader (peers : Peers first second) (id : ValidatorID) :
    second.isCurrentLeader id = first.isCurrentLeader id := by
  rw [ConsensusEngine.isCurrentLeader, ConsensusEngine.isCurrentLeader, getCurrentLeader, getCurrentLeader,
    selectLeader, selectLeader, peers.sets, peers.views]

theorem Peers.checksParent (peers : Peers first second) (block : Block) :
    second.checksParent block = first.checksParent block := by
  rw [ConsensusEngine.checksParent, ConsensusEngine.checksParent, peers.blocks]

theorem Peers.extendsHighestQc (peers : Peers first second) (block : Block) :
    second.extendsHighestQc block = first.extendsHighestQc block := by
  rw [ConsensusEngine.extendsHighestQc, ConsensusEngine.extendsHighestQc, peers.certificates]

/-- Verification reads nothing that peers disagree on. -/
theorem Peers.verifyBlock (peers : Peers first second) (block : Block) :
    second.verifyBlock prim block = first.verifyBlock prim block := by
  rw [ConsensusEngine.verifyBlock, ConsensusEngine.verifyBlock, peers.extendsHighestQc, peers.isCurrentLeader,
    peers.checksParent, peers.sets]

/-- The leader is an active validator. -/
theorem isActive_of_isCurrentLeader (distinct : engine.currentSet.DistinctIds) {id : ValidatorID}
    (leads : engine.isCurrentLeader id = true) : engine.currentSet.isActive id = true := by
  have selected : engine.getCurrentLeader = some id := beq_iff_eq.mp leads
  rcases Option.map_eq_some_iff.mp selected with ⟨validator, found, rfl⟩
  rcases List.mem_filter.mp (List.mem_of_getElem? found) with ⟨listed, active⟩
  rw [ValidatorSet.isActive_eq_isActiveValidator distinct]
  exact (ValidatorSet.isActiveValidator_iff validator.id).mpr ⟨validator, listed, rfl, active⟩

/-- The own proposal extends the own certificate unless that claims a greater
height than the engine's. -/
theorem extendsHighestQc_assembleBlock (proposal : Proposal) (parent : Option Block)
    (positive : engine.currentHeight + 1 ≠ 0) :
    engine.extendsHighestQc (engine.assembleBlock prim proposal parent) = true <->
      engine.highestQc.blockHeight ≤ engine.currentHeight := by
  have height : (engine.assembleBlock prim proposal parent).header.height = engine.currentHeight + 1 := rfl
  have justify : (engine.assembleBlock prim proposal parent).justify = engine.highestQc := rfl
  have above : (engine.currentHeight + 1).toNat = engine.currentHeight.toNat + 1 :=
    toNat_of_successor rfl (UInt64.pos_iff_ne_zero.mpr positive)
  have sameHeight : ¬ (engine.highestQc.blockHeight = 0 ∧ 0 < engine.highestQc.blockHeight) := fun both =>
    UInt64.lt_irrefl 0 (both.1 ▸ both.2)
  rw [extendsHighestQc, height, justify, if_neg positive, if_neg sameHeight, if_neg (UInt64.lt_irrefl _)]
  by_cases reaches : engine.currentHeight + 1 ≤ engine.highestQc.blockHeight
  · rw [if_pos reaches]
    rw [UInt64.le_iff_toNat_le, above] at reaches
    rw [UInt64.le_iff_toNat_le]
    exact ⟨nofun, fun below => absurd below (by omega)⟩
  · rw [if_neg reaches]
    rw [UInt64.le_iff_toNat_le, above] at reaches
    rw [UInt64.le_iff_toNat_le]
    exact ⟨fun _ => by omega, fun _ => rfl⟩

/-- The parent check of the own proposal: it fails right after genesis and
passes above, given a later timestamp. -/
theorem checksParent_assembleBlock (ok : StoreOk prim headers engine) (free : CollisionFree prim headers)
    (proposal : Proposal) {parent : Option Block} (found : engine.parentBlock = some parent)
    (later : forall tip, engine.getBlockByHeight engine.currentHeight = some tip ->
      tip.header.timestamp < proposal.now) :
    engine.checksParent (engine.assembleBlock prim proposal parent) = true <-> 0 < engine.currentHeight := by
  unfold parentBlock at found
  by_cases above : 0 < engine.currentHeight
  · rw [if_pos above] at found
    cases stored : engine.getBlockByHeight engine.currentHeight with
    | none =>
        rw [stored] at found
        cases found
    | some tip =>
        rw [stored] at found
        cases Option.some.inj found
        rcases ok.getBlockByHeight stored with ⟨keyed, atHeight⟩
        have previous : (engine.assembleBlock prim proposal (some tip)).header.previousHash = tip.hash prim := rfl
        have height : (engine.assembleBlock prim proposal (some tip)).header.height = engine.currentHeight + 1 := rfl
        have clock : (engine.assembleBlock prim proposal (some tip)).header.timestamp = proposal.now := rfl
        simp only [checksParent, previous, keyed, height, clock, atHeight, decide_true, Bool.true_and,
          decide_eq_true_eq]
        exact ⟨fun _ => above, fun _ => later tip stored⟩
  · rw [if_neg above] at found
    cases Option.some.inj found
    have previous : (engine.assembleBlock prim proposal none).header.previousHash = Blake3Hash.zero := rfl
    simp only [checksParent, previous, ok.getBlock_zero free]
    exact ⟨nofun, fun positive => absurd positive above⟩

/-- The tip is past genesis and the highest certificate, at most as high as the
tip, verifies.  At the last height the next height wraps to zero instead. -/
def TipCertified (prim : Primitives) (engine : ConsensusEngine) : Prop :=
  engine.currentHeight + 1 = 0 ∨
    0 < engine.currentHeight ∧ engine.highestQc.blockHeight ≤ engine.currentHeight ∧
      QCVerifier.verifyQc prim engine.highestQc engine.currentSet = .ok true

theorem verifyBlock_assembleBlock (ok : EngineOk prim headers engine) (free : CollisionFree prim headers)
    (proposal : Proposal) {parent : Option Block} (leads : engine.isCurrentLeader proposal.proposerId = true)
    (found : engine.parentBlock = some parent)
    (later : forall tip, engine.getBlockByHeight engine.currentHeight = some tip ->
      tip.header.timestamp < proposal.now) :
    engine.verifyBlock prim (engine.assembleBlock prim proposal parent) = .ok true <-> TipCertified prim engine := by
  have proposer : (engine.assembleBlock prim proposal parent).header.proposer = proposal.proposerId := rfl
  have height : (engine.assembleBlock prim proposal parent).header.height = engine.currentHeight + 1 := rfl
  have justify : (engine.assembleBlock prim proposal parent).justify = engine.highestQc := rfl
  have active := isActive_of_isCurrentLeader ok.registry.distinct leads
  rw [verifyBlock_eq_true_iff, proposer, height, justify, leads, active]
  unfold TipCertified
  by_cases wraps : engine.currentHeight + 1 = 0
  · have extending : engine.extendsHighestQc (engine.assembleBlock prim proposal parent) = true := by
      rw [extendsHighestQc, height, if_pos wraps]
    rw [extending, wraps]
    exact ⟨fun _ => Or.inl rfl, fun _ => ⟨rfl, rfl, fun positive => absurd positive (UInt64.lt_irrefl 0), rfl,
      fun positive => absurd positive (UInt64.lt_irrefl 0)⟩⟩
  · have positive : 0 < engine.currentHeight + 1 := UInt64.pos_iff_ne_zero.mpr wraps
    rw [extendsHighestQc_assembleBlock proposal parent wraps,
      checksParent_assembleBlock ok.store free proposal found later]
    constructor
    · rintro ⟨below, _, above, _, verified⟩
      exact Or.inr ⟨above positive, below, verified positive⟩
    · rintro (wrapped | ⟨above, below, verified⟩)
      · exact absurd wrapped wraps
      · exact ⟨below, rfl, fun _ => above, rfl, fun _ => verified⟩

/-- Exactly when peers accept an honest proposal. -/
theorem proposal_accepted_iff (prim : Primitives) (registryConfig : RegistryConfig)
    (registryCalls : List RegistryCall) (machine : StateMachine) (config : EngineConfig)
    (headers : Set BlockHeader) (free : CollisionFree prim headers) (start : ConsensusEngine)
    (constructed : start = initial
      (run (ValidatorRegistry.call prim) (ValidatorRegistry.create registryConfig) registryCalls) machine config)
    (calls : List NodeCall) (guarded : Along (nodeCall prim) (NodeWithinHeaders prim headers) start calls)
    (first second : ConsensusEngine) (reached : first = run (nodeCall prim) start calls) (peers : Peers first second)
    (proposal : Proposal) (block : Block) (returned : (first.proposeBlock prim proposal).1 = some block)
    (later : forall tip, first.getBlockByHeight first.currentHeight = some tip ->
      tip.header.timestamp < block.header.timestamp) :
    (second.onReceiveBlock prim block).1 = .ok true <-> TipCertified prim first := by
  subst constructed
  have ok := engineOk_run registryConfig registryCalls machine config free guarded
  rw [← reached] at ok
  rcases proposeBlock_eq_some returned with ⟨parent, leads, found, rfl, _⟩
  rw [onReceiveBlock_eq_true_iff, peers.verifyBlock]
  exact verifyBlock_assembleBlock ok free proposal leads found later

/-! ### A registry of three bonded validators -/

/-- The call that registers a numbered validator with the minimum bond. -/
def registration (number : Nat) : RegistryCall :=
  .addValidator (FixedBytes.ofNat 32 number) (FixedBytes.ofNat 48 number) (FixedBytes.ofNat 32 number) 100000

/-- Three registrations and the transition to the first epoch. -/
def bondingCalls : List RegistryCall := [registration 1, registration 2, registration 3, .transitionEpoch 1 0]

def bondedRegistry : ValidatorRegistry :=
  run (ValidatorRegistry.call Transparent.primitives) (ValidatorRegistry.create {}) bondingCalls

def bondedEngine : ConsensusEngine :=
  started Transparent.primitives bondedRegistry (StateMachine.create 1) {} (genesisAt 0)

/-- The block of height one, justified by a certificate of all three validators
for genesis. -/
def bondedBlock : Block := childOf (genesisAt 0) 1 { genesisQc with totalStakeSigned := 300000 }

/-- After genesis the block is received, and two validators vote for it. -/
def bondedCalls : List NodeCall :=
  [.genesis (genesisAt 0), .engine (.onReceiveBlock bondedBlock),
    .engine (.onReceiveVote (signedVote 1 1 (bondedBlock.hash Transparent.primitives))),
    .engine (.onReceiveVote (signedVote 2 1 (bondedBlock.hash Transparent.primitives)))]

def certifiedEngine : ConsensusEngine :=
  run (nodeCall Transparent.primitives) (initial bondedRegistry (StateMachine.create 1) {}) bondedCalls

/-- The proposal on top of the certified block. -/
def secondBlock : Block := certifiedEngine.assembleBlock Transparent.primitives (plainProposal 5) (some bondedBlock)

/-- A peer with an unrelated state machine. -/
def otherPeer (engine : ConsensusEngine) : ConsensusEngine := { engine with stateMachine := StateMachine.create 2 }

theorem peers_otherPeer (engine : ConsensusEngine) : Peers engine (otherPeer engine) :=
  ⟨rfl, rfl, fun _ => rfl, rfl, rfl⟩

/-- Above a certified block, a peer accepts the proposal. -/
theorem proposal_accepted_iff_certified :
    (certifiedEngine.proposeBlock Transparent.primitives (plainProposal 5)).1 = some secondBlock ∧
    ((otherPeer certifiedEngine).onReceiveBlock Transparent.primitives secondBlock).1 = .ok true := by
  have free : CollisionFree Transparent.primitives
      { header | header ∈ [(genesisAt 0).header, bondedBlock.header] } :=
    collisionFree_of_nodup (by decide +kernel) (by decide +kernel)
  have guarded : Along (nodeCall Transparent.primitives)
      (NodeWithinHeaders Transparent.primitives { header | header ∈ [(genesisAt 0).header, bondedBlock.header] })
      (initial bondedRegistry (StateMachine.create 1) {}) bondedCalls := by
    refine ⟨List.mem_cons_self, ?_, nofun, nofun, trivial⟩
    intro block stores
    cases Option.some.inj stores
    exact List.mem_cons_of_mem _ List.mem_cons_self
  have returned : (certifiedEngine.proposeBlock Transparent.primitives (plainProposal 5)).1 = some secondBlock := by
    decide +kernel
  have tip : certifiedEngine.getBlockByHeight certifiedEngine.currentHeight = some bondedBlock := by decide +kernel
  have certified : TipCertified Transparent.primitives certifiedEngine :=
    Or.inr ⟨by decide +kernel, by decide +kernel, by decide +kernel⟩
  refine ⟨returned, (proposal_accepted_iff Transparent.primitives {} bondingCalls (StateMachine.create 1) {} _ free
    _ rfl bondedCalls guarded certifiedEngine (otherPeer certifiedEngine) rfl (peers_otherPeer certifiedEngine)
    (plainProposal 5) secondBlock returned ?_).mpr certified⟩
  intro other found
  cases Option.some.inj (tip.symm.trans found)
  decide +kernel

/-- The first proposal after genesis, later than genesis, is rejected by a peer
in the same state. -/
theorem first_proposal_rejected :
    bondedEngine.currentSet.getActiveValidators ≠ [] ∧ Peers bondedEngine (otherPeer bondedEngine) ∧
    (bondedEngine.proposeBlock Transparent.primitives (plainProposal 5)).1 =
      some (bondedEngine.assembleBlock Transparent.primitives (plainProposal 5) none) ∧
    (genesisAt 0).header.timestamp < (plainProposal 5).now ∧
    ((otherPeer bondedEngine).onReceiveBlock Transparent.primitives
      (bondedEngine.assembleBlock Transparent.primitives (plainProposal 5) none)).1 = .ok false := by
  exact ⟨by decide +kernel, peers_otherPeer bondedEngine, by decide +kernel, by decide +kernel, by decide +kernel⟩

end ConsensusEngine
end Consensus
end Sarafu

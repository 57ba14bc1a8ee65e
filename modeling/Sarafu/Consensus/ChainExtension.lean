import Sarafu.Consensus.HeightBinding

namespace Sarafu
namespace Consensus

open Crypto State Library.Runs

/-!
# Accepted blocks and the blocks that justify them

`extends_highest_qc` compares heights, while what it is named after is a
relation between hashes.  On a store that is closed under parents the two agree
as long as no other block is stored at the height of the certificate: the walk
down from an accepted block passes every lower height, and at that height there
is only one block to pass.
-/

namespace ConsensusEngine

/-- Following `previous_hash` through the store leads from the block to the hash. -/
inductive Ancestor (engine : ConsensusEngine) (target : Blake3Hash) : Block -> Prop
  | parent {block parent : Block} (found : engine.getBlock block.header.previousHash = some parent)
      (named : block.header.previousHash = target) : Ancestor engine target block
  | step {block parent : Block} (found : engine.getBlock block.header.previousHash = some parent)
      (further : Ancestor engine target parent) : Ancestor engine target block

/-- The parent of the block is stored one height below it. -/
def HasParent (engine : ConsensusEngine) (block : Block) : Prop :=
  ∃ parent, engine.getBlock block.header.previousHash = some parent ∧
    block.header.height = parent.header.height + 1

/-- Every stored block above height zero has its parent. -/
def ChainClosed (engine : ConsensusEngine) : Prop :=
  forall hash block, engine.getBlock hash = some block -> 0 < block.header.height -> engine.HasParent block

/-- No stored block of the certificate's height has another hash. -/
def UniqueAt (engine : ConsensusEngine) (qc : QuorumCertificate) : Prop :=
  forall hash block, engine.getBlock hash = some block -> block.header.height = qc.blockHeight -> hash = qc.blockHash

variable {prim : Primitives} {engine : ConsensusEngine} {headers : Set BlockHeader} {target : Blake3Hash}

theorem ancestor_iff {block parent : Block} (found : engine.getBlock block.header.previousHash = some parent) :
    Ancestor engine target block <-> block.header.previousHash = target ∨ Ancestor engine target parent := by
  constructor
  · intro ancestor
    cases ancestor with
    | parent _ named => exact Or.inl named
    | step other further =>
        cases Option.some.inj (found.symm.trans other)
        exact Or.inr further
  · rintro (named | further)
    · exact Ancestor.parent found named
    · exact Ancestor.step found further

theorem not_ancestor_of_missing {block : Block} (missing : engine.getBlock block.header.previousHash = none) :
    ¬ Ancestor engine target block := by
  intro ancestor
  cases ancestor with
  | parent found _ =>
      rw [missing] at found
      cases found
  | step found _ =>
      rw [missing] at found
      cases found

/-- A positive successor height is one more as a natural number. -/
theorem toNat_of_successor {height parentHeight : UInt64} (above : height = parentHeight + 1)
    (positive : 0 < height) : height.toNat = parentHeight.toNat + 1 := by
  have nonzero : 0 < height.toNat := UInt64.lt_iff_toNat_lt.mp positive
  rw [above, UInt64.toNat_add] at nonzero ⊢
  have bound := parentHeight.toNat_lt
  have one : (1 : UInt64).toNat = 1 := rfl
  rw [one] at nonzero ⊢
  omega

/-- The descent.  The induction is on the height of the block. -/
theorem ancestor_of_uniqueAt (closed : engine.ChainClosed) {qc : QuorumCertificate} (unique : engine.UniqueAt qc)
    {block : Block} (linked : engine.HasParent block) (below : qc.blockHeight < block.header.height) :
    Ancestor engine qc.blockHash block := by
  induction bound : block.header.height.toNat using Nat.strong_induction_on generalizing block with
  | _ height inductionHypothesis =>
      rcases linked with ⟨parent, found, above⟩
      have positive : 0 < block.header.height := by
        rw [UInt64.lt_iff_toNat_lt] at below ⊢
        exact Nat.lt_of_le_of_lt (Nat.zero_le _) below
      have successor := toNat_of_successor above positive
      rw [UInt64.lt_iff_toNat_lt] at below
      by_cases reached : parent.header.height = qc.blockHeight
      · exact Ancestor.parent found (unique _ parent found reached)
      · have further : qc.blockHeight < parent.header.height := by
          rw [UInt64.lt_iff_toNat_lt]
          have different : parent.header.height.toNat ≠ qc.blockHeight.toNat := fun same =>
            reached (UInt64.toNat_inj.mp same)
          omega
        have parentPositive : 0 < parent.header.height := by
          rw [UInt64.lt_iff_toNat_lt] at further ⊢
          exact Nat.lt_of_le_of_lt (Nat.zero_le _) further
        exact Ancestor.step found (inductionHypothesis parent.header.height.toNat (by omega)
          (closed _ parent found parentPositive) further rfl)

/-! ## The store stays closed -/

/-- Parents are kept when a block is stored, under the same header. -/
theorem HasParent.storeBlock (ok : StoreOk prim headers engine) (free : CollisionFree prim headers) {block : Block}
    (listed : block.header ∈ headers) {other : Block} (linked : engine.HasParent other) :
    (engine.storeBlock prim block).HasParent other := by
  rcases linked with ⟨parent, found, above⟩
  unfold HasParent
  rw [getBlock_storeBlock]
  split
  · rename_i replaced
    have sameHeader : block.header = parent.header :=
      free.injective _ listed _ (ok.known _ parent found)
        (replaced.symm.trans (ok.keyed _ parent found).symm)
    exact ⟨block, rfl, sameHeader ▸ above⟩
  · exact ⟨parent, found, above⟩

theorem ChainClosed.storeBlock (closed : engine.ChainClosed) (ok : StoreOk prim headers engine)
    (free : CollisionFree prim headers) {block : Block} (listed : block.header ∈ headers)
    (linked : 0 < block.header.height -> engine.HasParent block) : (engine.storeBlock prim block).ChainClosed := by
  intro hash other stored positive
  rw [getBlock_storeBlock] at stored
  split at stored
  · cases Option.some.inj stored
    exact (linked positive).storeBlock ok free listed
  · exact (closed hash other stored positive).storeBlock ok free listed

theorem HasParent.sameStore {after : ConsensusEngine} {block : Block} (parent : engine.HasParent block)
    (same : SameStore engine after) : after.HasParent block := by
  rcases parent with ⟨parent, found, next⟩
  exact ⟨parent, (getBlock_of_sameStore same _).trans found, next⟩

theorem ChainClosed.sameStore {after : ConsensusEngine} (closed : engine.ChainClosed)
    (same : SameStore engine after) : after.ChainClosed := by
  intro hash block stored positive
  rw [getBlock_of_sameStore same] at stored
  exact (closed hash block stored positive).sameStore same

/-- A verified block above height zero has its parent. -/
theorem hasParent_of_verified {block : Block} (verified : engine.verifyBlock prim block = .ok true)
    (positive : 0 < block.header.height) : engine.HasParent block := by
  have checked := ((verifyBlock_eq_true_iff block).mp verified).2.2.1 positive
  unfold checksParent at checked
  cases found : engine.getBlock block.header.previousHash with
  | none =>
      rw [found] at checked
      cases checked
  | some parent =>
      rw [found] at checked
      simp only [Bool.and_eq_true, decide_eq_true_eq] at checked
      exact ⟨parent, found, checked.1⟩

/-- A block proposed above height zero has its parent. -/
theorem hasParent_of_proposed (ok : StoreOk prim headers engine) (proposal : Proposal) {parent : Option Block}
    (found : engine.parentBlock = some parent) (above : 0 < engine.currentHeight) :
    engine.HasParent (engine.assembleBlock prim proposal parent) := by
  unfold parentBlock at found
  rw [if_pos above] at found
  cases stored : engine.getBlockByHeight engine.currentHeight with
  | none =>
      rw [stored] at found
      cases found
  | some block =>
      rw [stored] at found
      cases Option.some.inj found
      rcases ok.getBlockByHeight stored with ⟨keyed, atHeight⟩
      exact ⟨block, keyed, congrArg (· + 1) atHeight.symm⟩

/-- The calls of a run without forks: known headers, proposals only above
height zero, and at every received block that verifies no second block at the
heights of its certificate and of the engine's. -/
def WithoutForks (prim : Primitives) (headers : Set BlockHeader) (engine : ConsensusEngine) (step : NodeCall) : Prop :=
  engine.NodeWithinHeaders prim headers step ∧
    (forall proposal, step = .engine (.proposeBlock proposal) ->
      engine.isCurrentLeader proposal.proposerId = true -> 0 < engine.currentHeight) ∧
    forall block, step = .engine (.onReceiveBlock block) -> engine.verifyBlock prim block = .ok true ->
      engine.UniqueAt block.justify ∧ engine.UniqueAt engine.highestQc

theorem ChainClosed.nodeCall (closed : engine.ChainClosed) (ok : StoreOk prim headers engine)
    (free : CollisionFree prim headers) {step : NodeCall} (guarded : engine.WithoutForks prim headers step) :
    (engine.nodeCall prim step).ChainClosed := by
  rcases guarded with ⟨within, proposals, _⟩
  cases step with
  | registry step => exact closed.sameStore ⟨rfl, rfl⟩
  | genesis block =>
      rcases nodeCall_genesis_cases prim engine block with ⟨zero, outcome⟩ | outcome
      · rw [outcome]
        refine (closed.storeBlock ok free within ?_).sameStore ⟨rfl, rfl⟩
        intro positive
        rw [zero] at positive
        exact absurd positive (UInt64.lt_irrefl 0)
      · rw [outcome]
        exact closed
  | engine step =>
      cases step with
      | proposeBlock proposal =>
          simp only [ConsensusEngine.nodeCall, ConsensusEngine.call]
          rcases proposeBlock_cases prim engine proposal with ⟨parent, leads, found, outcome⟩ | outcome
          · have listed := within (engine.assembleBlock prim proposal parent) (by simp only [storedBy, outcome])
            have linked := hasParent_of_proposed ok proposal found (proposals proposal rfl leads)
            rw [outcome]
            exact (closed.storeBlock ok free listed fun _ => linked).sameStore ⟨rfl, rfl⟩
          · rw [outcome]
            exact closed
      | onReceiveBlock block =>
          simp only [ConsensusEngine.nodeCall, ConsensusEngine.call]
          rcases onReceiveBlock_cases prim engine block with ⟨verified, outcome⟩ | ⟨_, _, unchanged⟩
          · rw [outcome]
            exact (closed.storeBlock ok free (within block rfl) (hasParent_of_verified verified)).sameStore ⟨rfl, rfl⟩
          · rw [unchanged]
            exact closed
      | onReceiveVote vote =>
          rcases call_store_cases prim engine (.onReceiveVote vote) with ⟨block, stores, _⟩ | same
          · cases stores
          · exact closed.sameStore same
      | triggerViewChange => exact closed.sameStore ⟨rfl, rfl⟩

theorem chainClosed_initial (registry : ValidatorRegistry) (machine : StateMachine) (config : EngineConfig) :
    (initial registry machine config).ChainClosed := by
  intro hash block stored
  rw [getBlock_initial] at stored
  cases stored

/-- The heights that `extends_highest_qc` establishes. -/
theorem heights_of_verified {block : Block} (verified : engine.verifyBlock prim block = .ok true)
    (positive : 0 < block.header.height) :
    block.justify.blockHeight < block.header.height ∧ engine.highestQc.blockHeight < block.header.height := by
  have extending := ((verifyBlock_eq_true_iff block).mp verified).1
  have nonzero : block.header.height ≠ 0 := fun zero => UInt64.lt_irrefl 0 (zero ▸ positive)
  unfold extendsHighestQc at extending
  rw [if_neg nonzero] at extending
  split at extending
  · cases extending
  · split at extending
    · cases extending
    · rename_i notLower
      split at extending
      · cases extending
      · rename_i notAbove
        have below := UInt64.not_le.mp notAbove
        exact ⟨below, UInt64.lt_of_le_of_lt (UInt64.not_lt.mp notLower) below⟩

/-- A block accepted by a call descends from both certified blocks. -/
def ExtendsCertificates (prim : Primitives) (engine : ConsensusEngine) (step : NodeCall) : Prop :=
  forall block, step = .engine (.onReceiveBlock block) -> 0 < block.header.height ->
    (engine.onReceiveBlock prim block).1 = .ok true ->
    Ancestor engine block.justify.blockHash block ∧ Ancestor engine engine.highestQc.blockHash block

/-- In every run without forks at the certified heights, every accepted block
descends from the block its certificate names and from the block that the
highest certificate names. -/
theorem accepted_extends_certificates (prim : Primitives) (registry : ValidatorRegistry) (machine : StateMachine)
    (config : EngineConfig) (headers : Set BlockHeader) (free : CollisionFree prim headers) (calls : List NodeCall)
    (guarded : Along (nodeCall prim) (WithoutForks prim headers) (initial registry machine config) calls) :
    Along (nodeCall prim) (ExtendsCertificates prim) (initial registry machine config) calls := by
  refine along_of_invariant (fun engine => StoreOk prim headers engine ∧ engine.ChainClosed) ?_ ?_
    ⟨storeOk_initial registry machine config, chainClosed_initial registry machine config⟩ guarded
  · intro engine step invariant guard
    exact ⟨invariant.1.nodeCall free guard.1, invariant.2.nodeCall invariant.1 free guard⟩
  · intro engine step invariant guard block same positive accepted
    have verified := (onReceiveBlock_eq_true_iff block).mp accepted
    rcases guard.2.2 block same verified with ⟨uniqueJustify, uniqueHighest⟩
    rcases heights_of_verified verified positive with ⟨belowJustify, belowHighest⟩
    have linked := hasParent_of_verified verified positive
    exact ⟨ancestor_of_uniqueAt invariant.2 uniqueJustify linked belowJustify,
      ancestor_of_uniqueAt invariant.2 uniqueHighest linked belowHighest⟩

/-! ## A fork at height one -/

/-- A certificate for the genesis block, signed by all three validators. -/
def genesisQc : QuorumCertificate :=
  ⟨0, (genesisAt 0).hash Transparent.primitives, 0,
    BLS12381.sign Transparent.primitives ((genesisAt 0).hash Transparent.primitives).serialize (FixedBytes.ofNat 32 1),
    [FixedBytes.ofNat 32 1, FixedBytes.ofNat 32 2, FixedBytes.ofNat 32 3], 3⟩

/-- A block of the first validator on top of another block. -/
def childOf (parent : Block) (timestamp : UInt64) (justify : QuorumCertificate) : Block :=
  ⟨⟨parent.header.height + 1, timestamp, parent.hash Transparent.primitives, Blake3Hash.zero, Blake3Hash.zero,
    Blake3Hash.zero, FixedBytes.ofNat 32 1, 0⟩, [], justify⟩

/-- Two blocks at height one that differ in their timestamps only. -/
def forkBlock (timestamp : UInt64) : Block := childOf (genesisAt 0) timestamp genesisQc

theorem uniqueAt_unitEngine {qc : QuorumCertificate}
    (names : qc.blockHash = (genesisAt 0).hash Transparent.primitives) :
    (unitEngine 3).UniqueAt qc := by
  intro hash block stored _
  rw [unitEngine, getBlock_started] at stored
  split at stored
  · rename_i same
    rw [same, names]
  · cases stored

/-- A first block on genesis is accepted and extends both certificates. -/
theorem accepted_extends_certificates_first :
    ((unitEngine 3).onReceiveBlock Transparent.primitives (forkBlock 1)).1 = .ok true ∧
    Ancestor (unitEngine 3) (forkBlock 1).justify.blockHash (forkBlock 1) ∧
    Ancestor (unitEngine 3) (unitEngine 3).highestQc.blockHash (forkBlock 1) := by
  have free : CollisionFree Transparent.primitives
      { header | header ∈ [(genesisAt 0).header, (forkBlock 1).header] } :=
    collisionFree_of_nodup (by decide +kernel) (by decide +kernel)
  have guarded : Along (nodeCall Transparent.primitives)
      (WithoutForks Transparent.primitives { header | header ∈ [(genesisAt 0).header, (forkBlock 1).header] })
      (initial (registryWith (unitSet 3)) (StateMachine.create 1) {})
      [.genesis (genesisAt 0), .engine (.onReceiveBlock (forkBlock 1))] := by
    refine ⟨⟨List.mem_cons_self, nofun, nofun⟩, ⟨?_, nofun, ?_⟩, trivial⟩
    · intro block stores
      cases Option.some.inj stores
      exact List.mem_cons_of_mem _ List.mem_cons_self
    · intro block same _
      cases same
      exact ⟨uniqueAt_unitEngine rfl, uniqueAt_unitEngine rfl⟩
  have accepted : ((unitEngine 3).onReceiveBlock Transparent.primitives (forkBlock 1)).1 = .ok true := by
    decide +kernel
  exact ⟨accepted, (accepted_extends_certificates Transparent.primitives (registryWith (unitSet 3))
    (StateMachine.create 1) {} _ free [.genesis (genesisAt 0), .engine (.onReceiveBlock (forkBlock 1))]
    guarded).2.1 _ rfl (by decide +kernel) accepted⟩

/-- Both blocks at height one are accepted, and the first one is certified. -/
def forkedEngine : ConsensusEngine :=
  run (call Transparent.primitives) (unitEngine 3)
    [.onReceiveBlock (forkBlock 1), .onReceiveBlock (forkBlock 2),
      .onReceiveVote (signedVote 1 1 ((forkBlock 1).hash Transparent.primitives)),
      .onReceiveVote (signedVote 2 1 ((forkBlock 1).hash Transparent.primitives))]

/-- A block on the uncertified side of the fork, justified by the certified one. -/
def crossingBlock : Block := childOf (forkBlock 2) 3 forkedEngine.highestQc

/-- The crossing block is accepted although the block that its certificate and
the highest certificate name is not among its ancestors. -/
theorem crossingBlock_accepted :
    (forkedEngine.onReceiveBlock Transparent.primitives crossingBlock).1 = .ok true ∧
    0 < crossingBlock.header.height ∧
    forkedEngine.highestQc.blockHash = (forkBlock 1).hash Transparent.primitives ∧
    crossingBlock.justify.blockHash = forkedEngine.highestQc.blockHash ∧
    ¬ Ancestor forkedEngine forkedEngine.highestQc.blockHash crossingBlock := by
  refine ⟨by decide +kernel, by decide +kernel, by decide +kernel, by decide +kernel, ?_⟩
  have crossingParent : forkedEngine.getBlock crossingBlock.header.previousHash = some (forkBlock 2) := by
    decide +kernel
  have forkParent : forkedEngine.getBlock (forkBlock 2).header.previousHash = some (genesisAt 0) := by
    decide +kernel
  have noParent : forkedEngine.getBlock (genesisAt 0).header.previousHash = none := by decide +kernel
  rw [ancestor_iff crossingParent, ancestor_iff forkParent]
  rintro (named | named | further)
  · exact absurd named (by decide +kernel)
  · exact absurd named (by decide +kernel)
  · exact not_ancestor_of_missing noParent further

end ConsensusEngine
end Consensus
end Sarafu

import Sarafu.Consensus.ChainExtension
import Sarafu.State.Replay

namespace Sarafu
namespace Consensus

open Crypto State Library.Runs

/-!
# State roots of proposals and the chains they extend

Proposing executes on the live state machine, and nothing takes the execution
back when the proposal is abandoned; receiving a block executes nothing.  The
state machine of an engine has therefore executed exactly the engine's own
proposals, in the order in which it made them.  A proposal carries the state
root of its own chain when those proposals and its ancestors amount to the same
ledger.  They always do with a signature library that rejects the all-zero key
`execute_block` passes to it: no transaction of a block is ever executed.
-/

/-- A block with the base fee it is executed with. -/
structure Execution where
  block : Block
  baseFee : UInt64

/-- Execute one block on a state machine. -/
def Execution.apply (prim : Primitives) (machine : StateMachine) (execution : Execution) : StateMachine :=
  (machine.executeBlock prim execution.block.header.height execution.block.transactions execution.baseFee
    execution.block.header.proposer).2

/-- Execute a list of blocks in order. -/
def replay (prim : Primitives) (machine : StateMachine) (history : List Execution) : StateMachine :=
  history.foldl (Execution.apply prim) machine

/-- A state machine that has executed nothing, with the given accounts. -/
def freshMachine (chainId : UInt32) (accounts : AccountManager) : StateMachine :=
  { StateMachine.create chainId with transactionExecutor := ⟨accounts, 0, 0⟩ }

/-- The blocks that carry transactions. -/
def carrying (blocks : List Block) : List Block := blocks.filter fun block => block.transactions.isEmpty = false

/-- Every block with its own base fee. -/
def withFees (fees : Block -> UInt64) (blocks : List Block) : List Execution :=
  blocks.map fun block => ⟨block, fees block⟩

open StateMachine

section Replaying

variable {prim : Primitives} {first second : StateMachine}

theorem replay_append (machine : StateMachine) (earlier later : List Execution) :
    replay prim machine (earlier ++ later) = replay prim (replay prim machine earlier) later :=
  List.foldl_append

theorem sameLedger_replay (same : SameLedger first second) (history : List Execution) :
    SameLedger (replay prim first history) (replay prim second history) := by
  induction history generalizing first second with
  | nil => exact same
  | cons execution rest inductionHypothesis =>
      exact inductionHypothesis (same.executeBlock _ _ execution.baseFee _)

/-- Blocks without transactions may be left out of a replay. -/
theorem replay_carrying (prim : Primitives) (fees : Block -> UInt64) (machine : StateMachine) (blocks : List Block) :
    SameLedger (replay prim machine (withFees fees blocks))
      (replay prim machine (withFees fees (carrying blocks))) := by
  induction blocks generalizing machine with
  | nil => exact SameLedger.refl machine
  | cons block rest inductionHypothesis =>
      have later := inductionHypothesis (Execution.apply prim machine ⟨block, fees block⟩)
      cases empty : block.transactions.isEmpty with
      | false =>
          have kept : carrying (block :: rest) = block :: carrying rest := by
            rw [carrying, List.filter_cons_of_pos (by rw [empty]; rfl)]
            rfl
          rw [kept]
          exact later
      | true =>
          have dropped : carrying (block :: rest) = carrying rest := by
            rw [carrying, List.filter_cons_of_neg (by rw [empty]; exact Bool.false_ne_true)]
            rfl
          rw [dropped]
          have unchanged : SameLedger machine (Execution.apply prim machine ⟨block, fees block⟩) := by
            unfold Execution.apply
            simp only [List.isEmpty_iff.mp empty]
            exact executeBlock_nil _ _ _
          exact later.trans (sameLedger_replay unchanged.symm _)

/-- Under a library that rejects the default key nothing is ever executed. -/
theorem replay_rejected (rejects : RejectsDefaultKey prim) (machine : StateMachine) (history : List Execution) :
    SameLedger machine (replay prim machine history) := by
  induction history generalizing machine with
  | nil => exact SameLedger.refl machine
  | cons execution rest inductionHypothesis =>
      exact (executeBlock_rejected rejects _ _ execution.baseFee _).trans (inductionHypothesis _)

end Replaying

namespace ConsensusEngine

variable {prim : Primitives} {engine : ConsensusEngine} {headers : Set BlockHeader}

/-- The execution that a call performs on the live state machine. -/
def executedBy (prim : Primitives) (engine : ConsensusEngine) : EngineCall -> Option Execution
  | .proposeBlock proposal => (engine.proposeBlock prim proposal).1.map fun block => ⟨block, proposal.baseFee⟩
  | .onReceiveBlock _ => none
  | .onReceiveVote _ => none
  | .triggerViewChange => none

/-- The executions along a run: the engine's own proposals. -/
def executedAlong (prim : Primitives) (engine : ConsensusEngine) (calls : List EngineCall) : List Execution :=
  outputs (call prim) (executedBy prim) engine calls

/-- The ancestors of a block in the store, oldest first.  The walk ends at a
block of height zero or where no parent is stored. -/
inductive Ancestry (engine : ConsensusEngine) : Block -> List Block -> Prop
  | rootless {block : Block} (missing : engine.getBlock block.header.previousHash = none) :
      Ancestry engine block []
  | genesis {block parent : Block} (found : engine.getBlock block.header.previousHash = some parent)
      (zero : parent.header.height = 0) : Ancestry engine block []
  | step {block parent : Block} {older : List Block}
      (found : engine.getBlock block.header.previousHash = some parent)
      (positive : parent.header.height ≠ 0) (further : Ancestry engine parent older) :
      Ancestry engine block (older ++ [parent])

/-- The state root of the block is the root of replaying its own chain. -/
def RootOfChain (prim : Primitives) (genesisMachine : StateMachine) (fees : Block -> UInt64)
    (engine : ConsensusEngine) (block : Block) : Prop :=
  forall ancestors, Ancestry engine block ancestors ->
    block.header.stateRoot =
      (replay prim genesisMachine (withFees fees (ancestors ++ [block]))).computeStateRoot prim

/-- The live state machine after a call has executed what the call executed. -/
theorem stateMachine_call (prim : Primitives) (engine : ConsensusEngine) (step : EngineCall) :
    (engine.call prim step).stateMachine = replay prim engine.stateMachine (engine.executedBy prim step).toList := by
  cases step with
  | proposeBlock proposal =>
      rcases proposeBlock_cases prim engine proposal with ⟨parent, _, _, outcome⟩ | outcome
      · simp only [call, executedBy, outcome]
        rfl
      · simp only [call, executedBy, outcome]
        rfl
  | onReceiveBlock block =>
      rcases onReceiveBlock_cases prim engine block with ⟨_, outcome⟩ | ⟨_, _, unchanged⟩
      · simp only [call, outcome]
        rfl
      · simp only [call, unchanged]
        rfl
  | onReceiveVote vote =>
      rcases onReceiveVote_cases prim engine vote with
        ⟨_, outcome⟩ | ⟨_, outcome, _, _⟩ | ⟨_, qc, _, _, outcome⟩
      · simp only [call, outcome]
        rfl
      · simp only [call, outcome]
        rfl
      · simp only [call, outcome]
        rfl
  | triggerViewChange => rfl

/-- The live state machine of a run has executed the engine's own proposals. -/
theorem stateMachine_run (prim : Primitives) (engine : ConsensusEngine) (calls : List EngineCall) :
    (run (call prim) engine calls).stateMachine =
      replay prim engine.stateMachine (executedAlong prim engine calls) := by
  induction calls generalizing engine with
  | nil => rfl
  | cons step rest inductionHypothesis =>
      rw [run_cons, inductionHypothesis (engine.call prim step), stateMachine_call]
      exact (replay_append _ _ _).symm

/-- The root in a proposal is the root after executing it on the live state. -/
theorem stateRoot_of_proposed {proposal : Proposal} {block : Block}
    (returned : (engine.proposeBlock prim proposal).1 = some block) :
    block.header.stateRoot =
      (replay prim engine.stateMachine [⟨block, proposal.baseFee⟩]).computeStateRoot prim := by
  rcases proposeBlock_eq_some returned with ⟨parent, _, _, rfl, _⟩
  rfl

/-! ## Every block has its ancestors -/

/-- Every stored block above height zero has its parent, unless it names none. -/
def Rooted (engine : ConsensusEngine) : Prop :=
  forall hash block, engine.getBlock hash = some block -> 0 < block.header.height ->
    block.header.previousHash = Blake3Hash.zero ∨ engine.HasParent block

theorem Rooted.storeBlock (rooted : engine.Rooted) (ok : StoreOk prim headers engine)
    (free : CollisionFree prim headers) {block : Block} (listed : block.header ∈ headers)
    (linked : 0 < block.header.height ->
      block.header.previousHash = Blake3Hash.zero ∨ engine.HasParent block) :
    (engine.storeBlock prim block).Rooted := by
  intro hash other stored positive
  rw [getBlock_storeBlock] at stored
  split at stored
  · cases Option.some.inj stored
    exact (linked positive).imp_right fun parent => parent.storeBlock ok free listed
  · exact (rooted hash other stored positive).imp_right fun parent => parent.storeBlock ok free listed

theorem Rooted.sameStore {after : ConsensusEngine} (rooted : engine.Rooted) (same : SameStore engine after) :
    after.Rooted := by
  intro hash block stored positive
  rw [getBlock_of_sameStore same] at stored
  exact (rooted hash block stored positive).imp_right fun parent => parent.sameStore same

/-- The parent that a proposal names. -/
theorem linked_of_proposed (ok : StoreOk prim headers engine) (proposal : Proposal) {parent : Option Block}
    (found : engine.parentBlock = some parent) :
    (engine.assembleBlock prim proposal parent).header.previousHash = Blake3Hash.zero ∨
      engine.HasParent (engine.assembleBlock prim proposal parent) := by
  by_cases above : 0 < engine.currentHeight
  · exact Or.inr (hasParent_of_proposed ok proposal found above)
  · unfold parentBlock at found
    rw [if_neg above] at found
    cases Option.some.inj found
    exact Or.inl rfl

theorem Rooted.call (rooted : engine.Rooted) (ok : StoreOk prim headers engine) (free : CollisionFree prim headers)
    {step : EngineCall} (within : engine.WithinHeaders prim headers step) : (engine.call prim step).Rooted := by
  cases step with
  | proposeBlock proposal =>
      rcases proposeBlock_cases prim engine proposal with ⟨parent, _, found, outcome⟩ | outcome
      · have listed := within (engine.assembleBlock prim proposal parent) (by simp only [storedBy, outcome])
        simp only [ConsensusEngine.call, outcome]
        exact (rooted.storeBlock ok free listed fun _ => linked_of_proposed ok proposal found).sameStore ⟨rfl, rfl⟩
      · simp only [ConsensusEngine.call, outcome]
        exact rooted
  | onReceiveBlock block =>
      rcases onReceiveBlock_cases prim engine block with ⟨verified, outcome⟩ | ⟨_, _, unchanged⟩
      · simp only [ConsensusEngine.call, outcome]
        refine (rooted.storeBlock ok free (within block rfl) ?_).sameStore ⟨rfl, rfl⟩
        exact fun positive => Or.inr (hasParent_of_verified verified positive)
      · simp only [ConsensusEngine.call, unchanged]
        exact rooted
  | onReceiveVote vote =>
      rcases call_store_cases prim engine (.onReceiveVote vote) with ⟨block, stores, _⟩ | same
      · cases stores
      · exact rooted.sameStore same
  | triggerViewChange => exact rooted.sameStore ⟨rfl, rfl⟩

/-- The walk to the root.  The induction is on the height of the block. -/
theorem exists_ancestry_of_linked (rooted : engine.Rooted) (ok : StoreOk prim headers engine)
    (free : CollisionFree prim headers) {block : Block} (positive : 0 < block.header.height)
    (linked : block.header.previousHash = Blake3Hash.zero ∨ engine.HasParent block) :
    ∃ ancestors, Ancestry engine block ancestors := by
  induction bound : block.header.height.toNat using Nat.strong_induction_on generalizing block with
  | _ height inductionHypothesis =>
      rcases linked with none | ⟨parent, found, above⟩
      · exact ⟨[], Ancestry.rootless (none ▸ ok.getBlock_zero free)⟩
      · have successor := toNat_of_successor above positive
        by_cases zero : parent.header.height = 0
        · exact ⟨[], Ancestry.genesis found zero⟩
        · have parentPositive := UInt64.pos_iff_ne_zero.mpr zero
          rcases inductionHypothesis parent.header.height.toNat (by omega) parentPositive
            (rooted _ parent found parentPositive) rfl with ⟨older, chain⟩
          exact ⟨older ++ [parent], Ancestry.step found zero chain⟩

/-- A proposal has its ancestors, also at the height where the next one wraps. -/
theorem exists_ancestry_of_proposed (rooted : engine.Rooted) (ok : StoreOk prim headers engine)
    (free : CollisionFree prim headers) {proposal : Proposal} {block : Block}
    (returned : (engine.proposeBlock prim proposal).1 = some block) : ∃ ancestors, Ancestry engine block ancestors := by
  rcases proposeBlock_eq_some returned with ⟨parent, _, found, rfl, _⟩
  rcases linked_of_proposed ok proposal found with none | ⟨tip, stored, _⟩
  · exact ⟨[], Ancestry.rootless (none ▸ ok.getBlock_zero free)⟩
  · by_cases zero : tip.header.height = 0
    · exact ⟨[], Ancestry.genesis stored zero⟩
    · have positive := UInt64.pos_iff_ne_zero.mpr zero
      rcases exists_ancestry_of_linked rooted ok free positive (rooted _ tip stored positive) with ⟨older, chain⟩
      exact ⟨older ++ [tip], Ancestry.step stored zero chain⟩

/-- In every run from genesis the walk from a proposal ends. -/
theorem exists_ancestry (registry : ValidatorRegistry) (machine : StateMachine) (config : EngineConfig)
    {genesis : Block} (zero : genesis.header.height = 0) (free : CollisionFree prim headers)
    (listed : genesis.header ∈ headers) {calls : List EngineCall}
    (within : Along (call prim) (WithinHeaders prim headers) (started prim registry machine config genesis) calls)
    {proposal : Proposal} {block : Block}
    (returned : ((run (call prim) (started prim registry machine config genesis) calls).proposeBlock prim proposal).1 =
      some block) :
    ∃ ancestors, Ancestry (run (call prim) (started prim registry machine config genesis) calls) block ancestors := by
  have empty : StoreOk prim headers (initial registry machine config) := storeOk_initial registry machine config
  have unstored : (initial registry machine config).Rooted := by
    intro hash other stored
    rw [getBlock_initial] at stored
    cases stored
  have notPositive : ¬ 0 < genesis.header.height := by
    rw [zero]
    exact UInt64.lt_irrefl 0
  have begins : StoreOk prim headers (started prim registry machine config genesis) ∧
      (started prim registry machine config genesis).Rooted :=
    ⟨(empty.storeBlock free listed).sameStore ⟨rfl, rfl⟩,
      (unstored.storeBlock empty free listed fun positive => absurd positive notPositive).sameStore ⟨rfl, rfl⟩⟩
  rcases invariant_run (fun engine => StoreOk prim headers engine ∧ engine.Rooted)
    (fun engine step holds inside => ⟨holds.1.call free inside, holds.2.call holds.1 free inside⟩) begins within with
    ⟨ok, rooted⟩
  exact exists_ancestry_of_proposed rooted ok free returned

/-! ## The root of a proposal -/

/-- The law of the code, for any signature library: a proposal carries the root
of replaying the engine's own proposals on the genesis accounts. -/
theorem stateRoot_of_ownProposals (prim : Primitives) (registry : ValidatorRegistry) (machine : StateMachine)
    (config : EngineConfig) (genesis : Block) (calls : List EngineCall) {proposal : Proposal} {block : Block}
    (returned : ((run (call prim) (started prim registry machine config genesis) calls).proposeBlock prim proposal).1 =
      some block) :
    block.header.stateRoot =
      (replay prim (freshMachine machine.chainId machine.accountManager)
        (executedAlong prim (started prim registry machine config genesis) calls ++
          [⟨block, proposal.baseFee⟩])).computeStateRoot prim := by
  have ledger : SameLedger (started prim registry machine config genesis).stateMachine
      (freshMachine machine.chainId machine.accountManager) := ⟨rfl, rfl⟩
  rw [stateRoot_of_proposed returned, stateMachine_run, ← replay_append]
  exact (sameLedger_replay ledger _).computeStateRoot

/-- For any signature library, a proposal carries the root of its own chain if
the blocks with transactions among its ancestors are the ones that the engine
has proposed before, in that order. -/
theorem rootOfChain_of_ownProposals (prim : Primitives) (registry : ValidatorRegistry) (machine : StateMachine)
    (config : EngineConfig) (genesis : Block) (calls : List EngineCall) {proposal : Proposal} {block : Block}
    (returned : ((run (call prim) (started prim registry machine config genesis) calls).proposeBlock prim proposal).1 =
      some block) (fees : Block -> UInt64) (proposals : List Block)
    (own : executedAlong prim (started prim registry machine config genesis) calls = withFees fees proposals)
    (ownLast : proposal.baseFee = fees block)
    (same : forall ancestors, Ancestry (run (call prim) (started prim registry machine config genesis) calls) block
      ancestors -> carrying ancestors = carrying proposals) :
    RootOfChain prim (freshMachine machine.chainId machine.accountManager) fees
      (run (call prim) (started prim registry machine config genesis) calls) block := by
  intro ancestors chain
  have carried : carrying (proposals ++ [block]) = carrying (ancestors ++ [block]) := by
    rw [carrying, carrying, List.filter_append, List.filter_append]
    exact congrArg (· ++ _) (same ancestors chain).symm
  have left := replay_carrying prim fees (freshMachine machine.chainId machine.accountManager) (proposals ++ [block])
  have right := replay_carrying prim fees (freshMachine machine.chainId machine.accountManager) (ancestors ++ [block])
  rw [carried] at left
  rw [stateRoot_of_ownProposals prim registry machine config genesis calls returned, own, ownLast,
    ← (left.trans right.symm).computeStateRoot]
  rw [withFees, withFees, List.map_append]
  rfl

/-- A proposal carries the root of replaying its own chain.  `execute_block`
verifies signatures under the default key; a signature library that accepts
nothing under it executes no transaction, on the live state machine as in the
replay.  The chain to replay exists as long as the hash separates the headers of
the run. -/
theorem rootOfChain_of_rejectsDefaultKey (prim : Primitives) (rejects : RejectsDefaultKey prim)
    (registry : ValidatorRegistry) (machine : StateMachine) (config : EngineConfig) (genesis : Block)
    (start : ConsensusEngine) (given : (initial registry machine config).setGenesisBlock prim genesis = .ok start)
    (calls : List EngineCall) (engine : ConsensusEngine) (reached : engine = run (call prim) start calls)
    (proposal : Proposal) (block : Block) (returned : (engine.proposeBlock prim proposal).1 = some block)
    (fees : Block -> UInt64) :
    RootOfChain prim (freshMachine machine.chainId machine.accountManager) fees engine block ∧
    forall headers, CollisionFree prim headers -> genesis.header ∈ headers ->
      Along (call prim) (WithinHeaders prim headers) start calls -> ∃ ancestors, Ancestry engine block ancestors := by
  rcases withGenesis_of_setGenesisBlock given with ⟨zero, rfl⟩
  subst reached
  refine ⟨?_, ?_⟩
  · intro ancestors _
    rw [stateRoot_of_ownProposals prim registry machine config genesis calls returned]
    exact ((replay_rejected rejects _ _).symm.trans (replay_rejected rejects _ _)).computeStateRoot
  · intro headers free listed within
    exact exists_ancestry registry machine config zero free listed within returned

/-! ## A proposal that is abandoned -/

/-- Ed25519 verification that accepts nothing under the all-zero key. -/
def strictPrimitives : Primitives :=
  { Transparent.primitives with cryptoSignVerifyDetached := fun _ _ key => decide (key ≠ FixedBytes.zero 32) }

/-- One account with a balance of one hundred. -/
def sampleAccounts : AccountManager := AccountManager.empty.createAccount (FixedBytes.ofNat 32 21) 100

/-- A transfer of ten units out of that account. -/
def sampleTransfer : Transaction :=
  ⟨FixedBytes.ofNat 32 21, FixedBytes.ofNat 32 22, 10, 0, 1, 1, 1, FixedBytes.zero 64⟩

/-- A mempool that holds the transfer. -/
def sampleMempool : Mempool :=
  ⟨{}, ∅, [(1, sampleTransfer.hash strictPrimitives)],
    (∅ : OrderedMap Blake3Hash MempoolTransaction).insert (sampleTransfer.hash strictPrimitives)
      ⟨sampleTransfer, 0, 1⟩⟩

def fundedEngine : ConsensusEngine :=
  started strictPrimitives (registryWith (unitSet 3)) (freshMachine 1 sampleAccounts) {} (genesisAt 0)

/-- The leader proposes the transfer. -/
def transferProposal : Proposal := { plainProposal 5 with mempool := sampleMempool }

/-- The leader's next proposal at the same height, with nothing left to include. -/
def emptyBlock : Block :=
  (fundedEngine.afterProposal strictPrimitives transferProposal none).assembleBlock strictPrimitives
    (plainProposal 6) none

/-- The leader proposes the transfer and then, at the same height, an empty
block.  The second block still carries the root of its own chain. -/
theorem rootOfChain_of_rejectsDefaultKey_abandoned :
    ((run (call strictPrimitives) fundedEngine [.proposeBlock transferProposal]).proposeBlock
      strictPrimitives (plainProposal 6)).1 = some emptyBlock ∧
    RootOfChain strictPrimitives (freshMachine 1 sampleAccounts) (fun _ => 1)
      (run (call strictPrimitives) fundedEngine [.proposeBlock transferProposal]) emptyBlock := by
  have rejects : RejectsDefaultKey strictPrimitives := fun _ _ => rfl
  have returned : ((run (call strictPrimitives) fundedEngine [.proposeBlock transferProposal]).proposeBlock
      strictPrimitives (plainProposal 6)).1 = some emptyBlock := by decide +kernel
  have given : (initial (registryWith (unitSet 3)) (freshMachine 1 sampleAccounts) {}).setGenesisBlock
      strictPrimitives (genesisAt 0) = .ok fundedEngine := setGenesisBlock_of_zero _ _ rfl
  exact ⟨returned, (rootOfChain_of_rejectsDefaultKey strictPrimitives rejects (registryWith (unitSet 3))
    (freshMachine 1 sampleAccounts) {} (genesisAt 0) fundedEngine given [.proposeBlock transferProposal] _ rfl
    (plainProposal 6) emptyBlock returned fun _ => 1).1⟩

end ConsensusEngine
end Consensus
end Sarafu

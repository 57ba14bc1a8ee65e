import Sarafu.Consensus.QCVerifier
import Sarafu.Consensus.VoteAggregator
import Sarafu.Consensus.ValidatorRegistry
import Sarafu.State.Mempool
import Sarafu.State.StateMachine

namespace Sarafu
namespace Consensus

open Crypto State

/-!
# The consensus engine

One engine owns its block store, height index, finalized blocks, highest
certificate and vote aggregator.  The registry and the state machine are shared
pointers in the source; here they are fields that other components may change
between two calls.

A C++ exception leaves the object as it was when it was thrown.  Operations
that may throw therefore return an outcome together with the new engine, and an
`error` outcome keeps every update made before it.
-/

structure EngineConfig where
  blockTimeMs : UInt64 := 2000
  viewTimeoutMs : UInt64 := 4000
  maxTransactionsPerBlock : UInt64 := 10000
  maxBlockGas : UInt64 := 30000000

structure ConsensusEngine where
  config : EngineConfig
  validatorRegistry : ValidatorRegistry
  stateMachine : StateMachine
  voteAggregator : VoteAggregator
  currentView : UInt64
  highestQc : QuorumCertificate
  finalizedHeight : UInt64
  currentHeight : UInt64
  blockStore : OrderedMap Blake3Hash Block
  heightIndex : OrderedMap UInt64 Blake3Hash
  finalizedBlocks : OrderedMap Blake3Hash Bool

namespace ConsensusEngine

/-- The constructor after its null checks.  The aggregator copies the current set. -/
def initial (validatorRegistry : ValidatorRegistry) (stateMachine : StateMachine) (config : EngineConfig) :
    ConsensusEngine where
  config := config
  validatorRegistry := validatorRegistry
  stateMachine := stateMachine
  voteAggregator := VoteAggregator.create validatorRegistry.currentSet
  currentView := 0
  highestQc := QuorumCertificate.empty
  finalizedHeight := 0
  currentHeight := 0
  blockStore := ∅
  heightIndex := ∅
  finalizedBlocks := ∅

/-- The constructor; a null pointer is `none`. -/
def create (validatorRegistry : Option ValidatorRegistry) (stateMachine : Option StateMachine)
    (config : EngineConfig) : Except Failure ConsensusEngine :=
  match validatorRegistry, stateMachine with
  | none, _ => .error (.invalidArgument "validator_registry cannot be null")
  | some _, none => .error (.invalidArgument "state_machine cannot be null")
  | some registry, some machine => .ok (initial registry machine config)

/-- The set that verification and leader selection read. -/
def currentSet (engine : ConsensusEngine) : ValidatorSet := engine.validatorRegistry.currentSet

def isFinalized (engine : ConsensusEngine) (blockHash : Blake3Hash) : Bool :=
  (engine.finalizedBlocks[blockHash]?).getD false

def getBlock (engine : ConsensusEngine) (blockHash : Blake3Hash) : Option Block :=
  engine.blockStore[blockHash]?

def getBlockByHeight (engine : ConsensusEngine) (height : UInt64) : Option Block :=
  match engine.heightIndex[height]? with
  | none => none
  | some blockHash => engine.getBlock blockHash

/-- Round robin over the active validators, in the order of the set. -/
def selectLeader (engine : ConsensusEngine) (viewNumber : UInt64) : Option ValidatorID :=
  let activeValidators := engine.currentSet.getActiveValidators
  (activeValidators[viewNumber.toNat % activeValidators.length]?).map Validator.id

def getCurrentLeader (engine : ConsensusEngine) : Option ValidatorID := engine.selectLeader engine.currentView

def isCurrentLeader (engine : ConsensusEngine) (proposerId : ValidatorID) : Bool :=
  engine.getCurrentLeader == some proposerId

variable (prim : Primitives)

def storeBlock (engine : ConsensusEngine) (block : Block) : ConsensusEngine :=
  { engine with
    blockStore := engine.blockStore.insert (block.hash prim) block
    heightIndex := engine.heightIndex.insert block.header.height (block.hash prim) }

/-- The updates of `mark_finalized` once the certificate has been verified.
The certificate is not compared with the hash that is marked. -/
def finalizeVerified (engine : ConsensusEngine) (blockHash : Blake3Hash) (qc : QuorumCertificate) :
    ConsensusEngine :=
  let raises := engine.highestQc.blockHeight < qc.blockHeight
  { engine with
    highestQc := if raises then qc else engine.highestQc
    finalizedHeight := if raises then qc.blockHeight else engine.finalizedHeight
    finalizedBlocks := engine.finalizedBlocks.insert blockHash true }

def markFinalized (engine : ConsensusEngine) (blockHash : Blake3Hash) (qc : QuorumCertificate) :
    Except Failure Unit × ConsensusEngine :=
  match QCVerifier.verifyQc prim qc engine.currentSet with
  | .error failure => (.error failure, engine)
  | .ok false => (.ok (), engine)
  | .ok true => (.ok (), engine.finalizeVerified blockHash qc)

/-- `set_genesis_block`; the genesis certificate has no signers and no stake. -/
def setGenesisBlock (engine : ConsensusEngine) (genesis : Block) : Except Failure ConsensusEngine :=
  if genesis.header.height ≠ 0 then .error (.invalidArgument "Genesis block must have height 0")
  else
    .ok { engine.storeBlock prim genesis with
      currentHeight := 0
      finalizedHeight := 0
      finalizedBlocks := engine.finalizedBlocks.insert (genesis.hash prim) true
      highestQc := ⟨0, genesis.hash prim, 0, FixedBytes.zero 96, [], 0⟩ }

/-- The header of a proposal before the transactions are executed. -/
def proposalHeader (engine : ConsensusEngine) (parent : Option Block) (proposerId : ValidatorID)
    (transactions : List Transaction) (now : UInt64) : BlockHeader where
  height := engine.currentHeight + 1
  timestamp := now
  previousHash := match parent with
    | none => Blake3Hash.zero
    | some block => block.hash prim
  stateRoot := Blake3Hash.zero
  transactionsRoot :=
    if transactions.isEmpty then Blake3Hash.zero
    else MerkleTree.rootOf prim (transactions.map (Transaction.hash prim))
  validatorSetRoot := engine.currentSet.computeRoot prim
  proposer := proposerId
  epoch := (engine.currentHeight + 1) / 10000

/-- The parent lookup: none is used at height zero, and a missing block aborts. -/
def parentBlock (engine : ConsensusEngine) : Option (Option Block) :=
  if 0 < engine.currentHeight then
    match engine.getBlockByHeight engine.currentHeight with
    | none => none
    | some block => some (some block)
  else some none

/-- The arguments of `propose_block`, together with what the call reads from
its environment: the account manager behind the mempool and the clock. -/
structure Proposal where
  proposerId : ValidatorID
  proposerKey : BLS12381PrivateKey
  mempool : Mempool
  accountManager : Option AccountManager
  baseFee : UInt64
  now : UInt64

/-- The transactions of a proposal: the mempool's selection, cut to the limit. -/
def selectTransactions (engine : ConsensusEngine) (proposal : Proposal) : List Transaction :=
  (proposal.mempool.getTransactionsForBlock proposal.accountManager engine.config.maxBlockGas
    proposal.baseFee).take engine.config.maxTransactionsPerBlock.toNat

/-- The execution of a proposal's transactions on the live state machine. -/
def executeProposal (engine : ConsensusEngine) (proposal : Proposal) : Blake3Hash × StateMachine :=
  engine.stateMachine.executeBlock prim (engine.currentHeight + 1) (engine.selectTransactions proposal)
    proposal.baseFee proposal.proposerId

/-- The block that a proposal assembles on a given parent. -/
def assembleBlock (engine : ConsensusEngine) (proposal : Proposal) (parent : Option Block) : Block :=
  let transactions := engine.selectTransactions proposal
  ⟨{ engine.proposalHeader prim parent proposal.proposerId transactions proposal.now with
      stateRoot := (engine.executeProposal prim proposal).1 },
    transactions, engine.highestQc⟩

/-- `propose_block` executes on the live state machine and stores the block, but
leaves `current_height_` where it was.  The private key is never used. -/
def proposeBlock (engine : ConsensusEngine) (proposal : Proposal) : Option Block × ConsensusEngine :=
  if engine.isCurrentLeader proposal.proposerId = false then (none, engine)
  else
    match engine.parentBlock with
    | none => (none, engine)
    | some parent =>
        let block := engine.assembleBlock prim proposal parent
        (some block,
          ({ engine with stateMachine := (engine.executeProposal prim proposal).2 }).storeBlock prim block)

def extendsHighestQc (engine : ConsensusEngine) (block : Block) : Bool :=
  if block.header.height = 0 then true
  else if block.justify.blockHeight = 0 ∧ 0 < engine.highestQc.blockHeight then false
  else if block.justify.blockHeight < engine.highestQc.blockHeight then false
  else if block.header.height ≤ block.justify.blockHeight then false
  else true

/-- The parent part of `verify_block`, for a block above height zero. -/
def checksParent (engine : ConsensusEngine) (block : Block) : Bool :=
  match engine.getBlock block.header.previousHash with
  | none => false
  | some parent =>
      decide (block.header.height = parent.header.height + 1) &&
        decide (parent.header.timestamp < block.header.timestamp)

/-- The checks run in the order of the source; only the last one can throw. -/
def verifyBlock (engine : ConsensusEngine) (block : Block) : Except Failure Bool :=
  if engine.extendsHighestQc block = false then .ok false
  else if engine.isCurrentLeader block.header.proposer = false then .ok false
  else if 0 < block.header.height ∧ engine.checksParent block = false then .ok false
  else if engine.currentSet.isActive block.header.proposer = false then .ok false
  else if 0 < block.header.height then QCVerifier.verifyQc prim block.justify engine.currentSet
  else .ok true

/-- The updates of `on_receive_block` for a verified block. -/
def acceptVerified (engine : ConsensusEngine) (block : Block) : ConsensusEngine :=
  { engine.storeBlock prim block with
    currentHeight := if engine.currentHeight < block.header.height
      then block.header.height else engine.currentHeight }

def onReceiveBlock (engine : ConsensusEngine) (block : Block) : Except Failure Bool × ConsensusEngine :=
  match engine.verifyBlock prim block with
  | .error failure => (.error failure, engine)
  | .ok false => (.ok false, engine)
  | .ok true => (.ok true, engine.acceptVerified prim block)

/-- A throwing aggregation or verification leaves the vote recorded. -/
def onReceiveVote (engine : ConsensusEngine) (vote : Vote) :
    Except Failure (Option QuorumCertificate) × ConsensusEngine :=
  let added := engine.voteAggregator.addVote vote
  let received := { engine with voteAggregator := added.2 }
  if added.1 = false then (.ok none, received)
  else
    match added.2.aggregateVotes prim vote.blockHeight vote.blockHash vote.viewNumber with
    | .error failure => (.error failure, received)
    | .ok none => (.ok none, received)
    | .ok (some qc) =>
        let marked := received.markFinalized prim vote.blockHash qc
        match marked.1 with
        | .error failure => (.error failure, marked.2)
        | .ok _ => (.ok (some qc), marked.2)

def triggerViewChange (engine : ConsensusEngine) : Bool × ConsensusEngine :=
  let changed := { engine with currentView := engine.currentView + 1 }
  (changed.getCurrentLeader.isSome, changed)

def createVote (engine : ConsensusEngine) (block : Block) (voterId : ValidatorID)
    (voterKey : BLS12381PrivateKey) : Vote :=
  let blockHash := block.hash prim
  ⟨voterId, block.header.height, blockHash, engine.currentView,
    BLS12381.sign prim blockHash.serialize voterKey⟩

end ConsensusEngine
end Consensus
end Sarafu

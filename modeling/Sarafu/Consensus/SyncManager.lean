import Sarafu.Consensus.CheckpointManager
import Sarafu.Library.BatchedTransfer
import Sarafu.State.StateMachine

namespace Sarafu
namespace Consensus

open Crypto State

/-!
# Block synchronization

`start_sync` and `fast_sync` download the heights behind a base height in batches, and
store every block that was downloaded.  The peers and their answers may be different at
every request, so they are read at a clock that ticks with each of them.  A block is
stored under its height, and its height under its hash.  The serialized forms in the
database stand for the values themselves, and writing does not fail.
-/

abbrev PeerID := String

/-- The addresses of a peer and the time it was last seen are not read here. -/
structure PeerInfo where
  id : PeerID
  isValidator : Bool
  reputationScore : UInt64

inductive SyncStatus
  | notStarted
  | syncing
  | fastSyncing
  | synced
  | failed
deriving DecidableEq

/-- The percentage is left out, with the callback it is computed for. -/
structure SyncProgress where
  status : SyncStatus := .notStarted
  currentHeight : UInt64 := 0
  targetHeight : UInt64 := 0
  blocksDownloaded : UInt64 := 0
  blocksVerified : UInt64 := 0

/-- The fields that the code reads, apart from the timeout of a request. -/
structure SyncConfig where
  batchSize : UInt64 := 100
  enableFastSync : Bool := true

/-- The column families `Blocks` and `BlockHashes`. -/
structure SyncDatabase where
  blocks : OrderedMap UInt64 Block
  blockHashes : OrderedMap Blake3Hash UInt64

structure SyncManager where
  stateMachine : StateMachine
  database : SyncDatabase
  checkpointConfig : CheckpointConfig
  config : SyncConfig
  progress : SyncProgress

/-- What a sync meets outside of the manager.  `stopAt` is the moment at which another
thread calls `stop_sync`, and `canReserve` says for how many blocks `reserve` succeeds. -/
structure SyncEnvironment where
  getPeers : Nat -> List PeerInfo
  requestBlock : Nat -> PeerID -> UInt64 -> Option Block
  stopAt : Option Nat
  canReserve : UInt64 -> Bool

def SyncEnvironment.stopRequested (env : SyncEnvironment) (clock : Nat) : Bool :=
  match env.stopAt with
  | none => false
  | some moment => decide (moment ≤ clock)

/-- A call does not return: an exception is thrown, or the loops take more steps than
the fuel allows. -/
inductive SyncFault
  | threw
  | unfinished

namespace SyncManager

/-- The validator with the highest reputation, or else the other peer with the highest
one.  The sort of the source leaves the order of equal scores open. -/
def selectPeerForRequest (peers : List PeerInfo) : PeerID :=
  let byReputation := fun (left right : PeerInfo) => right.reputationScore ≤ left.reputationScore
  let validators := (peers.filter PeerInfo.isValidator).insertionSort byReputation
  let nonValidators := (peers.filter fun peer => !peer.isValidator).insertionSort byReputation
  match validators, nonValidators with
  | best :: _, _ => best.id
  | [], best :: _ => best.id
  | [], [] => ""

/-- The loop of `download_blocks`. -/
def downloadLoop (env : SyncEnvironment) (endHeight : UInt64) :
    Nat -> UInt64 -> SyncProgress -> Nat -> Except SyncFault (List Block × SyncProgress × Nat)
  | 0, _, _, _ => .error .unfinished
  | fuel + 1, height, progress, clock =>
      if endHeight < height then .ok ([], progress, clock)
      else if env.stopRequested clock then .ok ([], progress, clock + 1)
      else
        let peer := selectPeerForRequest (env.getPeers clock)
        if peer.isEmpty then .ok ([], progress, clock + 1)
        else
          match env.requestBlock clock peer height with
          | none => .ok ([], progress, clock + 1)
          | some block =>
              let counted := { progress with blocksDownloaded := progress.blocksDownloaded + 1 }
              (downloadLoop env endHeight fuel (height + 1) counted (clock + 1)).map fun rest =>
                (block :: rest.1, rest.2)

def downloadBlocks (env : SyncEnvironment) (fuel : Nat) (startHeight endHeight : UInt64) (progress : SyncProgress)
    (clock : Nat) : Except SyncFault (List Block × SyncProgress × Nat) :=
  if env.canReserve (endHeight - startHeight + 1) then downloadLoop env endHeight fuel startHeight progress clock
  else .error .threw

/-- The simplified check of the source: the certificate claims some stake. -/
def verifyQuorumCertificate (block : Block) : Bool := decide (0 < block.justify.totalStakeSigned)

variable (prim : Primitives)

def storeBlock (manager : SyncManager) (block : Block) : SyncManager :=
  { manager with database :=
      { blocks := manager.database.blocks.insert block.header.height block
        blockHashes := manager.database.blockHashes.insert (block.hash prim) block.header.height } }

def verifyAndApplyBlock (manager : SyncManager) (block : Block) : Bool × SyncManager :=
  if verifyQuorumCertificate block then (true, manager.storeBlock prim block) else (false, manager)

def setStatus (manager : SyncManager) (status : SyncStatus) : SyncManager :=
  { manager with progress := { manager.progress with status := status } }

/-- The progress after a block was applied. -/
def countVerified (manager : SyncManager) (block : Block) : SyncManager :=
  { manager with progress :=
      { manager.progress with
        currentHeight := block.header.height
        blocksVerified := manager.progress.blocksVerified + 1 } }

/-- The loop over the blocks of a batch. -/
def applyBlocks : List Block -> SyncManager -> Bool × SyncManager
  | [], manager => (true, manager)
  | block :: rest, manager =>
      match manager.verifyAndApplyBlock prim block with
      | (true, applied) => applyBlocks rest (applied.countVerified block)
      | (false, rejected) => (false, rejected.setStatus .failed)

/-- `std::min(start_height + batch_size - 1, end_height)`, modulo `2^64`. -/
def batchEnd (config : SyncConfig) (startHeight endHeight : UInt64) : UInt64 :=
  let full := startHeight + config.batchSize - 1
  if endHeight < full then endHeight else full

/-- The loop that `start_sync` and `fast_sync` share. -/
def syncBatches (env : SyncEnvironment) (endHeight : UInt64) :
    Nat -> UInt64 -> SyncManager -> Nat -> Except SyncFault (Bool × SyncManager)
  | 0, _, _, _ => .error .unfinished
  | fuel + 1, startHeight, manager, clock =>
      if startHeight ≤ endHeight ∧ env.stopRequested clock = false then
        let last := batchEnd manager.config startHeight endHeight
        match downloadBlocks env fuel startHeight last manager.progress clock with
        | .error fault => .error fault
        | .ok (blocks, progress, later) =>
            let counted := { manager with progress := progress }
            -- nothing arrived: sleep and try the same batch again
            if blocks.isEmpty then syncBatches env endHeight fuel startHeight counted (later + 1)
            else
              match applyBlocks prim blocks counted with
              | (false, failed) => .ok (false, failed)
              | (true, applied) => syncBatches env endHeight fuel (last + 1) applied later
      else .ok (true, manager.setStatus (if env.stopRequested clock then .notStarted else .synced))

/-- The common body: set the progress, then sync behind the base height. -/
def runSync (env : SyncEnvironment) (fuel : Nat) (manager : SyncManager) (status : SyncStatus)
    (baseHeight targetHeight : UInt64) : Except SyncFault (Bool × SyncManager) :=
  let started := { manager with progress :=
    { manager.progress with status := status, currentHeight := baseHeight, targetHeight := targetHeight } }
  syncBatches prim env targetHeight fuel (baseHeight + 1) started 0

/-- The placeholder of the source. -/
def getTargetHeight (currentHeight : UInt64) : UInt64 := currentHeight + 1000

def startSync (env : SyncEnvironment) (fuel : Nat) (manager : SyncManager) : Except SyncFault (Bool × SyncManager) :=
  if manager.progress.status = .syncing ∨ manager.progress.status = .fastSyncing then .ok (false, manager)
  else
    let currentHeight := manager.stateMachine.currentHeight
    runSync prim env fuel manager .syncing currentHeight (getTargetHeight currentHeight)

def fastSync (env : SyncEnvironment) (fuel : Nat) (manager : SyncManager) (checkpoint : WeakSubjectivityCheckpoint) :
    Except SyncFault (Bool × SyncManager) :=
  if manager.config.enableFastSync = false then .ok (false, manager)
  else if CheckpointManager.checkCheckpointAge manager.checkpointConfig checkpoint.blockHeight
      manager.stateMachine.currentHeight = false then
    .ok (false, manager)
  else
    runSync prim env fuel manager .fastSyncing checkpoint.blockHeight (getTargetHeight checkpoint.blockHeight)

end SyncManager
end Consensus
end Sarafu

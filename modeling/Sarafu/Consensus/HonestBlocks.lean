import Sarafu.Consensus.BlockValidator
import Sarafu.Consensus.Finality
import Sarafu.State.IdleBlocks

namespace Sarafu
namespace Consensus

open Crypto State ConsensusEngine

/-!
# The validator on honest blocks

A proposer commits to the root after executing its block.  The validator compares that
commitment with the root of its own state machine, which stands in the post-state of the
parent, and it accepts the chain id 1 only.  It therefore accepts an honest block exactly
if the block carries no transaction of another chain and no transaction that validation
would let through.
-/

/-- A block built on a parent over the parent's post-state, as `propose_block` builds it. -/
structure BuiltOn (prim : Primitives) (machine : StateMachine) (baseFee : UInt64) (parent block : Block) : Prop where
  height : block.header.height = parent.header.height + 1
  previousHash : block.header.previousHash = parent.hash prim
  timestamp : parent.header.timestamp < block.header.timestamp
  transactionsRoot : block.header.transactionsRoot =
    if block.transactions.isEmpty then Blake3Hash.zero
    else MerkleTree.rootOf prim (block.transactions.map (Transaction.hash prim))
  addresses : forall tx, tx ∈ block.transactions -> tx.fromAddr.isZero = false ∧ tx.toAddr.isZero = false
  chainId : forall tx, tx ∈ block.transactions -> tx.chainId = machine.chainId
  stateRoot : block.header.stateRoot =
    (machine.executeBlock prim block.header.height block.transactions baseFee block.header.proposer).1

/-- The strings hashed for the roots before and after the execution of a block. -/
def stringsAround (prim : Primitives) (machine : StateMachine) (baseFee : UInt64) (block : Block) :
    List (List UInt8) :=
  machine.hashedAround prim block.header.height block.transactions baseFee block.header.proposer

variable {prim : Primitives} {parent block : Block}

/-- An empty list has the root of an empty tree. -/
theorem transactionsRoot_eq_rootOf (block : Block) :
    (if block.transactions.isEmpty then Blake3Hash.zero
      else MerkleTree.rootOf prim (block.transactions.map (Transaction.hash prim))) =
      MerkleTree.rootOf prim (block.transactionHashes prim) := by
  split
  · rename_i empty
    rw [Block.transactionHashes, List.isEmpty_iff.mp empty]
    rfl
  · rfl

/-- The blocks of `propose_block` are built on their parents. -/
theorem builtOn_assembleBlock (engine : ConsensusEngine) (proposal : ConsensusEngine.Proposal)
    (height : engine.currentHeight = parent.header.height) (later : parent.header.timestamp < proposal.now)
    (addresses : forall tx, tx ∈ engine.selectTransactions proposal ->
      tx.fromAddr.isZero = false ∧ tx.toAddr.isZero = false)
    (chainId : forall tx, tx ∈ engine.selectTransactions proposal -> tx.chainId = engine.stateMachine.chainId) :
    BuiltOn prim engine.stateMachine proposal.baseFee parent (engine.assembleBlock prim proposal (some parent)) where
  height := congrArg (· + 1) height
  previousHash := rfl
  timestamp := later
  transactionsRoot := rfl
  addresses := addresses
  chainId := chainId
  stateRoot := rfl

/-- The validator accepts an honest block exactly if the block is empty or the chain id
is 1, and no transaction of the block is valid in the post-state of the parent.  Under
any other circumstances it reports a wrong chain id or a mismatch of the state root. -/
theorem validateBlock_builtOn_iff (prim : Primitives) (validator : BlockValidator) (baseFee : UInt64)
    (parent block : Block) (built : BuiltOn prim validator.stateMachine baseFee parent block)
    (active : validator.validatorRegistry.currentSet.isActive block.header.proposer = true)
    (sized : block.transactions.length < 2 ^ 64)
    (free : MerkleTree.CollisionFree prim (stringsAround prim validator.stateMachine baseFee block))
    (nonzero : forall string, string ∈ stringsAround prim validator.stateMachine baseFee block ->
      prim.blake3 string ≠ Blake3Hash.zero) :
    validator.validateBlock prim block parent true = "" <->
      (block.transactions = [] ∨ validator.stateMachine.chainId = 1) ∧
        validator.stateMachine.NoneValid prim block.transactions := by
  have root :=
    StateMachine.executeBlock_root_eq_iff block.header.height baseFee block.header.proposer sized free nonzero
  rw [BlockValidator.validateBlock_eq_empty_iff]
  constructor
  · intro accepts
    refine ⟨?_, root.mp (built.stateRoot.symm.trans accepts.stateRoot)⟩
    cases listed : block.transactions with
    | nil => exact Or.inl rfl
    | cons tx rest =>
        have member : tx ∈ block.transactions := listed ▸ List.mem_cons_self
        exact Or.inr ((built.chainId tx member).symm.trans (accepts.transactions tx member).2.2)
  · rintro ⟨chain, none⟩
    refine ⟨built.height, built.previousHash, built.timestamp, active, ?_, ?_, ?_⟩
    · rw [built.transactionsRoot, transactionsRoot_eq_rootOf]
    · intro tx member
      refine ⟨(built.addresses tx member).1, (built.addresses tx member).2, (built.chainId tx member).trans ?_⟩
      rcases chain with empty | first
      · rw [empty] at member
        cases member
      · exact first
    · rw [built.stateRoot]
      exact root.mpr none

/-! ## One transfer -/

/-- An account with a balance of one hundred, on the given chain. -/
def fundedMachine (chainId : UInt32) : StateMachine :=
  { StateMachine.create chainId with
    transactionExecutor := ⟨AccountManager.empty.createAccount (FixedBytes.ofNat 32 21) 100, 0, 0⟩ }

def transferOf (chainId : UInt32) (signature : Ed25519Signature) : Transaction :=
  ⟨FixedBytes.ofNat 32 21, FixedBytes.ofNat 32 22, 10, 0, 1, 1, chainId, signature⟩

/-- The block of the first validator with one transfer, on the genesis block. -/
def blockWith (machine : StateMachine) (tx : Transaction) : Block :=
  ⟨⟨1, 5, (genesisAt 0).hash Transparent.primitives,
    (machine.executeBlock Transparent.primitives 1 [tx] 1 (FixedBytes.ofNat 32 1)).1,
    MerkleTree.rootOf Transparent.primitives [tx.hash Transparent.primitives], Blake3Hash.zero,
    FixedBytes.ofNat 32 1, 0⟩, [tx], QuorumCertificate.empty⟩

theorem builtOn_blockWith (chainId : UInt32) (signature : Ed25519Signature) :
    BuiltOn Transparent.primitives (fundedMachine chainId) 1 (genesisAt 0)
      (blockWith (fundedMachine chainId) (transferOf chainId signature)) where
  height := rfl
  previousHash := rfl
  timestamp := by
    change (0 : UInt64) < 5
    decide
  transactionsRoot := rfl
  addresses := by
    intro tx member
    rw [List.mem_singleton.mp member]
    change Address.isZero (FixedBytes.ofNat 32 21) = false ∧ Address.isZero (FixedBytes.ofNat 32 22) = false
    decide +kernel
  chainId := by
    intro tx member
    rw [List.mem_singleton.mp member]
    rfl
  stateRoot := rfl

/-- The validator refuses an honest block of the chain with id 2. -/
theorem validateBlock_refuses_chain :
    BuiltOn Transparent.primitives (fundedMachine 2) 1 (genesisAt 0)
      (blockWith (fundedMachine 2) (transferOf 2 (FixedBytes.ofNat 64 1))) ∧
    (unitSet 3).isActive (FixedBytes.ofNat 32 1) = true ∧
    BlockValidator.validateBlock Transparent.primitives ⟨registryWith (unitSet 3), fundedMachine 2⟩
      (blockWith (fundedMachine 2) (transferOf 2 (FixedBytes.ofNat 64 1))) (genesisAt 0) true =
        "Transaction 0 invalid: wrong chain ID" :=
  ⟨builtOn_blockWith 2 (FixedBytes.ofNat 64 1), by decide +kernel, by decide +kernel⟩

/-- On the chain with id 1 it accepts the block of a transfer whose signature fails and
refuses the one whose signature verifies. -/
theorem validateBlock_builtOn_iff_transfer :
    BlockValidator.validateBlock Transparent.primitives ⟨registryWith (unitSet 3), fundedMachine 1⟩
      (blockWith (fundedMachine 1) (transferOf 1 (FixedBytes.ofNat 64 1))) (genesisAt 0) true = "" ∧
    BlockValidator.validateBlock Transparent.primitives ⟨registryWith (unitSet 3), fundedMachine 1⟩
      (blockWith (fundedMachine 1) (transferOf 1 (FixedBytes.zero 64))) (genesisAt 0) true ≠ "" := by
  constructor
  · apply (validateBlock_builtOn_iff Transparent.primitives ⟨registryWith (unitSet 3), fundedMachine 1⟩ 1 (genesisAt 0)
      (blockWith (fundedMachine 1) (transferOf 1 (FixedBytes.ofNat 64 1))) (builtOn_blockWith 1 _) (by decide +kernel)
      (by decide) (by unfold MerkleTree.CollisionFree; decide +kernel) (by decide +kernel)).mpr
    refine ⟨Or.inr rfl, ?_⟩
    unfold StateMachine.NoneValid
    decide +kernel
  · intro accepted
    have none := ((validateBlock_builtOn_iff Transparent.primitives ⟨registryWith (unitSet 3), fundedMachine 1⟩ 1
      (genesisAt 0) (blockWith (fundedMachine 1) (transferOf 1 (FixedBytes.zero 64))) (builtOn_blockWith 1 _)
      (by decide +kernel) (by decide) (by unfold MerkleTree.CollisionFree; decide +kernel)
      (by decide +kernel)).mp accepted).2
    exact none (transferOf 1 (FixedBytes.zero 64)) (List.mem_singleton.mpr rfl) (by decide +kernel)

end Consensus
end Sarafu

import Sarafu.Consensus.ValidatorRegistry
import Sarafu.Crypto.MerkleTree
import Sarafu.State.StateMachine

namespace Sarafu
namespace Consensus

open Crypto State

/-!
# Block validation

A check answers with an error text, and the empty text means that the block passed it.
`verify_transactions_root` builds the tree over the hashes of the transactions again and
compares its root with the one in the header.  `verify_state_root` compares the root in
the header with the root of the state machine as it stands, and `verify_transactions`
knows the chain id 1 only.
-/

/-- The leaves of the transaction tree. -/
def Block.transactionHashes (prim : Primitives) (block : Block) : List Blake3Hash :=
  block.transactions.map (Transaction.hash prim)

/-- The registry and the state machine are shared pointers in the source. -/
structure BlockValidator where
  validatorRegistry : ValidatorRegistry
  stateMachine : StateMachine

namespace BlockValidator

def verifyBlockHeight (block parent : Block) : String :=
  if block.header.height ≠ parent.header.height + 1 then
    "Invalid block height: expected " ++ toString (parent.header.height + 1) ++ ", got " ++
      toString block.header.height
  else ""

def verifyBlockHashChain (prim : Primitives) (block parent : Block) : String :=
  if block.header.previousHash ≠ parent.hash prim then
    "Invalid previous_hash: expected " ++ (parent.hash prim).toHex ++ ", got " ++ block.header.previousHash.toHex
  else ""

def verifyTimestamp (block parent : Block) : String :=
  if block.header.timestamp ≤ parent.header.timestamp then
    "Invalid timestamp: block timestamp " ++ toString block.header.timestamp ++
      " must be greater than parent timestamp " ++ toString parent.header.timestamp
  else ""

/-- The search stops at the first entry with the proposer's id. -/
def verifyProposer (validator : BlockValidator) (block : Block) : String :=
  match validator.validatorRegistry.currentSet.findValidator block.header.proposer with
  | none => "Proposer " ++ block.header.proposer.toHex ++ " is not in the active validator set"
  | some proposer =>
      if proposer.status ≠ .active then
        "Proposer " ++ block.header.proposer.toHex ++ " is not active (status: " ++
          toString proposer.status.toByte.toNat ++ ")"
      else ""

/-- The loop of `verify_transactions` from an index on.  `has_non_negative_amounts` is
constantly true. -/
def verifyTransactionsFrom (index : Nat) : List Transaction -> String
  | [] => ""
  | tx :: rest =>
      if tx.fromAddr.isZero || tx.toAddr.isZero then
        "Transaction " ++ toString index ++ " invalid: zero address"
      else if tx.chainId ≠ 1 then
        "Transaction " ++ toString index ++ " invalid: wrong chain ID"
      else verifyTransactionsFrom (index + 1) rest

def verifyTransactions (block : Block) : String := verifyTransactionsFrom 0 block.transactions

/-- No transaction of the block is executed here. -/
def verifyStateRoot (prim : Primitives) (validator : BlockValidator) (block : Block) : String :=
  let computedRoot := validator.stateMachine.computeStateRoot prim
  if block.header.stateRoot ≠ computedRoot then
    "State root mismatch: expected " ++ computedRoot.toHex ++ ", got " ++ block.header.stateRoot.toHex
  else ""

def verifyTransactionsRoot (prim : Primitives) (block : Block) : String :=
  if (block.transactionHashes prim).isEmpty then
    if block.header.transactionsRoot ≠ Blake3Hash.zero then
      "Transactions root mismatch for empty block: expected " ++ Blake3Hash.zero.toHex ++ ", got " ++
        block.header.transactionsRoot.toHex
    else ""
  else
    let computedRoot := MerkleTree.rootOf prim (block.transactionHashes prim)
    if block.header.transactionsRoot ≠ computedRoot then
      "Transactions root mismatch: expected " ++ computedRoot.toHex ++ ", got " ++ block.header.transactionsRoot.toHex
    else ""

/-- Answer with the text of the first check that fails. -/
def firstError : List String -> String
  | [] => ""
  | error :: rest => if error.isEmpty = false then error else firstError rest

/-- The checks run in the order of the source. -/
def validateBlock (prim : Primitives) (validator : BlockValidator) (block parent : Block)
    (verifiesStateRoot : Bool) : String :=
  firstError [verifyBlockHeight block parent, verifyBlockHashChain prim block parent, verifyTimestamp block parent,
    validator.verifyProposer block, verifyTransactionsRoot prim block, verifyTransactions block,
    if verifiesStateRoot then validator.verifyStateRoot prim block else ""]

/-! ## When a check passes -/

theorem append_ne_empty {first second : String} (nonempty : first ≠ "") : first ++ second ≠ "" := by
  intro empty
  exact nonempty (String.append_eq_empty_iff.mp empty).1

theorem check_eq_empty_iff {condition : Prop} [Decidable condition] {error : String} (nonempty : error ≠ "") :
    (if condition then error else "") = "" <-> ¬ condition := by
  split
  · rename_i fails
    exact iff_of_false nonempty (not_not.mpr fails)
  · rename_i passes
    exact iff_of_true rfl passes

theorem firstError_eq_empty_iff {errors : List String} :
    firstError errors = "" <-> forall error, error ∈ errors -> error = "" := by
  induction errors with
  | nil => exact iff_of_true rfl nofun
  | cons error rest inductionHypothesis =>
      rw [List.forall_mem_cons, ← inductionHypothesis, firstError]
      by_cases empty : error = ""
      · rw [if_neg (by rw [empty]; decide), and_iff_right empty]
      · rw [if_pos (Bool.eq_false_iff.mpr (mt String.isEmpty_iff.mp empty))]
        exact iff_of_false empty fun both => empty both.1

variable {prim : Primitives} {validator : BlockValidator} {block parent : Block}

theorem verifyBlockHeight_eq_empty_iff :
    verifyBlockHeight block parent = "" <-> block.header.height = parent.header.height + 1 :=
  (check_eq_empty_iff (append_ne_empty (append_ne_empty (append_ne_empty (by decide))))).trans not_not

theorem verifyBlockHashChain_eq_empty_iff :
    verifyBlockHashChain prim block parent = "" <-> block.header.previousHash = parent.hash prim :=
  (check_eq_empty_iff (append_ne_empty (append_ne_empty (append_ne_empty (by decide))))).trans not_not

theorem verifyTimestamp_eq_empty_iff :
    verifyTimestamp block parent = "" <-> parent.header.timestamp < block.header.timestamp :=
  (check_eq_empty_iff (append_ne_empty (append_ne_empty (append_ne_empty (by decide))))).trans UInt64.not_le

/-- The proposer has to be active in the current set. -/
theorem verifyProposer_eq_empty_iff :
    validator.verifyProposer block = "" <->
      validator.validatorRegistry.currentSet.isActive block.header.proposer = true := by
  unfold verifyProposer ValidatorSet.isActive
  cases validator.validatorRegistry.currentSet.findValidator block.header.proposer with
  | none => exact iff_of_false (append_ne_empty (append_ne_empty (by decide))) Bool.false_ne_true
  | some proposer =>
      refine (check_eq_empty_iff ?_).trans (not_not.trans beq_iff_eq.symm)
      exact append_ne_empty (append_ne_empty (append_ne_empty (append_ne_empty (by decide))))

theorem verifyTransactionsFrom_eq_empty_iff (index : Nat) {transactions : List Transaction} :
    verifyTransactionsFrom index transactions = "" <-> forall tx, tx ∈ transactions ->
      tx.fromAddr.isZero = false ∧ tx.toAddr.isZero = false ∧ tx.chainId = 1 := by
  have text : forall (position : Nat) (reason : String), "Transaction " ++ toString position ++ reason ≠ "" :=
    fun position reason => append_ne_empty (append_ne_empty (by decide))
  induction transactions generalizing index with
  | nil => exact iff_of_true rfl nofun
  | cons tx rest inductionHypothesis =>
      rw [List.forall_mem_cons, verifyTransactionsFrom]
      split
      · rename_i zero
        refine iff_of_false (text _ _) ?_
        rintro ⟨⟨sender, recipient, _⟩, _⟩
        rw [sender, recipient] at zero
        cases zero
      · rename_i nonzero
        rw [Bool.or_eq_true, not_or, Bool.not_eq_true, Bool.not_eq_true] at nonzero
        split
        · rename_i wrong
          exact iff_of_false (text _ _) fun both => wrong both.1.2.2
        · rename_i right
          exact (inductionHypothesis (index + 1)).trans (and_iff_right ⟨nonzero.1, nonzero.2, not_not.mp right⟩).symm

theorem verifyStateRoot_eq_empty_iff :
    validator.verifyStateRoot prim block = "" <->
      block.header.stateRoot = validator.stateMachine.computeStateRoot prim :=
  (check_eq_empty_iff (append_ne_empty (append_ne_empty (append_ne_empty (by decide))))).trans not_not

/-- The root of an empty tree is zero, so both cases compare with the root over the hashes. -/
theorem verifyTransactionsRoot_eq_empty_iff :
    verifyTransactionsRoot prim block = "" <->
      block.header.transactionsRoot = MerkleTree.rootOf prim (block.transactionHashes prim) := by
  unfold verifyTransactionsRoot
  split
  · rename_i empty
    have root : MerkleTree.rootOf prim (block.transactionHashes prim) = Blake3Hash.zero := by
      rw [List.isEmpty_iff.mp empty]
      rfl
    rw [root]
    exact (check_eq_empty_iff (append_ne_empty (append_ne_empty (append_ne_empty (by decide))))).trans not_not
  · exact (check_eq_empty_iff (append_ne_empty (append_ne_empty (append_ne_empty (by decide))))).trans not_not

/-- What a block that passes every check satisfies. -/
structure Accepts (prim : Primitives) (validator : BlockValidator) (block parent : Block) : Prop where
  height : block.header.height = parent.header.height + 1
  previousHash : block.header.previousHash = parent.hash prim
  timestamp : parent.header.timestamp < block.header.timestamp
  proposer : validator.validatorRegistry.currentSet.isActive block.header.proposer = true
  transactionsRoot : block.header.transactionsRoot = MerkleTree.rootOf prim (block.transactionHashes prim)
  transactions : forall tx, tx ∈ block.transactions ->
    tx.fromAddr.isZero = false ∧ tx.toAddr.isZero = false ∧ tx.chainId = 1
  stateRoot : block.header.stateRoot = validator.stateMachine.computeStateRoot prim

theorem validateBlock_eq_empty_iff :
    validator.validateBlock prim block parent true = "" <-> Accepts prim validator block parent := by
  unfold validateBlock verifyTransactions
  rw [firstError_eq_empty_iff, List.forall_mem_cons, List.forall_mem_cons, List.forall_mem_cons, List.forall_mem_cons,
    List.forall_mem_cons, List.forall_mem_cons, List.forall_mem_singleton, if_pos rfl, verifyBlockHeight_eq_empty_iff,
    verifyBlockHashChain_eq_empty_iff, verifyTimestamp_eq_empty_iff, verifyProposer_eq_empty_iff,
    verifyTransactionsRoot_eq_empty_iff, verifyTransactionsFrom_eq_empty_iff, verifyStateRoot_eq_empty_iff]
  constructor
  · rintro ⟨height, previousHash, timestamp, proposer, transactionsRoot, transactions, stateRoot⟩
    exact ⟨height, previousHash, timestamp, proposer, transactionsRoot, transactions, stateRoot⟩
  · rintro ⟨height, previousHash, timestamp, proposer, transactionsRoot, transactions, stateRoot⟩
    exact ⟨height, previousHash, timestamp, proposer, transactionsRoot, transactions, stateRoot⟩

end BlockValidator
end Consensus
end Sarafu

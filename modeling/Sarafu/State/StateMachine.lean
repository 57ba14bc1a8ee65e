import Sarafu.State.Ledger

namespace Sarafu
namespace State

open Crypto

/-!
# Transaction validation, execution and the state machine

`execute_block` verifies every transaction under a default-constructed public
key, since the source keeps no map from addresses to keys.  Validation and
execution are separate passes over the same account manager; a failed
transaction only produces a receipt.
-/

namespace TransactionValidator

variable (prim : Primitives)

/-- `validate_transaction`: the first failing check decides the text, and
`none` means that every check passed.  `has_non_negative_amounts` is constantly
true for unsigned amounts. -/
def validateTransaction (chainId : UInt32) (tx : Transaction) (publicKey : Ed25519PublicKey)
    (accounts : AccountManager) : Option String :=
  if tx.fromAddr.isZero then
    some "Transaction from address cannot be zero address"
  else if tx.toAddr.isZero then
    some "Transaction to address cannot be zero address"
  else if tx.chainId ≠ chainId then
    some ("Invalid chain ID: expected " ++ toString chainId ++ ", got " ++ toString tx.chainId)
  else if tx.verifySignature prim publicKey = false then
    some "Invalid transaction signature"
  else if accounts.validateNonce tx.fromAddr tx.nonce = false then
    some ("Invalid nonce: expected " ++ toString (accounts.getNonce tx.fromAddr) ++
      ", got " ++ toString tx.nonce)
  else if accounts.hasSufficientBalance tx.fromAddr (tx.amount + tx.fee) = false then
    some ("Insufficient balance: have " ++ toString (accounts.getBalance tx.fromAddr) ++
      ", need " ++ toString (tx.amount + tx.fee))
  else
    none

end TransactionValidator

/-- The account manager together with the two fee counters it is executed with. -/
structure TransactionExecutor where
  accountManager : AccountManager
  totalBurned : UInt64
  totalPriorityFees : UInt64

namespace TransactionExecutor

/-- `min(tx.fee, base_fee * gas_limit)`, the product taken modulo `2^64`. -/
def calculateBaseFeeAmount (tx : Transaction) (baseFee : UInt64) : UInt64 :=
  let baseFeeTotal := baseFee * tx.gasLimit
  if baseFeeTotal < tx.fee then baseFeeTotal else tx.fee

def calculatePriorityFeeAmount (tx : Transaction) (baseFeeAmount : UInt64) : UInt64 :=
  if baseFeeAmount < tx.fee then tx.fee - baseFeeAmount else 0

def executeTransaction (prim : Primitives) (executor : TransactionExecutor) (tx : Transaction)
    (blockHeight baseFee : UInt64) (proposerAddress : Address) : TransactionReceipt × TransactionExecutor :=
  let baseFeeAmount := calculateBaseFeeAmount tx baseFee
  let priorityFeeAmount := calculatePriorityFeeAmount tx baseFeeAmount
  let totalDeduction := tx.amount + tx.fee
  if (executor.accountManager.getAccount tx.fromAddr).balance < totalDeduction then
    (⟨tx.hash prim, blockHeight, false, 0, "Insufficient balance"⟩, executor)
  else
    let deducted := executor.accountManager.deductBalance tx.fromAddr totalDeduction
    let counted := deducted.incrementNonce tx.fromAddr
    let credited := counted.addBalance tx.toAddr tx.amount
    let totalBurned := executor.totalBurned + baseFeeAmount
    let receipt : TransactionReceipt := ⟨tx.hash prim, blockHeight, true, tx.gasLimit, ""⟩
    if 0 < priorityFeeAmount then
      (receipt, ⟨credited.addBalance proposerAddress priorityFeeAmount, totalBurned,
        executor.totalPriorityFees + priorityFeeAmount⟩)
    else
      (receipt, ⟨credited, totalBurned, executor.totalPriorityFees⟩)

end TransactionExecutor

structure StateMachine where
  chainId : UInt32
  transactionExecutor : TransactionExecutor
  receipts : OrderedMap Blake3Hash TransactionReceipt
  currentHeight : UInt64
  stateSnapshots : OrderedMap UInt64 Blake3Hash

namespace StateMachine

/-- The constructor: no accounts, no receipts, zero counters. -/
def create (chainId : UInt32) : StateMachine :=
  ⟨chainId, ⟨AccountManager.empty, 0, 0⟩, ∅, 0, ∅⟩

def accountManager (machine : StateMachine) : AccountManager := machine.transactionExecutor.accountManager

/-- Less or equal in the order of `Blake3Hash::operator<`. -/
def hashLe (left right : Blake3Hash) : Bool := (compare left right).isLE

/-- The root over the sorted account hashes; zero when there is no account. -/
def computeStateRoot (prim : Primitives) (machine : StateMachine) : Blake3Hash :=
  let accounts := machine.accountManager.getAllAccounts
  if accounts.isEmpty then Blake3Hash.zero
  else MerkleTree.rootOf prim ((accounts.map (Account.hash prim)).insertionSort fun left right => hashLe left right)

variable (prim : Primitives)

def executeTransaction (machine : StateMachine) (tx : Transaction) (publicKey : Ed25519PublicKey)
    (blockHeight baseFee : UInt64) (proposerAddress : Address) : TransactionReceipt × StateMachine :=
  match TransactionValidator.validateTransaction prim machine.chainId tx publicKey machine.accountManager with
  | some validationError => (⟨tx.hash prim, blockHeight, false, 0, validationError⟩, machine)
  | none =>
      let executed := machine.transactionExecutor.executeTransaction prim tx blockHeight baseFee proposerAddress
      (executed.1, { machine with transactionExecutor := executed.2 })

def storeReceipt (machine : StateMachine) (receipt : TransactionReceipt) : StateMachine :=
  { machine with receipts := machine.receipts.insert receipt.txHash receipt }

def saveStateSnapshot (machine : StateMachine) (height : UInt64) : StateMachine :=
  { machine with stateSnapshots := machine.stateSnapshots.insert height (machine.computeStateRoot prim) }

/-- The dummy key that `execute_block` passes for every sender. -/
def defaultPublicKey : Ed25519PublicKey := FixedBytes.zero 32

/-- One iteration of the transaction loop of `execute_block`. -/
def executeAndStore (blockHeight baseFee : UInt64) (proposerAddress : Address) (machine : StateMachine)
    (tx : Transaction) : StateMachine :=
  let executed := machine.executeTransaction prim tx defaultPublicKey blockHeight baseFee proposerAddress
  executed.2.storeReceipt executed.1

/-- `execute_block` reads only the height and the transactions of the block. -/
def executeBlock (machine : StateMachine) (height : UInt64) (transactions : List Transaction)
    (baseFee : UInt64) (proposerAddress : Address) : Blake3Hash × StateMachine :=
  let saved := machine.saveStateSnapshot prim machine.currentHeight
  let executed := transactions.foldl (executeAndStore prim height baseFee proposerAddress) saved
  let final := { executed with currentHeight := height }
  (final.computeStateRoot prim, final)

end StateMachine
end State
end Sarafu

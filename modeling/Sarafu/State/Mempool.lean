import Sarafu.State.Ledger

namespace Sarafu
namespace State

open Crypto

/-!
# The mempool: intake, selection and removal of transactions

`account_manager_` is a pointer into the state machine, or null.  Each function
reads it at the moment of the call, so the model passes its contents as an
optional argument.  `fee_index_` is a multimap; its entries are listed in
iteration order, by fee and then by insertion.
-/

structure MempoolTransaction where
  tx : Transaction
  receivedTimestamp : UInt64
  totalFee : UInt64
deriving DecidableEq

structure AccountQueue where
  account : Address
  transactions : List MempoolTransaction
  nextExpectedNonce : UInt64
deriving DecidableEq

structure MempoolConfig where
  maxTransactionsPerAccount : UInt64 := 100
  maxNonceGap : UInt64 := 100
  maxAgeSeconds : UInt64 := 3600

structure Mempool where
  config : MempoolConfig
  accountQueues : OrderedMap Address AccountQueue
  feeIndex : List (UInt64 × Blake3Hash)
  transactions : OrderedMap Blake3Hash MempoolTransaction

namespace Mempool

def empty (config : MempoolConfig) : Mempool := ⟨config, ∅, [], ∅⟩

/-! ## Intake -/

/-- The default-constructed queue that `account_queues_[tx.from]` inserts. -/
def AccountQueue.empty : AccountQueue := ⟨Address.zero, [], 0⟩

/-- The checks against the account manager.  Both sums are taken modulo `2^64`. -/
def acceptsAccount (mempool : Mempool) (manager : AccountManager) (tx : Transaction) : Bool :=
  let required := tx.amount + tx.fee
  if manager.hasSufficientBalance tx.fromAddr required = false then false
  else
    let currentNonce := manager.getNonce tx.fromAddr
    if tx.nonce < currentNonce then false
    else if currentNonce + mempool.config.maxNonceGap < tx.nonce then false
    else true

/-- The queue of the sender, created with the sender's next nonce if it is new. -/
def openQueue (mempool : Mempool) (accountManager : Option AccountManager) (sender : Address) : AccountQueue :=
  let queue := (mempool.accountQueues[sender]?).getD AccountQueue.empty
  if queue.account.isZero then
    { queue with
      account := sender
      nextExpectedNonce := (accountManager.map fun manager => manager.getNonce sender).getD queue.nextExpectedNonce }
  else queue

/-- Before the first transaction whose nonce is not smaller. -/
def insertInNonceOrder (queue : AccountQueue) (pending : MempoolTransaction) : AccountQueue :=
  { queue with
    transactions := queue.transactions.takeWhile (fun other => decide (other.tx.nonce < pending.tx.nonce)) ++
      pending :: queue.transactions.dropWhile fun other => decide (other.tx.nonce < pending.tx.nonce) }

/-- `multimap::insert` places an entry behind those with the same fee. -/
def insertFee (feeIndex : List (UInt64 × Blake3Hash)) (fee : UInt64) (hash : Blake3Hash) : List (UInt64 × Blake3Hash) :=
  feeIndex.takeWhile (fun entry => decide (entry.1 ≤ fee)) ++
    (fee, hash) :: feeIndex.dropWhile fun entry => decide (entry.1 ≤ fee)

/-- `timestamp` is the value of `std::time`.  A refusal because of a full queue
comes after the queue has been created.  No signature is checked. -/
def addTransaction (prim : Primitives) (mempool : Mempool) (accountManager : Option AccountManager)
    (timestamp : UInt64) (tx : Transaction) : Bool × Mempool :=
  let txHash := tx.hash prim
  if (mempool.transactions[txHash]?).isSome then (false, mempool)
  else if (accountManager.map fun manager => mempool.acceptsAccount manager tx) = some false then (false, mempool)
  else
    let queue := mempool.openQueue accountManager tx.fromAddr
    if mempool.config.maxTransactionsPerAccount.toNat ≤ queue.transactions.length then
      (false, { mempool with accountQueues := mempool.accountQueues.insert tx.fromAddr queue })
    else
      let pending : MempoolTransaction := ⟨tx, timestamp, tx.fee⟩
      (true, { mempool with
        accountQueues := mempool.accountQueues.insert tx.fromAddr (insertInNonceOrder queue pending)
        transactions := mempool.transactions.insert txHash pending
        feeIndex := insertFee mempool.feeIndex tx.fee txHash })

/-- With an account manager, what is accepted has passed its checks. -/
theorem acceptsAccount_of_addTransaction {prim : Primitives} {mempool : Mempool} {manager : AccountManager}
    {timestamp : UInt64} {tx : Transaction}
    (added : (mempool.addTransaction prim (some manager) timestamp tx).1 = true) :
    mempool.acceptsAccount manager tx = true := by
  unfold addTransaction at added
  simp only [Option.map_some, Option.some.injEq] at added
  split at added
  · cases added
  · split at added
    · cases added
    · rename_i accepted
      exact Bool.of_not_eq_false accepted

/-! ## Selection -/

/-- The local variables of `get_transactions_for_block`. -/
structure Selection where
  result : List Transaction
  gasUsed : UInt64
  accountNextNonce : OrderedMap Address UInt64

/-- `account_next_nonce`, filled for every queued sender when an account
manager is set. -/
def initialNonces (mempool : Mempool) (accountManager : Option AccountManager) : OrderedMap Address UInt64 :=
  match accountManager with
  | none => ∅
  | some manager => mempool.accountQueues.keys.foldl
      (fun nonces address => nonces.insert address (manager.getNonce address)) ∅

/-- Append the transaction and count its gas. -/
def Selection.include (selection : Selection) (tx : Transaction) : Selection :=
  { selection with result := selection.result ++ [tx], gasUsed := selection.gasUsed + tx.gasLimit }

/-- One iteration over the reversed fee index.  The expected nonce of a sender
is advanced only when its transaction matches. -/
def selectNext (mempool : Mempool) (checksNonces : Bool) (maxGas minBaseFee : UInt64)
    (selection : Selection) (entry : UInt64 × Blake3Hash) : Selection :=
  match mempool.transactions[entry.2]? with
  | none => selection
  | some pending =>
      let tx := pending.tx
      if tx.fee < minBaseFee then selection
      else if maxGas < selection.gasUsed + tx.gasLimit then selection
      else if checksNonces then
        match selection.accountNextNonce[tx.fromAddr]? with
        | none => selection.include tx
        | some expected =>
            if tx.nonce ≠ expected then selection
            else ({ selection with
              accountNextNonce := selection.accountNextNonce.insert tx.fromAddr (expected + 1) }).include tx
      else selection.include tx

def getTransactionsForBlock (mempool : Mempool) (accountManager : Option AccountManager)
    (maxGas minBaseFee : UInt64) : List Transaction :=
  (mempool.feeIndex.reverse.foldl
    (mempool.selectNext accountManager.isSome maxGas minBaseFee)
    ⟨[], 0, mempool.initialNonces accountManager⟩).result

/-! ## Removal -/

/-- The queue without the transactions of one hash; an empty queue is erased. -/
def removeQueued (prim : Primitives) (accountQueues : OrderedMap Address AccountQueue) (sender : Address)
    (txHash : Blake3Hash) : OrderedMap Address AccountQueue :=
  match accountQueues[sender]? with
  | none => accountQueues
  | some queue =>
      let kept := queue.transactions.filter fun pending => decide (pending.tx.hash prim ≠ txHash)
      if kept.isEmpty then accountQueues.erase sender
      else accountQueues.insert sender { queue with transactions := kept }

/-- One iteration of `remove_transactions`.  Of the entries with the fee of the transaction
the first with its hash is erased. -/
def removeTransaction (prim : Primitives) (mempool : Mempool) (txHash : Blake3Hash) : Mempool :=
  match mempool.transactions[txHash]? with
  | none => mempool
  | some pending =>
      { mempool with
        accountQueues := removeQueued prim mempool.accountQueues pending.tx.fromAddr txHash
        feeIndex := mempool.feeIndex.erase (pending.totalFee, txHash)
        transactions := mempool.transactions.erase txHash }

def removeTransactions (prim : Primitives) (mempool : Mempool) (txHashes : List Blake3Hash) : Mempool :=
  txHashes.foldl (removeTransaction prim) mempool

/-- `currentTime` is the value of `std::time`; the age is a difference modulo `2^64`. -/
def pruneOldTransactions (prim : Primitives) (mempool : Mempool) (currentTime : UInt64) : Mempool :=
  let old := mempool.transactions.toList.filter fun entry =>
    decide (mempool.config.maxAgeSeconds < currentTime - entry.2.receivedTimestamp)
  mempool.removeTransactions prim (old.map Prod.fst)

def clear (mempool : Mempool) : Mempool := { mempool with accountQueues := ∅, feeIndex := [], transactions := ∅ }

end Mempool

/-- The calls that write the mempool.  Each reads the account manager and the clock at its
own moment. -/
inductive MempoolCall
  | addTransaction (accountManager : Option AccountManager) (timestamp : UInt64) (tx : Transaction)
  | removeTransactions (txHashes : List Blake3Hash)
  | pruneOldTransactions (currentTime : UInt64)
  | clear

/-- The mempool after a call. -/
def Mempool.call (prim : Primitives) (mempool : Mempool) : MempoolCall -> Mempool
  | .addTransaction accountManager timestamp tx => (mempool.addTransaction prim accountManager timestamp tx).2
  | .removeTransactions txHashes => mempool.removeTransactions prim txHashes
  | .pruneOldTransactions currentTime => mempool.pruneOldTransactions prim currentTime
  | .clear => mempool.clear

end State
end Sarafu

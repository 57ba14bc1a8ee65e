import Sarafu.State.StateMachine

namespace Sarafu
namespace State

open Crypto

/-!
# What the accounts depend on

The accounts after a block are a function of the chain id, the accounts before
it and the arguments of `execute_block`.  Receipts, snapshots, the current
height and the two fee counters are written and never read on the way.  The
ledger of a state machine is therefore its chain id and its accounts, and two
machines with the same ledger stay in step.
-/

/-- The accounts after one executed transaction, as the executor computes them. -/
def applyTransaction (prim : Primitives) (accounts : AccountManager) (tx : Transaction)
    (blockHeight baseFee : UInt64) (proposer : Address) : AccountManager :=
  ((⟨accounts, 0, 0⟩ : TransactionExecutor).executeTransaction prim tx blockHeight baseFee proposer).2.accountManager

theorem TransactionExecutor.executeTransaction_accounts (prim : Primitives) (executor : TransactionExecutor)
    (tx : Transaction) (blockHeight baseFee : UInt64) (proposer : Address) :
    (executor.executeTransaction prim tx blockHeight baseFee proposer).2.accountManager =
      applyTransaction prim executor.accountManager tx blockHeight baseFee proposer := by
  unfold applyTransaction TransactionExecutor.executeTransaction
  simp only []
  split
  · rfl
  · split
    · rfl
    · rfl

namespace StateMachine

variable {prim : Primitives} {first second machine : StateMachine}

/-- The chain id and the accounts agree. -/
structure SameLedger (first second : StateMachine) : Prop where
  chainId : first.chainId = second.chainId
  accounts : first.accountManager = second.accountManager

theorem SameLedger.refl (machine : StateMachine) : SameLedger machine machine := ⟨rfl, rfl⟩

theorem SameLedger.symm (same : SameLedger first second) : SameLedger second first :=
  ⟨same.chainId.symm, same.accounts.symm⟩

theorem SameLedger.trans {third : StateMachine} (left : SameLedger first second) (right : SameLedger second third) :
    SameLedger first third :=
  ⟨left.chainId.trans right.chainId, left.accounts.trans right.accounts⟩

/-- The state root is a function of the ledger. -/
theorem SameLedger.computeStateRoot (same : SameLedger first second) :
    first.computeStateRoot prim = second.computeStateRoot prim := by
  unfold StateMachine.computeStateRoot
  rw [same.accounts]

/-- The ledger after one transaction of a block. -/
theorem executeAndStore_ledger (prim : Primitives) (machine : StateMachine) (height baseFee : UInt64)
    (proposer : Address) (tx : Transaction) :
    (machine.executeAndStore prim height baseFee proposer tx).chainId = machine.chainId ∧
    (machine.executeAndStore prim height baseFee proposer tx).accountManager =
      match TransactionValidator.validateTransaction prim machine.chainId tx defaultPublicKey
        machine.accountManager with
      | some _ => machine.accountManager
      | none => applyTransaction prim machine.accountManager tx height baseFee proposer := by
  unfold executeAndStore executeTransaction
  cases verdict : TransactionValidator.validateTransaction prim machine.chainId tx defaultPublicKey
      machine.accountManager with
  | some text => exact ⟨rfl, rfl⟩
  | none => exact ⟨rfl, machine.transactionExecutor.executeTransaction_accounts prim tx height baseFee proposer⟩

theorem SameLedger.executeAndStore (same : SameLedger first second) (height baseFee : UInt64) (proposer : Address)
    (tx : Transaction) :
    SameLedger (first.executeAndStore prim height baseFee proposer tx)
      (second.executeAndStore prim height baseFee proposer tx) := by
  rcases executeAndStore_ledger prim first height baseFee proposer tx with ⟨firstId, firstAccounts⟩
  rcases executeAndStore_ledger prim second height baseFee proposer tx with ⟨secondId, secondAccounts⟩
  refine ⟨firstId.trans (same.chainId.trans secondId.symm), ?_⟩
  rw [firstAccounts, secondAccounts, same.chainId, same.accounts]

theorem SameLedger.foldl (same : SameLedger first second) (prim : Primitives) (height baseFee : UInt64)
    (proposer : Address) (transactions : List Transaction) :
    SameLedger (transactions.foldl (StateMachine.executeAndStore prim height baseFee proposer) first)
      (transactions.foldl (StateMachine.executeAndStore prim height baseFee proposer) second) := by
  induction transactions generalizing first second with
  | nil => exact same
  | cons tx rest inductionHypothesis => exact inductionHypothesis (same.executeAndStore height baseFee proposer tx)

/-- Machines with the same ledger have the same ledger after a block. -/
theorem SameLedger.executeBlock (same : SameLedger first second) (height : UInt64) (transactions : List Transaction)
    (baseFee : UInt64) (proposer : Address) :
    SameLedger (first.executeBlock prim height transactions baseFee proposer).2
      (second.executeBlock prim height transactions baseFee proposer).2 := by
  have saved : SameLedger (first.saveStateSnapshot prim first.currentHeight)
      (second.saveStateSnapshot prim second.currentHeight) := ⟨same.chainId, same.accounts⟩
  have executed := saved.foldl prim height baseFee proposer transactions
  exact ⟨executed.chainId, executed.accounts⟩

/-- A block without transactions leaves the ledger as it was. -/
theorem executeBlock_nil (height baseFee : UInt64) (proposer : Address) :
    SameLedger machine (machine.executeBlock prim height [] baseFee proposer).2 := ⟨rfl, rfl⟩

/-- No signature verifies under the key that `execute_block` passes. -/
def RejectsDefaultKey (prim : Primitives) : Prop :=
  forall signature message, prim.cryptoSignVerifyDetached signature message defaultPublicKey = false

/-- Under a library that rejects the default key no block changes the ledger. -/
theorem executeBlock_rejected (rejects : RejectsDefaultKey prim) (height : UInt64) (transactions : List Transaction)
    (baseFee : UInt64) (proposer : Address) :
    SameLedger machine (machine.executeBlock prim height transactions baseFee proposer).2 := by
  have unsigned : forall tx : Transaction, tx.verifySignature prim defaultPublicKey = false := fun tx =>
    rejects tx.signature (tx.hash prim).serialize
  have failed : forall (machine : StateMachine) (tx : Transaction),
      (TransactionValidator.validateTransaction prim machine.chainId tx defaultPublicKey
        machine.accountManager).isSome = true := by
    intro machine tx
    unfold TransactionValidator.validateTransaction
    split
    · rfl
    · split
      · rfl
      · split
        · rfl
        · rw [if_pos (unsigned tx)]
          rfl
  have unchanged : forall (machine : StateMachine) (tx : Transaction),
      SameLedger machine (machine.executeAndStore prim height baseFee proposer tx) := by
    intro machine tx
    rcases executeAndStore_ledger prim machine height baseFee proposer tx with ⟨chainId, accounts⟩
    refine ⟨chainId.symm, ?_⟩
    rcases Option.isSome_iff_exists.mp (failed machine tx) with ⟨text, rejected⟩
    rw [accounts, rejected]
  have folded : forall (machine : StateMachine), SameLedger machine
      (transactions.foldl (StateMachine.executeAndStore prim height baseFee proposer) machine) := by
    induction transactions with
    | nil => exact SameLedger.refl
    | cons tx rest inductionHypothesis =>
        intro machine
        exact (unchanged machine tx).trans (inductionHypothesis _)
  have executed := folded (machine.saveStateSnapshot prim machine.currentHeight)
  exact ⟨executed.chainId, executed.accounts⟩

end StateMachine
end State
end Sarafu

import Sarafu.Library.Runs
import Sarafu.State.StateMachine

namespace Sarafu
namespace State

open Crypto Library.Runs

/-!
# Runs of the ledger

The ledger changes through `execute_transaction` and `execute_block`.  A block is
a sequence of smaller steps: a snapshot, one execution and one stored receipt for
each transaction, and the new height.  A run of calls is the run of their steps,
so that a condition can speak about the state in which each single transaction is
executed.

An execution either leaves the whole machine as it was or settles the transaction:
one deduction, one nonce, at most two credits and the two counters.
-/

/-- The arguments of one execution of a transaction. -/
structure Execution where
  tx : Transaction
  publicKey : Ed25519PublicKey
  blockHeight : UInt64
  baseFee : UInt64
  proposer : Address

inductive LedgerCall
  | executeTransaction (execution : Execution)
  | executeBlock (height : UInt64) (transactions : List Transaction) (baseFee : UInt64) (proposer : Address)

/-- The steps that the calls are made of. -/
inductive LedgerStep
  | executeTransaction (execution : Execution)
  | beginBlock
  | executeAndStore (height baseFee : UInt64) (proposer : Address) (tx : Transaction)
  | endBlock (height : UInt64)

/-- The execution of a transaction in a step; inside a block the key is the
default one. -/
def LedgerStep.execution : LedgerStep -> Option Execution
  | .executeTransaction execution => some execution
  | .beginBlock => none
  | .executeAndStore height baseFee proposer tx =>
      some ⟨tx, StateMachine.defaultPublicKey, height, baseFee, proposer⟩
  | .endBlock _ => none

def LedgerCall.steps : LedgerCall -> List LedgerStep
  | .executeTransaction execution => [.executeTransaction execution]
  | .executeBlock height transactions baseFee proposer =>
      .beginBlock :: (transactions.map (.executeAndStore height baseFee proposer) ++ [.endBlock height])

/-- The steps of a sequence of calls. -/
def stepsOf (calls : List LedgerCall) : List LedgerStep := calls.flatMap LedgerCall.steps

/-! ## What settling a transaction does -/

namespace TransactionExecutor

/-- The part of the fee that is burned. -/
def burnt (execution : Execution) : UInt64 := calculateBaseFeeAmount execution.tx execution.baseFee

/-- The part of the fee that is paid to the proposer. -/
def tip (execution : Execution) : UInt64 := calculatePriorityFeeAmount execution.tx (burnt execution)

/-- The accounts after the deduction and the new nonce. -/
def debited (accounts : AccountManager) (tx : Transaction) : AccountManager :=
  (accounts.deductBalance tx.fromAddr (tx.amount + tx.fee)).incrementNonce tx.fromAddr

/-- The accounts after the recipient has been paid too. -/
def credited (accounts : AccountManager) (tx : Transaction) : AccountManager :=
  (debited accounts tx).addBalance tx.toAddr tx.amount

/-- The accounts and counters after a success. -/
def settled (executor : TransactionExecutor) (execution : Execution) : TransactionExecutor where
  accountManager :=
    if 0 < tip execution then
      (credited executor.accountManager execution.tx).addBalance execution.proposer (tip execution)
    else credited executor.accountManager execution.tx
  totalBurned := executor.totalBurned + burnt execution
  totalPriorityFees := executor.totalPriorityFees + tip execution

theorem burnt_add_tip (execution : Execution) :
    (burnt execution).toNat + (tip execution).toNat = execution.tx.fee.toNat := by
  have smaller : burnt execution ≤ execution.tx.fee := by
    unfold burnt calculateBaseFeeAmount
    simp only []
    split
    · rename_i below
      exact UInt64.le_of_lt below
    · exact UInt64.le_refl _
  unfold tip calculatePriorityFeeAmount
  split
  · rw [UInt64.toNat_sub_of_le _ _ smaller]
    exact Nat.add_sub_cancel' (UInt64.le_iff_toNat_le.mp smaller)
  · rename_i notBelow
    exact congrArg UInt64.toNat (UInt64.le_antisymm smaller (UInt64.not_lt.mp notBelow))

/-- The nonce of the sender is advanced and no other. -/
theorem getNonce_settled (executor : TransactionExecutor) (execution : Execution) (address : Address) :
    (executor.settled execution).accountManager.getNonce address =
      executor.accountManager.getNonce address + if address = execution.tx.fromAddr then 1 else 0 := by
  have credits : (credited executor.accountManager execution.tx).getNonce address =
      executor.accountManager.getNonce address + if address = execution.tx.fromAddr then 1 else 0 := by
    rw [credited, debited, AccountManager.getNonce_addBalance, AccountManager.getNonce_incrementNonce,
      AccountManager.getNonce_deductBalance]
  unfold settled
  simp only []
  split
  · rw [AccountManager.getNonce_addBalance, credits]
  · exact credits

/-- Every balance after a success, in the wrapping arithmetic of the source. -/
theorem getBalance_settled (executor : TransactionExecutor) (execution : Execution) (address : Address) :
    (executor.settled execution).accountManager.getBalance address =
      executor.accountManager.getBalance address -
        (if address = execution.tx.fromAddr then execution.tx.amount + execution.tx.fee else 0) +
        (if address = execution.tx.toAddr then execution.tx.amount else 0) +
        (if address = execution.proposer then tip execution else 0) := by
  have credits : (credited executor.accountManager execution.tx).getBalance address =
      executor.accountManager.getBalance address -
        (if address = execution.tx.fromAddr then execution.tx.amount + execution.tx.fee else 0) +
        (if address = execution.tx.toAddr then execution.tx.amount else 0) := by
    rw [credited, debited, AccountManager.getBalance_addBalance, AccountManager.getBalance_incrementNonce,
      AccountManager.getBalance_deductBalance]
  unfold settled
  simp only []
  split
  · rw [AccountManager.getBalance_addBalance, credits]
  · rename_i nothing
    rw [credits, UInt64.le_antisymm (UInt64.not_lt.mp nothing) UInt64.zero_le, ite_self, UInt64.add_zero]

/-- The executor settles a transaction that the balance covers. -/
theorem executeTransaction_eq_settled (prim : Primitives) {executor : TransactionExecutor} {execution : Execution}
    (covered : execution.tx.amount + execution.tx.fee ≤ executor.accountManager.getBalance execution.tx.fromAddr) :
    executor.executeTransaction prim execution.tx execution.blockHeight execution.baseFee execution.proposer =
      (⟨execution.tx.hash prim, execution.blockHeight, true, execution.tx.gasLimit, ""⟩,
        executor.settled execution) := by
  have enough : ¬ (executor.accountManager.getAccount execution.tx.fromAddr).balance <
      execution.tx.amount + execution.tx.fee := UInt64.not_lt.mpr covered
  unfold executeTransaction settled credited debited tip burnt
  simp only [if_neg enough]
  split
  · rfl
  · rename_i nothing
    rw [UInt64.le_antisymm (UInt64.not_lt.mp nothing) (UInt64.zero_le), UInt64.add_zero]

end TransactionExecutor

/-! ## Validation -/

/-- The checks of `validate_transaction`. -/
structure Valid (prim : Primitives) (chainId : UInt32) (accounts : AccountManager) (tx : Transaction)
    (publicKey : Ed25519PublicKey) : Prop where
  sender : tx.fromAddr.isZero = false
  recipient : tx.toAddr.isZero = false
  chain : tx.chainId = chainId
  signed : tx.verifySignature prim publicKey = true
  nonce : accounts.getNonce tx.fromAddr = tx.nonce
  covered : tx.amount + tx.fee ≤ accounts.getBalance tx.fromAddr

/-- A check that reports a text passes exactly if the rest decides. -/
theorem check_eq_none_iff {condition : Prop} [Decidable condition] {text : String} {rest : Option String} :
    (if condition then some text else rest) = none <-> ¬ condition ∧ rest = none := by
  split
  · rename_i fails
    exact ⟨fun impossible => absurd impossible (Option.some_ne_none text), fun both => absurd fails both.1⟩
  · rename_i passes
    exact ⟨fun decided => ⟨passes, decided⟩, fun both => both.2⟩

theorem validateTransaction_eq_none_iff {prim : Primitives} {chainId : UInt32} {accounts : AccountManager}
    {tx : Transaction} {publicKey : Ed25519PublicKey} :
    TransactionValidator.validateTransaction prim chainId tx publicKey accounts = none <->
      Valid prim chainId accounts tx publicKey := by
  unfold TransactionValidator.validateTransaction
  rw [check_eq_none_iff, check_eq_none_iff, check_eq_none_iff, check_eq_none_iff, check_eq_none_iff,
    check_eq_none_iff, Bool.not_eq_true, Bool.not_eq_true, Decidable.not_not, Bool.not_eq_false, Bool.not_eq_false,
    Bool.not_eq_false]
  constructor
  · rintro ⟨sender, recipient, chain, signed, nonce, covered, _⟩
    exact ⟨sender, recipient, chain, signed, eq_of_beq nonce, of_decide_eq_true covered⟩
  · intro valid
    exact ⟨valid.sender, valid.recipient, valid.chain, valid.signed, beq_iff_eq.mpr valid.nonce,
      decide_eq_true valid.covered, rfl⟩

/-! ## The machine -/

namespace StateMachine

/-- One execution, as a caller of `execute_transaction` sees it. -/
def execute (prim : Primitives) (machine : StateMachine) (execution : Execution) : TransactionReceipt × StateMachine :=
  machine.executeTransaction prim execution.tx execution.publicKey execution.blockHeight execution.baseFee
    execution.proposer

def ledgerCall (prim : Primitives) (machine : StateMachine) : LedgerCall -> StateMachine
  | .executeTransaction execution => (machine.execute prim execution).2
  | .executeBlock height transactions baseFee proposer =>
      (machine.executeBlock prim height transactions baseFee proposer).2

def ledgerStep (prim : Primitives) (machine : StateMachine) : LedgerStep -> StateMachine
  | .executeTransaction execution => (machine.execute prim execution).2
  | .beginBlock => machine.saveStateSnapshot prim machine.currentHeight
  | .executeAndStore height baseFee proposer tx => machine.executeAndStore prim height baseFee proposer tx
  | .endBlock height => { machine with currentHeight := height }

variable (prim : Primitives)

/-- A call is the run of its steps. -/
theorem ledgerCall_eq_run (machine : StateMachine) (call : LedgerCall) :
    machine.ledgerCall prim call = run (ledgerStep prim) machine call.steps := by
  cases call with
  | executeTransaction execution => rfl
  | executeBlock height transactions baseFee proposer =>
      rw [LedgerCall.steps, run_cons, run_append]
      unfold run
      rw [List.foldl_map]
      rfl

/-- A run of calls is the run of all of their steps. -/
theorem run_ledgerCall_eq_run (machine : StateMachine) (calls : List LedgerCall) :
    run (ledgerCall prim) machine calls = run (ledgerStep prim) machine (stepsOf calls) := by
  induction calls generalizing machine with
  | nil => rfl
  | cons call rest inductionHypothesis =>
      have split : stepsOf (call :: rest) = call.steps ++ stepsOf rest := List.flatMap_cons
      rw [run_cons, inductionHypothesis, split, run_append, ← ledgerCall_eq_run]

/-- What one execution can do: nothing at all, or settle a valid transaction. -/
theorem execute_cases (machine : StateMachine) (execution : Execution) :
    ((machine.execute prim execution).1.success = false ∧ (machine.execute prim execution).2 = machine) ∨
    (Valid prim machine.chainId machine.accountManager execution.tx execution.publicKey ∧
      (machine.execute prim execution).1.success = true ∧
      (machine.execute prim execution).2 =
        { machine with transactionExecutor := machine.transactionExecutor.settled execution }) := by
  unfold execute executeTransaction
  cases verdict : TransactionValidator.validateTransaction prim machine.chainId execution.tx execution.publicKey
      machine.accountManager with
  | some text => exact Or.inl ⟨rfl, rfl⟩
  | none =>
      have valid := validateTransaction_eq_none_iff.mp verdict
      have settles := TransactionExecutor.executeTransaction_eq_settled prim valid.covered
      refine Or.inr ⟨valid, ?_, ?_⟩
      · simp only [settles]
      · simp only [settles]

/-- A step touches the executor and the chain id only through its execution. -/
theorem ledgerStep_executor (machine : StateMachine) (step : LedgerStep) :
    (machine.ledgerStep prim step).chainId = machine.chainId ∧
    (machine.ledgerStep prim step).transactionExecutor =
      (step.execution.elim machine fun execution => (machine.execute prim execution).2).transactionExecutor := by
  have sameChain : forall execution, (machine.execute prim execution).2.chainId = machine.chainId := by
    intro execution
    rcases machine.execute_cases prim execution with ⟨_, same⟩ | ⟨_, _, settled⟩
    · rw [same]
    · rw [settled]
  cases step with
  | executeTransaction execution => exact ⟨sameChain execution, rfl⟩
  | beginBlock => exact ⟨rfl, rfl⟩
  | executeAndStore height baseFee proposer tx =>
      exact ⟨sameChain ⟨tx, defaultPublicKey, height, baseFee, proposer⟩, rfl⟩
  | endBlock height => exact ⟨rfl, rfl⟩

/-- What one step can do to the accounts and counters: nothing, in which case no
transaction of it succeeds, or settle the one valid transaction it executes. -/
theorem ledgerStep_cases (machine : StateMachine) (step : LedgerStep) :
    ((machine.ledgerStep prim step).transactionExecutor = machine.transactionExecutor ∧
      forall execution, step.execution = some execution -> (machine.execute prim execution).1.success = false) ∨
    ∃ execution, step.execution = some execution ∧
      Valid prim machine.chainId machine.accountManager execution.tx execution.publicKey ∧
      (machine.execute prim execution).1.success = true ∧
      (machine.ledgerStep prim step).transactionExecutor = machine.transactionExecutor.settled execution := by
  rw [(machine.ledgerStep_executor prim step).2]
  cases step.execution with
  | none => exact Or.inl ⟨rfl, fun _ impossible => by cases impossible⟩
  | some execution =>
      rcases machine.execute_cases prim execution with ⟨failed, same⟩ | ⟨valid, succeeded, settled⟩
      · refine Or.inl ⟨congrArg transactionExecutor same, ?_⟩
        intro other equal
        rw [← Option.some.inj equal]
        exact failed
      · exact Or.inr ⟨execution, rfl, valid, succeeded, congrArg transactionExecutor settled⟩

end StateMachine
end State
end Sarafu

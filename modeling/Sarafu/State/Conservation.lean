import Sarafu.Crypto.Transparent
import Sarafu.Library.KeyedMaps
import Sarafu.State.LedgerRuns

namespace Sarafu
namespace State

open Crypto Library.Runs Library.KeyedMaps

/-!
# Conservation of the supply

The supply is the sum of all balances together with what has been burned.  Each
update of an account moves the sum by the difference of the new and the old
record, so the account of the sender may also be that of the recipient or the
proposer.  Modulo `2^64` the supply never changes.  It stays the same number as
long as it starts below `2^64` and no successful transaction spends more than
that; then no addition of the executor wraps.
-/

namespace AccountManager

/-- The sum of all balances, as a natural number. -/
def sumOfBalances (manager : AccountManager) : Nat := total (fun account => account.balance.toNat) manager.accounts

theorem weightAt_balance (manager : AccountManager) (address : Address) :
    weightAt (fun account => account.balance.toNat) manager.accounts address = (manager.getBalance address).toNat := by
  unfold weightAt getBalance getAccount
  cases manager.accounts[address]? with
  | none => rfl
  | some account => rfl

/-- No account holds more than the sum. -/
theorem getBalance_le_sumOfBalances (manager : AccountManager) (address : Address) :
    (manager.getBalance address).toNat ≤ manager.sumOfBalances := by
  rw [← manager.weightAt_balance address]
  exact weightAt_le_total _ manager.accounts address

theorem sumOfBalances_updateAccount (manager : AccountManager) (account : Account) :
    (manager.updateAccount account).sumOfBalances + (manager.getBalance account.address).toNat =
      manager.sumOfBalances + account.balance.toNat := by
  rw [← manager.weightAt_balance account.address]
  exact total_insert _ manager.accounts account.address account

/-- Rewriting a record with another balance. -/
theorem sumOfBalances_rewrite (manager : AccountManager) (address : Address) (account : Account)
    (own : account.address = address) :
    (manager.updateAccount account).sumOfBalances + (manager.getBalance address).toNat =
      manager.sumOfBalances + account.balance.toNat := by
  rw [← own]
  exact manager.sumOfBalances_updateAccount account

theorem sumOfBalances_incrementNonce (manager : AccountManager) (address : Address) :
    (manager.incrementNonce address).sumOfBalances = manager.sumOfBalances :=
  Nat.add_right_cancel (manager.sumOfBalances_rewrite address _ (manager.address_getAccount address))

/-- A deduction that the balance covers lowers the sum by its amount. -/
theorem sumOfBalances_deductBalance (manager : AccountManager) (address : Address) (amount : UInt64)
    (covered : amount ≤ manager.getBalance address) :
    (manager.deductBalance address amount).sumOfBalances + amount.toNat = manager.sumOfBalances := by
  have moved : (manager.deductBalance address amount).sumOfBalances + (manager.getBalance address).toNat =
      manager.sumOfBalances + (manager.getBalance address - amount).toNat :=
    manager.sumOfBalances_rewrite address _ (manager.address_getAccount address)
  rw [UInt64.toNat_sub_of_le _ _ covered] at moved
  have smaller := UInt64.le_iff_toNat_le.mp covered
  omega

/-- A credit moves the sum by the wrapped new balance less the old one. -/
theorem sumOfBalances_addBalance (manager : AccountManager) (address : Address) (amount : UInt64) :
    (manager.addBalance address amount).sumOfBalances + (manager.getBalance address).toNat =
      manager.sumOfBalances + ((manager.getBalance address).toNat + amount.toNat) % 2 ^ 64 := by
  rw [← UInt64.toNat_add]
  exact manager.sumOfBalances_rewrite address _ (manager.address_getAccount address)

end AccountManager

namespace TransactionExecutor

/-- All balances and what has been burned. -/
def supply (executor : TransactionExecutor) : Nat :=
  executor.accountManager.sumOfBalances + executor.totalBurned.toNat

/-- None of the additions and subtractions of a success wraps: the deduction, the
two credits in the accounts they are made in, and the burned total. -/
structure NoWrap (executor : TransactionExecutor) (execution : Execution) : Prop where
  deduction : execution.tx.amount.toNat + execution.tx.fee.toNat ≤
    (executor.accountManager.getBalance execution.tx.fromAddr).toNat
  credit : ((debited executor.accountManager execution.tx).getBalance execution.tx.toAddr).toNat +
    execution.tx.amount.toNat < 2 ^ 64
  payment : ((credited executor.accountManager execution.tx).getBalance execution.proposer).toNat +
    (tip execution).toNat < 2 ^ 64
  burn : executor.totalBurned.toNat + (burnt execution).toNat < 2 ^ 64

variable {executor : TransactionExecutor} {execution : Execution}

/-- The proposer's share moves the sum in the same way when it is zero. -/
theorem sumOfBalances_settled (executor : TransactionExecutor) (execution : Execution) :
    (executor.settled execution).accountManager.sumOfBalances +
        ((credited executor.accountManager execution.tx).getBalance execution.proposer).toNat =
      (credited executor.accountManager execution.tx).sumOfBalances +
        (((credited executor.accountManager execution.tx).getBalance execution.proposer).toNat +
          (tip execution).toNat) % 2 ^ 64 := by
  unfold settled
  simp only []
  split
  · exact AccountManager.sumOfBalances_addBalance _ _ _
  · rename_i nothing
    have zero : (tip execution).toNat = 0 :=
      Nat.eq_zero_of_not_pos fun positive => nothing (UInt64.lt_iff_toNat_lt.mpr positive)
    rw [zero, Nat.add_zero, Nat.mod_eq_of_lt (UInt64.toNat_lt _)]

theorem sumOfBalances_debited
    (covered : execution.tx.amount + execution.tx.fee ≤ executor.accountManager.getBalance execution.tx.fromAddr) :
    (debited executor.accountManager execution.tx).sumOfBalances +
        (execution.tx.amount.toNat + execution.tx.fee.toNat) % 2 ^ 64 =
      executor.accountManager.sumOfBalances := by
  rw [← UInt64.toNat_add, debited, AccountManager.sumOfBalances_incrementNonce]
  exact executor.accountManager.sumOfBalances_deductBalance _ _ covered

/-- One success keeps the supply modulo `2^64`. -/
theorem supply_settled_mod
    (covered : execution.tx.amount + execution.tx.fee ≤ executor.accountManager.getBalance execution.tx.fromAddr) :
    (executor.settled execution).supply % 2 ^ 64 = executor.supply % 2 ^ 64 := by
  have taken := sumOfBalances_debited covered
  have given := (debited executor.accountManager execution.tx).sumOfBalances_addBalance execution.tx.toAddr
    execution.tx.amount
  have paid := executor.sumOfBalances_settled execution
  have burned : (executor.settled execution).totalBurned.toNat =
      (executor.totalBurned.toNat + (burnt execution).toNat) % 2 ^ 64 := UInt64.toNat_add _ _
  have fee := burnt_add_tip execution
  unfold supply
  rw [burned]
  change (credited executor.accountManager execution.tx).sumOfBalances + _ = _ at given
  omega

/-- One success below `2^64` keeps the supply exactly, without a wrap. -/
theorem supply_settled
    (covered : execution.tx.amount + execution.tx.fee ≤ executor.accountManager.getBalance execution.tx.fromAddr)
    (bounded : executor.supply < 2 ^ 64) (fits : execution.tx.amount.toNat + execution.tx.fee.toNat < 2 ^ 64) :
    (executor.settled execution).supply = executor.supply ∧ executor.NoWrap execution := by
  have taken := sumOfBalances_debited covered
  have given := (debited executor.accountManager execution.tx).sumOfBalances_addBalance execution.tx.toAddr
    execution.tx.amount
  change (credited executor.accountManager execution.tx).sumOfBalances + _ = _ at given
  have paid := executor.sumOfBalances_settled execution
  have burned : (executor.settled execution).totalBurned.toNat =
      (executor.totalBurned.toNat + (burnt execution).toNat) % 2 ^ 64 := UInt64.toNat_add _ _
  have fee := burnt_add_tip execution
  have deduction := UInt64.le_iff_toNat_le.mp covered
  rw [UInt64.toNat_add, Nat.mod_eq_of_lt fits] at deduction
  rw [Nat.mod_eq_of_lt fits] at taken
  -- no account exceeds the sum at the time of its credit, and the sum leaves room for the credit
  have recipientRoom := (debited executor.accountManager execution.tx).getBalance_le_sumOfBalances execution.tx.toAddr
  unfold supply at bounded
  have credit : ((debited executor.accountManager execution.tx).getBalance execution.tx.toAddr).toNat +
      execution.tx.amount.toNat < 2 ^ 64 := by omega
  rw [Nat.mod_eq_of_lt credit] at given
  have proposerRoom := (credited executor.accountManager execution.tx).getBalance_le_sumOfBalances execution.proposer
  have payment : ((credited executor.accountManager execution.tx).getBalance execution.proposer).toNat +
      (tip execution).toNat < 2 ^ 64 := by omega
  rw [Nat.mod_eq_of_lt payment] at paid
  have burn : executor.totalBurned.toNat + (burnt execution).toNat < 2 ^ 64 := by omega
  rw [Nat.mod_eq_of_lt burn] at burned
  refine ⟨?_, deduction, credit, payment, burn⟩
  unfold supply
  omega

end TransactionExecutor

namespace StateMachine

/-- All balances and what has been burned. -/
def supply (machine : StateMachine) : Nat := machine.transactionExecutor.supply

/-- A success spends a sum below `2^64`. -/
def SpendsFit (prim : Primitives) (machine : StateMachine) (step : LedgerStep) : Prop :=
  forall execution, step.execution = some execution -> (machine.execute prim execution).1.success = true ->
    execution.tx.amount.toNat + execution.tx.fee.toNat < 2 ^ 64

/-- A step keeps the supply, and its success wraps nowhere. -/
def Conserves (prim : Primitives) (machine : StateMachine) (step : LedgerStep) : Prop :=
  (machine.ledgerStep prim step).supply = machine.supply ∧
    forall execution, step.execution = some execution -> (machine.execute prim execution).1.success = true ->
      machine.transactionExecutor.NoWrap execution

variable (prim : Primitives)

theorem supply_ledgerStep_mod (machine : StateMachine) (step : LedgerStep) :
    (machine.ledgerStep prim step).supply % 2 ^ 64 = machine.supply % 2 ^ 64 := by
  unfold supply
  rcases machine.ledgerStep_cases prim step with ⟨same, _⟩ | ⟨execution, _, valid, _, settled⟩
  · rw [same]
  · rw [settled]
    exact TransactionExecutor.supply_settled_mod valid.covered

theorem conserves_of_fits {machine : StateMachine} {step : LedgerStep} (bounded : machine.supply < 2 ^ 64)
    (fits : SpendsFit prim machine step) : Conserves prim machine step := by
  unfold Conserves supply
  rcases machine.ledgerStep_cases prim step with ⟨same, failed⟩ | ⟨execution, executed, valid, succeeded, settled⟩
  · refine ⟨congrArg TransactionExecutor.supply same, ?_⟩
    intro execution executed succeeded
    rw [failed execution executed] at succeeded
    cases succeeded
  · have exact := TransactionExecutor.supply_settled valid.covered bounded (fits execution executed succeeded)
    rw [settled]
    refine ⟨exact.1, ?_⟩
    intro other same _
    rw [← Option.some.inj (executed.symm.trans same)]
    exact exact.2

/-- Conservation over every run of transactions and blocks from every ledger.
The supply never changes modulo `2^64`.  If it starts below `2^64` and every
success spends a sum below `2^64`, it never changes at all, and no balance and no
burned total wraps at any step. -/
theorem supply_conserved (machine : StateMachine) (calls : List LedgerCall) :
    (run (ledgerCall prim) machine calls).supply % 2 ^ 64 = machine.supply % 2 ^ 64 ∧
    (machine.supply < 2 ^ 64 -> Along (ledgerStep prim) (SpendsFit prim) machine (stepsOf calls) ->
      (run (ledgerCall prim) machine calls).supply = machine.supply ∧
        Along (ledgerStep prim) (Conserves prim) machine (stepsOf calls)) := by
  rw [run_ledgerCall_eq_run]
  constructor
  · apply invariant_run (fun later : StateMachine => later.supply % 2 ^ 64 = machine.supply % 2 ^ 64)
    · intro later step kept _
      rw [supply_ledgerStep_mod]
      exact kept
    · rfl
    · exact along_true machine (stepsOf calls)
  · intro bounded fits
    have preserved : forall later step, later.supply = machine.supply -> SpendsFit prim later step ->
        (later.ledgerStep prim step).supply = machine.supply := by
      intro later step kept spends
      rw [(conserves_of_fits prim (kept ▸ bounded) spends).1]
      exact kept
    refine ⟨invariant_run (fun later => later.supply = machine.supply) preserved rfl fits, ?_⟩
    apply along_of_invariant (fun later => later.supply = machine.supply) preserved ?_ rfl fits
    intro later step kept spends
    exact conserves_of_fits prim (kept ▸ bounded) spends

/-- A machine for chain one on which the numbered address holds an amount. -/
def funded (number : Nat) (balance : UInt64) : StateMachine :=
  { create 1 with
    transactionExecutor := ⟨AccountManager.empty.createAccount (FixedBytes.ofNat 32 number) balance, 0, 0⟩ }

/-- A transfer between numbered addresses with gas limit three, unsigned. -/
def transfer (sender recipient : Nat) (amount nonce fee : UInt64) : Transaction :=
  ⟨FixedBytes.ofNat 32 sender, FixedBytes.ofNat 32 recipient, amount, nonce, fee, 3, 1, FixedBytes.zero 64⟩

/-- A transfer with a burned and a paid part of the fee, then a block of two
transfers in which sender, recipient and proposer coincide. -/
def transferCalls : List LedgerCall :=
  [.executeTransaction ⟨transfer 1 2 10 0 5, FixedBytes.zero 32, 1, 1, FixedBytes.ofNat 32 3⟩,
    .executeBlock 1 [transfer 1 1 20 1 4, transfer 2 1 50 0 1] 1 (FixedBytes.ofNat 32 1)]

theorem supply_conserved_transfers :
    (run (ledgerCall Transparent.primitives) (funded 1 100) transferCalls).supply = 100 ∧
      (run (ledgerCall Transparent.primitives) (funded 1 100) transferCalls).transactionExecutor.totalBurned = 6 := by
  have start : (funded 1 100).supply = 100 := by decide +kernel
  refine ⟨?_, by decide +kernel⟩
  rw [← start]
  refine ((supply_conserved Transparent.primitives (funded 1 100) transferCalls).2 (by rw [start]; decide) ?_).1
  refine ⟨?_, ?_, ?_, ?_, ?_, trivial⟩
  all_goals
    intro execution executed _
    cases executed
  all_goals decide

end StateMachine
end State
end Sarafu

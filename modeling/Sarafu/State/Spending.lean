import Sarafu.State.Conservation
import Sarafu.State.Mempool

namespace Sarafu
namespace State

open Crypto Library.Runs StateMachine

/-!
# What a spend is checked against

The three checks of a balance compute `amount + fee` as a `uint64_t`.  A sum that
wraps is compared with the balance as a smaller number, so a transaction that
passes is covered by the balance exactly when its sum does not wrap.

The key that a signature is verified under is an argument of the caller and is
never compared with the sender's address.
-/

/-- The natural number that a transaction spends. -/
def Transaction.spends (tx : Transaction) : Nat := tx.amount.toNat + tx.fee.toNat

/-- A wrapped sum below a balance is covered by it exactly if it has not wrapped. -/
theorem covered_iff_fits {tx : Transaction} {balance : UInt64} (passed : tx.amount + tx.fee ≤ balance) :
    tx.spends ≤ balance.toNat <-> tx.spends < 2 ^ 64 := by
  have wrapped := UInt64.le_iff_toNat_le.mp passed
  rw [UInt64.toNat_add] at wrapped
  have small := balance.toNat_lt
  unfold Transaction.spends
  constructor
  · intro covered
    omega
  · intro fits
    rw [Nat.mod_eq_of_lt fits] at wrapped
    exact wrapped

/-- Solvency, exactly: a success receipt and an acceptance by the mempool each
mean that the sender's balance covers the spend if and only if the spend is
below `2^64`. -/
theorem solvent_iff_spend_fits (prim : Primitives) (tx : Transaction) :
    (forall (machine : StateMachine) (publicKey : Ed25519PublicKey) (blockHeight baseFee : UInt64) (proposer : Address),
      (machine.executeTransaction prim tx publicKey blockHeight baseFee proposer).1.success = true ->
        (tx.spends ≤ (machine.accountManager.getBalance tx.fromAddr).toNat <-> tx.spends < 2 ^ 64)) ∧
    (forall (mempool : Mempool) (manager : AccountManager) (timestamp : UInt64),
      (mempool.addTransaction prim (some manager) timestamp tx).1 = true ->
        (tx.spends ≤ (manager.getBalance tx.fromAddr).toNat <-> tx.spends < 2 ^ 64)) := by
  constructor
  · intro machine publicKey blockHeight baseFee proposer succeeded
    rcases machine.execute_cases prim ⟨tx, publicKey, blockHeight, baseFee, proposer⟩ with ⟨failed, _⟩ | ⟨valid, _, _⟩
    · rw [StateMachine.execute, succeeded] at failed
      cases failed
    · exact covered_iff_fits valid.covered
  · intro mempool manager timestamp added
    have accepted := Mempool.acceptsAccount_of_addTransaction added
    unfold Mempool.acceptsAccount at accepted
    simp only [] at accepted
    split at accepted
    · cases accepted
    · rename_i sufficient
      exact covered_iff_fits (of_decide_eq_true (Bool.of_not_eq_false sufficient))

/-- A spend of a hundred out of two hundred succeeds, is taken into a mempool, and
is covered. -/
theorem solvent_iff_spend_fits_covered :
    (transfer 1 2 90 0 10).spends ≤ ((funded 1 200).accountManager.getBalance (FixedBytes.ofNat 32 1)).toNat ∧
    ((Mempool.empty {}).addTransaction Transparent.primitives (some (funded 1 200).accountManager) 0
      (transfer 1 2 90 0 10)).1 = true :=
  ⟨((solvent_iff_spend_fits Transparent.primitives (transfer 1 2 90 0 10)).1 (funded 1 200) (FixedBytes.zero 32) 1 1
      (FixedBytes.ofNat 32 3) (by decide +kernel)).mpr (by decide +kernel), by decide +kernel⟩

/-- One token is enough to send `2^64 - 1` with a fee of one: the sum wraps to
zero, the recipient is credited in full, and the mempool takes it too. -/
theorem wrapped_spend_accepted :
    ((funded 1 1).executeTransaction Transparent.primitives (transfer 1 2 (2 ^ 64 - 1) 0 1) (FixedBytes.zero 32) 1 1
      (FixedBytes.ofNat 32 3)).1.success = true ∧
    (((funded 1 1).executeTransaction Transparent.primitives (transfer 1 2 (2 ^ 64 - 1) 0 1) (FixedBytes.zero 32) 1 1
      (FixedBytes.ofNat 32 3)).2.accountManager.getBalance (FixedBytes.ofNat 32 2)) = 2 ^ 64 - 1 ∧
    ((Mempool.empty {}).addTransaction Transparent.primitives (some (funded 1 1).accountManager) 0
      (transfer 1 2 (2 ^ 64 - 1) 0 1)).1 = true ∧
    ¬ (transfer 1 2 (2 ^ 64 - 1) 0 1).spends ≤
      ((funded 1 1).accountManager.getBalance (FixedBytes.ofNat 32 1)).toNat :=
  ⟨by decide +kernel, by decide +kernel, by decide +kernel, by decide +kernel⟩

/-! ## Authorization -/

namespace StateMachine

/-- The account of an address has advanced its nonce or lost balance. -/
def Spent (before after : StateMachine) (address : Address) : Prop :=
  before.accountManager.getNonce address < after.accountManager.getNonce address ∨
    after.accountManager.getBalance address < before.accountManager.getBalance address

/-- Whoever spends in a step has signed the transaction that the step executed,
under a key of its own address. -/
def Authorized (prim : Primitives) (machine : StateMachine) (step : LedgerStep) : Prop :=
  forall address, Spent machine (machine.ledgerStep prim step) address ->
    ∃ execution, step.execution = some execution ∧ (machine.execute prim execution).1.success = true ∧
      execution.tx.fromAddr = address ∧
      ∃ publicKey : Ed25519PublicKey, execution.tx.verifySignature prim publicKey = true ∧
        Address.fromPublicKey prim publicKey.serialize = address

/-- What an execution adds to an account, as a `uint64_t`. -/
def creditTo (execution : Execution) (address : Address) : UInt64 :=
  (if address = execution.tx.toAddr then execution.tx.amount else 0) +
    if address = execution.proposer then TransactionExecutor.tip execution else 0

/-- A transaction that passes validation comes with a key of its sender, and
leaves room for its credits in every other account. -/
def KeyOfSender (prim : Primitives) (machine : StateMachine) (step : LedgerStep) : Prop :=
  forall execution, step.execution = some execution ->
    Valid prim machine.chainId machine.accountManager execution.tx execution.publicKey ->
      Address.fromPublicKey prim execution.publicKey.serialize = execution.tx.fromAddr ∧
      forall address, address ≠ execution.tx.fromAddr ->
        (machine.accountManager.getBalance address).toNat + (creditTo execution address).toNat < 2 ^ 64

theorem authorized_of_keyOfSender {prim : Primitives} {machine : StateMachine} {step : LedgerStep}
    (keyed : KeyOfSender prim machine step) : Authorized prim machine step := by
  intro address spent
  rcases machine.ledgerStep_cases prim step with ⟨same, _⟩ | ⟨execution, executed, valid, succeeded, settled⟩
  · unfold Spent accountManager at spent
    rw [same] at spent
    rcases spent with advanced | lost
    · exact absurd advanced (UInt64.lt_irrefl _)
    · exact absurd lost (UInt64.lt_irrefl _)
  · rcases keyed execution executed valid with ⟨own, room⟩
    refine ⟨execution, executed, succeeded, ?_⟩
    by_cases sender : execution.tx.fromAddr = address
    · exact ⟨sender, execution.publicKey, valid.signed, own.trans sender⟩
    · exfalso
      have other : address ≠ execution.tx.fromAddr := fun same => sender same.symm
      unfold Spent accountManager at spent
      rw [settled, TransactionExecutor.getNonce_settled, TransactionExecutor.getBalance_settled, if_neg other,
        if_neg other, UInt64.add_zero, UInt64.sub_zero, UInt64.add_assoc] at spent
      rcases spent with advanced | lost
      · exact UInt64.lt_irrefl _ advanced
      · have grown : (machine.accountManager.getBalance address + creditTo execution address).toNat =
            (machine.accountManager.getBalance address).toNat + (creditTo execution address).toNat := by
          rw [UInt64.toNat_add]
          exact Nat.mod_eq_of_lt (room address other)
        have fewer := UInt64.lt_iff_toNat_lt.mp lost
        change (machine.accountManager.getBalance address + creditTo execution address).toNat <
          (machine.accountManager.getBalance address).toNat at fewer
        omega

/-- Authorization over every run from every ledger: where each transaction that
passes validation is executed with a key of its sender and leaves room for its
credits, every spend of the run is authorized. -/
theorem spends_authorized (prim : Primitives) (machine : StateMachine) (calls : List LedgerCall)
    (keyed : Along (ledgerStep prim) (KeyOfSender prim) machine (stepsOf calls)) :
    Along (ledgerStep prim) (Authorized prim) machine (stepsOf calls) :=
  along_of_invariant (fun _ => True) (fun _ _ _ _ => trivial)
    (fun _ _ _ keyOfSender => authorized_of_keyOfSender keyOfSender) trivial keyed

/-- The instance in which one key verifies the all-zero signature and no other
key does. -/
def onlyKey (publicKey : Ed25519PublicKey) : Primitives :=
  { Transparent.primitives with
    cryptoSignVerifyDetached := fun signature _ key => decide (signature = FixedBytes.zero 64 ∧ key = publicKey) }

/-- The numbered key, and its address. -/
def numberedKey (number : Nat) : Ed25519PublicKey := FixedBytes.ofNat 32 number

def numberedOwner (number : Nat) : Address :=
  Address.fromPublicKey Transparent.primitives (numberedKey number).serialize

/-- The owner of the seventh key has a hundred tokens. -/
def ownerFunded : StateMachine :=
  { create 1 with transactionExecutor := ⟨AccountManager.empty.createAccount (numberedOwner 7) 100, 0, 0⟩ }

/-- The owner spends fifteen of them with a matching key. -/
def ownSpend : Execution :=
  ⟨{ transfer 0 2 10 0 5 with fromAddr := numberedOwner 7 }, numberedKey 7, 1, 1, FixedBytes.ofNat 32 3⟩

theorem spends_authorized_owner :
    Authorized (onlyKey (numberedKey 7)) ownerFunded (.executeTransaction ownSpend) ∧
      Spent ownerFunded (ownerFunded.ledgerStep (onlyKey (numberedKey 7)) (.executeTransaction ownSpend))
        (numberedOwner 7) := by
  refine ⟨(spends_authorized (onlyKey (numberedKey 7)) ownerFunded [.executeTransaction ownSpend] ?_).1, ?_⟩
  · refine ⟨?_, trivial⟩
    intro execution executed _
    cases executed
    refine ⟨rfl, ?_⟩
    intro address other
    have other : address ≠ (Account.make (numberedOwner 7) 100 0).address := other
    have empty : ownerFunded.accountManager.getBalance address = 0 := by
      change ((AccountManager.empty.updateAccount _).getAccount address).balance = 0
      rw [AccountManager.getAccount_updateAccount, if_neg other]
      rfl
    rw [empty]
    unfold creditTo
    split
    · split
      · decide +kernel
      · decide +kernel
    · split
      · decide +kernel
      · decide +kernel
  · unfold Spent
    decide +kernel

/-- The holder of the seventh key signs a transaction in the name of address one
and has it executed with that key.  Address one pays, and no key of it verifies
the signature. -/
theorem foreign_key_spends :
    let theft : Execution := ⟨transfer 1 2 10 0 5, numberedKey 7, 1, 1, FixedBytes.ofNat 32 3⟩
    Spent (funded 1 100) ((funded 1 100).ledgerStep (onlyKey (numberedKey 7)) (.executeTransaction theft))
        (FixedBytes.ofNat 32 1) ∧
      ¬ Along (ledgerStep (onlyKey (numberedKey 7))) (Authorized (onlyKey (numberedKey 7))) (funded 1 100)
        (stepsOf [.executeTransaction theft]) := by
  intro theft
  have spent : Spent (funded 1 100) ((funded 1 100).ledgerStep (onlyKey (numberedKey 7)) (.executeTransaction theft))
      (FixedBytes.ofNat 32 1) := by
    unfold Spent
    decide +kernel
  refine ⟨spent, ?_⟩
  rintro ⟨authorized, _⟩
  rcases authorized _ spent with ⟨execution, _, _, _, publicKey, verified, owner⟩
  have same : publicKey = numberedKey 7 := (of_decide_eq_true verified).2
  rw [same] at owner
  revert owner
  decide +kernel

end StateMachine
end State
end Sarafu

import Sarafu.State.Conservation

namespace Sarafu
namespace State
namespace StateMachine

open Crypto Library.Runs

/-!
# Nonces and failures

A success needs the nonce of its sender's account and advances that nonce, and
nothing else writes a nonce.  Starting from zero, the successes of an account
therefore count `0, 1, 2, ...` in the order of execution, in any interleaving with
other senders.  The count stays exact while fewer than `2^64` transactions are
executed.  A failure leaves the executor, that is all accounts and both counters,
untouched.
-/

variable (prim : Primitives)

/-- The transaction that succeeds in a step. -/
def success (machine : StateMachine) (step : LedgerStep) : Option Transaction :=
  (step.execution.filter fun execution => (machine.execute prim execution).1.success).map Execution.tx

/-- The successful transactions of a run, in the order of execution. -/
def successes (machine : StateMachine) (steps : List LedgerStep) : List Transaction :=
  outputs (ledgerStep prim) (success prim) machine steps

/-- The transactions of one account. -/
def sentBy (address : Address) (transactions : List Transaction) : List Transaction :=
  transactions.filter fun tx => decide (tx.fromAddr = address)

/-- The number of transactions that are executed, with success or not. -/
def executedIn (steps : List LedgerStep) : Nat := (steps.filterMap LedgerStep.execution).length

/-- The state of the nonces after some steps. -/
structure NoncesCount (machine : StateMachine) (steps : List LedgerStep) : Prop where
  inOrder : forall address, (sentBy address (successes prim machine steps)).map (fun tx => tx.nonce.toNat) =
    List.range (sentBy address (successes prim machine steps)).length
  counted : forall address, ((run (ledgerStep prim) machine steps).accountManager.getNonce address).toNat =
    (sentBy address (successes prim machine steps)).length
  once : ((successes prim machine steps).map fun tx => (tx.fromAddr, tx.nonce)).Nodup

/-- A failure leaves the accounts and the counters as they were. -/
def FailsAtomically (machine : StateMachine) (step : LedgerStep) : Prop :=
  forall execution, step.execution = some execution -> (machine.execute prim execution).1.success = false ->
    (machine.ledgerStep prim step).transactionExecutor = machine.transactionExecutor

theorem failsAtomically (machine : StateMachine) (step : LedgerStep) : FailsAtomically prim machine step := by
  intro execution executed failed
  rcases machine.ledgerStep_cases prim step with ⟨same, _⟩ | ⟨other, otherExecuted, _, succeeded, _⟩
  · exact same
  · cases Option.some.inj (executed.symm.trans otherExecuted)
    rw [failed] at succeeded
    cases succeeded

/-- What one step does to the nonces: nothing without a success, and otherwise it
advances the nonce that the transaction carries. -/
theorem success_cases (machine : StateMachine) (step : LedgerStep) :
    (success prim machine step = none ∧ forall address,
      (machine.ledgerStep prim step).accountManager.getNonce address = machine.accountManager.getNonce address) ∨
    ∃ tx, success prim machine step = some tx ∧ (∃ execution, step.execution = some execution) ∧
      machine.accountManager.getNonce tx.fromAddr = tx.nonce ∧ forall address,
        (machine.ledgerStep prim step).accountManager.getNonce address =
          machine.accountManager.getNonce address + if address = tx.fromAddr then 1 else 0 := by
  unfold success
  rcases machine.ledgerStep_cases prim step with ⟨same, failed⟩ | ⟨execution, executed, valid, succeeded, settled⟩
  · left
    constructor
    · cases executed : step.execution with
      | none => rfl
      | some execution => rw [Option.filter_some_neg (Bool.not_eq_true _ ▸ failed execution executed), Option.map_none]
    · intro address
      unfold accountManager
      rw [same]
  · right
    refine ⟨execution.tx, ?_, ⟨execution, executed⟩, valid.nonce, ?_⟩
    · rw [executed]
      exact congrArg (Option.map Execution.tx) (Option.filter_some_pos succeeded)
    · intro address
      unfold accountManager
      rw [settled]
      exact TransactionExecutor.getNonce_settled _ execution address

theorem successes_append (machine : StateMachine) (steps : List LedgerStep) (step : LedgerStep) :
    successes prim machine (steps ++ [step]) =
      successes prim machine steps ++ (success prim (run (ledgerStep prim) machine steps) step).toList := by
  unfold successes
  rw [outputs_concat]

variable {prim}

theorem sentBy_concat (address : Address) (txs : List Transaction) (tx : Transaction) :
    sentBy address (txs ++ [tx]) = sentBy address txs ++ if address = tx.fromAddr then [tx] else [] := by
  unfold sentBy
  rw [List.filter_append, List.filter_singleton]
  by_cases sender : address = tx.fromAddr
  · rw [if_pos sender, decide_eq_true sender.symm]
    rfl
  · rw [if_neg sender, decide_eq_false fun same => sender same.symm]
    rfl

/-- A successful transaction carries a nonce below the count of its sender. -/
theorem NoncesCount.nonce_lt {machine : StateMachine} {steps : List LedgerStep}
    (counts : NoncesCount prim machine steps) {tx : Transaction} (member : tx ∈ successes prim machine steps) :
    tx.nonce.toNat < (sentBy tx.fromAddr (successes prim machine steps)).length := by
  have own : tx ∈ sentBy tx.fromAddr (successes prim machine steps) := List.mem_filter.mpr ⟨member, decide_eq_true rfl⟩
  have ranged : tx.nonce.toNat ∈ (sentBy tx.fromAddr (successes prim machine steps)).map fun tx => tx.nonce.toNat :=
    List.mem_map_of_mem own
  rw [counts.inOrder] at ranged
  exact List.mem_range.mp ranged

/-- The next nonce of a sender is one that no earlier success of the sender has carried. -/
theorem NoncesCount.not_mem {machine : StateMachine} {steps : List LedgerStep} (counts : NoncesCount prim machine steps)
    {tx : Transaction} (carried : tx.nonce.toNat = (sentBy tx.fromAddr (successes prim machine steps)).length) :
    (tx.fromAddr, tx.nonce) ∉ (successes prim machine steps).map fun tx => (tx.fromAddr, tx.nonce) := by
  intro earlier
  rcases List.mem_map.mp earlier with ⟨previous, listed, equal⟩
  have sender : previous.fromAddr = tx.fromAddr := congrArg Prod.fst equal
  have nonce : previous.nonce = tx.nonce := congrArg Prod.snd equal
  have below := counts.nonce_lt listed
  rw [sender, nonce, carried] at below
  exact Nat.lt_irrefl _ below

/-- The step lemma: one more step keeps the count if there is room for it. -/
theorem NoncesCount.step {machine : StateMachine} {steps : List LedgerStep} (counts : NoncesCount prim machine steps)
    (step : LedgerStep) (room : (successes prim machine (steps ++ [step])).length < 2 ^ 64) :
    NoncesCount prim machine (steps ++ [step]) := by
  rcases (run (ledgerStep prim) machine steps).success_cases prim step with
    ⟨none, kept⟩ | ⟨tx, succeeded, _, expected, advanced⟩
  · have same : successes prim machine (steps ++ [step]) = successes prim machine steps := by
      rw [successes_append, none, Option.toList_none, List.append_nil]
    refine ⟨?_, ?_, ?_⟩
    · rw [same]
      exact counts.inOrder
    · intro address
      rw [same, run_append]
      exact (congrArg UInt64.toNat (kept address)).trans (counts.counted address)
    · rw [same]
      exact counts.once
  · have longer : successes prim machine (steps ++ [step]) = successes prim machine steps ++ [tx] := by
      rw [successes_append, succeeded, Option.toList_some]
    rw [longer, List.length_append, List.length_singleton] at room
    have carried := counts.counted tx.fromAddr
    rw [expected] at carried
    refine ⟨?_, ?_, ?_⟩
    · intro address
      rw [longer, sentBy_concat]
      split
      · rename_i sender
        rw [List.map_append, List.length_append, counts.inOrder, List.map_singleton, carried, sender,
          List.length_singleton, List.range_succ]
      · rw [List.append_nil]
        exact counts.inOrder address
    · intro address
      rw [longer, sentBy_concat, run_append]
      change ((StateMachine.ledgerStep prim (run (ledgerStep prim) machine steps) step).accountManager.getNonce
        address).toNat = _
      rw [advanced address]
      split
      · rename_i sender
        have fewer : (sentBy address (successes prim machine steps)).length ≤ (successes prim machine steps).length :=
          List.length_filter_le _ _
        rw [UInt64.toNat_add, counts.counted, List.length_append, List.length_singleton]
        apply Nat.mod_eq_of_lt
        change (sentBy address (successes prim machine steps)).length + 1 < 2 ^ 64
        omega
      · rw [UInt64.add_zero, List.append_nil]
        exact counts.counted address
    · rw [longer, List.map_append, List.map_singleton]
      exact counts.once.append (List.nodup_singleton _) (List.disjoint_singleton.mpr (counts.not_mem carried))

theorem length_successes_le (machine : StateMachine) (steps : List LedgerStep) :
    (successes prim machine steps).length ≤ executedIn steps := by
  induction steps using List.reverseRecOn with
  | nil => exact Nat.le_refl 0
  | append_singleton earlier last inductionHypothesis =>
      unfold executedIn at inductionHypothesis ⊢
      rw [successes_append, List.length_append, List.filterMap_append, List.length_append]
      apply Nat.add_le_add inductionHypothesis
      rcases (run (ledgerStep prim) machine earlier).success_cases prim last with
        ⟨none, _⟩ | ⟨tx, succeeded, ⟨execution, executed⟩, _⟩
      · rw [none]
        exact Nat.zero_le _
      · rw [succeeded, List.filterMap_cons_some executed]
        exact Nat.le_refl 1

theorem executedIn_le_of_initial {done steps : List LedgerStep} (shorter : done <+: steps) :
    executedIn done ≤ executedIn steps :=
  (shorter.sublist.filterMap LedgerStep.execution).length_le

/-- The run lemma: the count holds after any steps from zero nonces. -/
theorem noncesCount_run {machine : StateMachine} (fresh : forall address, machine.accountManager.getNonce address = 0)
    (steps : List LedgerStep) (short : executedIn steps < 2 ^ 64) : NoncesCount prim machine steps := by
  induction steps using List.reverseRecOn with
  | nil => exact ⟨fun _ => rfl, fun address => congrArg UInt64.toNat (fresh address), List.nodup_nil⟩
  | append_singleton earlier last inductionHypothesis =>
      have before := Nat.lt_of_le_of_lt (executedIn_le_of_initial (List.prefix_append earlier [last])) short
      exact (inductionHypothesis before).step last (Nat.lt_of_le_of_lt (length_successes_le machine _) short)

variable (prim)

/-- Replay protection and failure atomicity over every run of fewer than `2^64`
executions from zero nonces.  After any number of the steps of the calls, the
successes of every account carry the nonces from zero on in order, the account's
nonce is their number, and no transaction has succeeded twice.  A failure leaves
all accounts and both counters as they were. -/
theorem nonces_in_order (machine : StateMachine) (fresh : forall address, machine.accountManager.getNonce address = 0)
    (calls : List LedgerCall) (short : executedIn (stepsOf calls) < 2 ^ 64) :
    (forall done, done <+: stepsOf calls -> NoncesCount prim machine done) ∧
      run (ledgerCall prim) machine calls = run (ledgerStep prim) machine (stepsOf calls) ∧
      Along (ledgerStep prim) (FailsAtomically prim) machine (stepsOf calls) := by
  refine ⟨?_, run_ledgerCall_eq_run prim machine calls, ?_⟩
  · intro done shorter
    exact noncesCount_run fresh done (Nat.lt_of_le_of_lt (executedIn_le_of_initial shorter) short)
  · exact along_of_invariant (fun _ => True) (fun _ _ _ _ => trivial)
      (fun later step _ _ => failsAtomically prim later step) trivial (along_true machine (stepsOf calls))

theorem nonces_in_order_transfers :
    NoncesCount Transparent.primitives (funded 1 100) (stepsOf transferCalls) ∧
      (sentBy (FixedBytes.ofNat 32 1)
        (successes Transparent.primitives (funded 1 100) (stepsOf transferCalls))).length =
        2 := by
  refine ⟨(nonces_in_order Transparent.primitives (funded 1 100) ?_ transferCalls (by decide +kernel)).1 _
    (List.prefix_refl _), by decide +kernel⟩
  intro address
  change ((AccountManager.empty.updateAccount _).getAccount address).nonce = 0
  rw [AccountManager.getAccount_updateAccount]
  split
  · rfl
  · rfl

end StateMachine
end State
end Sarafu

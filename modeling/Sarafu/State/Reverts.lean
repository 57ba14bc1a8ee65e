import Sarafu.Consensus.GenesisBuilder
import Sarafu.State.Receipts
import Sarafu.State.Spending

namespace Sarafu
namespace State

open Crypto Consensus Library.Runs

/-!
# Reverts

A snapshot holds a root and no accounts, so a revert keeps the receipts and snapshots up to its
height and clears the accounts.  After that there is no coin left to move: until a new genesis
every balance stays zero, except for what a spend that wraps around creates.
-/

/-- The calls that change a state machine. -/
inductive MachineCall
  | ledger (call : LedgerCall)
  | initializeFromGenesis (genesisBlock : Block) (allocations : List GenesisAllocation)
  | revertToHeight (height : UInt64)
  | clear

namespace StateMachine

/-- The answer, and the machine as the call leaves it.  The burned total and the priority fees are
not reset. -/
def revertToHeight (machine : StateMachine) (height : UInt64) : Bool × StateMachine :=
  match machine.stateSnapshots[height]? with
  | none => (false, machine)
  | some _ =>
      (true, { machine with
        transactionExecutor := { machine.transactionExecutor with accountManager := AccountManager.empty }
        receipts := machine.receipts.filter fun _ receipt => !decide (height < receipt.blockHeight)
        currentHeight := height
        stateSnapshots := machine.stateSnapshots.filter fun other _ => !decide (height < other) })

variable (prim : Primitives)

def machineCall (machine : StateMachine) : MachineCall -> StateMachine
  | .ledger call => machine.ledgerCall prim call
  | .initializeFromGenesis genesisBlock allocations => (machine.initializeFromGenesis prim genesisBlock allocations).2
  | .revertToHeight height => (machine.revertToHeight height).2
  | .clear => machine.clear

/-- No receipt and no snapshot is from above the current height. -/
structure Dated (machine : StateMachine) : Prop where
  receipts : forall hash receipt, machine.getReceipt hash = some receipt -> receipt.blockHeight ≤ machine.currentHeight
  snapshots : forall height root, machine.stateSnapshots[height]? = some root -> height ≤ machine.currentHeight

/-- A block is not executed below the current height. -/
def Ascends (machine : StateMachine) : MachineCall -> Prop
  | .ledger (.executeBlock height _ _ _) => machine.currentHeight ≤ height
  | _ => True

/-- No success of the call spends `2^64` or more. -/
def Fits (machine : StateMachine) : MachineCall -> Prop
  | .ledger call => Along (ledgerStep prim) (SpendsFit prim) machine call.steps
  | _ => True

/-- Every success of the call is one that spends nothing. -/
def MovesNothing (machine : StateMachine) : MachineCall -> Prop
  | .ledger call =>
      Along (ledgerStep prim) (fun machine step => forall execution, step.execution = some execution ->
        (machine.execute prim execution).1.success = true -> execution.tx.spends = 0) machine call.steps
  | _ => True

end StateMachine

/-- The call does not make a new genesis. -/
def MachineCall.KeepsChain : MachineCall -> Prop
  | .initializeFromGenesis _ _ => False
  | _ => True

namespace StateMachine

variable {prim : Primitives} {machine : StateMachine}

/-! ## Receipts and snapshots -/

theorem exists_snapshot {height : UInt64} (reverted : (machine.revertToHeight height).1 = true) :
    ∃ root, machine.stateSnapshots[height]? = some root := by
  unfold revertToHeight at reverted
  cases found : machine.stateSnapshots[height]? with
  | none =>
      rw [found] at reverted
      cases reverted
  | some root => exact ⟨root, rfl⟩

theorem revertToHeight_refused {height : UInt64} (refused : (machine.revertToHeight height).1 = false) :
    (machine.revertToHeight height).2 = machine := by
  unfold revertToHeight at refused ⊢
  cases found : machine.stateSnapshots[height]? with
  | none => rfl
  | some root =>
      rw [found] at refused
      cases refused

theorem getReceipt_revertToHeight {height : UInt64} (reverted : (machine.revertToHeight height).1 = true)
    (hash : Blake3Hash) (receipt : TransactionReceipt) :
    (machine.revertToHeight height).2.getReceipt hash = some receipt <->
      machine.getReceipt hash = some receipt ∧ receipt.blockHeight ≤ height := by
  rcases exists_snapshot reverted with ⟨root, found⟩
  simp only [revertToHeight, found, getReceipt, OrderedMap.find_filter, Option.filter_eq_some_iff, Bool.not_eq_true',
    decide_eq_false_iff_not, UInt64.not_lt]

theorem Dated.of_empty (noReceipts : machine.receipts = ∅) (noSnapshots : machine.stateSnapshots = ∅) :
    machine.Dated := by
  refine ⟨?_, ?_⟩
  · intro hash receipt found
    rw [getReceipt, noReceipts, Std.ExtTreeMap.getElem?_empty] at found
    cases found
  · intro height root found
    rw [noSnapshots, Std.ExtTreeMap.getElem?_empty] at found
    cases found

theorem dated_create (chainId : UInt32) : (create chainId).Dated := .of_empty rfl rfl

theorem Dated.saveStateSnapshot (dated : machine.Dated) :
    (machine.saveStateSnapshot prim machine.currentHeight).Dated := by
  refine ⟨dated.receipts, ?_⟩
  intro height root found
  rw [StateMachine.saveStateSnapshot, OrderedMap.find_insert] at found
  split at found
  · rename_i same
    exact same ▸ UInt64.le_refl _
  · exact dated.snapshots height root found

/-- One execution changes neither receipts nor snapshots nor the height. -/
theorem Dated.execute (dated : machine.Dated) (execution : Execution) : (machine.execute prim execution).2.Dated := by
  rcases machine.execute_cases prim execution with ⟨_, same⟩ | ⟨_, _, settled⟩
  · rw [same]
    exact dated
  · rw [settled]
    exact ⟨dated.receipts, dated.snapshots⟩

theorem stateSnapshots_executeAndStore (height baseFee : UInt64) (proposer : Address) (tx : Transaction) :
    (machine.executeAndStore prim height baseFee proposer tx).stateSnapshots = machine.stateSnapshots := by
  rcases machine.execute_cases prim ⟨tx, defaultPublicKey, height, baseFee, proposer⟩ with ⟨_, same⟩ | ⟨_, _, settled⟩
  · have kept := congrArg stateSnapshots same
    exact kept
  · have kept := congrArg stateSnapshots settled
    exact kept

theorem stateSnapshots_foldl (height baseFee : UInt64) (proposer : Address) (transactions : List Transaction) :
    (transactions.foldl (executeAndStore prim height baseFee proposer) machine).stateSnapshots =
      machine.stateSnapshots := by
  induction transactions generalizing machine with
  | nil => rfl
  | cons tx rest inductionHypothesis =>
      rw [List.foldl_cons, inductionHypothesis, stateSnapshots_executeAndStore]

theorem Dated.executeBlock (dated : machine.Dated) {height : UInt64} (ascends : machine.currentHeight ≤ height)
    (transactions : List Transaction) (baseFee : UInt64) (proposer : Address) :
    (machine.executeBlock prim height transactions baseFee proposer).2.Dated := by
  have saved : (machine.saveStateSnapshot prim machine.currentHeight).Dated := dated.saveStateSnapshot
  refine ⟨?_, ?_⟩
  · intro hash receipt found
    rcases getReceipt_foldl height baseFee proposer transactions (machine.saveStateSnapshot prim machine.currentHeight)
      hash with ⟨_, stored, level, kept⟩ | ⟨_, kept⟩
    · have same : receipt = stored := Option.some.inj (found.symm.trans kept)
      rw [same, level]
      exact UInt64.le_refl height
    · exact UInt64.le_trans (saved.receipts hash receipt (kept.symm.trans found)) ascends
  · intro other root found
    have kept : (machine.executeBlock prim height transactions baseFee proposer).2.stateSnapshots =
        (machine.saveStateSnapshot prim machine.currentHeight).stateSnapshots :=
      stateSnapshots_foldl height baseFee proposer transactions
    rw [kept] at found
    exact UInt64.le_trans (saved.snapshots other root found) ascends

theorem Dated.initializeFromGenesis (dated : machine.Dated) (genesisBlock : Block)
    (allocations : List GenesisAllocation) : (machine.initializeFromGenesis prim genesisBlock allocations).2.Dated := by
  unfold StateMachine.initializeFromGenesis
  simp only []
  split
  · exact dated
  · split
    · exact dated_create machine.chainId
    · have funded : ({ machine.clear.createAccounts allocations with currentHeight := 0 } : StateMachine).Dated :=
        .of_empty rfl rfl
      exact funded.saveStateSnapshot

theorem Dated.revertToHeight (dated : machine.Dated) (height : UInt64) : (machine.revertToHeight height).2.Dated := by
  cases answer : (machine.revertToHeight height).1 with
  | false =>
      rw [revertToHeight_refused answer]
      exact dated
  | true =>
      have kept := getReceipt_revertToHeight answer
      rcases exists_snapshot answer with ⟨root, found⟩
      have level : (machine.revertToHeight height).2.currentHeight = height := by
        simp only [StateMachine.revertToHeight, found]
      refine ⟨?_, ?_⟩
      · intro hash receipt stored
        rw [level]
        exact ((kept hash receipt).mp stored).2
      · intro other saved lookup
        rw [level]
        simp only [StateMachine.revertToHeight, found, OrderedMap.find_filter, Option.filter_eq_some_iff,
          Bool.not_eq_true', decide_eq_false_iff_not] at lookup
        exact UInt64.not_lt.mp lookup.2

theorem Dated.machineCall (dated : machine.Dated) {call : MachineCall} (ascends : machine.Ascends call) :
    (machine.machineCall prim call).Dated := by
  cases call with
  | ledger call =>
      cases call with
      | executeTransaction execution => exact dated.execute execution
      | executeBlock height transactions baseFee proposer =>
          exact dated.executeBlock ascends transactions baseFee proposer
  | initializeFromGenesis genesisBlock allocations => exact dated.initializeFromGenesis genesisBlock allocations
  | revertToHeight height => exact dated.revertToHeight height
  | clear => exact dated_create machine.chainId

/-! ## Coins -/

/-- No account holds anything. -/
def NoCoins (machine : StateMachine) : Prop := machine.accountManager.sumOfBalances = 0

theorem NoCoins.spends_eq_zero (none : machine.NoCoins) {execution : Execution}
    (valid : Valid prim machine.chainId machine.accountManager execution.tx execution.publicKey)
    (fits : execution.tx.amount.toNat + execution.tx.fee.toNat < 2 ^ 64) : execution.tx.spends = 0 := by
  have covered := UInt64.le_iff_toNat_le.mp valid.covered
  rw [UInt64.toNat_add, Nat.mod_eq_of_lt fits] at covered
  have poor := machine.accountManager.getBalance_le_sumOfBalances execution.tx.fromAddr
  have nothing : machine.accountManager.sumOfBalances = 0 := none
  unfold Transaction.spends
  omega

/-- A success among empty accounts moves and burns nothing. -/
theorem NoCoins.ledgerStep (none : machine.NoCoins) {step : LedgerStep} (fits : SpendsFit prim machine step) :
    (machine.ledgerStep prim step).NoCoins ∧
      forall execution, step.execution = some execution -> (machine.execute prim execution).1.success = true ->
        execution.tx.spends = 0 := by
  rcases machine.ledgerStep_cases prim step with ⟨same, failed⟩ | ⟨execution, executed, valid, succeeded, settled⟩
  · refine ⟨?_, ?_⟩
    · rw [NoCoins, accountManager, same]
      exact none
    · intro execution executed succeeded
      rw [failed execution executed] at succeeded
      cases succeeded
  · have nothing := none.spends_eq_zero valid (fits execution executed succeeded)
    refine ⟨?_, ?_⟩
    · have bounded : machine.transactionExecutor.supply < 2 ^ 64 := by
        have empty : machine.transactionExecutor.accountManager.sumOfBalances = 0 := none
        rw [TransactionExecutor.supply, empty, Nat.zero_add]
        exact UInt64.toNat_lt _
      have kept := (TransactionExecutor.supply_settled valid.covered bounded (fits execution executed succeeded)).1
      have fee := TransactionExecutor.burnt_add_tip execution
      have burned : (machine.transactionExecutor.settled execution).totalBurned =
          machine.transactionExecutor.totalBurned + TransactionExecutor.burnt execution := rfl
      have nothingBurnt : TransactionExecutor.burnt execution = 0 := by
        apply UInt64.toNat_inj.mp
        unfold Transaction.spends at nothing
        rw [UInt64.toNat_zero]
        omega
      rw [TransactionExecutor.supply, TransactionExecutor.supply, burned, nothingBurnt, UInt64.add_zero,
        Nat.add_right_cancel_iff] at kept
      rw [NoCoins, accountManager, settled, kept]
      exact none
    · intro other same _
      rw [← Option.some.inj (executed.symm.trans same)]
      exact nothing

theorem NoCoins.run_ledgerStep (none : machine.NoCoins) {steps : List LedgerStep}
    (fits : Along (StateMachine.ledgerStep prim) (SpendsFit prim) machine steps) :
    (run (StateMachine.ledgerStep prim) machine steps).NoCoins ∧
      Along (StateMachine.ledgerStep prim) (fun machine step => forall execution, step.execution = some execution ->
        (machine.execute prim execution).1.success = true -> execution.tx.spends = 0) machine steps :=
  ⟨invariant_run NoCoins (fun _ _ none fits => (none.ledgerStep fits).1) none fits,
    along_of_invariant NoCoins (fun _ _ none fits => (none.ledgerStep fits).1)
      (fun _ _ none fits => (none.ledgerStep fits).2)
      none fits⟩

theorem noCoins_of_empty (empty : machine.accountManager = AccountManager.empty) : machine.NoCoins := by
  rw [NoCoins, empty]
  exact rfl

theorem noCoins_revertToHeight {height : UInt64} (reverted : (machine.revertToHeight height).1 = true) :
    (machine.revertToHeight height).2.NoCoins := by
  rcases exists_snapshot reverted with ⟨root, found⟩
  apply noCoins_of_empty
  simp only [revertToHeight, found, accountManager]

theorem NoCoins.machineCall (none : machine.NoCoins) {call : MachineCall} (keeps : call.KeepsChain)
    (fits : machine.Fits prim call) : (machine.machineCall prim call).NoCoins ∧ machine.MovesNothing prim call := by
  cases call with
  | ledger call =>
      have moved := none.run_ledgerStep fits
      rw [← ledgerCall_eq_run] at moved
      exact moved
  | initializeFromGenesis genesisBlock allocations => exact keeps.elim
  | revertToHeight height =>
      refine ⟨?_, trivial⟩
      cases answer : (machine.revertToHeight height).1 with
      | true => exact noCoins_revertToHeight answer
      | false =>
          rw [StateMachine.machineCall, revertToHeight_refused answer]
          exact none
  | clear => exact ⟨noCoins_of_empty rfl, trivial⟩

/-- In every run in which no block goes below the height before it, a revert leads to a height that
is not above the current one and keeps the receipts up to there.  From then on, until a new
genesis, no account holds a coin and every success spends nothing, if no spend wraps around. -/
theorem revert_brings_nothing_back (prim : Primitives) {start : StateMachine} (dated : start.Dated)
    {calls : List MachineCall} (ascending : Along (machineCall prim) Ascends start calls) {height : UInt64}
    (reverted : ((run (machineCall prim) start calls).revertToHeight height).1 = true) {later : List MachineCall}
    (keeps : forall call, call ∈ later -> call.KeepsChain)
    (fits : Along (machineCall prim) (Fits prim) ((run (machineCall prim) start calls).revertToHeight height).2 later) :
    height ≤ (run (machineCall prim) start calls).currentHeight ∧
    (forall hash receipt,
      ((run (machineCall prim) start calls).revertToHeight height).2.getReceipt hash = some receipt <->
      (run (machineCall prim) start calls).getReceipt hash = some receipt ∧ receipt.blockHeight ≤ height) ∧
    (forall address, (run (machineCall prim) ((run (machineCall prim) start calls).revertToHeight height).2
      later).accountManager.getBalance address = 0) ∧
    Along (machineCall prim) (MovesNothing prim)
      ((run (machineCall prim) start calls).revertToHeight height).2 later := by
  have datedThen : (run (machineCall prim) start calls).Dated :=
    invariant_run Dated (fun _ _ dated ascends => dated.machineCall ascends) dated ascending
  have emptied := noCoins_revertToHeight reverted
  have guarded := along_and fits (along_of_forall _ keeps)
  refine ⟨?_, getReceipt_revertToHeight reverted, ?_, ?_⟩
  · rcases exists_snapshot reverted with ⟨root, found⟩
    exact datedThen.snapshots height root found
  · intro address
    have none : NoCoins _ := invariant_run NoCoins (fun _ _ none guard => (none.machineCall guard.2 guard.1).1) emptied
      guarded
    have poor := AccountManager.getBalance_le_sumOfBalances _ address |>.trans (Nat.le_of_eq none)
    exact UInt64.toNat_inj.mp (Nat.le_zero.mp poor)
  · exact along_of_invariant NoCoins (fun _ _ none guard => (none.machineCall guard.2 guard.1).1)
      (fun _ _ none guard => (none.machineCall guard.2 guard.1).2) emptied guarded

/-- A block, a revert to before it, and the block again. -/
def revertedBlock : List MachineCall :=
  [.ledger (.executeBlock 1 [transfer 1 2 10 0 5] 1 (FixedBytes.ofNat 32 3))]

theorem revert_brings_nothing_back_block :
    (run (machineCall Transparent.primitives) (funded 1 100) revertedBlock).accountManager.getBalance
      (FixedBytes.ofNat 32 2) = 10 ∧
    (run (machineCall Transparent.primitives)
      ((run (machineCall Transparent.primitives) (funded 1 100) revertedBlock).revertToHeight 0).2
      revertedBlock).accountManager.getBalance (FixedBytes.ofNat 32 1) = 0 := by
  refine ⟨by decide +kernel, ?_⟩
  have dated : (funded 1 100).Dated := .of_empty rfl rfl
  have ascending : Along (machineCall Transparent.primitives) Ascends (funded 1 100) revertedBlock :=
    ⟨UInt64.zero_le, trivial⟩
  have reverted : ((run (machineCall Transparent.primitives) (funded 1 100) revertedBlock).revertToHeight 0).1 =
      true := by
    decide +kernel
  have keeps : forall call, call ∈ revertedBlock -> call.KeepsChain := List.forall_mem_singleton.mpr trivial
  have fits : Along (machineCall Transparent.primitives) (Fits Transparent.primitives)
      ((run (machineCall Transparent.primitives) (funded 1 100) revertedBlock).revertToHeight 0).2 revertedBlock := by
    refine ⟨⟨?_, ?_, ?_, trivial⟩, trivial⟩
    all_goals
      intro execution executed _
      cases executed
    decide
  exact (revert_brings_nothing_back Transparent.primitives dated ascending reverted keeps fits).2.2.1 _

end StateMachine
end State
end Sarafu

import Sarafu.State.Reverts
import Sarafu.State.StateBinding
import Sarafu.Storage.StatePersistence
import Sarafu.Storage.StoredMaps

namespace Sarafu
namespace Storage

open Crypto State Consensus Library.Decoding Library.Runs StateStorage

/-!
# Saving and loading the state

A save writes the height and all accounts over what the saves before it have left, and deletes
nothing.  Blocks, receipts and pruning do not come near them.  So the store answers for an account
as the last save that had one, which is the last save as long as the machine never loses accounts.
-/

namespace StatePersistence

/-- The bytes of the metadata key `last_height`. -/
def lastHeightKey : List UInt8 := "last_height".toList.map fun letter => UInt8.ofNat letter.toNat

/-- Writes always succeed, so the call does too. -/
def saveState (db : Database) (currentHeight : UInt64) (accounts : List Account) : Database :=
  storeAccountsBatch (storeMetadata db lastHeightKey (littleEndian64 currentHeight)) accounts

def stateExists (db : Database) : Bool :=
  match getMetadata db lastHeightKey with
  | .value _ => true
  | .throws _ => false
  | .outside => false

def getLastHeight (db : Database) : Result UInt64 := do
  let heightBytes <- getMetadata db lastHeightKey
  if heightBytes.length ≠ 8 then .throws "Invalid height data" else .value (ofLittleEndian64 heightBytes)

def loadState (db : Database) : Result UInt64 :=
  if stateExists db = false then .throws "No saved state found" else getLastHeight db

end StatePersistence

open StatePersistence

/-! ## What leaves a save alone -/

/-- The slots that a save writes. -/
def SavedSlot (cf : ColumnFamily) (key : List UInt8) : Prop := cf = .accounts ∨ (cf = .metadata ∧ key = lastHeightKey)

def KeepsSaved (db after : Database) : Prop := forall cf key, SavedSlot cf key -> after.lookup cf key = db.lookup cf key

namespace KeepsSaved

variable {db middle after : Database}

theorem refl (db : Database) : KeepsSaved db db := fun _ _ _ => rfl

theorem trans (first : KeepsSaved db middle) (second : KeepsSaved middle after) : KeepsSaved db after :=
  fun cf key slot => (second cf key slot).trans (first cf key slot)

theorem execute (db : Database) {operation : Operation}
    (elsewhere : ¬ SavedSlot operation.target.1 operation.target.2) :
    KeepsSaved db (db.execute operation) := by
  intro cf key slot
  rw [Database.lookup_execute, if_neg]
  intro same
  rw [← same] at elsewhere
  exact elsewhere slot

theorem writeBatch {operations : List Operation}
    (elsewhere : forall operation, operation ∈ operations -> ¬ SavedSlot operation.target.1 operation.target.2)
    (db : Database) : KeepsSaved db (db.writeBatch operations) := by
  unfold Database.writeBatch
  induction operations generalizing db with
  | nil => exact refl db
  | cons operation rest inductionHypothesis =>
      rw [List.forall_mem_cons] at elsewhere
      exact (execute db elsewhere.1).trans (inductionHypothesis elsewhere.2 _)

theorem put (db : Database) {cf : ColumnFamily} {key : List UInt8} (elsewhere : ¬ SavedSlot cf key)
    (value : List UInt8) :
    KeepsSaved db (db.put cf key value) := by
  have executed : KeepsSaved db (db.execute (.put cf key value)) := execute db elsewhere
  exact executed

theorem del (db : Database) {cf : ColumnFamily} {key : List UInt8} (elsewhere : ¬ SavedSlot cf key) :
    KeepsSaved db (db.del cf key) := by
  intro other target slot
  rw [Database.lookup_del]
  have executed : KeepsSaved db (db.execute (.delete cf key)) := execute db elsewhere
  exact executed other target slot

theorem not_savedSlot (cf : ColumnFamily) (key : List UInt8) (accounts : cf ≠ .accounts) (metadata : cf ≠ .metadata) :
    ¬ SavedSlot cf key := by
  rintro (same | ⟨same, _⟩)
  · exact accounts same
  · exact metadata same

theorem deleteTransactionReceipt (db : Database) (txHash : Blake3Hash) :
    KeepsSaved db (StateStorage.deleteTransactionReceipt db txHash) :=
      del db (not_savedSlot .transactions _ nofun nofun)

theorem blockBatch (prim : Primitives) (db : Database) (block : Block) (receipts : List TransactionReceipt) :
    KeepsSaved db (storeBlockWithReceipts prim db block receipts) := by
  refine writeBatch ?_ db
  intro operation member
  rcases List.mem_append.mp member with blockWrite | receiptWrite
  · rcases List.mem_pair.mp blockWrite with rfl | rfl
    · exact not_savedSlot .blocks _ nofun nofun
    · exact not_savedSlot .blockHashes _ nofun nofun
  · rcases List.mem_map.mp receiptWrite with ⟨receipt, _, rfl⟩
    exact not_savedSlot .transactions _ nofun nofun

theorem storeBlock (prim : Primitives) (db : Database) (block : Block) :
    KeepsSaved db (StateStorage.storeBlock prim db block) := by
  have batch := blockBatch prim db block []
  rw [storeBlockWithReceipts, List.map_nil, List.append_nil] at batch
  exact batch

theorem deleteBlock (prim : Primitives) (db : Database) (height : UInt64) :
    KeepsSaved db (StateStorage.deleteBlock prim db height).2 := by
  unfold StateStorage.deleteBlock
  split
  · refine writeBatch ?_ db
    intro operation member
    rcases List.mem_pair.mp member with rfl | rfl
    · exact not_savedSlot .blocks _ nofun nofun
    · exact not_savedSlot .blockHashes _ nofun nofun
  · exact refl db
  · exact refl db

theorem deleteReceipts (prim : Primitives) (db : Database) (block : Block) :
    KeepsSaved db (StatePersistence.deleteReceipts prim db block) := by
  unfold StatePersistence.deleteReceipts
  induction block.transactions generalizing db with
  | nil => exact refl db
  | cons tx rest inductionHypothesis =>
      exact (deleteTransactionReceipt db (tx.hash prim)).trans (inductionHypothesis _)

theorem pruneBlock (prim : Primitives) (db : Database) (height : UInt64) :
    KeepsSaved db (StatePersistence.pruneBlock prim db height).2 := by
  unfold StatePersistence.pruneBlock
  split
  · cases getBlockByHeight db height with
    | value block =>
        have deleted := (deleteReceipts prim db block).trans (deleteBlock prim _ height)
        simp only []
        split
        · rename_i reached
          rw [reached] at deleted
          exact deleted
        · rename_i reached
          rw [reached] at deleted
          exact deleted
        · rename_i reached
          rw [reached] at deleted
          exact deleted
    | throws error => exact refl db
    | outside => exact refl db
  · exact refl db

theorem pruneBlocks (prim : Primitives) (remaining : Nat) (height blocksPruned : UInt64) (db : Database) :
    KeepsSaved db (StatePersistence.pruneBlocks prim remaining height blocksPruned db).2 := by
  induction remaining generalizing height blocksPruned db with
  | zero => exact refl db
  | succ remaining inductionHypothesis =>
      have kept := pruneBlock prim db height
      unfold StatePersistence.pruneBlocks
      split
      · rename_i pruned after reached
        rw [reached] at kept
        exact kept.trans (inductionHypothesis _ _ after)
      · rename_i reached
        rw [reached] at kept
        exact kept
      · rename_i reached
        rw [reached] at kept
        exact kept

/-- The marker of pruning is another key. -/
theorem pruneOldState (prim : Primitives) (db : Database) (currentHeight : UInt64) :
    KeepsSaved db (StatePersistence.pruneOldState prim db currentHeight).2 := by
  unfold StatePersistence.pruneOldState
  split
  · exact refl db
  · simp only []
    have kept := pruneBlocks prim ((currentHeight - weakSubjectivityPeriod).toNat - (lastPrunedHeight db).toNat)
      (lastPrunedHeight db) 0 db
    have other : ¬ SavedSlot .metadata prunedUntilHeightKey := by
      unfold SavedSlot
      decide
    split
    · rename_i reached
      rw [reached] at kept
      exact kept.trans (put _ other _)
    · rename_i reached
      rw [reached] at kept
      exact kept
    · rename_i reached
      rw [reached] at kept
      exact kept

end KeepsSaved

/-- The calls that write neither accounts nor the last height. -/
def StorageCall.Aside : StorageCall -> Prop
  | .storeAccount _ => False
  | .storeAccountsBatch _ => False
  | .deleteAccount _ => False
  | .storeMetadata key _ => key ≠ lastHeightKey
  | _ => True

theorem KeepsSaved.call (prim : Primitives) (db : Database) {step : StorageCall} (aside : step.Aside) :
    KeepsSaved db (db.call prim step) := by
  cases step with
  | storeAccount account => exact aside.elim
  | storeAccountsBatch accounts => exact aside.elim
  | deleteAccount address => exact aside.elim
  | storeTransactionReceipt receipt => exact put db (not_savedSlot .transactions _ nofun nofun) _
  | deleteTransactionReceipt txHash => exact deleteTransactionReceipt db txHash
  | storeBlock block => exact storeBlock prim db block
  | storeBlockWithReceipts block receipts => exact blockBatch prim db block receipts
  | deleteBlock height => exact deleteBlock prim db height
  | storeMetadata key value =>
      refine put db ?_ value
      rintro (impossible | ⟨_, same⟩)
      · cases impossible
      · exact aside same

/-! ## A machine that is saved -/

/-- A state machine and the store that it is saved to. -/
structure PersistedMachine where
  machine : StateMachine
  db : Database

inductive PersistedCall
  | machine (call : MachineCall)
  | saveState
  | storage (call : StorageCall)
  | pruneOldState (currentHeight : UInt64)

/-- The storage calls leave the saved state to the saves. -/
def PersistedCall.Aside : PersistedCall -> Prop
  | .storage call => call.Aside
  | _ => True

/-- The calls that do not clear the accounts. -/
def PersistedCall.KeepsAccounts : PersistedCall -> Prop
  | .machine (.ledger _) => True
  | .machine _ => False
  | _ => True

namespace PersistedMachine

variable (prim : Primitives)

def step (persisted : PersistedMachine) : PersistedCall -> PersistedMachine
  | .machine call => ⟨persisted.machine.machineCall prim call, persisted.db⟩
  | .saveState =>
      let manager := persisted.machine.accountManager
      ⟨persisted.machine, saveState persisted.db persisted.machine.currentHeight manager.getAllAccounts⟩
  | .storage call => ⟨persisted.machine, persisted.db.call prim call⟩
  | .pruneOldState currentHeight => ⟨persisted.machine, (pruneOldState prim persisted.db currentHeight).2⟩

/-- The machine as it was at the saves of a run, the last save first. -/
def saves (machine : StateMachine) : List PersistedCall -> List StateMachine
  | [] => []
  | .machine call :: rest => saves (machine.machineCall prim call) rest
  | .saveState :: rest => saves machine rest ++ [machine]
  | .storage _ :: rest => saves machine rest
  | .pruneOldState _ :: rest => saves machine rest

end PersistedMachine

def findAccount (address : Address) (machine : StateMachine) : Option Account :=
  machine.accountManager.accounts[address]?

/-- The store answers for the last height and for the accounts as two maps. -/
structure Saved (db : Database) (height : Option UInt64) (accounts : Address -> Option Account) : Prop where
  height : db.lookup .metadata lastHeightKey = height.map littleEndian64
  accounts : Column .accounts FixedBytes.serialize Account.serialize accounts db

variable {prim : Primitives} {db after : Database} {height : Option UInt64} {accounts : Address -> Option Account}

theorem Saved.kept (holds : Saved db height accounts) (keeps : KeepsSaved db after) : Saved after height accounts where
  height := (keeps _ _ (Or.inr ⟨rfl, rfl⟩)).trans holds.height
  accounts := fun address => (keeps _ _ (Or.inl rfl)).trans (holds.accounts address)

/-! ## One save -/

/-- Of the accounts that are stored one after the other, one has the address or none has. -/
theorem foldl_putAccount_cases (listed : List Account) (address : Address) :
    (∃ account, account ∈ listed ∧ account.address = address ∧
        listed.foldl StoredMaps.putAccount accounts address = some account) ∨
      ((forall account, account ∈ listed -> account.address ≠ address) ∧
        listed.foldl StoredMaps.putAccount accounts address = accounts address) := by
  induction listed using List.reverseRecOn with
  | nil => exact Or.inr ⟨nofun, rfl⟩
  | append_singleton earlier last inductionHypothesis =>
      rw [List.foldl_append, List.foldl_cons, List.foldl_nil, StoredMaps.putAccount, Function.update_apply]
      by_cases same : address = last.address
      · rw [if_pos same]
        exact Or.inl ⟨last, List.mem_append_right earlier (List.mem_singleton_self last), same.symm, rfl⟩
      · rw [if_neg same]
        rcases inductionHypothesis with ⟨account, member, own, stored⟩ | ⟨absent, stored⟩
        · exact Or.inl ⟨account, List.mem_append_left [last] member, own, stored⟩
        · refine Or.inr ⟨?_, stored⟩
          intro account member
          rcases List.mem_append.mp member with early | late
          · exact absent account early
          · rw [List.mem_singleton.mp late]
            exact Ne.symm same

/-- A save stores the accounts there are and leaves the others as they were. -/
theorem foldl_getAllAccounts (machine : StateMachine) (address : Address) :
    machine.accountManager.getAllAccounts.foldl StoredMaps.putAccount accounts address =
      (findAccount address machine).or (accounts address) := by
  rcases foldl_putAccount_cases machine.accountManager.getAllAccounts address with
    ⟨account, listed, rfl, stored⟩ | ⟨absent, stored⟩
  · rw [stored, findAccount, (machine.accountManager.mem_getAllAccounts_iff account).mp listed, Option.some_or]
  · rw [stored]
    cases found : findAccount address machine with
    | none => rfl
    | some account =>
        have own : account.address = address := machine.accountManager.keyed address account found
        have listed := (machine.accountManager.mem_getAllAccounts_iff account).mpr (own ▸ found)
        exact absurd own (absent account listed)

theorem Saved.saveState (holds : Saved db height accounts) (machine : StateMachine) :
    Saved (StatePersistence.saveState db machine.currentHeight machine.accountManager.getAllAccounts)
      (some machine.currentHeight) (fun address => (findAccount address machine).or (accounts address)) := by
  -- The key of the height is a column of its own with one entry.
  have entry : Column .metadata (fun _ : Unit => lastHeightKey) littleEndian64 (fun _ => height) db :=
    fun _ => holds.height
  have written := entry.put (fun _ _ _ => rfl) () machine.currentHeight
  have marked : Column .accounts FixedBytes.serialize Account.serialize accounts
      (storeMetadata db lastHeightKey (littleEndian64 machine.currentHeight)) :=
    holds.accounts.put_other (by decide) lastHeightKey (littleEndian64 machine.currentHeight)
  have stored := marked.putAll serialize_injective Account.address machine.accountManager.getAllAccounts
  refine ⟨?_, ?_⟩
  · refine (written.others ?_ ()).trans ?_
    · intro operation member
      rcases List.mem_map.mp member with ⟨account, _, rfl⟩
      exact nofun
    · rw [Function.update_self]
  · intro address
    exact (stored address).trans (congrArg (Option.map Account.serialize) (foldl_getAllAccounts machine address))

/-! ## Runs -/

theorem saved_empty : Saved Database.empty none (fun _ => none) :=
  ⟨Database.lookup_empty _ _, column_empty⟩

/-- The store holds what the saves of a run have put over what was there. -/
theorem Saved.run {calls : List PersistedCall} (holds : Saved db height accounts) (machine : StateMachine)
    (aside : forall call, call ∈ calls -> call.Aside) :
    Saved (run (PersistedMachine.step prim) ⟨machine, db⟩ calls).db
      (((PersistedMachine.saves prim machine calls).head?.map StateMachine.currentHeight).or height)
      (fun address => ((PersistedMachine.saves prim machine calls).findSome? (findAccount address)).or
        (accounts address)) := by
  induction calls generalizing machine db height accounts with
  | nil => exact holds
  | cons call rest inductionHypothesis =>
      rw [List.forall_mem_cons] at aside
      rw [run_cons]
      cases call with
      | machine call => exact inductionHypothesis holds _ aside.2
      | saveState =>
          have saved := inductionHypothesis (holds.saveState machine) machine aside.2
          simp only [PersistedMachine.saves, List.head?_append, List.findSome?_append, List.head?_cons, Option.map_or,
            Option.map_some, List.findSome?_singleton, Option.or_assoc, Option.some_or]
          exact saved
      | storage call => exact inductionHypothesis (holds.kept (.call prim db aside.1)) machine aside.2
      | pruneOldState currentHeight =>
          exact inductionHypothesis (holds.kept (.pruneOldState prim db currentHeight)) machine aside.2

theorem Saved.loadState (holds : Saved db height accounts) :
    StatePersistence.loadState db = height.elim (.throws "No saved state found") .value := by
  have found : getMetadata db lastHeightKey = (height.map littleEndian64).elim (.throws "Key not found") .value := by
    rw [getMetadata, Database.get_eq, holds.height]
  cases height with
  | none =>
      have absent : stateExists db = false := by
        rw [stateExists, found]
        rfl
      exact if_pos absent
  | some height =>
      have present : stateExists db = true := by
        rw [stateExists, found]
        rfl
      have read : getLastHeight db = .value (ofLittleEndian64 (littleEndian64 height)) := by
        rw [getLastHeight, found]
        rfl
      rw [StatePersistence.loadState, present, if_neg nofun, read, ofLittleEndian64_littleEndian64]
      rfl

theorem Saved.getAccount (holds : Saved db height accounts) (address : Address) :
    StateStorage.getAccount db address = answer (accounts address) :=
  answer_of_column holds.accounts _ address fun account _ => account.deserialize_serialize

/-! ## Accounts that are never lost -/

/-- Every account of a machine has an entry in another. -/
def Covers (later earlier : AccountManager) : Prop :=
  forall address : Address, later.accounts[address]? = none -> earlier.accounts[address]? = none

theorem Covers.updateAccount {later earlier : AccountManager} (covers : Covers later earlier) (account : Account) :
    Covers (later.updateAccount account) earlier := by
  intro address absent
  rw [AccountManager.updateAccount, OrderedMap.find_insert] at absent
  split at absent
  · cases absent
  · exact covers address absent

theorem covers_settled (executor : TransactionExecutor) (execution : State.Execution) :
    Covers (executor.settled execution).accountManager executor.accountManager := by
  have start : Covers executor.accountManager executor.accountManager := fun _ => id
  have credits : Covers (TransactionExecutor.credited executor.accountManager execution.tx) executor.accountManager :=
    ((start.updateAccount _).updateAccount _).updateAccount _
  unfold TransactionExecutor.settled
  simp only []
  split
  · exact credits.updateAccount _
  · exact credits

theorem covers_ledgerCall (machine : StateMachine) (call : LedgerCall) :
    Covers (machine.ledgerCall prim call).accountManager machine.accountManager := by
  rw [StateMachine.ledgerCall_eq_run]
  refine invariant_run (fun later : StateMachine => Covers later.accountManager machine.accountManager) ?_
    (fun _ => id) (along_true machine call.steps)
  intro later step covers _
  rcases later.ledgerStep_cases prim step with ⟨same, _⟩ | ⟨execution, _, _, _, settled⟩
  · rw [StateMachine.accountManager, same]
    exact covers
  · rw [StateMachine.accountManager, settled]
    exact fun address absent => covers address (covers_settled later.transactionExecutor execution address absent)

/-- If no account is ever lost, the last save has every account that was saved. -/
theorem findSome_saves {calls : List PersistedCall} (machine : StateMachine)
    (keeps : forall call, call ∈ calls -> call.KeepsAccounts) (address : Address) :
    (PersistedMachine.saves prim machine calls).findSome? (findAccount address) =
        (PersistedMachine.saves prim machine calls).head?.bind (findAccount address) ∧
      forall saved, (PersistedMachine.saves prim machine calls).head? = some saved ->
        Covers saved.accountManager machine.accountManager := by
  induction calls generalizing machine with
  | nil => exact ⟨rfl, nofun⟩
  | cons call rest inductionHypothesis =>
      rw [List.forall_mem_cons] at keeps
      cases call with
      | machine call =>
          cases call with
          | ledger call =>
              rcases inductionHypothesis (machine.ledgerCall prim call) keeps.2 with ⟨same, covers⟩
              refine ⟨same, ?_⟩
              intro saved last other absent
              exact covers_ledgerCall machine call other (covers saved last other absent)
          | initializeFromGenesis genesisBlock allocations => exact keeps.1.elim
          | revertToHeight height => exact keeps.1.elim
          | clear => exact keeps.1.elim
      | saveState =>
          rcases inductionHypothesis machine keeps.2 with ⟨same, covers⟩
          rw [PersistedMachine.saves, List.findSome?_append, List.head?_append, List.findSome?_singleton,
            List.head?_singleton, same]
          cases last : (PersistedMachine.saves prim machine rest).head? with
          | none => exact ⟨rfl, fun saved only => Option.some.inj only ▸ fun _ => id⟩
          | some newer =>
              refine ⟨?_, fun saved only => Option.some.inj only ▸ covers newer last⟩
              change (findAccount address newer).or (findAccount address machine) = findAccount address newer
              cases found : findAccount address newer with
              | none => exact covers newer last address found
              | some account => rfl
      | storage call => exact inductionHypothesis machine keeps.2
      | pruneOldState currentHeight => exact inductionHypothesis machine keeps.2

/-- What a store that starts empty has after any run is what the saves of the run have put there: the
height of the last one, and for every account the record of the last save that had the account.
As long as no call clears the accounts, that is the last save. -/
theorem restart_recovers (prim : Primitives) (machine : StateMachine) (calls : List PersistedCall)
    (aside : forall call, call ∈ calls -> call.Aside) :
    let db := (run (PersistedMachine.step prim) ⟨machine, Database.empty⟩ calls).db
    let saves := PersistedMachine.saves prim machine calls
    loadState db = (saves.head?.map StateMachine.currentHeight).elim (.throws "No saved state found") .value ∧
      (forall address, getAccount db address = answer (saves.findSome? (findAccount address))) ∧
      ((forall call, call ∈ calls -> call.KeepsAccounts) ->
        forall address, getAccount db address = answer (saves.head?.bind (findAccount address))) := by
  intro db saves
  have holds : Saved db ((saves.head?.map StateMachine.currentHeight).or none)
      (fun address => (saves.findSome? (findAccount address)).or none) := saved_empty.run machine aside
  simp only [Option.or_none] at holds
  refine ⟨holds.loadState, holds.getAccount, ?_⟩
  intro keeps address
  rw [← (findSome_saves machine keeps address).1]
  exact holds.getAccount address

/-- A save, a block, another save, and calls that leave the save alone. -/
def savedTwice : List PersistedCall :=
  [.saveState, .machine (.ledger (.executeBlock 1 [StateMachine.transfer 1 2 10 0 5] 1 (FixedBytes.ofNat 32 3))),
    .saveState, .storage (.storeMetadata [1] [2]), .pruneOldState 7]

theorem restart_recovers_savedTwice :
    let db := (run (PersistedMachine.step Transparent.primitives) ⟨StateMachine.funded 1 100, Database.empty⟩
      savedTwice).db
    loadState db = .value 1 ∧
      getAccount db (FixedBytes.ofNat 32 2) = .value (Account.make (FixedBytes.ofNat 32 2) 10 0) := by
  have aside : forall call, call ∈ savedTwice -> call.Aside := by
    simp only [savedTwice, List.forall_mem_cons, PersistedCall.Aside, StorageCall.Aside, List.not_mem_nil,
      false_implies, implies_true, and_true, true_and]
    decide
  have keeps : forall call, call ∈ savedTwice -> call.KeepsAccounts := by
    simp only [savedTwice, List.forall_mem_cons, PersistedCall.KeepsAccounts, List.not_mem_nil, false_implies,
      implies_true, and_true]
  rcases restart_recovers Transparent.primitives (StateMachine.funded 1 100) savedTwice aside with ⟨loaded, _, last⟩
  exact ⟨loaded.trans (by decide +kernel), (last keeps _).trans (by decide +kernel)⟩

end Storage
end Sarafu

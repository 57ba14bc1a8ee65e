import Sarafu.Crypto.Transparent
import Sarafu.Library.Runs
import Sarafu.Storage.StateStorage

namespace Sarafu
namespace Storage

open Crypto State Consensus Library.Decoding Library.Runs StateStorage

/-!
# The store as two maps

Accounts and receipts behave as two maps that do not know of each other.  The column of
each map is written by its own calls only, so every call of the store is a call on one
of the maps, and the answers of the store are those of the maps.
-/

/-- The last stored account of each address and the last stored receipt of each hash. -/
structure StoredMaps where
  accounts : Address -> Option Account
  receipts : Blake3Hash -> Option TransactionReceipt

namespace StoredMaps

def empty : StoredMaps := ⟨fun _ => none, fun _ => none⟩

def putAccount (accounts : Address -> Option Account) (account : Account) : Address -> Option Account :=
  Function.update accounts account.address (some account)

def putReceipt (receipts : Blake3Hash -> Option TransactionReceipt) (receipt : TransactionReceipt) :
    Blake3Hash -> Option TransactionReceipt :=
  Function.update receipts receipt.txHash (some receipt)

/-- The entries of a batch are stored in order, so the later ones win. -/
def call (maps : StoredMaps) : StorageCall -> StoredMaps
  | .storeAccount account => { maps with accounts := putAccount maps.accounts account }
  | .storeAccountsBatch batch => { maps with accounts := batch.foldl putAccount maps.accounts }
  | .deleteAccount address => { maps with accounts := Function.update maps.accounts address none }
  | .storeTransactionReceipt receipt => { maps with receipts := putReceipt maps.receipts receipt }
  | .storeBlockWithReceipts _ batch => { maps with receipts := batch.foldl putReceipt maps.receipts }
  | .deleteTransactionReceipt txHash => { maps with receipts := Function.update maps.receipts txHash none }
  | .storeBlock _ => maps
  | .deleteBlock _ => maps
  | .storeMetadata _ _ => maps

end StoredMaps

/-- The receipts that a call stores. -/
def StorageCall.receipts : StorageCall -> List TransactionReceipt
  | .storeTransactionReceipt receipt => [receipt]
  | .storeBlockWithReceipts _ receipts => receipts
  | _ => []

/-- The message of a receipt has a length of four bytes. -/
def ShortMessage (receipt : TransactionReceipt) : Prop := receipt.errorMessage.length < 2 ^ 32

/-- The columns of the store hold the two maps. -/
structure Refines (db : Database) (maps : StoredMaps) : Prop where
  accounts : Column .accounts FixedBytes.serialize Account.serialize maps.accounts db
  receipts : Column .transactions FixedBytes.serialize TransactionReceipt.serialize maps.receipts db
  messages : forall txHash receipt, maps.receipts txHash = some receipt -> ShortMessage receipt

variable {db : Database} {maps : StoredMaps}

theorem shortMessage_putReceipt {receipts : Blake3Hash -> Option TransactionReceipt} {receipt : TransactionReceipt}
    (messages : forall txHash stored, receipts txHash = some stored -> ShortMessage stored)
    (short : ShortMessage receipt) :
    forall txHash stored, StoredMaps.putReceipt receipts receipt txHash = some stored -> ShortMessage stored := by
  intro txHash stored found
  rw [StoredMaps.putReceipt, Function.update_apply] at found
  split at found
  · rw [← Option.some.inj found]
    exact short
  · exact messages txHash stored found

theorem shortMessage_foldl {receipts : Blake3Hash -> Option TransactionReceipt} {batch : List TransactionReceipt}
    (messages : forall txHash stored, receipts txHash = some stored -> ShortMessage stored)
    (short : forall receipt, receipt ∈ batch -> ShortMessage receipt) :
    forall txHash stored, batch.foldl StoredMaps.putReceipt receipts txHash = some stored -> ShortMessage stored := by
  induction batch generalizing receipts with
  | nil => exact messages
  | cons receipt rest inductionHypothesis =>
      rw [List.forall_mem_cons] at short
      exact inductionHypothesis (shortMessage_putReceipt messages short.1) short.2

/-- The batch of a block writes neither column of the maps. -/
theorem blockOperations_target {prim : Primitives} {block : Block} {operation : Operation}
    (member : operation ∈ blockOperations prim block) :
    operation.target.1 ≠ .accounts ∧ operation.target.1 ≠ .transactions := by
  rcases List.mem_cons.mp member with rfl | last
  · exact ⟨nofun, nofun⟩
  · rw [List.mem_singleton.mp last]
    exact ⟨nofun, nofun⟩

theorem deletionOperations_target {prim : Primitives} {height : UInt64} {block : Block} {operation : Operation}
    (member : operation ∈ deletionOperations prim height block) :
    operation.target.1 ≠ .accounts ∧ operation.target.1 ≠ .transactions := by
  rcases List.mem_cons.mp member with rfl | last
  · exact ⟨nofun, nofun⟩
  · rw [List.mem_singleton.mp last]
    exact ⟨nofun, nofun⟩

theorem Refines.writeBlock (refines : Refines db maps) {operations : List Operation}
    (different : forall operation, operation ∈ operations ->
      operation.target.1 ≠ .accounts ∧ operation.target.1 ≠ .transactions) :
    Refines (db.writeBatch operations) maps where
  accounts := refines.accounts.others fun operation member => (different operation member).1
  receipts := refines.receipts.others fun operation member => (different operation member).2
  messages := refines.messages

theorem Refines.storeAccount (refines : Refines db maps) (account : Account) :
    Refines (StateStorage.storeAccount db account)
      { maps with accounts := StoredMaps.putAccount maps.accounts account } where
  accounts := refines.accounts.put serialize_injective account.address account
  receipts := refines.receipts.put_other (by decide) account.address.serialize account.serialize
  messages := refines.messages

theorem Refines.storeAccountsBatch (refines : Refines db maps) (batch : List Account) :
    Refines (StateStorage.storeAccountsBatch db batch)
      { maps with accounts := batch.foldl StoredMaps.putAccount maps.accounts } where
  accounts := refines.accounts.putAll serialize_injective Account.address batch
  receipts := by
    refine refines.receipts.others ?_
    intro operation member
    rcases List.mem_map.mp member with ⟨account, _, rfl⟩
    exact nofun
  messages := refines.messages

theorem Refines.deleteAccount (refines : Refines db maps) (address : Address) :
    Refines (StateStorage.deleteAccount db address)
      { maps with accounts := Function.update maps.accounts address none } where
  accounts := (refines.accounts.delete serialize_injective address).of_del
  receipts := refines.receipts.del_other (by decide) address.serialize
  messages := refines.messages

theorem Refines.storeTransactionReceipt (refines : Refines db maps) {receipt : TransactionReceipt}
    (short : ShortMessage receipt) :
    Refines (StateStorage.storeTransactionReceipt db receipt)
      { maps with receipts := StoredMaps.putReceipt maps.receipts receipt } where
  accounts := refines.accounts.put_other (by decide) receipt.txHash.serialize receipt.serialize
  receipts := refines.receipts.put serialize_injective receipt.txHash receipt
  messages := shortMessage_putReceipt refines.messages short

theorem Refines.deleteTransactionReceipt (refines : Refines db maps) (txHash : Blake3Hash) :
    Refines (StateStorage.deleteTransactionReceipt db txHash)
      { maps with receipts := Function.update maps.receipts txHash none } where
  accounts := refines.accounts.del_other (by decide) txHash.serialize
  receipts := (refines.receipts.delete serialize_injective txHash).of_del
  messages := by
    intro other receipt found
    change Function.update maps.receipts txHash none other = some receipt at found
    rw [Function.update_apply] at found
    split at found
    · cases found
    · exact refines.messages other receipt found

/-- The receipts of a block are stored behind the block. -/
theorem storeBlockWithReceipts_eq (prim : Primitives) (db : Database) (block : Block)
    (batch : List TransactionReceipt) : StateStorage.storeBlockWithReceipts prim db block batch =
      (StateStorage.storeBlock prim db block).writeBatch (batch.map receiptOperation) := List.foldl_append

theorem receipts_storeBlockWithReceipts (prim : Primitives) {receipts : Blake3Hash -> Option TransactionReceipt}
    (column : Column .transactions FixedBytes.serialize TransactionReceipt.serialize receipts db) (block : Block)
    (batch : List TransactionReceipt) :
    Column .transactions FixedBytes.serialize TransactionReceipt.serialize (batch.foldl StoredMaps.putReceipt receipts)
      (StateStorage.storeBlockWithReceipts prim db block batch) := by
  have after : Column .transactions FixedBytes.serialize TransactionReceipt.serialize receipts
      (StateStorage.storeBlock prim db block) := column.others fun _ member => (blockOperations_target member).2
  rw [storeBlockWithReceipts_eq]
  exact after.putAll serialize_injective TransactionReceipt.txHash batch

theorem Refines.storeBlockWithReceipts (prim : Primitives) (refines : Refines db maps) (block : Block)
    {batch : List TransactionReceipt} (short : forall receipt, receipt ∈ batch -> ShortMessage receipt) :
    Refines (StateStorage.storeBlockWithReceipts prim db block batch)
      { maps with receipts := batch.foldl StoredMaps.putReceipt maps.receipts } where
  accounts := by
    have after : Refines (StateStorage.storeBlock prim db block) maps :=
      refines.writeBlock fun _ => blockOperations_target
    rw [storeBlockWithReceipts_eq]
    refine after.accounts.others ?_
    intro operation member
    rcases List.mem_map.mp member with ⟨receipt, _, rfl⟩
    exact nofun
  receipts := receipts_storeBlockWithReceipts prim refines.receipts block batch
  messages := shortMessage_foldl refines.messages short

theorem Refines.deleteBlock (prim : Primitives) (refines : Refines db maps) (height : UInt64) :
    Refines (StateStorage.deleteBlock prim db height).2 maps := by
  unfold StateStorage.deleteBlock
  split
  · exact refines.writeBlock fun _ => deletionOperations_target
  · exact refines
  · exact refines

theorem Refines.storeMetadata (refines : Refines db maps) (key value : List UInt8) :
    Refines (StateStorage.storeMetadata db key value) maps where
  accounts := refines.accounts.put_other (by decide) key value
  receipts := refines.receipts.put_other (by decide) key value
  messages := refines.messages

/-- The step lemma: a call of the store is a call on the maps. -/
theorem Refines.call (prim : Primitives) (refines : Refines db maps) (step : StorageCall)
    (short : forall receipt, receipt ∈ step.receipts -> ShortMessage receipt) :
    Refines (db.call prim step) (maps.call step) := by
  cases step with
  | storeAccount account => exact refines.storeAccount account
  | storeAccountsBatch batch => exact refines.storeAccountsBatch batch
  | deleteAccount address => exact refines.deleteAccount address
  | storeTransactionReceipt receipt =>
      exact refines.storeTransactionReceipt (short receipt (List.mem_singleton.mpr rfl))
  | deleteTransactionReceipt txHash => exact refines.deleteTransactionReceipt txHash
  | storeBlock block => exact refines.writeBlock fun _ => blockOperations_target
  | storeBlockWithReceipts block batch => exact refines.storeBlockWithReceipts prim block short
  | deleteBlock height => exact refines.deleteBlock prim height
  | storeMetadata key value => exact refines.storeMetadata key value

theorem refines_empty : Refines Database.empty StoredMaps.empty := ⟨column_empty, column_empty, nofun⟩

/-- The run lemma. -/
theorem Refines.run (prim : Primitives) (refines : Refines db maps) {calls : List StorageCall}
    (short : forall step, step ∈ calls -> forall receipt, receipt ∈ step.receipts -> ShortMessage receipt) :
    Refines (run (Database.call prim) db calls) (run StoredMaps.call maps calls) := by
  induction calls generalizing db maps with
  | nil => exact refines
  | cons step rest inductionHypothesis =>
      rw [List.forall_mem_cons] at short
      exact inductionHypothesis (refines.call prim step short.1) short.2

/-- The answer of the store to a lookup in one of the maps. -/
def answer {Value : Type} (found : Option Value) : Result Value := found.elim (.throws "Key not found") .value

/-- A decoded lookup answers as the map if the values survive their encoding. -/
theorem answer_of_column {Key Value : Type} {encodeKey : Key -> List UInt8} {encodeValue : Value -> List UInt8}
    {family : ColumnFamily} {view : Key -> Option Value} {decode : List UInt8 -> Outcome String Value}
    (column : Column family encodeKey encodeValue view db) (report : String -> String) (key : Key)
    (decoded : forall value, view key = some value -> decode (encodeValue value) = .value value) :
    (db.get family (encodeKey key) >>= fun value => (decode value).mapError report) = answer (view key) := by
  rw [Database.get_eq, column key]
  cases found : view key with
  | none => rfl
  | some value =>
      change (decode (encodeValue value)).mapError report = .value value
      rw [decoded value found]
      rfl

theorem exists_of_column {Key Value : Type} {encodeKey : Key -> List UInt8} {encodeValue : Value -> List UInt8}
    {family : ColumnFamily} {view : Key -> Option Value} (column : Column family encodeKey encodeValue view db)
    (key : Key) : db.keyExists family (encodeKey key) = (view key).isSome := by
  rw [Database.keyExists_eq, column key, Option.isSome_map]

/-- Over every history the store answers as the two maps: `get_account` and
`account_exists` as the map of the last stored accounts, `get_transaction_receipt` and
`receipt_exists` as the map of the last stored receipts. -/
theorem stateStorage_refines_maps (prim : Primitives) (calls : List StorageCall)
    (short : forall step, step ∈ calls -> forall receipt, receipt ∈ step.receipts -> ShortMessage receipt) :
    let db := run (Database.call prim) Database.empty calls
    let maps := run StoredMaps.call StoredMaps.empty calls
    (forall address, getAccount db address = answer (maps.accounts address) ∧
        accountExists db address = (maps.accounts address).isSome) ∧
      forall txHash, getTransactionReceipt db txHash = answer (maps.receipts txHash) ∧
        receiptExists db txHash = (maps.receipts txHash).isSome := by
  intro db maps
  have refines : Refines db maps := Refines.run prim refines_empty short
  constructor
  · intro address
    exact ⟨answer_of_column refines.accounts _ address fun account _ => account.deserialize_serialize,
      exists_of_column refines.accounts address⟩
  · intro txHash
    exact ⟨answer_of_column refines.receipts _ txHash fun receipt found =>
      receipt.deserialize_serialize (refines.messages txHash receipt found), exists_of_column refines.receipts txHash⟩

/-- A receipt with a message of some length. -/
def sampleReceipt (number : Nat) (success : Bool) (errorMessage : List UInt8) : TransactionReceipt :=
  ⟨FixedBytes.ofNat 32 number, 5, success, 21000, errorMessage⟩

/-- A batch of accounts with one address twice, a receipt that is stored again, deletions. -/
def sampleCalls : List StorageCall :=
  [.storeAccountsBatch [Account.make (FixedBytes.ofNat 32 1) 10 0, Account.make (FixedBytes.ofNat 32 1) 7 1],
    .storeTransactionReceipt (sampleReceipt 1 false [104, 105]), .storeTransactionReceipt (sampleReceipt 1 true []),
    .storeTransactionReceipt (sampleReceipt 2 true []), .deleteTransactionReceipt (FixedBytes.ofNat 32 2)]

theorem stateStorage_refines_maps_sample :
    let db := run (Database.call Transparent.primitives) Database.empty sampleCalls
    getAccount db (FixedBytes.ofNat 32 1) = .value (Account.make (FixedBytes.ofNat 32 1) 7 1) ∧
      getTransactionReceipt db (FixedBytes.ofNat 32 1) = .value (sampleReceipt 1 true []) ∧
        receiptExists db (FixedBytes.ofNat 32 2) = false := by
  have short : forall step, step ∈ sampleCalls -> forall receipt, receipt ∈ step.receipts -> ShortMessage receipt := by
    unfold ShortMessage
    decide +kernel
  have answers := stateStorage_refines_maps Transparent.primitives sampleCalls short
  exact ⟨(answers.1 (FixedBytes.ofNat 32 1)).1.trans (by decide +kernel),
    (answers.2 (FixedBytes.ofNat 32 1)).1.trans (by decide +kernel),
    (answers.2 (FixedBytes.ofNat 32 2)).2.trans (by decide +kernel)⟩

end Storage
end Sarafu

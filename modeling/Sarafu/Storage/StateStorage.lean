import Sarafu.Consensus.BlockCodec
import Sarafu.Storage.Database
import Sarafu.Storage.TransactionReceipt

namespace Sarafu
namespace Storage

open Crypto State Consensus Library.Decoding

/-!
# Accounts, blocks and receipts in the key-value store

Heights are copied from memory, on a little-endian host.  A block is stored under its
height, and its hash leads to the height.  Deleting a block reads it first to learn its
hash.  Metadata keys are byte strings.
-/

namespace StateStorage

def storeAccount (db : Database) (account : Account) : Database :=
  db.put .accounts account.address.serialize account.serialize

def getAccount (db : Database) (address : Address) : Result Account := do
  let value <- db.get .accounts address.serialize
  (Account.deserialize value).mapError fun what => "Failed to deserialize account: " ++ what

def accountExists (db : Database) (address : Address) : Bool := db.keyExists .accounts address.serialize

def deleteAccount (db : Database) (address : Address) : Database := db.del .accounts address.serialize

variable (prim : Primitives)

/-- The batch of `store_block`. -/
def blockOperations (block : Block) : List Operation :=
  [.put .blocks (littleEndian64 block.header.height) block.serialize,
    .put .blockHashes (block.hash prim).serialize (littleEndian64 block.header.height)]

def storeBlock (db : Database) (block : Block) : Database := db.writeBatch (blockOperations prim block)

def getBlockByHeight (db : Database) (height : UInt64) : Result Block := do
  let value <- db.get .blocks (littleEndian64 height)
  (Block.deserialize value).mapError fun what => "Failed to deserialize block: " ++ what

def getBlockHeight (db : Database) (hash : Blake3Hash) : Result UInt64 := do
  let value <- db.get .blockHashes hash.serialize
  if value.length ≠ 8 then .throws "Invalid height data" else .value (ofLittleEndian64 value)

def getBlockByHash (db : Database) (hash : Blake3Hash) : Result Block := do
  let height <- getBlockHeight db hash
  getBlockByHeight db height

def blockExists (db : Database) (height : UInt64) : Bool := db.keyExists .blocks (littleEndian64 height)

/-- The batch of `delete_block`. -/
def deletionOperations (height : UInt64) (block : Block) : List Operation :=
  [.delete .blocks (littleEndian64 height), .delete .blockHashes (block.hash prim).serialize]

def deleteBlock (db : Database) (height : UInt64) : Result Unit × Database :=
  match getBlockByHeight db height with
  | .value block => (.value (), db.writeBatch (deletionOperations prim height block))
  | .throws error => (.throws error, db)
  | .outside => (.outside, db)

def receiptOperation (receipt : TransactionReceipt) : Operation :=
  .put .transactions receipt.txHash.serialize receipt.serialize

def storeTransactionReceipt (db : Database) (receipt : TransactionReceipt) : Database :=
  db.put .transactions receipt.txHash.serialize receipt.serialize

def getTransactionReceipt (db : Database) (txHash : Blake3Hash) : Result TransactionReceipt := do
  let value <- db.get .transactions txHash.serialize
  (TransactionReceipt.deserialize value).mapError fun what => "Failed to deserialize receipt: " ++ what

def receiptExists (db : Database) (txHash : Blake3Hash) : Bool := db.keyExists .transactions txHash.serialize

def deleteTransactionReceipt (db : Database) (txHash : Blake3Hash) : Database := db.del .transactions txHash.serialize

def storeAccountsBatch (db : Database) (accounts : List Account) : Database :=
  db.writeBatch (accounts.map fun account => .put .accounts account.address.serialize account.serialize)

def storeBlockWithReceipts (db : Database) (block : Block) (receipts : List TransactionReceipt) : Database :=
  db.writeBatch (blockOperations prim block ++ receipts.map receiptOperation)

def storeMetadata (db : Database) (key value : List UInt8) : Database := db.put .metadata key value

def getMetadata (db : Database) (key : List UInt8) : Result (List UInt8) := db.get .metadata key

end StateStorage

/-- The calls that write the store. -/
inductive StorageCall
  | storeAccount (account : Account)
  | storeAccountsBatch (accounts : List Account)
  | deleteAccount (address : Address)
  | storeTransactionReceipt (receipt : TransactionReceipt)
  | deleteTransactionReceipt (txHash : Blake3Hash)
  | storeBlock (block : Block)
  | storeBlockWithReceipts (block : Block) (receipts : List TransactionReceipt)
  | deleteBlock (height : UInt64)
  | storeMetadata (key value : List UInt8)

open StateStorage in
/-- The store after a call. -/
def Database.call (prim : Primitives) (db : Database) : StorageCall -> Database
  | .storeAccount account => storeAccount db account
  | .storeAccountsBatch accounts => storeAccountsBatch db accounts
  | .deleteAccount address => deleteAccount db address
  | .storeTransactionReceipt receipt => storeTransactionReceipt db receipt
  | .deleteTransactionReceipt txHash => deleteTransactionReceipt db txHash
  | .storeBlock block => storeBlock prim db block
  | .storeBlockWithReceipts block receipts => storeBlockWithReceipts prim db block receipts
  | .deleteBlock height => (deleteBlock prim db height).2
  | .storeMetadata key value => storeMetadata db key value

/-! ## Typed columns -/

variable {Key Value : Type} {encodeKey : Key -> List UInt8} {encodeValue : Value -> List UInt8}

/-- A column holds the encodings of a map. -/
def Column (family : ColumnFamily) (encodeKey : Key -> List UInt8) (encodeValue : Value -> List UInt8)
    (view : Key -> Option Value) (db : Database) : Prop :=
  forall key, db.lookup family (encodeKey key) = (view key).map encodeValue

variable {family : ColumnFamily} {view : Key -> Option Value} {db : Database}

theorem column_empty : Column family encodeKey encodeValue (fun _ => none) Database.empty := fun _ =>
  Database.lookup_empty _ _

/-- Operations on another family leave a column alone. -/
theorem Column.other (column : Column family encodeKey encodeValue view db) {operation : Operation}
    (different : operation.target.1 ≠ family) : Column family encodeKey encodeValue view (db.execute operation) := by
  intro key
  rw [Database.lookup_execute, if_neg]
  · exact column key
  · intro same
    exact different (congrArg Prod.fst same).symm

theorem Column.execute [DecidableEq Key] (column : Column family encodeKey encodeValue view db)
    (injective : Function.Injective encodeKey) {operation : Operation} {key : Key} {value : Option Value}
    (target : operation.target = (family, encodeKey key)) (written : operation.written = value.map encodeValue) :
    Column family encodeKey encodeValue (Function.update view key value) (db.execute operation) := by
  intro other
  rw [Database.lookup_execute, target, written, Function.update_apply]
  by_cases same : other = key
  · rw [if_pos same, same, if_pos rfl]
  · rw [if_neg same, if_neg]
    · exact column other
    · intro equal
      exact same (injective (Prod.mk.inj equal).2)

theorem Column.put [DecidableEq Key] (column : Column family encodeKey encodeValue view db)
    (injective : Function.Injective encodeKey) (key : Key) (value : Value) :
    Column family encodeKey encodeValue (Function.update view key (some value))
      (db.execute (.put family (encodeKey key) (encodeValue value))) :=
  column.execute injective rfl rfl

theorem Column.delete [DecidableEq Key] (column : Column family encodeKey encodeValue view db)
    (injective : Function.Injective encodeKey) (key : Key) :
    Column family encodeKey encodeValue (Function.update view key none)
      (db.execute (.delete family (encodeKey key))) :=
  column.execute injective rfl rfl

/-- Operations on other families leave a column alone, one after the other. -/
theorem Column.others (column : Column family encodeKey encodeValue view db) {operations : List Operation}
    (different : forall operation, operation ∈ operations -> operation.target.1 ≠ family) :
    Column family encodeKey encodeValue view (db.writeBatch operations) := by
  unfold Database.writeBatch
  induction operations generalizing db with
  | nil => exact column
  | cons operation rest inductionHypothesis =>
      rw [List.forall_mem_cons] at different
      exact inductionHypothesis (column.other different.1) different.2

/-- A batch of records under their own keys, the later ones winning. -/
theorem Column.putAll [DecidableEq Key] (column : Column family encodeKey encodeValue view db)
    (injective : Function.Injective encodeKey) (keyOf : Value -> Key) (values : List Value) :
    Column family encodeKey encodeValue
      (values.foldl (fun view value => Function.update view (keyOf value) (some value)) view)
      (db.writeBatch (values.map fun value => .put family (encodeKey (keyOf value)) (encodeValue value))) := by
  unfold Database.writeBatch
  induction values generalizing view db with
  | nil => exact column
  | cons value rest inductionHypothesis => exact inductionHypothesis (column.put injective (keyOf value) value)

/-- `del` reads as a deletion of a batch. -/
theorem Column.of_del {cf : ColumnFamily} {target : List UInt8}
    (executed : Column family encodeKey encodeValue view (db.execute (.delete cf target))) :
    Column family encodeKey encodeValue view (db.del cf target) := fun key =>
  (Database.lookup_del db cf family (encodeKey key) target).trans (executed key)

theorem Column.put_other (column : Column family encodeKey encodeValue view db) {cf : ColumnFamily}
    (different : cf ≠ family) (key value : List UInt8) :
    Column family encodeKey encodeValue view (db.put cf key value) := by
  have executed : Column family encodeKey encodeValue view (db.execute (.put cf key value)) := column.other different
  exact executed

theorem Column.del_other (column : Column family encodeKey encodeValue view db) {cf : ColumnFamily}
    (different : cf ≠ family) (key : List UInt8) : Column family encodeKey encodeValue view (db.del cf key) := by
  have executed : Column family encodeKey encodeValue view (db.execute (.delete cf key)) := column.other different
  exact executed.of_del

theorem serialize_injective {size : Nat} : Function.Injective (FixedBytes.serialize : FixedBytes size -> List UInt8) :=
  fun _ _ same => FixedBytes.ext_bytes same

theorem littleEndian64_injective : Function.Injective littleEndian64 := fun _ _ => littleEndian64_inj

end Storage
end Sarafu

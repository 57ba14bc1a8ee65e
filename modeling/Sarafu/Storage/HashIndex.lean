import Sarafu.Crypto.Transparent
import Sarafu.Library.NamedSlots
import Sarafu.Storage.StoredMaps

namespace Sarafu
namespace Storage

open Crypto State Consensus Library.Decoding Library.Runs Library.NamedSlots StateStorage

/-!
# Blocks by height and by hash

The two columns of the blocks are an index of named slots: the height is the slot and the
hash the name.  Overwriting a height leaves the hash of the old block behind, which then
leads to the new block.  Nothing else makes a lookup by hash answer with another block.
-/

/-- The block that a call stores. -/
def StorageCall.block : StorageCall -> Option Block
  | .storeBlock block => some block
  | .storeBlockWithReceipts block _ => some block
  | _ => none

/-- The last block at a height after one more call. -/
def StorageCall.lastAt (height : UInt64) (last : Option Block) : StorageCall -> Option Block
  | .storeBlock block => if height = block.header.height then some block else last
  | .storeBlockWithReceipts block _ => if height = block.header.height then some block else last
  | .deleteBlock deleted => if height = deleted then none else last
  | _ => last

/-- The block of the last store at a height if nothing has deleted it since. -/
def lastStored (height : UInt64) (calls : List StorageCall) : Option Block :=
  calls.foldl (fun last step => step.lastAt height last) none

variable (prim : Primitives)

/-- What `get_block_by_hash` returns has that hash. -/
def Faithful (db : Database) : Prop :=
  forall hash block, getBlockByHash db hash = .value block -> block.hash prim = hash

/-- A call does not store a block over one with another hash. -/
def KeepsHash (db : Database) (step : StorageCall) : Prop :=
  forall block, step.block = some block -> forall old,
    getBlockByHeight db block.header.height = .value old -> old.hash prim = block.hash prim

/-- What a call does to the index of blocks. -/
def StorageCall.change : StorageCall -> Index.Change UInt64 Block
  | .storeBlock block => .store block
  | .storeBlockWithReceipts block _ => .store block
  | .deleteBlock height => .remove height
  | _ => .keep

/-- A block whose encoding is a vector. -/
def Encodable (block : Block) : Prop := block.serialize.length < 2 ^ 64

/-- The columns of the blocks hold an index. -/
structure Represents (db : Database) (index : Index UInt64 Blake3Hash Block) : Prop where
  blocks : Column .blocks littleEndian64 Block.serialize index.records db
  hashes : Column .blockHashes FixedBytes.serialize littleEndian64 index.places db
  encodable : forall height block, index.records height = some block -> Encodable block

def blockHeight (block : Block) : UInt64 := block.header.height

variable {prim} {db : Database} {index : Index UInt64 Blake3Hash Block}

theorem Represents.getBlockByHeight (represents : Represents db index) (height : UInt64) :
    getBlockByHeight db height = answer (index.records height) :=
  answer_of_column represents.blocks _ height fun block found =>
    block.deserialize_serialize (represents.encodable height block found)

theorem Represents.getBlockHeight (represents : Represents db index) (hash : Blake3Hash) :
    getBlockHeight db hash = answer (index.places hash) := by
  unfold StateStorage.getBlockHeight
  rw [Database.get_eq, represents.hashes hash]
  cases index.places hash with
  | none => rfl
  | some height =>
      change (if (littleEndian64 height).length ≠ 8 then .throws "Invalid height data"
        else .value (ofLittleEndian64 (littleEndian64 height))) = Outcome.value height
      rw [if_neg (not_not.mpr (length_littleEndian64 height)), ofLittleEndian64_littleEndian64]

/-- The lookup by hash is the lookup by name. -/
theorem Represents.getBlockByHash (represents : Represents db index) (hash : Blake3Hash) :
    getBlockByHash db hash = answer (index.lookup hash) := by
  unfold StateStorage.getBlockByHash Index.lookup
  rw [represents.getBlockHeight]
  cases index.places hash with
  | none => rfl
  | some height => exact represents.getBlockByHeight height

theorem answer_eq_value_iff {Value : Type} {found : Option Value} {value : Value} :
    answer found = .value value <-> found = some value := by
  cases found with
  | none => exact iff_of_false nofun nofun
  | some other =>
      constructor
      · intro same
        exact congrArg some (Outcome.value.inj same)
      · intro same
        exact congrArg Outcome.value (Option.some.inj same)

theorem Represents.faithful_iff (represents : Represents db index) :
    Faithful prim db <-> index.Faithful (Block.hash prim) := by
  refine forall_congr' fun hash => forall_congr' fun block => ?_
  rw [represents.getBlockByHash, answer_eq_value_iff]

theorem Represents.keepsHash_iff (represents : Represents db index) (step : StorageCall) :
    KeepsHash prim db step <-> index.KeepsName blockHeight (Block.hash prim) step.change := by
  have stored : forall block : Block, (forall old, StateStorage.getBlockByHeight db block.header.height = .value old ->
      old.hash prim = block.hash prim) <-> index.KeepsName blockHeight (Block.hash prim) (.store block) := by
    intro block
    refine forall_congr' fun old => ?_
    rw [represents.getBlockByHeight, answer_eq_value_iff]
    rfl
  cases step with
  | storeBlock block =>
      constructor
      · exact fun keeps => (stored block).mp (keeps block rfl)
      · intro keeps other same
        rw [← Option.some.inj same]
        exact (stored block).mpr keeps
  | storeBlockWithReceipts block receipts =>
      constructor
      · exact fun keeps => (stored block).mp (keeps block rfl)
      · intro keeps other same
        rw [← Option.some.inj same]
        exact (stored block).mpr keeps
  | storeAccount account => exact iff_of_true nofun trivial
  | storeAccountsBatch accounts => exact iff_of_true nofun trivial
  | deleteAccount address => exact iff_of_true nofun trivial
  | storeTransactionReceipt receipt => exact iff_of_true nofun trivial
  | deleteTransactionReceipt txHash => exact iff_of_true nofun trivial
  | deleteBlock height => exact iff_of_true nofun trivial
  | storeMetadata key value => exact iff_of_true nofun trivial

/-! ## The calls -/

theorem Represents.storeBlock (prim : Primitives) (represents : Represents db index) {block : Block}
    (encodable : Encodable block) :
    Represents (StateStorage.storeBlock prim db block) (index.store blockHeight (Block.hash prim) block) where
  blocks := (represents.blocks.put littleEndian64_injective block.header.height block).put_other (by decide)
    (block.hash prim).serialize (littleEndian64 block.header.height)
  hashes := (represents.hashes.put_other (by decide) (littleEndian64 block.header.height) block.serialize).put
    serialize_injective (block.hash prim) block.header.height
  encodable := by
    intro height stored found
    rw [Index.records_store] at found
    split at found
    · rw [← Option.some.inj found]
      exact encodable
    · exact represents.encodable height stored found

/-- Writes to other families leave the index alone. -/
theorem Represents.others (represents : Represents db index) {operations : List Operation}
    (different : forall operation, operation ∈ operations ->
      operation.target.1 ≠ .blocks ∧ operation.target.1 ≠ .blockHashes) :
    Represents (db.writeBatch operations) index where
  blocks := represents.blocks.others fun operation member => (different operation member).1
  hashes := represents.hashes.others fun operation member => (different operation member).2
  encodable := represents.encodable

theorem Represents.put_other (represents : Represents db index) {cf : ColumnFamily} (notBlocks : cf ≠ .blocks)
    (notHashes : cf ≠ .blockHashes) (key value : List UInt8) : Represents (db.put cf key value) index where
  blocks := represents.blocks.put_other notBlocks key value
  hashes := represents.hashes.put_other notHashes key value
  encodable := represents.encodable

theorem Represents.del_other (represents : Represents db index) {cf : ColumnFamily} (notBlocks : cf ≠ .blocks)
    (notHashes : cf ≠ .blockHashes) (key : List UInt8) : Represents (db.del cf key) index where
  blocks := represents.blocks.del_other notBlocks key
  hashes := represents.hashes.del_other notHashes key
  encodable := represents.encodable

theorem Represents.deleteBlock (prim : Primitives) (represents : Represents db index) (height : UInt64) :
    Represents (StateStorage.deleteBlock prim db height).2 (index.remove (Block.hash prim) height) := by
  unfold StateStorage.deleteBlock
  rw [represents.getBlockByHeight]
  cases found : index.records height with
  | none =>
      rw [Index.remove_of_none found]
      exact represents
  | some block =>
      constructor
      case blocks =>
        have erased := represents.blocks.delete littleEndian64_injective height
        have kept : Column .blocks littleEndian64 Block.serialize (Function.update index.records height none)
            ((db.execute (.delete .blocks (littleEndian64 height))).execute
              (.delete .blockHashes (block.hash prim).serialize)) := erased.other nofun
        unfold Index.remove
        rw [found]
        exact kept
      case hashes =>
        have kept : Column .blockHashes FixedBytes.serialize littleEndian64 index.places
            (db.execute (.delete .blocks (littleEndian64 height))) := represents.hashes.other nofun
        unfold Index.remove
        rw [found]
        exact kept.delete serialize_injective (block.hash prim)
      case encodable =>
        intro other stored there
        rw [Index.records_remove found] at there
        split at there
        · cases there
        · exact represents.encodable other stored there

/-- The step lemma: a call of the store is a change of the index. -/
theorem Represents.call (prim : Primitives) (represents : Represents db index) (step : StorageCall)
    (encodable : forall block, step.block = some block -> Encodable block) :
    Represents (db.call prim step) (index.change blockHeight (Block.hash prim) step.change) := by
  cases step with
  | storeBlock block => exact represents.storeBlock prim (encodable block rfl)
  | storeBlockWithReceipts block receipts =>
      change Represents (StateStorage.storeBlockWithReceipts prim db block receipts) _
      rw [storeBlockWithReceipts_eq]
      refine (represents.storeBlock prim (encodable block rfl)).others ?_
      intro operation member
      rcases List.mem_map.mp member with ⟨receipt, _, rfl⟩
      exact ⟨nofun, nofun⟩
  | deleteBlock height => exact represents.deleteBlock prim height
  | storeAccountsBatch accounts =>
      refine represents.others ?_
      intro operation member
      rcases List.mem_map.mp member with ⟨account, _, rfl⟩
      exact ⟨nofun, nofun⟩
  | storeAccount account => exact represents.put_other (by decide) (by decide) _ _
  | deleteAccount address => exact represents.del_other (by decide) (by decide) _
  | storeTransactionReceipt receipt => exact represents.put_other (by decide) (by decide) _ _
  | deleteTransactionReceipt txHash => exact represents.del_other (by decide) (by decide) _
  | storeMetadata key value => exact represents.put_other (by decide) (by decide) _ _

theorem represents_empty : Represents Database.empty (Index.empty : Index UInt64 Blake3Hash Block) :=
  ⟨column_empty, column_empty, nofun⟩

/-- The records of the index are the last stored blocks. -/
theorem records_change (index : Index UInt64 Blake3Hash Block) (step : StorageCall) (height : UInt64) :
    (index.change blockHeight (Block.hash prim) step.change).records height =
      step.lastAt height (index.records height) := by
  have removed : forall deleted : UInt64, (index.remove (Block.hash prim) deleted).records height =
      if height = deleted then none else index.records height := by
    intro deleted
    cases found : index.records deleted with
    | some block => exact Index.records_remove found
    | none =>
        rw [Index.remove_of_none found]
        split
        · rename_i same
          rw [same, found]
        · rfl
  cases step with
  | storeBlock block => exact Index.records_store
  | storeBlockWithReceipts block receipts => exact Index.records_store
  | deleteBlock deleted => exact removed deleted
  | storeAccount account => rfl
  | storeAccountsBatch accounts => rfl
  | deleteAccount address => rfl
  | storeTransactionReceipt receipt => rfl
  | deleteTransactionReceipt txHash => rfl
  | storeMetadata key value => rfl

theorem records_run (index : Index UInt64 Blake3Hash Block) (calls : List StorageCall) (height : UInt64) :
    (run (Index.change blockHeight (Block.hash prim)) index (calls.map StorageCall.change)).records height =
      calls.foldl (fun last step => step.lastAt height last) (index.records height) := by
  induction calls generalizing index with
  | nil => rfl
  | cons step rest inductionHypothesis =>
      refine (inductionHypothesis _).trans ?_
      rw [records_change]
      rfl

/-- The blocks that a history stores. -/
def storedBlocks (calls : List StorageCall) : Set Block := { block | ∃ step, step ∈ calls ∧ step.block = some block }

theorem knows_change {calls : List StorageCall} {step : StorageCall} (member : step ∈ calls) :
    step.change.Knows (storedBlocks calls) := by
  cases step with
  | storeBlock block => exact ⟨_, member, rfl⟩
  | storeBlockWithReceipts block receipts => exact ⟨_, member, rfl⟩
  | storeAccount account => exact trivial
  | storeAccountsBatch accounts => exact trivial
  | deleteAccount address => exact trivial
  | storeTransactionReceipt receipt => exact trivial
  | deleteTransactionReceipt txHash => exact trivial
  | deleteBlock height => exact trivial
  | storeMetadata key value => exact trivial

/-- The index stays indexed over a run. -/
theorem indexed_run {known : Set Block} (names : Index.NamesSlots blockHeight (Block.hash prim) known)
    {changes : List (Index.Change UInt64 Block)} (knows : forall made, made ∈ changes -> made.Knows known)
    {index : Index UInt64 Blake3Hash Block} (indexed : index.Indexed blockHeight (Block.hash prim) known) :
    (run (Index.change blockHeight (Block.hash prim)) index changes).Indexed blockHeight (Block.hash prim) known :=
  invariant_run _ (fun _ _ holds knows => holds.change names knows) indexed (along_of_forall index knows)

/-- Over every history of the store, no two distinct headers hashing alike: every lookup
by hash answers with a block of that hash, after every call, if and only if no call
stores a block at a height where a block of another hash is stored.  In any case the block
of the last store at a height is found under its hash until it is deleted. -/
theorem getBlockByHash_faithful_iff (prim : Primitives) (calls : List StorageCall)
    (encodable : forall block, block ∈ storedBlocks calls -> Encodable block)
    (distinct : forall first, first ∈ storedBlocks calls -> forall second, second ∈ storedBlocks calls ->
      first.hash prim = second.hash prim -> first.header = second.header) :
    (Along (Database.call prim) (fun db step => Faithful prim (db.call prim step)) Database.empty calls <->
        Along (Database.call prim) (KeepsHash prim) Database.empty calls) ∧
      forall height block, lastStored height calls = some block ->
        getBlockByHash (run (Database.call prim) Database.empty calls) (block.hash prim) = .value block := by
  have names : Index.NamesSlots blockHeight (Block.hash prim) (storedBlocks calls) :=
    fun first firstStored second secondStored same =>
      congrArg BlockHeader.height (distinct first firstStored second secondStored same)
  have valid : forall step, step ∈ calls -> forall block, step.block = some block -> Encodable block :=
    fun step member block stored => encodable block ⟨step, member, stored⟩
  have preserved : forall (db : Database) (index : Index UInt64 Blake3Hash Block) (step : StorageCall),
      Represents db index -> (forall block, step.block = some block -> Encodable block) ->
        Represents (db.call prim step) (index.change blockHeight (Block.hash prim) step.change) :=
    fun _ _ step represents encodable => represents.call prim step encodable
  have knows : forall made, made ∈ calls.map StorageCall.change -> made.Knows (storedBlocks calls) := by
    intro made member
    rcases List.mem_map.mp member with ⟨step, listed, rfl⟩
    exact knows_change listed
  constructor
  · have abstract := Index.along_faithful_iff names knows Index.indexed_empty Index.namesKept_empty
    have faithful :
        Along (Database.call prim) (fun db step => Faithful prim (db.call prim step)) Database.empty calls <->
        Along (Index.change blockHeight (Block.hash prim))
          (fun index made => (index.change blockHeight (Block.hash prim) made).Faithful (Block.hash prim))
          Index.empty (calls.map StorageCall.change) := by
      refine along_iff_of_related preserved ?_ represents_empty valid
      intro db index step represents encodable
      exact (represents.call prim step encodable).faithful_iff
    have keeps : Along (Database.call prim) (KeepsHash prim) Database.empty calls <->
        Along (Index.change blockHeight (Block.hash prim)) (Index.KeepsName blockHeight (Block.hash prim))
          Index.empty (calls.map StorageCall.change) := by
      refine along_iff_of_related preserved ?_ represents_empty valid
      intro db index step represents _
      exact represents.keepsHash_iff step
    exact faithful.trans (abstract.trans keeps.symm)
  · intro height block last
    have represents := related_run preserved represents_empty valid
    have indexed := indexed_run names knows Index.indexed_empty
    have stored : (run (Index.change blockHeight (Block.hash prim)) Index.empty
        (calls.map StorageCall.change)).records height = some block :=
      (records_run Index.empty calls height).trans last
    rw [represents.getBlockByHash, indexed.lookup stored]
    rfl

/-- A block at height 5. -/
def blockAtFive (timestamp : UInt64) : Block :=
  ⟨⟨5, timestamp, Blake3Hash.zero, Blake3Hash.zero, Blake3Hash.zero, Blake3Hash.zero, FixedBytes.zero 32, 0⟩, [],
    QuorumCertificate.empty⟩

/-- A history with a deletion between the two stores. -/
def replacedCalls : List StorageCall := [.storeBlock (blockAtFive 1), .deleteBlock 5, .storeBlock (blockAtFive 2)]

theorem mem_storedBlocks_replacedCalls {block : Block} (stored : block ∈ storedBlocks replacedCalls) :
    block = blockAtFive 1 ∨ block = blockAtFive 2 := by
  rcases stored with ⟨step, member, found⟩
  simp only [replacedCalls, List.mem_cons, List.not_mem_nil, or_false] at member
  rcases member with rfl | rfl | rfl
  · exact Or.inl (Option.some.inj found).symm
  · cases found
  · exact Or.inr (Option.some.inj found).symm

theorem getBlockByHash_faithful_iff_replaced :
    getBlockByHash (run (Database.call Transparent.primitives) Database.empty replacedCalls)
      ((blockAtFive 2).hash Transparent.primitives) = .value (blockAtFive 2) := by
  refine (getBlockByHash_faithful_iff Transparent.primitives replacedCalls ?_ ?_).2 5 (blockAtFive 2)
    (by decide +kernel)
  · intro block stored
    unfold Encodable
    rcases mem_storedBlocks_replacedCalls stored with rfl | rfl
    · decide +kernel
    · decide +kernel
  · intro first firstStored second secondStored
    rcases mem_storedBlocks_replacedCalls firstStored with rfl | rfl
    · rcases mem_storedBlocks_replacedCalls secondStored with rfl | rfl
      · exact fun _ => rfl
      · decide +kernel
    · rcases mem_storedBlocks_replacedCalls secondStored with rfl | rfl
      · decide +kernel
      · exact fun _ => rfl

/-- After a second store at the same height the hash of the first block leads to the
second block, whose hash is another one. -/
theorem getBlockByHash_other_block :
    let db := run (Database.call Transparent.primitives) Database.empty
      [.storeBlock (blockAtFive 1), .storeBlock (blockAtFive 2)]
    getBlockByHash db ((blockAtFive 1).hash Transparent.primitives) = .value (blockAtFive 2) ∧
      (blockAtFive 2).hash Transparent.primitives ≠ (blockAtFive 1).hash Transparent.primitives := by
  decide +kernel

end Storage
end Sarafu

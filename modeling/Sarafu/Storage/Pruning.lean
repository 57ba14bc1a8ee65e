import Sarafu.Library.Histories
import Sarafu.Library.Repairs
import Sarafu.Storage.StatePersistence

namespace Sarafu
namespace Storage

open Crypto State Consensus Library.Decoding Library.Runs Library.NamedSlots StateStorage StatePersistence

/-!
# What pruning keeps

A history stores blocks with their receipts and prunes in between.  A block is lost exactly
when a call of pruning reaches its height after it was stored, which only a call for a
greater height than the last one can do to a block of the last window.  A receipt is lost
exactly when a call takes away a block that holds its transaction, at whatever height.
-/

variable {prim : Primitives} {db : Database} {maps : BlockMaps}

/-- The columns of the store hold the maps. -/
structure Holds (db : Database) (maps : BlockMaps) : Prop where
  index : ∃ index : Index UInt64 Blake3Hash Block, Represents db index ∧ index.records = maps.blocks
  receipts : Column .transactions FixedBytes.serialize TransactionReceipt.serialize maps.receipts db

namespace Holds

theorem getBlockByHeight (holds : Holds db maps) (height : UInt64) :
    StateStorage.getBlockByHeight db height = answer (maps.blocks height) := by
  rcases holds.index with ⟨index, represents, same⟩
  rw [← same]
  exact represents.getBlockByHeight height

theorem blockExists (holds : Holds db maps) (height : UInt64) :
    StateStorage.blockExists db height = (maps.blocks height).isSome := by
  rcases holds.index with ⟨index, represents, same⟩
  rw [← same]
  exact exists_of_column represents.blocks height

theorem receiptExists (holds : Holds db maps) (txHash : Blake3Hash) :
    StateStorage.receiptExists db txHash = (maps.receipts txHash).isSome := exists_of_column holds.receipts txHash

/-- A stored receipt is read back if its message fits. -/
theorem getTransactionReceipt_iff (holds : Holds db maps) {txHash : Blake3Hash} {receipt : TransactionReceipt}
    (stored : maps.receipts txHash = some receipt) (vector : receipt.serialize.length < 2 ^ 64) :
    getTransactionReceipt db txHash = .value receipt <-> ShortMessage receipt := by
  unfold ShortMessage
  rw [← receipt.deserialize_serialize_iff vector]
  unfold getTransactionReceipt
  rw [Database.get_eq, holds.receipts txHash, stored]
  change (TransactionReceipt.deserialize receipt.serialize).mapError _ = .value receipt <-> _
  cases TransactionReceipt.deserialize receipt.serialize with
  | value decoded =>
      constructor
      · exact fun same => congrArg _ (Outcome.value.inj same)
      · exact fun same => congrArg _ (Outcome.value.inj same)
  | throws error => exact iff_of_false nofun nofun
  | outside => exact iff_of_false nofun nofun

theorem storeBlockWithReceipts (prim : Primitives) (holds : Holds db maps) {block : Block} (encodable : Encodable block)
    (receipts : List TransactionReceipt) :
    Holds (StateStorage.storeBlockWithReceipts prim db block receipts) (maps.store block receipts) where
  index := by
    rcases holds.index with ⟨index, represents, same⟩
    have stored := represents.call prim (.storeBlockWithReceipts block receipts) fun other found => by
      rw [← Option.some.inj found]
      exact encodable
    refine ⟨_, stored, ?_⟩
    rw [BlockMaps.store, ← same]
    rfl
  receipts := receipts_storeBlockWithReceipts prim holds.receipts block receipts

theorem deleteTransactionReceipt (holds : Holds db maps) (txHash : Blake3Hash) :
    Holds (StateStorage.deleteTransactionReceipt db txHash)
      { maps with receipts := Function.update maps.receipts txHash none } where
  index := by
    rcases holds.index with ⟨index, represents, same⟩
    exact ⟨index, represents.del_other (by decide) (by decide) txHash.serialize, same⟩
  receipts := (holds.receipts.delete serialize_injective txHash).of_del

/-- The receipts of a block are gone, the others are there. -/
theorem deleteReceipts (prim : Primitives) (holds : Holds db maps) (block : Block) :
    Holds (StatePersistence.deleteReceipts prim db block)
      { maps with receipts := fun txHash =>
          if txHash ∈ block.transactions.map (Transaction.hash prim) then none else maps.receipts txHash } := by
  unfold StatePersistence.deleteReceipts
  induction block.transactions generalizing db maps with
  | nil => exact holds
  | cons tx rest inductionHypothesis =>
      have next := inductionHypothesis (holds.deleteTransactionReceipt (tx.hash prim))
      have same : (fun txHash => if txHash ∈ rest.map (Transaction.hash prim) then none
          else Function.update maps.receipts (tx.hash prim) none txHash) = fun txHash =>
            if txHash ∈ (tx :: rest).map (Transaction.hash prim) then none else maps.receipts txHash := by
        funext txHash
        rw [Function.update_apply, List.map_cons]
        by_cases first : txHash = tx.hash prim
        · rw [if_pos first, ite_self, if_pos]
          rw [first]
          exact List.mem_cons_self
        · rw [if_neg first]
          refine if_congr ?_ rfl rfl
          rw [List.mem_cons]
          exact (or_iff_right first).symm
      rw [same] at next
      exact next

theorem deleteBlock (prim : Primitives) (holds : Holds db maps) {height : UInt64} {block : Block}
    (found : maps.blocks height = some block) :
    ∃ after, StateStorage.deleteBlock prim db height = (.value (), after) ∧
      Holds after { maps with blocks := Function.update maps.blocks height none } := by
  have read : StateStorage.getBlockByHeight db height = .value block := by
    rw [holds.getBlockByHeight, found]
    rfl
  have deleted : StateStorage.deleteBlock prim db height =
      (.value (), db.writeBatch (deletionOperations prim height block)) := by
    unfold StateStorage.deleteBlock
    rw [read]
  refine ⟨_, deleted, ?_⟩
  constructor
  case index =>
    rcases holds.index with ⟨index, represents, same⟩
    have removed := represents.deleteBlock prim height
    rw [deleted] at removed
    refine ⟨_, removed, ?_⟩
    funext other
    rw [← same] at found
    rw [Index.records_remove found, same]
    exact (Function.update_apply maps.blocks height none other).symm
  case receipts => exact holds.receipts.others fun _ member => (deletionOperations_target member).2

/-- The step lemma of the loop. -/
theorem pruneBlock (prim : Primitives) (holds : Holds db maps) (height : UInt64) :
    ∃ after, StatePersistence.pruneBlock prim db height = (.value (maps.blocks height).isSome, after) ∧
      Holds after (maps.clear prim height.toNat (height.toNat + 1)) := by
  unfold StatePersistence.pruneBlock
  rw [holds.blockExists, holds.getBlockByHeight]
  cases found : maps.blocks height with
  | none =>
      refine ⟨db, rfl, ?_⟩
      rw [BlockMaps.clear_none found]
      exact holds
  | some block =>
      rcases (holds.deleteReceipts prim block).deleteBlock prim found with ⟨after, deleted, held⟩
      refine ⟨after, ?_, ?_⟩
      · simp only [Option.isSome_some, if_true, answer, Option.elim_some, deleted]
      · rw [BlockMaps.clear_one found]
        exact held

/-- The run lemma of the loop. -/
theorem pruneBlocks (prim : Primitives) (holds : Holds db maps) (remaining : Nat) (height : UInt64)
    (inside : height.toNat + remaining < 2 ^ 64) (blocksPruned : UInt64) :
    ∃ total after, StatePersistence.pruneBlocks prim remaining height blocksPruned db = (.value total, after) ∧
      Holds after (maps.clear prim height.toNat (height.toNat + remaining)) := by
  induction remaining generalizing height blocksPruned db maps with
  | zero =>
      refine ⟨blocksPruned, db, rfl, ?_⟩
      rw [Nat.add_zero, BlockMaps.clear_of_le (Nat.le_refl _)]
      exact holds
  | succ remaining inductionHypothesis =>
      rcases holds.pruneBlock prim height with ⟨middle, step, held⟩
      have next : (height + 1).toNat = height.toNat + 1 := by
        rw [UInt64.toNat_add]
        exact Nat.mod_eq_of_lt (by change height.toNat + 1 < 2 ^ 64; omega)
      rcases inductionHypothesis held (height + 1) (by omega)
        (if (maps.blocks height).isSome then blocksPruned + 1 else blocksPruned) with ⟨total, after, ends, left⟩
      refine ⟨total, after, ?_, ?_⟩
      · unfold StatePersistence.pruneBlocks
        rw [step]
        exact ends
      · rw [next, BlockMaps.clear_clear (Nat.le_succ _) (Nat.le_add_right _ _), Nat.succ_add] at left
        exact left

theorem storeMetadata (holds : Holds db maps) (key value : List UInt8) :
    Holds (StateStorage.storeMetadata db key value) maps where
  index := by
    rcases holds.index with ⟨index, represents, same⟩
    exact ⟨index, represents.put_other (by decide) (by decide) key value, same⟩
  receipts := holds.receipts.put_other (by decide) key value

/-- A call of pruning clears the heights from the marker up to the window. -/
theorem pruneOldState (prim : Primitives) (holds : Holds db maps) (currentHeight : UInt64) :
    Holds (StatePersistence.pruneOldState prim db currentHeight).2
      (maps.clear prim (lastPrunedHeight db).toNat (currentHeight.toNat - weakSubjectivityPeriod.toNat)) := by
  unfold StatePersistence.pruneOldState
  by_cases recent : currentHeight ≤ weakSubjectivityPeriod
  · rw [if_pos recent, BlockMaps.clear_of_le]
    · exact holds
    · rw [UInt64.le_iff_toNat_le] at recent
      omega
  · have start : (currentHeight - weakSubjectivityPeriod).toNat =
        currentHeight.toNat - weakSubjectivityPeriod.toNat :=
      UInt64.toNat_sub_of_le _ _ (by grind)
    have bound := (currentHeight - weakSubjectivityPeriod).toNat_lt
    rw [if_neg recent]
    dsimp only
    rw [start] at bound ⊢
    have marker := (lastPrunedHeight db).toNat_lt
    rcases holds.pruneBlocks prim (currentHeight.toNat - weakSubjectivityPeriod.toNat - (lastPrunedHeight db).toNat)
      (lastPrunedHeight db) (by omega) 0 with ⟨total, after, ends, held⟩
    rw [ends]
    refine Holds.storeMetadata ?_ _ _
    rcases Nat.le_total (lastPrunedHeight db).toNat (currentHeight.toNat - weakSubjectivityPeriod.toNat) with
      lower | upper
    · rw [Nat.add_sub_cancel' lower] at held
      exact held
    · rw [BlockMaps.clear_of_le (by omega)] at held
      rw [BlockMaps.clear_of_le upper]
      exact held

theorem empty : Holds Database.empty BlockMaps.empty := ⟨⟨Index.empty, represents_empty, rfl⟩, column_empty⟩

end Holds

/-! ## Histories -/

/-- A block with one receipt for each of its transactions, in any order. -/
structure ReceiptedBlock (prim : Primitives) where
  block : Block
  receipts : List TransactionReceipt
  encodable : Encodable block
  vectors : forall receipt, receipt ∈ receipts -> receipt.serialize.length < 2 ^ 64
  matching : (receipts.map TransactionReceipt.txHash).Perm (block.transactions.map (Transaction.hash prim))

inductive PruningCall (prim : Primitives)
  | storeBlockWithReceipts (stored : ReceiptedBlock prim)
  | pruneOldState (currentHeight : UInt64)

/-- The store after a call. -/
def Database.perform (db : Database) : PruningCall prim -> Database
  | .storeBlockWithReceipts stored => storeBlockWithReceipts prim db stored.block stored.receipts
  | .pruneOldState currentHeight => (pruneOldState prim db currentHeight).2

/-- What was stored last at each height and under each hash, whatever was pruned. -/
def BlockMaps.archive (maps : BlockMaps) : PruningCall prim -> BlockMaps
  | .storeBlockWithReceipts stored => maps.store stored.block stored.receipts
  | .pruneOldState _ => maps

/-- A call of pruning for this height of the chain comes past a height. -/
def Prunes (db : Database) (currentHeight height : UInt64) : Prop :=
  (lastPrunedHeight db).toNat ≤ height.toNat ∧
    height.toNat + weakSubjectivityPeriod.toNat < currentHeight.toNat

/-- A call takes away what is stored at a height. -/
def Reaches (height : UInt64) (db : Database) : PruningCall prim -> Prop
  | .storeBlockWithReceipts _ => False
  | .pruneOldState currentHeight => Prunes db currentHeight height

/-- A call takes away a block with a transaction of that hash. -/
def Drops (txHash : Blake3Hash) (db : Database) : PruningCall prim -> Prop
  | .storeBlockWithReceipts _ => False
  | .pruneOldState currentHeight => ∃ height block, Prunes db currentHeight height ∧
      getBlockByHeight db height = .value block ∧ txHash ∈ block.transactions.map (Transaction.hash prim)

/-- A call stores a block at a height. -/
def PruningCall.StoresAt (height : UInt64) : PruningCall prim -> Prop
  | .storeBlockWithReceipts stored => stored.block.header.height = height
  | .pruneOldState _ => False

/-- A call stores a block with a transaction of that hash. -/
def PruningCall.StoresFor (txHash : Blake3Hash) : PruningCall prim -> Prop
  | .storeBlockWithReceipts stored => txHash ∈ stored.block.transactions.map (Transaction.hash prim)
  | .pruneOldState _ => False

/-- A call of pruning has come past a height since the last store there. -/
def ReachedSinceStore (height : UInt64) (calls : List (PruningCall prim)) : Prop :=
  Unrepaired Database.perform (Reaches height) (PruningCall.StoresAt height) Database.empty calls

/-- A call of pruning has taken a block with a transaction since the last store of one. -/
def DroppedSinceStore (txHash : Blake3Hash) (calls : List (PruningCall prim)) : Prop :=
  Unrepaired Database.perform (Drops txHash) (PruningCall.StoresFor txHash) Database.empty calls

theorem Holds.perform (holds : Holds db maps) (call : PruningCall prim) : ∃ after, Holds (db.perform call) after := by
  cases call with
  | storeBlockWithReceipts stored => exact ⟨_, holds.storeBlockWithReceipts prim stored.encodable stored.receipts⟩
  | pruneOldState currentHeight => exact ⟨_, holds.pruneOldState prim currentHeight⟩

theorem inside_iff_prunes {currentHeight height : UInt64} :
    ((lastPrunedHeight db).toNat ≤ height.toNat ∧
        height.toNat < currentHeight.toNat - weakSubjectivityPeriod.toNat) <-> Prunes db currentHeight height := by
  unfold Prunes
  omega

theorem Holds.includes_iff (holds : Holds db maps) {currentHeight : UInt64} {txHash : Blake3Hash} :
    maps.Includes prim (lastPrunedHeight db).toNat (currentHeight.toNat - weakSubjectivityPeriod.toNat) txHash <->
      Drops txHash db (.pruneOldState currentHeight : PruningCall prim) := by
  refine exists_congr fun height => exists_congr fun block => ?_
  rw [← and_assoc, inside_iff_prunes, holds.getBlockByHeight, answer_eq_value_iff]

/-- What decides whether a block is there. -/
theorem decides_block (height : UInt64) :
    Decides (Database.perform : Database -> PruningCall prim -> Database) (fun db => ∃ maps, Holds db maps)
      (fun db => blockExists db height = true) (Reaches height) (PruningCall.StoresAt height) where
  preserved := by
    rintro db call ⟨maps, holds⟩
    exact holds.perform call
  repaired := by
    rintro db call ⟨maps, holds⟩ stores
    cases call with
    | storeBlockWithReceipts stored =>
        have after := holds.storeBlockWithReceipts prim stored.encodable stored.receipts
        refine (after.blockExists height).trans ?_
        rw [BlockMaps.blocks_store, if_pos (Eq.symm stores)]
        rfl
    | pruneOldState currentHeight => exact stores.elim
  broken := by
    rintro db call ⟨maps, holds⟩ reaches
    cases call with
    | storeBlockWithReceipts stored => exact reaches.elim
    | pruneOldState currentHeight =>
        have after := (holds.pruneOldState prim currentHeight).blockExists height
        rw [BlockMaps.blocks_clear_of_inside (inside_iff_prunes.mpr reaches)] at after
        exact Bool.eq_false_iff.mp after
  kept := by
    rintro db call ⟨maps, holds⟩ other free
    rw [holds.blockExists]
    cases call with
    | storeBlockWithReceipts stored =>
        have after := (holds.storeBlockWithReceipts prim stored.encodable stored.receipts).blockExists height
        rw [BlockMaps.blocks_store, if_neg (Ne.symm other)] at after
        exact Eq.congr_left after
    | pruneOldState currentHeight =>
        have after := (holds.pruneOldState prim currentHeight).blockExists height
        rw [BlockMaps.blocks_clear_of_outside (fun inside => free (inside_iff_prunes.mp inside))] at after
        exact Eq.congr_left after

theorem ReceiptedBlock.lastReceipt_isSome_iff (stored : ReceiptedBlock prim) {txHash : Blake3Hash} :
    (BlockMaps.lastReceipt txHash stored.receipts).isSome <->
      txHash ∈ stored.block.transactions.map (Transaction.hash prim) := by
  rw [← stored.matching.mem_iff, Option.isSome_iff_ne_none, Ne, BlockMaps.lastReceipt_eq_none_iff, not_not]

/-- What decides whether a receipt is there. -/
theorem decides_receipt (txHash : Blake3Hash) :
    Decides (Database.perform : Database -> PruningCall prim -> Database) (fun db => ∃ maps, Holds db maps)
      (fun db => receiptExists db txHash = true) (Drops txHash) (PruningCall.StoresFor txHash) where
  preserved := by
    rintro db call ⟨maps, holds⟩
    exact holds.perform call
  repaired := by
    rintro db call ⟨maps, holds⟩ stores
    cases call with
    | storeBlockWithReceipts stored =>
        have after := holds.storeBlockWithReceipts prim stored.encodable stored.receipts
        refine (after.receiptExists txHash).trans ?_
        rw [BlockMaps.receipts_store, Option.isSome_or, stored.lastReceipt_isSome_iff.mpr stores, Bool.true_or]
    | pruneOldState currentHeight => exact stores.elim
  broken := by
    rintro db call ⟨maps, holds⟩ drops
    cases call with
    | storeBlockWithReceipts stored => exact drops.elim
    | pruneOldState currentHeight =>
        have after := (holds.pruneOldState prim currentHeight).receiptExists txHash
        rw [BlockMaps.receipts_clear_of_included (holds.includes_iff.mpr drops)] at after
        exact Bool.eq_false_iff.mp after
  kept := by
    rintro db call ⟨maps, holds⟩ other free
    rw [holds.receiptExists]
    cases call with
    | storeBlockWithReceipts stored =>
        have after := (holds.storeBlockWithReceipts prim stored.encodable stored.receipts).receiptExists txHash
        have absent : BlockMaps.lastReceipt txHash stored.receipts = none := by
          rw [← Option.not_isSome_iff_eq_none, stored.lastReceipt_isSome_iff]
          exact other
        rw [BlockMaps.receipts_store, absent, Option.none_or] at after
        exact Eq.congr_left after
    | pruneOldState currentHeight =>
        have after := (holds.pruneOldState prim currentHeight).receiptExists txHash
        rw [BlockMaps.receipts_clear_of_not_included (fun included => free (holds.includes_iff.mp included))] at after
        exact Eq.congr_left after

/-! ## The archive -/

/-- Nothing is held that is not in the archive, whose receipts are vectors. -/
structure Archived (maps archive : BlockMaps) : Prop where
  blocks : forall height block, maps.blocks height = some block -> archive.blocks height = some block
  receipts : forall txHash receipt, maps.receipts txHash = some receipt -> archive.receipts txHash = some receipt
  vectors : forall txHash receipt, archive.receipts txHash = some receipt -> receipt.serialize.length < 2 ^ 64

theorem Archived.clear {archive : BlockMaps} (archived : Archived maps archive) (first stop : Nat) :
    Archived (maps.clear prim first stop) archive where
  blocks := by
    intro height block found
    by_cases inside : first ≤ height.toNat ∧ height.toNat < stop
    · rw [BlockMaps.blocks_clear_of_inside inside] at found
      cases found
    · rw [BlockMaps.blocks_clear_of_outside inside] at found
      exact archived.blocks height block found
  receipts := by
    intro txHash receipt found
    by_cases included : maps.Includes prim first stop txHash
    · rw [BlockMaps.receipts_clear_of_included included] at found
      cases found
    · rw [BlockMaps.receipts_clear_of_not_included included] at found
      exact archived.receipts txHash receipt found
  vectors := archived.vectors

theorem Archived.store {archive : BlockMaps} (archived : Archived maps archive) (block : Block)
    {receipts : List TransactionReceipt}
    (vectors : forall receipt, receipt ∈ receipts -> receipt.serialize.length < 2 ^ 64) :
    Archived (maps.store block receipts) (archive.store block receipts) where
  blocks := by
    intro height other found
    rw [BlockMaps.blocks_store] at found ⊢
    split at found
    · rename_i here
      rw [if_pos here]
      exact found
    · rename_i elsewhere
      rw [if_neg elsewhere]
      exact archived.blocks height other found
  receipts := by
    intro txHash receipt found
    rw [BlockMaps.receipts_store] at found ⊢
    cases last : BlockMaps.lastReceipt txHash receipts with
    | none =>
        rw [last, Option.none_or] at found
        rw [Option.none_or]
        exact archived.receipts txHash receipt found
    | some other =>
        rw [last, Option.some_or] at found
        rw [Option.some_or]
        exact found
  vectors := by
    intro txHash receipt found
    rw [BlockMaps.receipts_store] at found
    rcases Option.or_eq_some_iff.mp found with last | ⟨_, before⟩
    · exact vectors receipt (BlockMaps.mem_of_lastReceipt last)
    · exact archived.vectors txHash receipt before

/-- The store and the archive of a history. -/
theorem exists_archived (history : List (PruningCall prim)) :
    ∃ maps, Holds (run Database.perform Database.empty history) maps ∧
      Archived maps (run BlockMaps.archive BlockMaps.empty history) := by
  have preserved : forall (db : Database) (archive : BlockMaps) (call : PruningCall prim),
      (∃ maps, Holds db maps ∧ Archived maps archive) -> True ->
        ∃ maps, Holds (db.perform call) maps ∧ Archived maps (archive.archive call) := by
    rintro db archive call ⟨maps, holds, archived⟩ _
    cases call with
    | storeBlockWithReceipts stored =>
        exact ⟨_, holds.storeBlockWithReceipts prim stored.encodable stored.receipts,
          archived.store stored.block stored.vectors⟩
    | pruneOldState currentHeight => exact ⟨_, holds.pruneOldState prim currentHeight, archived.clear _ _⟩
  have started : Archived BlockMaps.empty BlockMaps.empty := ⟨nofun, nofun, nofun⟩
  have reached : ∃ maps, Holds (run Database.perform Database.empty history) maps ∧
      Archived maps (run BlockMaps.archive BlockMaps.empty (history.map id)) :=
    related_run preserved ⟨BlockMaps.empty, Holds.empty, started⟩ fun _ _ => trivial
  rw [List.map_id] at reached
  exact reached

/-- A block of the archive was stored at its height, with its receipts. -/
theorem exists_stored {history : List (PruningCall prim)} {height : UInt64} {block : Block}
    (found : (run BlockMaps.archive BlockMaps.empty history).blocks height = some block) :
    ∃ stored, PruningCall.storeBlockWithReceipts stored ∈ history ∧ stored.block = block ∧
      block.header.height = height := by
  have origin : forall (archive : BlockMaps) (call : PruningCall prim), True ->
      (archive.archive call).blocks height = some block -> archive.blocks height = some block ∨
        ∃ stored, call = .storeBlockWithReceipts stored ∧ stored.block = block ∧ block.header.height = height := by
    intro archive call _ after
    cases call with
    | storeBlockWithReceipts stored =>
        rw [BlockMaps.archive, BlockMaps.blocks_store] at after
        split at after
        · rename_i here
          have same := Option.some.inj after
          exact Or.inr ⟨stored, rfl, same, same ▸ here.symm⟩
        · exact Or.inl after
    | pruneOldState currentHeight => exact Or.inl after
  rcases happened_of_run (fun archive : BlockMaps => archive.blocks height = some block) origin
    (along_true _ history) found with empty | happened
  · cases empty
  · rcases happened.exists_mem with ⟨_, call, member, stored, rfl, same, here⟩
    exact ⟨stored, member, same, here⟩

/-! ## The window -/

/-- What was stored at the heights of the window is still there, with its receipts. -/
def KeepsWindow (prim : Primitives) (currentHeight : UInt64) (db : Database) (archive : BlockMaps) : Prop :=
  forall height block, currentHeight.toNat ≤ height.toNat + weakSubjectivityPeriod.toNat ->
    archive.blocks height = some block ->
      getBlockByHeight db height = .value block ∧
        forall tx, tx ∈ block.transactions -> ∃ receipt, archive.receipts (tx.hash prim) = some receipt ∧
          getTransactionReceipt db (tx.hash prim) = .value receipt

/-- Over every history of stores and prunings: a block of the archive is read back by its
height if and only if no call of pruning has reached the height since the last store there. -/
theorem getBlockByHeight_archived_iff {history : List (PruningCall prim)} {height : UInt64} {block : Block}
    (found : (run BlockMaps.archive BlockMaps.empty history).blocks height = some block) :
    getBlockByHeight (run Database.perform Database.empty history) height = .value block <->
      ¬ReachedSinceStore height history := by
  rcases exists_archived history with ⟨maps, holds, archived⟩
  rcases exists_stored found with ⟨stored, member, rfl, here⟩
  rw [ReachedSinceStore, ← (decides_block height).holds_run_iff ⟨_, Holds.empty⟩ (Or.inr ⟨_, member, here⟩),
    holds.blockExists, holds.getBlockByHeight, answer_eq_value_iff, Option.isSome_iff_exists]
  constructor
  · exact fun there => ⟨_, there⟩
  · rintro ⟨other, there⟩
    have same := archived.blocks height other there
    rw [found] at same
    rw [there, same]

/-- Over every history of stores and prunings: the receipt of a stored transaction is there
if and only if no call of pruning has taken a block with the transaction since the last
store of one. -/
theorem receiptExists_iff {history : List (PruningCall prim)} {stored : ReceiptedBlock prim}
    (member : PruningCall.storeBlockWithReceipts stored ∈ history) {tx : Transaction}
    (included : tx ∈ stored.block.transactions) :
    receiptExists (run Database.perform Database.empty history) (tx.hash prim) = true <->
      ¬DroppedSinceStore (tx.hash prim) history :=
  (decides_receipt (tx.hash prim)).holds_run_iff ⟨_, Holds.empty⟩ (Or.inr ⟨_, member, List.mem_map_of_mem included⟩)

/-- A receipt that is there is the last one stored under its hash. -/
theorem getTransactionReceipt_archived_iff {history : List (PruningCall prim)} {txHash : Blake3Hash}
    (there : receiptExists (run Database.perform Database.empty history) txHash = true) :
    ∃ receipt, (run BlockMaps.archive BlockMaps.empty history).receipts txHash = some receipt ∧
      (getTransactionReceipt (run Database.perform Database.empty history) txHash = .value receipt <->
        ShortMessage receipt) := by
  rcases exists_archived history with ⟨maps, holds, archived⟩
  rw [holds.receiptExists, Option.isSome_iff_exists] at there
  rcases there with ⟨receipt, held⟩
  have last := archived.receipts txHash receipt held
  exact ⟨receipt, last, holds.getTransactionReceipt_iff held (archived.vectors txHash receipt last)⟩

/-- The call for the window itself reaches no height of it. -/
theorem reachedSinceStore_concat_iff {calls : List (PruningCall prim)} {currentHeight height : UInt64}
    (recent : currentHeight.toNat ≤ height.toNat + weakSubjectivityPeriod.toNat) :
    ReachedSinceStore height (calls ++ [.pruneOldState currentHeight]) <-> ReachedSinceStore height calls := by
  unfold ReachedSinceStore
  rw [unrepaired_concat id]
  refine or_iff_left ?_
  rintro ⟨_, old⟩
  omega

/-- A height that a call has reached lies below the window of that call. -/
theorem exists_greater_of_reached {calls : List (PruningCall prim)} {height : UInt64}
    (reached : ReachedSinceStore height calls) : ∃ earlier : UInt64, .pruneOldState earlier ∈ calls ∧
      height.toNat + weakSubjectivityPeriod.toNat < earlier.toNat := by
  rcases unrepaired_iff_exists_split.mp reached with ⟨before, call, after, rfl, reaches, _⟩
  cases call with
  | storeBlockWithReceipts stored => exact reaches.elim
  | pruneOldState earlier => exact ⟨earlier, List.mem_append_right _ List.mem_cons_self, reaches.2⟩

/-- Over every history of stores and prunings that ends with a call of pruning, a block that
was stored last at a height of the window of this call is read back unchanged if and only
if no earlier call has reached the height since, which takes a call for a greater height of
the chain.  The receipt of each of its transactions is there if and only if no call since
the last store of the transaction has taken a block that includes it. -/
theorem pruning_keeps_window (prim : Primitives) (calls : List (PruningCall prim)) (currentHeight : UInt64) :
    let history := calls ++ [.pruneOldState currentHeight]
    let db := run Database.perform Database.empty history
    let archive := run BlockMaps.archive BlockMaps.empty history
    forall height block, currentHeight.toNat ≤ height.toNat + weakSubjectivityPeriod.toNat ->
      archive.blocks height = some block ->
        (getBlockByHeight db height = .value block <-> ¬ReachedSinceStore height calls) ∧
          (ReachedSinceStore height calls ->
            ∃ earlier : UInt64, .pruneOldState earlier ∈ calls ∧ currentHeight < earlier) ∧
          forall tx, tx ∈ block.transactions ->
            (receiptExists db (tx.hash prim) = true <-> ¬DroppedSinceStore (tx.hash prim) history) ∧
            (¬DroppedSinceStore (tx.hash prim) history ->
              ∃ receipt, archive.receipts (tx.hash prim) = some receipt ∧
                (getTransactionReceipt db (tx.hash prim) = .value receipt <-> ShortMessage receipt)) := by
  intro history db archive height block recent found
  refine ⟨?_, ?_, ?_⟩
  · rw [getBlockByHeight_archived_iff found, reachedSinceStore_concat_iff recent]
  · intro reached
    rcases exists_greater_of_reached reached with ⟨earlier, member, past⟩
    exact ⟨earlier, member, UInt64.lt_iff_toNat_lt.mpr (Nat.lt_of_le_of_lt recent past)⟩
  · intro tx included
    rcases exists_stored found with ⟨stored, member, rfl, _⟩
    have there := receiptExists_iff member included
    exact ⟨there, fun kept => getTransactionReceipt_archived_iff (there.mpr kept)⟩

/-- A block at some height. -/
def blockAt (height : UInt64) (transactions : List Transaction) : Block :=
  ⟨⟨height, 0, Blake3Hash.zero, Blake3Hash.zero, Blake3Hash.zero, Blake3Hash.zero, FixedBytes.zero 32, 0⟩, transactions,
    QuorumCertificate.empty⟩

def sampleTransaction : Transaction :=
  ⟨FixedBytes.ofNat 32 1, FixedBytes.ofNat 32 2, 10, 0, 1, 21000, 1, FixedBytes.zero 64⟩

def emptyBlock : ReceiptedBlock Transparent.primitives where
  block := blockAt 0 []
  receipts := []
  encodable := by
    unfold Encodable
    decide +kernel
  vectors := nofun
  matching := List.Perm.nil

def filledReceipt : TransactionReceipt := ⟨sampleTransaction.hash Transparent.primitives, 1, true, 21000, []⟩

def filledBlock : ReceiptedBlock Transparent.primitives where
  block := blockAt 1 [sampleTransaction]
  receipts := [filledReceipt]
  encodable := by
    unfold Encodable
    decide +kernel
  vectors := by decide +kernel
  matching := List.Perm.refl _

def filledCalls : List (PruningCall Transparent.primitives) :=
  [.storeBlockWithReceipts emptyBlock, .storeBlockWithReceipts filledBlock]

theorem not_droppedSinceStore_filledCalls :
    ¬DroppedSinceStore (sampleTransaction.hash Transparent.primitives) (filledCalls ++ [.pruneOldState 1000001]) := by
  unfold DroppedSinceStore
  rw [unrepaired_concat id]
  rintro ((⟨stores, _⟩ | ⟨stores, _⟩ | never) | ⟨height, block, ⟨_, old⟩, found, member⟩)
  · exact stores
  · exact stores
  · exact never
  · -- only the block at height zero is old enough, and it has no transactions
    have zero : height = 0 := by
      rw [← UInt64.toNat_inj]
      change height.toNat + 1000000 < 1000001 at old
      exact Nat.lt_one_iff.mp (by omega)
    have first : getBlockByHeight (run Database.perform Database.empty filledCalls) 0 = .value (blockAt 0 []) := by
      decide +kernel
    rw [zero, first] at found
    rw [← Outcome.value.inj found] at member
    cases member

theorem pruning_keeps_window_filled :
    let db := run Database.perform Database.empty (filledCalls ++ [.pruneOldState 1000001])
    getBlockByHeight db 1 = .value filledBlock.block ∧
      getTransactionReceipt db (sampleTransaction.hash Transparent.primitives) = .value filledReceipt := by
  have window := pruning_keeps_window Transparent.primitives filledCalls 1000001 1 filledBlock.block (by decide)
    (by decide +kernel)
  constructor
  · refine window.1.mpr ?_
    rintro (⟨stores, _⟩ | ⟨stores, _⟩ | never)
    · exact stores
    · exact stores
    · exact never
  · rcases (window.2.2 sampleTransaction List.mem_cons_self).2 not_droppedSinceStore_filledCalls with
      ⟨receipt, last, reads⟩
    have stored : (run BlockMaps.archive BlockMaps.empty (filledCalls ++ [.pruneOldState 1000001])).receipts
        (sampleTransaction.hash Transparent.primitives) = some filledReceipt := by decide +kernel
    rw [stored] at last
    rw [← Option.some.inj last] at reads
    exact reads.mpr (by unfold ShortMessage; decide)

/-- The same transaction in an older block. -/
def olderBlock : ReceiptedBlock Transparent.primitives where
  block := blockAt 0 [sampleTransaction]
  receipts := [filledReceipt]
  encodable := by
    unfold Encodable
    decide +kernel
  vectors := by decide +kernel
  matching := List.Perm.refl _

/-- The first call prunes a block that is in the window of the second call. -/
def loweredCalls : List (PruningCall Transparent.primitives) :=
  [.storeBlockWithReceipts filledBlock, .pruneOldState 1000002, .pruneOldState 1000001]

/-- The call prunes the older block only. -/
def repeatedCalls : List (PruningCall Transparent.primitives) :=
  [.storeBlockWithReceipts olderBlock, .storeBlockWithReceipts filledBlock, .pruneOldState 1000001]

/-- A block of the window is lost to a call for a greater height, and the receipt of a
transaction of the window to the older block that includes the transaction, too. -/
theorem pruning_reaches_window :
    ¬KeepsWindow Transparent.primitives 1000001 (run Database.perform Database.empty loweredCalls)
        (run BlockMaps.archive BlockMaps.empty loweredCalls) ∧
      ¬KeepsWindow Transparent.primitives 1000001 (run Database.perform Database.empty repeatedCalls)
        (run BlockMaps.archive BlockMaps.empty repeatedCalls) := by
  constructor
  · intro keeps
    have read := (keeps 1 filledBlock.block (by decide) (by decide +kernel)).1
    revert read
    decide +kernel
  · intro keeps
    rcases (keeps 1 filledBlock.block (by decide) (by decide +kernel)).2 sampleTransaction List.mem_cons_self with
      ⟨receipt, _, read⟩
    have lost : getTransactionReceipt (run Database.perform Database.empty repeatedCalls)
        (sampleTransaction.hash Transparent.primitives) = .throws "Key not found" := by decide +kernel
    rw [lost] at read
    cases read

end Storage
end Sarafu

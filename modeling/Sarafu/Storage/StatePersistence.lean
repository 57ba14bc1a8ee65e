import Sarafu.Storage.HashIndex

namespace Sarafu
namespace Storage

open Crypto State Consensus Library.Decoding Library.Runs Library.NamedSlots StateStorage

/-!
# Pruning old state

Pruning walks from the height where it stopped last time to the start of the window that
must be kept.  It takes away every block on the way and the receipts of its transactions.
A receipt is found by the hash of its transaction alone, whatever blocks hold it.
-/

namespace StatePersistence

def weakSubjectivityPeriod : UInt64 := 1000000

/-- The bytes of the metadata key `pruned_until_height`. -/
def prunedUntilHeightKey : List UInt8 :=
  "pruned_until_height".toList.map fun letter => UInt8.ofNat letter.toNat

/-- The marker of the last call, zero if there is none of eight bytes. -/
def lastPrunedHeight (db : Database) : UInt64 :=
  match getMetadata db prunedUntilHeightKey with
  | .value prunedBytes => if prunedBytes.length = 8 then ofLittleEndian64 prunedBytes else 0
  | .throws _ => 0
  | .outside => 0

variable (prim : Primitives)

/-- Delete the receipts of the transactions of a block. -/
def deleteReceipts (db : Database) (block : Block) : Database :=
  block.transactions.foldl (fun db tx => deleteTransactionReceipt db (tx.hash prim)) db

/-- One iteration of the loop, and whether it counts a block. -/
def pruneBlock (db : Database) (height : UInt64) : Result Bool × Database :=
  if blockExists db height then
    match getBlockByHeight db height with
    | .value block =>
        match deleteBlock prim (deleteReceipts prim db block) height with
        | (.value (), db) => (.value true, db)
        | (.throws _, db) => (.value false, db)
        | (.outside, db) => (.outside, db)
    | .throws _ => (.value false, db)
    | .outside => (.outside, db)
  else (.value false, db)

/-- The loop over the next `remaining` heights. -/
def pruneBlocks : Nat -> UInt64 -> UInt64 -> Database -> Result UInt64 × Database
  | 0, _, blocksPruned, db => (.value blocksPruned, db)
  | remaining + 1, height, blocksPruned, db =>
      match pruneBlock prim db height with
      | (.value pruned, db) =>
          pruneBlocks remaining (height + 1) (if pruned then blocksPruned + 1 else blocksPruned) db
      | (.throws error, db) => (.throws error, db)
      | (.outside, db) => (.outside, db)

/-- `prune_old_state` looks at no height if its window starts at the marker or below. -/
def pruneOldState (db : Database) (currentHeight : UInt64) : Result UInt64 × Database :=
  if currentHeight ≤ weakSubjectivityPeriod then (.value 0, db)
  else
    let pruneUntilHeight := currentHeight - weakSubjectivityPeriod
    let last := lastPrunedHeight db
    match pruneBlocks prim (pruneUntilHeight.toNat - last.toNat) last 0 db with
    | (.value blocksPruned, db) =>
        (.value blocksPruned, storeMetadata db prunedUntilHeightKey (littleEndian64 pruneUntilHeight))
    | (.throws error, db) => (.throws error, db)
    | (.outside, db) => (.outside, db)

end StatePersistence

/-! ## Blocks and receipts as maps -/

/-- The blocks by height and the receipts by hash. -/
structure BlockMaps where
  blocks : UInt64 -> Option Block
  receipts : Blake3Hash -> Option TransactionReceipt

namespace BlockMaps

def empty : BlockMaps := ⟨fun _ => none, fun _ => none⟩

def store (maps : BlockMaps) (block : Block) (receipts : List TransactionReceipt) : BlockMaps where
  blocks := Function.update maps.blocks block.header.height (some block)
  receipts := receipts.foldl StoredMaps.putReceipt maps.receipts

/-- The last receipt of a batch under a hash. -/
def lastReceipt (txHash : Blake3Hash) (receipts : List TransactionReceipt) : Option TransactionReceipt :=
  receipts.reverse.find? fun receipt => receipt.txHash = txHash

theorem lastReceipt_eq_none_iff {txHash : Blake3Hash} {receipts : List TransactionReceipt} :
    lastReceipt txHash receipts = none <-> txHash ∉ receipts.map TransactionReceipt.txHash := by
  unfold lastReceipt
  simp only [List.find?_eq_none, List.mem_reverse, decide_eq_true_eq, List.mem_map, not_exists, not_and]

theorem mem_of_lastReceipt {txHash : Blake3Hash} {receipts : List TransactionReceipt} {receipt : TransactionReceipt}
    (last : lastReceipt txHash receipts = some receipt) : receipt ∈ receipts :=
  List.mem_reverse.mp (List.mem_of_find?_eq_some last)

theorem blocks_store (maps : BlockMaps) (block : Block) (receipts : List TransactionReceipt) (height : UInt64) :
    (maps.store block receipts).blocks height =
      if height = block.header.height then some block else maps.blocks height := Function.update_apply ..

/-- Later receipts win, and the receipts of other hashes stay. -/
theorem receipts_store (maps : BlockMaps) (block : Block) (receipts : List TransactionReceipt) (txHash : Blake3Hash) :
    (maps.store block receipts).receipts txHash = (lastReceipt txHash receipts).or (maps.receipts txHash) := by
  change receipts.foldl StoredMaps.putReceipt maps.receipts txHash = _
  generalize maps.receipts = before
  induction receipts generalizing before with
  | nil => rfl
  | cons receipt rest inductionHypothesis =>
      have one : StoredMaps.putReceipt before receipt txHash =
          ([receipt].find? fun receipt => receipt.txHash = txHash).or (before txHash) := by
        rw [StoredMaps.putReceipt, Function.update_apply, List.find?_singleton]
        by_cases same : receipt.txHash = txHash
        · rw [if_pos same.symm, if_pos (decide_eq_true same), Option.some_or]
        · rw [if_neg (Ne.symm same), if_neg, Option.none_or]
          rw [decide_eq_true_eq]
          exact same
      rw [List.foldl_cons, inductionHypothesis, one, ← Option.or_assoc, lastReceipt, lastReceipt, List.reverse_cons,
        List.find?_append]

variable (prim : Primitives) (maps : BlockMaps)

/-- A block at a height of the range has a transaction of that hash. -/
def Includes (first stop : Nat) (txHash : Blake3Hash) : Prop :=
  ∃ height block, first ≤ height.toNat ∧ height.toNat < stop ∧ maps.blocks height = some block ∧
    txHash ∈ block.transactions.map (Transaction.hash prim)

open Classical in
/-- A range of heights without its blocks and without the receipts of their transactions. -/
noncomputable def clear (first stop : Nat) : BlockMaps where
  blocks height := if first ≤ height.toNat ∧ height.toNat < stop then none else maps.blocks height
  receipts txHash := if maps.Includes prim first stop txHash then none else maps.receipts txHash

variable {prim maps} {first stop : Nat}

theorem blocks_clear_of_inside {height : UInt64} (inside : first ≤ height.toNat ∧ height.toNat < stop) :
    (maps.clear prim first stop).blocks height = none := if_pos inside

theorem blocks_clear_of_outside {height : UInt64} (outside : ¬(first ≤ height.toNat ∧ height.toNat < stop)) :
    (maps.clear prim first stop).blocks height = maps.blocks height := if_neg outside

theorem receipts_clear_of_included {txHash : Blake3Hash} (included : maps.Includes prim first stop txHash) :
    (maps.clear prim first stop).receipts txHash = none := if_pos included

theorem receipts_clear_of_not_included {txHash : Blake3Hash} (free : ¬maps.Includes prim first stop txHash) :
    (maps.clear prim first stop).receipts txHash = maps.receipts txHash := if_neg free

theorem clear_of_le (nothing : stop ≤ first) : maps.clear prim first stop = maps := by
  have blocks : (maps.clear prim first stop).blocks = maps.blocks := by
    funext height
    exact blocks_clear_of_outside (by omega)
  have receipts : (maps.clear prim first stop).receipts = maps.receipts := by
    funext txHash
    refine receipts_clear_of_not_included ?_
    rintro ⟨height, block, above, below, _⟩
    omega
  exact congrArg₂ BlockMaps.mk blocks receipts

/-- Two ranges one after the other are one range. -/
theorem clear_clear {middle : Nat} (lower : first ≤ middle) (upper : middle ≤ stop) :
    (maps.clear prim first middle).clear prim middle stop = maps.clear prim first stop := by
  have blocks :
      ((maps.clear prim first middle).clear prim middle stop).blocks = (maps.clear prim first stop).blocks := by
    funext height
    simp only [clear]
    split_ifs
    all_goals first | rfl | omega
  have includes : forall txHash, (maps.clear prim first middle).Includes prim middle stop txHash ∨
      maps.Includes prim first middle txHash <-> maps.Includes prim first stop txHash := by
    intro txHash
    constructor
    · rintro (⟨height, block, above, below, found, member⟩ | ⟨height, block, above, below, found, member⟩)
      · rw [blocks_clear_of_outside (by omega)] at found
        exact ⟨height, block, by omega, below, found, member⟩
      · exact ⟨height, block, above, by omega, found, member⟩
    · rintro ⟨height, block, above, below, found, member⟩
      rcases Nat.lt_or_ge height.toNat middle with inside | beyond
      · exact Or.inr ⟨height, block, above, inside, found, member⟩
      · refine Or.inl ⟨height, block, beyond, below, ?_, member⟩
        rw [blocks_clear_of_outside (by omega)]
        exact found
  have receipts : ((maps.clear prim first middle).clear prim middle stop).receipts =
      (maps.clear prim first stop).receipts := by
    funext txHash
    by_cases later : (maps.clear prim first middle).Includes prim middle stop txHash
    · rw [receipts_clear_of_included later, receipts_clear_of_included ((includes txHash).mp (Or.inl later))]
    · rw [receipts_clear_of_not_included later]
      by_cases sooner : maps.Includes prim first middle txHash
      · rw [receipts_clear_of_included sooner, receipts_clear_of_included ((includes txHash).mp (Or.inr sooner))]
      · have free : ¬maps.Includes prim first stop txHash := fun included =>
          ((includes txHash).mpr included).elim later sooner
        rw [receipts_clear_of_not_included sooner, receipts_clear_of_not_included free]
  exact congrArg₂ BlockMaps.mk blocks receipts

/-- The range of a single height. -/
theorem only_height_iff {height other : UInt64} :
    height.toNat ≤ other.toNat ∧ other.toNat < height.toNat + 1 <-> other = height := by
  rw [← UInt64.toNat_inj]
  omega

/-- One height, with the block that is there. -/
theorem clear_one {height : UInt64} {block : Block} (found : maps.blocks height = some block) :
    maps.clear prim height.toNat (height.toNat + 1) =
      ⟨Function.update maps.blocks height none, fun txHash =>
        if txHash ∈ block.transactions.map (Transaction.hash prim) then none else maps.receipts txHash⟩ := by
  have blocks : (maps.clear prim height.toNat (height.toNat + 1)).blocks = Function.update maps.blocks height none := by
    funext other
    simp only [clear, only_height_iff, Function.update_apply]
  have receipts : (maps.clear prim height.toNat (height.toNat + 1)).receipts = fun txHash =>
      if txHash ∈ block.transactions.map (Transaction.hash prim) then none else maps.receipts txHash := by
    funext txHash
    split
    · rename_i member
      exact receipts_clear_of_included ⟨height, block, Nat.le_refl _, Nat.lt_succ_self _, found, member⟩
    · rename_i free
      refine receipts_clear_of_not_included ?_
      rintro ⟨other, there, above, below, stored, member⟩
      rw [only_height_iff.mp ⟨above, below⟩, found] at stored
      rw [← Option.some.inj stored] at member
      exact free member
  exact congrArg₂ BlockMaps.mk blocks receipts

/-- A height without a block. -/
theorem clear_none {height : UInt64} (empty : maps.blocks height = none) :
    maps.clear prim height.toNat (height.toNat + 1) = maps := by
  have blocks : (maps.clear prim height.toNat (height.toNat + 1)).blocks = maps.blocks := by
    funext other
    by_cases inside : height.toNat ≤ other.toNat ∧ other.toNat < height.toNat + 1
    · rw [blocks_clear_of_inside inside, only_height_iff.mp inside, empty]
    · exact blocks_clear_of_outside inside
  have receipts : (maps.clear prim height.toNat (height.toNat + 1)).receipts = maps.receipts := by
    funext txHash
    refine receipts_clear_of_not_included ?_
    rintro ⟨other, block, above, below, found, _⟩
    rw [only_height_iff.mp ⟨above, below⟩, empty] at found
    cases found
  exact congrArg₂ BlockMaps.mk blocks receipts

end BlockMaps

end Storage
end Sarafu

import Sarafu.Library.Histories
import Sarafu.State.Conservation

namespace Sarafu
namespace State
namespace StateMachine

open Crypto Library.Runs

/-!
# Receipts

A receipt is stored under the hash of its transaction whenever the transaction is tried, so
the last attempt decides what is read.  A transaction that has succeeded keeps its receipt
exactly as long as no later block contains its hash again.  The receipt of a later attempt
names a later block, and it is never the old one.
-/

/-- The arguments of `execute_block`. -/
structure BlockCall where
  height : UInt64
  transactions : List Transaction
  baseFee : UInt64
  proposer : Address

def getReceipt (machine : StateMachine) (hash : Blake3Hash) : Option TransactionReceipt := machine.receipts[hash]?

variable (prim : Primitives)

def blockCall (machine : StateMachine) (call : BlockCall) : StateMachine :=
  (machine.executeBlock prim call.height call.transactions call.baseFee call.proposer).2

/-- After every beginning of the run, a receipt of success is what every longer beginning
stores for the hash too. -/
def ReceiptsPermanent (start : StateMachine) (calls : List BlockCall) : Prop :=
  forall before later after, calls = before ++ later ++ after -> forall hash receipt,
    (run (blockCall prim) start before).getReceipt hash = some receipt -> receipt.success = true ->
      (run (blockCall prim) start (before ++ later)).getReceipt hash = some receipt

/-- The block contains no transaction with the hash of one that has succeeded before. -/
def RepeatsNoSuccess (machine : StateMachine) (call : BlockCall) : Prop :=
  forall tx, tx ∈ call.transactions -> forall receipt, machine.getReceipt (tx.hash prim) = some receipt ->
    receipt.success = false

/-- The heights of the blocks increase. -/
def Increasing (calls : List BlockCall) : Prop :=
  calls.Pairwise fun earlier later => earlier.height < later.height

variable {prim} {machine : StateMachine}

/-! ## What an execution stores -/

/-- Every receipt names its transaction and its block, and an execution stores none itself. -/
theorem executeTransaction_receipt (prim : Primitives) (machine : StateMachine) (tx : Transaction)
    (publicKey : Ed25519PublicKey) (blockHeight baseFee : UInt64) (proposer : Address) :
    (machine.executeTransaction prim tx publicKey blockHeight baseFee proposer).1.txHash = tx.hash prim ∧
    (machine.executeTransaction prim tx publicKey blockHeight baseFee proposer).1.blockHeight = blockHeight ∧
    (machine.executeTransaction prim tx publicKey blockHeight baseFee proposer).2.receipts = machine.receipts := by
  unfold executeTransaction
  cases TransactionValidator.validateTransaction prim machine.chainId tx publicKey machine.accountManager with
  | some text => exact ⟨rfl, rfl, rfl⟩
  | none =>
      unfold TransactionExecutor.executeTransaction
      simp only []
      split
      · exact ⟨rfl, rfl, trivial⟩
      · split
        · exact ⟨rfl, rfl, trivial⟩
        · exact ⟨rfl, rfl, trivial⟩

/-- An attempt replaces the receipt under the hash of its transaction and no other. -/
theorem getReceipt_executeAndStore (prim : Primitives) (machine : StateMachine) (height baseFee : UInt64)
    (proposer : Address) (tx : Transaction) (hash : Blake3Hash) :
    (hash = tx.hash prim ∧ ∃ receipt, receipt.blockHeight = height ∧
      (machine.executeAndStore prim height baseFee proposer tx).getReceipt hash = some receipt) ∨
    (hash ≠ tx.hash prim ∧
      (machine.executeAndStore prim height baseFee proposer tx).getReceipt hash = machine.getReceipt hash) := by
  rcases executeTransaction_receipt prim machine tx defaultPublicKey height baseFee proposer with
    ⟨names, level, kept⟩
  unfold getReceipt executeAndStore storeReceipt
  simp only [kept, names, OrderedMap.find_insert]
  by_cases same : hash = tx.hash prim
  · exact Or.inl ⟨same, _, level, if_pos same⟩
  · exact Or.inr ⟨same, if_neg same⟩

/-- The receipts after the loop: a hash that occurs has a receipt of this block, every other
hash is as before. -/
theorem getReceipt_foldl (height baseFee : UInt64) (proposer : Address) (transactions : List Transaction)
    (machine : StateMachine) (hash : Blake3Hash) :
    ((∃ tx, tx ∈ transactions ∧ tx.hash prim = hash) ∧ ∃ receipt, receipt.blockHeight = height ∧
      (transactions.foldl (executeAndStore prim height baseFee proposer) machine).getReceipt hash = some receipt) ∨
    ((forall tx, tx ∈ transactions -> tx.hash prim ≠ hash) ∧
      (transactions.foldl (executeAndStore prim height baseFee proposer) machine).getReceipt hash =
        machine.getReceipt hash) := by
  induction transactions generalizing machine with
  | nil => exact Or.inr ⟨nofun, rfl⟩
  | cons tx rest inductionHypothesis =>
      rw [List.foldl_cons]
      rcases inductionHypothesis (machine.executeAndStore prim height baseFee proposer tx) with
        ⟨⟨other, member, hashed⟩, stored⟩ | ⟨absent, kept⟩
      · exact Or.inl ⟨⟨other, List.mem_cons_of_mem tx member, hashed⟩, stored⟩
      · rw [kept]
        rcases getReceipt_executeAndStore prim machine height baseFee proposer tx hash with
          ⟨rfl, stored⟩ | ⟨differs, same⟩
        · exact Or.inl ⟨⟨tx, List.mem_cons_self, rfl⟩, stored⟩
        · exact Or.inr ⟨List.forall_mem_cons.mpr ⟨differs.symm, absent⟩, same⟩

/-- What a block does to the receipt of a hash. -/
theorem getReceipt_blockCall (prim : Primitives) (machine : StateMachine) (call : BlockCall) (hash : Blake3Hash) :
    ((∃ tx, tx ∈ call.transactions ∧ tx.hash prim = hash) ∧ ∃ receipt, receipt.blockHeight = call.height ∧
      (machine.blockCall prim call).getReceipt hash = some receipt) ∨
    ((forall tx, tx ∈ call.transactions -> tx.hash prim ≠ hash) ∧
      (machine.blockCall prim call).getReceipt hash = machine.getReceipt hash) :=
  getReceipt_foldl call.height call.baseFee call.proposer call.transactions
    (machine.saveStateSnapshot prim machine.currentHeight) hash

/-! ## Runs of blocks -/

/-- Every receipt of a run names one of its blocks. -/
theorem exists_block_of_getReceipt (fresh : machine.receipts = ∅) {calls : List BlockCall} {hash : Blake3Hash}
    {receipt : TransactionReceipt} (stored : (run (blockCall prim) machine calls).getReceipt hash = some receipt) :
    ∃ call, call ∈ calls ∧ call.height = receipt.blockHeight := by
  induction calls using List.reverseRecOn with
  | nil =>
      rw [run_nil, getReceipt, fresh, Std.ExtTreeMap.getElem?_empty] at stored
      cases stored
  | append_singleton before last inductionHypothesis =>
      rw [run_append] at stored
      rcases getReceipt_blockCall prim (run (blockCall prim) machine before) last hash with
        ⟨_, own, level, replaced⟩ | ⟨_, kept⟩
      · rw [← Option.some.inj (replaced.symm.trans stored), level]
        exact ⟨last, List.mem_append_right before List.mem_cons_self, rfl⟩
      · rcases inductionHypothesis (kept.symm.trans stored) with ⟨call, member, same⟩
        exact ⟨call, List.mem_append_left _ member, same⟩

/-- Blocks that repeat no success keep all receipts of success. -/
theorem getReceipt_run_of_repeatsNoSuccess {calls : List BlockCall}
    (along : Along (blockCall prim) (RepeatsNoSuccess prim) machine calls) {hash : Blake3Hash}
    {receipt : TransactionReceipt} (stored : machine.getReceipt hash = some receipt)
    (succeeded : receipt.success = true) :
    (run (blockCall prim) machine calls).getReceipt hash = some receipt := by
  refine invariant_run (fun later => later.getReceipt hash = some receipt) ?_ stored along
  intro later call kept repeats
  rcases getReceipt_blockCall prim later call hash with ⟨⟨tx, member, rfl⟩, _⟩ | ⟨_, same⟩
  · rw [repeats tx member receipt kept] at succeeded
    cases succeeded
  · exact same.trans kept

/-- Over blocks of increasing heights the receipts of success are permanent if and only if no
block contains the hash of a transaction that has succeeded before. -/
theorem receiptsPermanent_iff (prim : Primitives) (machine : StateMachine) (fresh : machine.receipts = ∅)
    (calls : List BlockCall) (increasing : Increasing calls) :
    ReceiptsPermanent prim machine calls <-> Along (blockCall prim) (RepeatsNoSuccess prim) machine calls := by
  constructor
  · intro permanent
    rw [along_iff_forall_split]
    intro before call after split tx member receipt stored
    by_contra succeeded
    have kept := permanent before [call] after (by rw [split, List.append_assoc]; rfl) (tx.hash prim) receipt stored
      (Bool.not_eq_false _ ▸ succeeded)
    rw [run_append] at kept
    rcases getReceipt_blockCall prim (run (blockCall prim) machine before) call (tx.hash prim) with
      ⟨_, own, level, replaced⟩ | ⟨absent, _⟩
    · -- the old receipt would name this block, but it names one of the blocks before
      have same := Option.some.inj (replaced.symm.trans kept)
      rcases exists_block_of_getReceipt fresh stored with ⟨earlier, listed, height⟩
      rw [split] at increasing
      have below := (List.pairwise_append.mp increasing).2.2 earlier listed call List.mem_cons_self
      rw [height, ← same, level] at below
      exact absurd below (UInt64.lt_irrefl _)
    · exact absent tx member rfl
  · rintro along before later after rfl hash receipt stored succeeded
    rw [run_append]
    exact getReceipt_run_of_repeatsNoSuccess (along_append.mp (along_append.mp along).1).2 stored succeeded

/-- One transfer in the first block, and again in the third one. -/
def repeatedTransfer : List BlockCall :=
  [⟨1, [transfer 1 2 10 0 5], 1, FixedBytes.ofNat 32 3⟩, ⟨2, [], 1, FixedBytes.ofNat 32 3⟩,
    ⟨3, [transfer 1 2 10 0 5], 1, FixedBytes.ofNat 32 3⟩]

theorem receiptsPermanent_iff_repeatedTransfer :
    ReceiptsPermanent Transparent.primitives (funded 1 100) repeatedTransfer <->
      Along (blockCall Transparent.primitives) (RepeatsNoSuccess Transparent.primitives) (funded 1 100)
        repeatedTransfer :=
  receiptsPermanent_iff Transparent.primitives (funded 1 100) rfl repeatedTransfer
    (by unfold Increasing; decide +kernel)

/-- The repetition fails, and its failure is all that is left on record. -/
theorem getReceipt_repeatedTransfer :
    let hash := (transfer 1 2 10 0 5).hash Transparent.primitives
    ((run (blockCall Transparent.primitives) (funded 1 100) (repeatedTransfer.take 2)).getReceipt hash).map
        (fun receipt => (receipt.success, receipt.blockHeight)) = some (true, 1) ∧
      (run (blockCall Transparent.primitives) (funded 1 100) repeatedTransfer).getReceipt hash =
        some ⟨hash, 3, false, 0, "Invalid nonce: expected 1, got 0"⟩ ∧
      (run (blockCall Transparent.primitives) (funded 1 100) repeatedTransfer).accountManager.getBalance
        (FixedBytes.ofNat 32 2) = 10 ∧ Increasing repeatedTransfer ∧ (funded 1 100).receipts = ∅ := by
  refine ⟨by decide +kernel, by decide +kernel, by decide +kernel, by unfold Increasing; decide +kernel, rfl⟩

end StateMachine
end State
end Sarafu

import Sarafu.Library.BudgetedWalk
import Sarafu.State.MempoolHistory

namespace Sarafu
namespace State
namespace Mempool

open Crypto Library.Runs Library.BudgetedWalk

/-!
# The transactions of a block

The selection is a walk over the pending transactions from the highest fee to the lowest.
Its budget is the gas of the block, and its state holds the next nonce of every sender with
a queue.  What it selects therefore stands in the order of the fees, and the nonces of each
sender are consecutive.  The gas is added up in a word, so an attacker's gas limit can wrap
the sum around into the budget.
-/

/-! ## The pending transactions in the order of the walk -/

/-- What the selection reads of the indexes. -/
structure Listed (prim : Primitives) (mempool : Mempool) : Prop where
  stored : forall (hash : Blake3Hash) (pending : MempoolTransaction), mempool.transactions[hash]? = some pending ->
    pending.tx.hash prim = hash
  queued : forall (hash : Blake3Hash) (pending : MempoolTransaction), mempool.transactions[hash]? = some pending ->
    ∃ queue, mempool.accountQueues[pending.tx.fromAddr]? = some queue
  indexed : forall (fee : UInt64) (hash : Blake3Hash), (fee, hash) ∈ mempool.feeIndex <->
    ∃ pending, mempool.transactions[hash]? = some pending ∧ pending.tx.fee = fee
  indexedOnce : (mempool.feeIndex.map Prod.snd).Nodup
  feeOrder : mempool.feeIndex.Pairwise fun earlier later => earlier.1 ≤ later.1

variable {prim : Primitives} {mempool : Mempool}

theorem Consistent.listed (consistent : Consistent prim mempool) : Listed prim mempool where
  stored := fun hash pending found => ((consistent.queued hash pending).mp found).1
  queued := by
    intro hash pending found
    have member := ((consistent.queued hash pending).mp found).2
    cases found : mempool.accountQueues[pending.tx.fromAddr]? with
    | some queue => exact ⟨queue, rfl⟩
    | none => simp [queueIn, found] at member
  indexed := consistent.indexed
  indexedOnce := consistent.indexedOnce
  feeOrder := consistent.feeOrder

/-- Without room in the queues, no transaction is ever pending. -/
structure Shut (mempool : Mempool) : Prop where
  limit : mempool.config.maxTransactionsPerAccount = 0
  transactions : mempool.transactions = ∅
  feeIndex : mempool.feeIndex = []

theorem Shut.listed (shut : Shut mempool) : Listed prim mempool where
  stored := by simp [shut.transactions]
  queued := by simp [shut.transactions]
  indexed := by simp [shut.transactions, shut.feeIndex]
  indexedOnce := by simp [shut.feeIndex]
  feeOrder := by simp [shut.feeIndex]

theorem removeTransactions_of_empty (empty : mempool.transactions = ∅) (txHashes : List Blake3Hash) :
    mempool.removeTransactions prim txHashes = mempool := by
  induction txHashes with
  | nil => rfl
  | cons txHash rest inductionHypothesis =>
      have unchanged : mempool.removeTransaction prim txHash = mempool := by simp [removeTransaction, empty]
      rw [removeTransactions, List.foldl_cons, unchanged]
      exact inductionHypothesis

theorem Shut.call (shut : Shut mempool) (prim : Primitives) (step : MempoolCall) : Shut (mempool.call prim step) := by
  cases step with
  | addTransaction manager timestamp tx =>
      have intake := intake_addTransaction prim mempool manager timestamp tx
      change Shut (mempool.addTransaction prim manager timestamp tx).2
      generalize (mempool.addTransaction prim manager timestamp tx).2 = after,
        (mempool.addTransaction prim manager timestamp tx).1 = added at intake ⊢
      cases intake with
      | refused early => exact shut
      | full reaches noRoom => exact ⟨shut.limit, shut.transactions, shut.feeIndex⟩
      | stored reaches room =>
          rw [shut.limit] at room
          exact absurd room (Nat.not_lt_zero _)
  | removeTransactions txHashes =>
      rw [Mempool.call, removeTransactions_of_empty shut.transactions]
      exact shut
  | pruneOldTransactions currentTime =>
      rw [Mempool.call, pruneOldTransactions, removeTransactions_of_empty shut.transactions]
      exact shut
  | clear => exact ⟨shut.limit, rfl, rfl⟩

theorem listed_run (prim : Primitives) (config : MempoolConfig) (calls : List MempoolCall) :
    Listed prim (run (call prim) (empty config) calls) := by
  by_cases positive : 1 ≤ config.maxTransactionsPerAccount.toNat
  · have consistent : Consistent prim (run (call prim) (empty config) calls) ∧
        (run (call prim) (empty config) calls).config = config := by
      refine invariant_run (fun mempool => Consistent prim mempool ∧ mempool.config = config) ?_
        ⟨consistent_empty prim config, rfl⟩ (along_true (empty config) calls)
      rintro mempool step ⟨consistent, same⟩ _
      rcases consistent_call consistent (same ▸ positive) step with ⟨after, kept⟩
      exact ⟨after, kept.trans same⟩
    exact consistent.1.listed
  · have none : config.maxTransactionsPerAccount.toNat = 0 := Nat.lt_one_iff.mp (Nat.not_le.mp positive)
    have shut : Shut (run (call prim) (empty config) calls) :=
      invariant_run Shut (fun _ step shut _ => shut.call prim step) ⟨UInt64.toNat_inj.mp none, rfl, rfl⟩
        (along_true (empty config) calls)
    exact shut.listed

/-- The pending transactions, from the highest fee to the lowest. -/
def byFee (mempool : Mempool) : List Transaction :=
  mempool.feeIndex.reverse.filterMap fun entry => (mempool.transactions[entry.2]?).map MempoolTransaction.tx

theorem Listed.mem_byFee (listed : Listed prim mempool) {tx : Transaction} :
    tx ∈ mempool.byFee <-> ∃ pending, mempool.transactions[tx.hash prim]? = some pending ∧ pending.tx = tx := by
  simp only [byFee, List.mem_filterMap, List.mem_reverse, Option.map_eq_some_iff]
  constructor
  · rintro ⟨entry, _, pending, found, rfl⟩
    rw [← listed.stored entry.2 pending found] at found
    exact ⟨pending, found, rfl⟩
  · rintro ⟨pending, found, rfl⟩
    have entry := (listed.indexed pending.tx.fee (pending.tx.hash prim)).mpr ⟨pending, found, rfl⟩
    exact ⟨(pending.tx.fee, pending.tx.hash prim), entry, pending, found, rfl⟩

/-- No fee is lower than one further down. -/
theorem Listed.byFee_ordered (listed : Listed prim mempool) :
    mempool.byFee.Pairwise fun earlier later => later.fee ≤ earlier.fee := by
  have fees : forall entry, entry ∈ mempool.feeIndex -> forall pending, mempool.transactions[entry.2]? = some pending ->
      pending.tx.fee = entry.1 := by
    intro entry member pending found
    rcases (listed.indexed entry.1 entry.2).mp member with ⟨other, stored, paid⟩
    rw [Option.some.inj (found.symm.trans stored), paid]
  have reversed : mempool.feeIndex.reverse.Pairwise fun earlier later =>
      earlier ∈ mempool.feeIndex ∧ later ∈ mempool.feeIndex ∧ later.1 ≤ earlier.1 := by
    rw [List.pairwise_reverse]
    apply listed.feeOrder.imp_of_mem
    exact fun before behind smaller => ⟨behind, before, smaller⟩
  unfold byFee
  rw [List.pairwise_filterMap]
  apply reversed.imp
  rintro earlier later ⟨before, behind, smaller⟩ first selected second other
  rcases Option.map_eq_some_iff.mp selected with ⟨pending, found, rfl⟩
  rcases Option.map_eq_some_iff.mp other with ⟨next, stored, rfl⟩
  rw [fees earlier before pending found, fees later behind next stored]
  exact smaller

/-- The hashes of the index are distinct, so the transactions are. -/
theorem Listed.byFee_nodup (listed : Listed prim mempool) : mempool.byFee.Nodup := by
  unfold byFee
  rw [List.Nodup, List.pairwise_filterMap]
  have distinct : mempool.feeIndex.reverse.Pairwise fun earlier later => earlier.2 ≠ later.2 := by
    rw [List.pairwise_reverse]
    exact (List.pairwise_map.mp listed.indexedOnce).imp Ne.symm
  apply distinct.imp
  intro earlier later differs first selected second other same
  rcases Option.map_eq_some_iff.mp selected with ⟨pending, found, rfl⟩
  rcases Option.map_eq_some_iff.mp other with ⟨next, stored, rfl⟩
  apply differs
  rw [← listed.stored _ _ found, ← listed.stored _ _ stored, same]

/-! ## The selection is a walk -/

/-- The rules of the selection.  Without an entry for the sender, the nonce is not checked. -/
def selectionRules (checksNonces : Bool) (maxGas minBaseFee : UInt64) :
    Rules Transaction (OrderedMap Address UInt64) where
  eligible := fun nonces tx => decide (minBaseFee ≤ tx.fee) &&
    (!checksNonces || (nonces[tx.fromAddr]?).all fun expected => tx.nonce == expected)
  advance := fun nonces tx =>
    if checksNonces then
      match nonces[tx.fromAddr]? with
      | none => nonces
      | some expected => nonces.insert tx.fromAddr (expected + 1)
    else nonces
  cost := fun tx => tx.gasLimit.toNat
  budget := maxGas.toNat

/-- The local variables as those of a walk. -/
def Selection.walk (selection : Selection) : Walk Transaction (OrderedMap Address UInt64) :=
  ⟨selection.result, selection.gasUsed.toNat, selection.accountNextNonce⟩

variable {checksNonces : Bool} {maxGas minBaseFee : UInt64}

/-- An entry of the index is a step of the walk, if its transaction is still there. -/
theorem walk_selectNext (mempool : Mempool) (checksNonces : Bool) (maxGas minBaseFee : UInt64) (selection : Selection)
    (entry : UInt64 × Blake3Hash) {pending : MempoolTransaction}
    (found : mempool.transactions[entry.2]? = some pending) :
    (mempool.selectNext checksNonces maxGas minBaseFee selection entry).walk =
      (selectionRules checksNonces maxGas minBaseFee).visit (Rules.addModulo (2 ^ 64)) selection.walk pending.tx := by
  have takes : (selectionRules checksNonces maxGas minBaseFee).Takes (Rules.addModulo (2 ^ 64)) selection.walk
      pending.tx <-> ¬pending.tx.fee < minBaseFee ∧ ¬maxGas < selection.gasUsed + pending.tx.gasLimit ∧
        (checksNonces = true -> forall expected, selection.accountNextNonce[pending.tx.fromAddr]? = some expected ->
          pending.tx.nonce = expected) := by
    simp only [Rules.Takes, Rules.addModulo, selectionRules, Selection.walk, ← UInt64.toNat_add, Bool.and_eq_true,
      decide_eq_true_eq, UInt64.not_lt, UInt64.le_iff_toNat_le, and_assoc]
    refine and_congr_right fun _ => ?_
    rw [and_comm]
    cases checksNonces with
    | false => simp
    | true => cases selection.accountNextNonce[pending.tx.fromAddr]? <;> simp
  have added : forall nonces, ({ selection with accountNextNonce := nonces }.include pending.tx).walk =
      ⟨selection.result ++ [pending.tx],
        Rules.addModulo (2 ^ 64) selection.gasUsed.toNat pending.tx.gasLimit.toNat, nonces⟩ := by
    intro nonces
    rw [Rules.addModulo, ← UInt64.toNat_add]
    rfl
  unfold Rules.visit selectNext
  simp only [takes, found]
  by_cases cheap : pending.tx.fee < minBaseFee
  · simp [cheap]
  · by_cases full : maxGas < selection.gasUsed + pending.tx.gasLimit
    · simp [cheap, full]
    · -- what remains is the nonce, which is only checked for a sender with an entry
      cases checksNonces with
      | false =>
          simp only [cheap, full, if_false, Bool.false_eq_true]
          rw [if_pos (by simp)]
          exact added selection.accountNextNonce
      | true =>
          cases next : selection.accountNextNonce[pending.tx.fromAddr]? with
          | none =>
              simp only [cheap, full, if_false, if_true]
              rw [if_pos (by simp), Rules.take, selectionRules]
              simp only [if_true, Selection.walk, next]
              exact added selection.accountNextNonce
          | some expected =>
              by_cases turn : pending.tx.nonce = expected
              · simp only [cheap, full, turn, if_false, if_true, ne_eq, not_true_eq_false]
                rw [if_pos (by simp), Rules.take, selectionRules]
                simp only [if_true, Selection.walk, next]
                exact added (selection.accountNextNonce.insert pending.tx.fromAddr (expected + 1))
              · simp [cheap, full, turn]

/-- The block is what the walk takes. -/
theorem getTransactionsForBlock_eq (mempool : Mempool) (accountManager : Option AccountManager)
    (maxGas minBaseFee : UInt64) :
    mempool.getTransactionsForBlock accountManager maxGas minBaseFee =
      (run ((selectionRules accountManager.isSome maxGas minBaseFee).visit (Rules.addModulo (2 ^ 64)))
        (Rules.begin (mempool.initialNonces accountManager)) mempool.byFee).taken := by
  have walked : forall (entries : List (UInt64 × Blake3Hash)) (selection : Selection),
      (entries.foldl (mempool.selectNext accountManager.isSome maxGas minBaseFee) selection).walk =
        run ((selectionRules accountManager.isSome maxGas minBaseFee).visit (Rules.addModulo (2 ^ 64))) selection.walk
          (entries.filterMap fun entry => (mempool.transactions[entry.2]?).map MempoolTransaction.tx) := by
    intro entries
    induction entries with
    | nil => exact fun _ => rfl
    | cons entry rest inductionHypothesis =>
        intro selection
        rw [List.foldl_cons, inductionHypothesis]
        cases found : mempool.transactions[entry.2]? with
        | none =>
            rw [List.filterMap_cons_none (by rw [found]; rfl)]
            simp [selectNext, found]
        | some pending =>
            rw [List.filterMap_cons_some (by rw [found]; rfl), run_cons,
              walk_selectNext mempool _ maxGas minBaseFee selection entry found]
  have whole := walked mempool.feeIndex.reverse ⟨[], 0, mempool.initialNonces accountManager⟩
  exact congrArg Walk.taken whole

/-! ## Fees and nonces -/

theorem find_foldl_insert (nonceOf : Address -> UInt64) (senders : List Address) (nonces : OrderedMap Address UInt64)
    (sender : Address) :
    (senders.foldl (fun nonces address => nonces.insert address (nonceOf address)) nonces)[sender]? =
      if sender ∈ senders then some (nonceOf sender) else nonces[sender]? := by
  induction senders generalizing nonces with
  | nil => simp
  | cons address rest inductionHypothesis =>
      rw [List.foldl_cons, inductionHypothesis, OrderedMap.find_insert]
      by_cases later : sender ∈ rest
      · simp [later]
      · by_cases same : sender = address
        · simp [same]
        · simp [later, same]

theorem initialNonces_of_queued {manager : AccountManager} {sender : Address} {queue : AccountQueue}
    (queued : mempool.accountQueues[sender]? = some queue) :
    (mempool.initialNonces (some manager))[sender]? = some (manager.getNonce sender) := by
  have listed : sender ∈ mempool.accountQueues.keys := by
    rw [Std.ExtTreeMap.mem_keys, Std.ExtTreeMap.mem_iff_isSome_getElem?, queued]
    rfl
  exact (find_foldl_insert manager.getNonce _ ∅ sender).trans (if_pos listed)

/-- A block of pending transactions, each once, that pay the base fee, from the highest fee
to the lowest, and with the next nonces of each sender. -/
structure RespectsNoncesAndFees (prim : Primitives) (mempool : Mempool) (manager : AccountManager) (minBaseFee : UInt64)
    (block : List Transaction) : Prop where
  pending : forall tx, tx ∈ block -> ∃ entry, mempool.transactions[tx.hash prim]? = some entry ∧ entry.tx = tx
  once : block.Nodup
  paid : forall tx, tx ∈ block -> minBaseFee ≤ tx.fee
  ordered : block.Pairwise fun earlier later => later.fee ≤ earlier.fee
  nonces : forall sender, ∃ count,
    (block.filter fun tx => decide (tx.fromAddr = sender)).map (fun tx => tx.nonce.toNat) =
      List.range' (manager.getNonce sender).toNat count

/-- No pending nonce is the largest number, so that a next one exists. -/
def NoncesAdvance (mempool : Mempool) : Prop :=
  forall (hash : Blake3Hash) (pending : MempoolTransaction), mempool.transactions[hash]? = some pending ->
    pending.tx.nonce.toNat < 2 ^ 64 - 1

theorem sublist_byFee (mempool : Mempool) (accountManager : Option AccountManager) (maxGas minBaseFee : UInt64) :
    (mempool.getTransactionsForBlock accountManager maxGas minBaseFee).Sublist mempool.byFee := by
  rw [getTransactionsForBlock_eq]
  rcases Rules.taken_run (selectionRules accountManager.isSome maxGas minBaseFee) (Rules.addModulo (2 ^ 64))
    (Rules.begin (mempool.initialNonces accountManager)) mempool.byFee with ⟨chosen, same, sublist⟩
  rw [same]
  exact sublist

theorem pays_of_mem_block {accountManager : Option AccountManager} {tx : Transaction}
    (member : tx ∈ mempool.getTransactionsForBlock accountManager maxGas minBaseFee) : minBaseFee ≤ tx.fee := by
  rw [getTransactionsForBlock_eq] at member
  refine Rules.forall_taken (fun tx => minBaseFee ≤ tx.fee) ?_ ?_ mempool.byFee tx member
  · intro nonces tx eligible
    exact of_decide_eq_true (Bool.and_eq_true_iff.mp eligible).1
  · simp [Rules.begin]

/-- The nonces of a sender with a pending transaction. -/
theorem Listed.nonces_of_queued (listed : Listed prim mempool) (advance : NoncesAdvance mempool)
    (manager : AccountManager) (maxGas minBaseFee : UInt64) {sender : Address} {queue : AccountQueue}
    (queued : mempool.accountQueues[sender]? = some queue) :
    ∃ count, ((mempool.getTransactionsForBlock (some manager) maxGas minBaseFee).filter fun tx =>
        decide (tx.fromAddr = sender)).map (fun tx => tx.nonce.toNat) =
      List.range' (manager.getNonce sender).toNat count := by
  have consecutive : Rules.Consecutive Transaction.fromAddr (fun tx => tx.nonce.toNat)
      (fun nonces address => (nonces[address]?).map UInt64.toNat) sender (manager.getNonce sender).toNat
      (run ((selectionRules true maxGas minBaseFee).visit (Rules.addModulo (2 ^ 64)))
        (Rules.begin (mempool.initialNonces (some manager))) mempool.byFee) :=
    Rules.consecutive_run (Rules.addModulo (2 ^ 64)) ?numbered ?advances ?initial
  case numbered =>
    rintro nonces tx expected _ eligible rfl next
    rcases Option.map_eq_some_iff.mp next with ⟨nonce, found, rfl⟩
    simp only [selectionRules, found, Bool.not_true, Bool.false_or, Option.all_some, Bool.and_eq_true,
      beq_iff_eq] at eligible
    rw [eligible.2]
  case advances =>
    intro nonces tx expected member eligible next
    rcases Option.map_eq_some_iff.mp next with ⟨nonce, found, rfl⟩
    rcases listed.mem_byFee.mp member with ⟨pending, stored, rfl⟩
    by_cases own : pending.tx.fromAddr = sender
    · rw [← own] at found ⊢
      simp only [selectionRules, found, Bool.not_true, Bool.false_or, Option.all_some, Bool.and_eq_true,
        beq_iff_eq] at eligible
      have small := advance _ pending stored
      rw [eligible.2] at small
      simp only [selectionRules, if_true, found, OrderedMap.find_insert, Option.map_some]
      rw [UInt64.toNat_add, Nat.mod_eq_of_lt (by rw [UInt64.toNat_one]; omega), UInt64.toNat_one]
    · simp only [selectionRules, if_true, if_neg own]
      cases expectedNonce : nonces[pending.tx.fromAddr]? with
      | none => simp [found]
      | some other =>
          simp only [OrderedMap.find_insert, if_neg fun same : sender = pending.tx.fromAddr => own same.symm]
          rw [found, Option.map_some]
  case initial =>
    rw [initialNonces_of_queued queued, Option.map_some]
  rcases consecutive with ⟨count, numbers, _⟩
  refine ⟨count, ?_⟩
  rw [getTransactionsForBlock_eq]
  exact numbers

/-- Over every history of the mempool, whatever the gas and the base fee. -/
theorem getTransactionsForBlock_respects (prim : Primitives) (config : MempoolConfig) (calls : List MempoolCall)
    (manager : AccountManager) (maxGas minBaseFee : UInt64)
    (advance : NoncesAdvance (run (call prim) (empty config) calls)) :
    RespectsNoncesAndFees prim (run (call prim) (empty config) calls) manager minBaseFee
      ((run (call prim) (empty config) calls).getTransactionsForBlock (some manager) maxGas minBaseFee) := by
  have listed := listed_run prim config calls
  generalize run (call prim) (empty config) calls = mempool at advance listed ⊢
  have sublist := sublist_byFee mempool (some manager) maxGas minBaseFee
  constructor
  case pending => exact fun tx member => listed.mem_byFee.mp (sublist.subset member)
  case once => exact listed.byFee_nodup.sublist sublist
  case paid => exact fun tx member => pays_of_mem_block member
  case ordered => exact listed.byFee_ordered.sublist sublist
  case nonces =>
    intro sender
    cases queued : mempool.accountQueues[sender]? with
    | some queue => exact listed.nonces_of_queued advance manager maxGas minBaseFee queued
    | none =>
        refine ⟨0, ?_⟩
        -- nothing is pending for a sender without a queue
        have absent : forall tx, tx ∈ mempool.getTransactionsForBlock (some manager) maxGas minBaseFee ->
            ¬tx.fromAddr = sender := by
          rintro tx member rfl
          rcases listed.mem_byFee.mp (sublist.subset member) with ⟨pending, stored, rfl⟩
          rcases listed.queued _ pending stored with ⟨queue, found⟩
          rw [queued] at found
          cases found
        simpa [List.filter_eq_nil_iff] using absent

/-- A transfer of nothing by the numbered sender. -/
def transferWith (sender : Nat) (nonce fee gasLimit : UInt64) : Transaction :=
  ⟨FixedBytes.ofNat 32 sender, FixedBytes.ofNat 32 9, 0, nonce, fee, gasLimit, 1, FixedBytes.zero 64⟩

/-- Two senders with enough for their fees. -/
def twoSenders : AccountManager :=
  (AccountManager.empty.createAccount (FixedBytes.ofNat 32 1) 100).createAccount (FixedBytes.ofNat 32 2) 100

/-- The second sender's transaction is not its next one. -/
theorem getTransactionsForBlock_respects_interleaved :
    let calls := [.addTransaction (some twoSenders) 0 (transferWith 1 1 4 5),
      .addTransaction (some twoSenders) 0 (transferWith 2 1 6 5),
      .addTransaction (some twoSenders) 0 (transferWith 1 0 7 5)]
    let mempool := run (call Transparent.primitives) (empty {}) calls
    let block := mempool.getTransactionsForBlock (some twoSenders) 100 2
    RespectsNoncesAndFees Transparent.primitives mempool twoSenders 2 block ∧
      block = [transferWith 1 0 7 5, transferWith 1 1 4 5] := by
  intro calls mempool block
  have numbered : forall entry, entry ∈ mempool.transactions.toList -> entry.2.tx.nonce.toNat < 2 ^ 64 - 1 := by
    decide +kernel
  refine ⟨?_, by decide +kernel⟩
  apply getTransactionsForBlock_respects
  intro hash pending found
  exact numbered (hash, pending) (Std.ExtTreeMap.mem_toList_iff_getElem?_eq_some.mpr found)

/-! ## Gas -/

/-- The gas limits of a block, added up exactly. -/
def gasOf (block : List Transaction) : Nat := (block.map fun tx => tx.gasLimit.toNat).sum

/-- Going through the pending transactions from the highest fee to the lowest and adding up
the gas exactly, one meets no transaction of sufficient fee and expected nonce whose gas
limit makes the sum wrap around into the gas of the block. -/
def GasStaysPlain (mempool : Mempool) (accountManager : Option AccountManager) (maxGas minBaseFee : UInt64) : Prop :=
  Along ((selectionRules accountManager.isSome maxGas minBaseFee).visit Nat.add)
    (Rules.Plain (selectionRules accountManager.isSome maxGas minBaseFee) (2 ^ 64))
    (Rules.begin (mempool.initialNonces accountManager)) mempool.byFee

/-- The block is within its gas if and only if no gas limit wraps the sum around. -/
theorem gasOf_block_le_iff (mempool : Mempool) (accountManager : Option AccountManager) (maxGas minBaseFee : UInt64) :
    gasOf (mempool.getTransactionsForBlock accountManager maxGas minBaseFee) ≤ maxGas.toNat <->
      GasStaysPlain mempool accountManager maxGas minBaseFee := by
  rw [getTransactionsForBlock_eq]
  exact Rules.spent_le_iff (selectionRules accountManager.isSome maxGas minBaseFee) maxGas.toNat_lt
    ⟨rfl, Nat.zero_le _⟩ mempool.byFee

/-- The second transaction makes the sum of the gas limits four, and the block has a gas of
ten. -/
theorem gasOf_block_exceeds_ten :
    let calls := [.addTransaction (some twoSenders) 0 (transferWith 1 0 2 5),
      .addTransaction (some twoSenders) 0 (transferWith 2 0 1 (2 ^ 64 - 1))]
    let block := (run (call Transparent.primitives) (empty {}) calls).getTransactionsForBlock (some twoSenders) 10 0
    block.length = 2 ∧ gasOf block = 2 ^ 64 + 4 ∧ ¬gasOf block ≤ 10 := by
  decide +kernel

end Mempool
end State
end Sarafu

import Sarafu.Crypto.Transparent
import Sarafu.State.MempoolIndexes

namespace Sarafu
namespace State
namespace Mempool

open Crypto Library.Runs

/-!
# Histories of the mempool

A call of `add_transaction` ends in one of three ways: it leaves the mempool alone, it
stops at a full queue, or it stores the transaction.  Only the second way can change
something although it refuses the transaction.
-/

variable (prim : Primitives)

/-- The transaction comes as far as the queue of its sender. -/
def ReachesQueue (mempool : Mempool) (manager : Option AccountManager) (tx : Transaction) : Prop :=
  mempool.transactions[tx.hash prim]? = none ∧
    forall accounts, manager = some accounts -> mempool.acceptsAccount accounts tx = true

/-- The outcomes of an intake. -/
inductive Intake (mempool : Mempool) (manager : Option AccountManager) (timestamp : UInt64) (tx : Transaction) :
    Bool -> Mempool -> Prop
  | refused (early : ¬ReachesQueue prim mempool manager tx) : Intake mempool manager timestamp tx false mempool
  | full (reaches : ReachesQueue prim mempool manager tx)
      (noRoom : mempool.config.maxTransactionsPerAccount.toNat ≤
        (mempool.openQueue manager tx.fromAddr).transactions.length) :
      Intake mempool manager timestamp tx false
        { mempool with
          accountQueues := mempool.accountQueues.insert tx.fromAddr (mempool.openQueue manager tx.fromAddr) }
  | stored (reaches : ReachesQueue prim mempool manager tx)
      (room : (mempool.openQueue manager tx.fromAddr).transactions.length <
        mempool.config.maxTransactionsPerAccount.toNat) :
      Intake mempool manager timestamp tx true
        { mempool with
          accountQueues := mempool.accountQueues.insert tx.fromAddr
            (insertInNonceOrder (mempool.openQueue manager tx.fromAddr) ⟨tx, timestamp, tx.fee⟩)
          transactions := mempool.transactions.insert (tx.hash prim) ⟨tx, timestamp, tx.fee⟩
          feeIndex := insertFee mempool.feeIndex tx.fee (tx.hash prim) }

/-- The queue of the zero address is about to be initialized with another nonce. -/
def Reinitializes (mempool : Mempool) (manager : Option AccountManager) (tx : Transaction) : Prop :=
  tx.fromAddr = Address.zero ∧ ReachesQueue prim mempool manager tx ∧
    ∃ accounts queue, manager = some accounts ∧ mempool.accountQueues[tx.fromAddr]? = some queue ∧
      queue.nextExpectedNonce ≠ accounts.getNonce tx.fromAddr

/-- The same transactions in all three indexes. -/
structure SameContents (before after : Mempool) : Prop where
  transactions : after.transactions = before.transactions
  feeIndex : after.feeIndex = before.feeIndex
  queues : forall sender, queueIn after.accountQueues sender = queueIn before.accountQueues sender

/-- What a refusal leaves. -/
def Refusal (mempool : Mempool) : MempoolCall -> Prop
  | .addTransaction manager timestamp tx => (mempool.addTransaction prim manager timestamp tx).1 = false ->
      SameContents mempool (mempool.addTransaction prim manager timestamp tx).2 ∧
        ((mempool.addTransaction prim manager timestamp tx).2 = mempool <-> ¬Reinitializes prim mempool manager tx)
  | _ => True

variable {prim} {mempool : Mempool}

theorem intake_addTransaction (prim : Primitives) (mempool : Mempool) (manager : Option AccountManager)
    (timestamp : UInt64) (tx : Transaction) :
    Intake prim mempool manager timestamp tx (mempool.addTransaction prim manager timestamp tx).1
      (mempool.addTransaction prim manager timestamp tx).2 := by
  unfold addTransaction
  dsimp only
  by_cases pending : (mempool.transactions[tx.hash prim]?).isSome = true
  · rw [if_pos pending]
    refine Intake.refused fun reaches => ?_
    rw [reaches.1] at pending
    cases pending
  · rw [if_neg pending]
    by_cases rejected : (manager.map fun accounts => mempool.acceptsAccount accounts tx) = some false
    · rw [if_pos rejected]
      refine Intake.refused fun reaches => ?_
      rcases Option.map_eq_some_iff.mp rejected with ⟨accounts, given, fails⟩
      exact Bool.false_ne_true (fails.symm.trans (reaches.2 accounts given))
    · rw [if_neg rejected]
      have reaches : ReachesQueue prim mempool manager tx := by
        refine ⟨Option.not_isSome_iff_eq_none.mp pending, ?_⟩
        intro accounts given
        rw [given] at rejected
        exact Bool.of_not_eq_false fun fails => rejected (congrArg some fails)
      split
      · rename_i noRoom
        exact Intake.full reaches noRoom
      · rename_i room
        exact Intake.stored reaches (Nat.not_le.mp room)

theorem isZero_iff (address : Address) : address.isZero = true <-> address = Address.zero := by
  unfold Address.isZero
  rw [List.all_eq_true]
  constructor
  · intro zeros
    apply FixedBytes.ext_bytes
    refine List.eq_replicate_iff.mpr ⟨address.length_bytes, fun byte member => beq_iff_eq.mp (zeros byte member)⟩
  · intro zero byte member
    rw [zero] at member
    exact beq_iff_eq.mpr (List.eq_of_mem_replicate member)

/-- A stored queue is found as it is unless its account is the zero address. -/
theorem openQueue_eq_iff (consistent : Consistent prim mempool) (manager : Option AccountManager) {sender : Address}
    {queue : AccountQueue} (found : mempool.accountQueues[sender]? = some queue) :
    mempool.openQueue manager sender = queue <->
      ¬(sender = Address.zero ∧ ∃ accounts, manager = some accounts ∧
        queue.nextExpectedNonce ≠ accounts.getNonce sender) := by
  have owner := (consistent.owned sender queue found).1
  simp only [openQueue, found, Option.getD_some, owner, isZero_iff]
  split
  · rename_i zero
    rw [and_iff_right zero]
    cases manager with
    | none => exact iff_of_true (owner ▸ rfl) nofun
    | some accounts =>
        constructor
        · rintro same ⟨other, given, differs⟩
          cases Option.some.inj given
          exact differs (congrArg AccountQueue.nextExpectedNonce same).symm
        · intro agrees
          have nonce : queue.nextExpectedNonce = accounts.getNonce sender := by
            by_contra differs
            exact agrees ⟨accounts, rfl, differs⟩
          rw [Option.map_some, Option.getD_some, ← nonce, ← owner]
  · rename_i other
    exact iff_of_true rfl fun both => other both.1

/-- A full queue is there already, with at least one transaction. -/
theorem exists_queue_of_full (consistent : Consistent prim mempool)
    (positive : 1 ≤ mempool.config.maxTransactionsPerAccount.toNat) {manager : Option AccountManager} {sender : Address}
    (noRoom : mempool.config.maxTransactionsPerAccount.toNat ≤ (mempool.openQueue manager sender).transactions.length) :
    (mempool.openQueue manager sender).transactions ≠ [] ∧
      ∃ queue, mempool.accountQueues[sender]? = some queue := by
  have filled : (mempool.openQueue manager sender).transactions ≠ [] :=
    List.ne_nil_of_length_pos (Nat.le_trans positive noRoom)
  refine ⟨filled, ?_⟩
  cases found : mempool.accountQueues[sender]? with
  | some queue => exact ⟨queue, rfl⟩
  | none =>
      rw [(openQueue_spec consistent manager sender).2, queueIn, found] at filled
      exact absurd rfl filled

theorem insert_eq_iff {queues : OrderedMap Address AccountQueue} {sender : Address} {queue changed : AccountQueue}
    (found : queues[sender]? = some queue) : queues.insert sender changed = queues <-> changed = queue := by
  constructor
  · intro same
    have lookup := OrderedMap.find_insert queues sender sender changed
    rw [same, found, if_pos rfl] at lookup
    exact (Option.some.inj lookup).symm
  · intro same
    apply Std.ExtTreeMap.ext_getElem?
    intro other
    rw [OrderedMap.find_insert]
    split
    · rename_i equal
      rw [equal, found, same]
    · rfl

/-- A refusal keeps the contents, and it keeps the mempool unless it initializes the queue
of the zero address again. -/
theorem refusal_call (consistent : Consistent prim mempool)
    (positive : 1 ≤ mempool.config.maxTransactionsPerAccount.toNat) (step : MempoolCall) :
    Refusal prim mempool step := by
  cases step with
  | removeTransactions txHashes => exact trivial
  | pruneOldTransactions currentTime => exact trivial
  | clear => exact trivial
  | addTransaction manager timestamp tx =>
      intro refused
      have intake := intake_addTransaction prim mempool manager timestamp tx
      rw [refused] at intake
      generalize (mempool.addTransaction prim manager timestamp tx).2 = after at intake ⊢
      cases intake with
      | refused early => exact ⟨⟨rfl, rfl, fun _ => rfl⟩, iff_of_true rfl fun both => early both.2.1⟩
      | full reaches noRoom =>
          rcases exists_queue_of_full consistent positive noRoom with ⟨filled, queue, found⟩
          constructor
          · refine ⟨rfl, rfl, ?_⟩
            intro sender
            rw [queueIn_insert]
            split
            · rename_i same
              rw [same]
              exact (openQueue_spec consistent manager tx.fromAddr).2
            · rfl
          · have unchanged := (insert_eq_iff found).trans (openQueue_eq_iff consistent manager found)
            constructor
            · rintro same ⟨zero, _, accounts, stored, given, listed, differs⟩
              rw [found] at listed
              cases listed
              exact unchanged.mp (congrArg Mempool.accountQueues same) ⟨zero, accounts, given, differs⟩
            · intro settled
              have same := unchanged.mpr fun ⟨zero, accounts, given, differs⟩ =>
                settled ⟨zero, reaches, accounts, queue, given, found, differs⟩
              rw [same]

/-- The step lemma: every call keeps the three indexes consistent. -/
theorem consistent_call (consistent : Consistent prim mempool)
    (positive : 1 ≤ mempool.config.maxTransactionsPerAccount.toNat) (step : MempoolCall) :
    Consistent prim (mempool.call prim step) ∧ (mempool.call prim step).config = mempool.config := by
  cases step with
  | addTransaction manager timestamp tx =>
      have intake := intake_addTransaction prim mempool manager timestamp tx
      have opened := openQueue_spec consistent manager tx.fromAddr
      change Consistent prim (mempool.addTransaction prim manager timestamp tx).2 ∧
        (mempool.addTransaction prim manager timestamp tx).2.config = mempool.config
      generalize (mempool.addTransaction prim manager timestamp tx).2 = after,
        (mempool.addTransaction prim manager timestamp tx).1 = added at intake ⊢
      cases intake with
      | refused early => exact ⟨consistent, rfl⟩
      | full reaches noRoom =>
          have filled := (exists_queue_of_full consistent positive noRoom).1
          exact ⟨consistent.reopen opened.1 opened.2 filled, rfl⟩
      | stored reaches room =>
          exact ⟨consistent.store ⟨tx, timestamp, tx.fee⟩ reaches.1 rfl opened.1 opened.2 room, rfl⟩
  | removeTransactions txHashes => exact ⟨consistent.removeAll txHashes, config_removeTransactions mempool txHashes⟩
  | pruneOldTransactions currentTime => exact ⟨consistent.removeAll _, config_removeTransactions mempool _⟩
  | clear => exact ⟨consistent_empty prim mempool.config, rfl⟩

/-- Over every history of intakes, removals, prunings and clearings the three indexes hold
the same transactions.  Each refused intake keeps them, and it leaves the mempool as it
was if and only if it does not initialize the queue of the zero address with another nonce. -/
theorem mempool_consistent (prim : Primitives) (config : MempoolConfig)
    (positive : 1 ≤ config.maxTransactionsPerAccount) (calls : List MempoolCall) :
    Consistent prim (run (call prim) (empty config) calls) ∧
      Along (call prim) (Refusal prim) (empty config) calls := by
  have preserved : forall mempool step, Consistent prim mempool ∧ mempool.config = config -> True ->
      Consistent prim (mempool.call prim step) ∧ (mempool.call prim step).config = config := by
    rintro mempool step ⟨consistent, same⟩ _
    rcases consistent_call consistent (same ▸ UInt64.le_iff_toNat_le.mp positive) step with ⟨after, kept⟩
    exact ⟨after, kept.trans same⟩
  have initial := And.intro (consistent_empty prim config) (Eq.refl config)
  constructor
  · exact (invariant_run (fun mempool => Consistent prim mempool ∧ mempool.config = config) preserved initial
      (along_true (empty config) calls)).1
  · refine along_of_invariant (fun mempool => Consistent prim mempool ∧ mempool.config = config) preserved ?_ initial
      (along_true (empty config) calls)
    rintro mempool step ⟨consistent, same⟩ _
    exact refusal_call consistent (same ▸ UInt64.le_iff_toNat_le.mp positive) step

/-- A transaction of the zero address. -/
def fromZero (nonce : UInt64) : Transaction :=
  ⟨Address.zero, FixedBytes.ofNat 32 1, 0, nonce, 0, 0, 1, FixedBytes.zero 64⟩

/-- Accounts in which the zero address has a nonce. -/
def zeroAccount (nonce : UInt64) : Option AccountManager :=
  some (AccountManager.empty.updateAccount (Account.make Address.zero 0 nonce))

/-- Room for one transaction. -/
def single : MempoolConfig := { maxTransactionsPerAccount := 1 }

theorem mempool_consistent_single :
    let calls := [.addTransaction (zeroAccount 0) 0 (fromZero 0), .addTransaction (zeroAccount 1) 0 (fromZero 1)]
    Consistent Transparent.primitives (run (call Transparent.primitives) (empty single) calls) ∧
      (run (call Transparent.primitives) (empty single) calls).transactions.size = 1 :=
  ⟨(mempool_consistent Transparent.primitives single (by decide) _).1, by decide +kernel⟩

/-- A second transaction of the zero address is refused because its queue is full, and
the queue has changed: it stores the nonce of the account at that moment. -/
theorem addTransaction_changes_queue :
    let mempool := (empty single).call Transparent.primitives (.addTransaction (zeroAccount 0) 0 (fromZero 0))
    let second := mempool.addTransaction Transparent.primitives (zeroAccount 1) 0 (fromZero 1)
    (fromZero 0).hash Transparent.primitives ≠ (fromZero 1).hash Transparent.primitives ∧ second.1 = false ∧
      (mempool.accountQueues[Address.zero]?).map AccountQueue.nextExpectedNonce = some 0 ∧
      (second.2.accountQueues[Address.zero]?).map AccountQueue.nextExpectedNonce = some 1 := by
  decide +kernel

end Mempool
end State
end Sarafu

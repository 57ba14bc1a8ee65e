import Sarafu.Library.Runs
import Sarafu.Library.SortedInsertion
import Sarafu.State.Mempool

namespace Sarafu
namespace State
namespace Mempool

open Crypto Library.Runs Library.SortedInsertion

/-!
# The three indexes of the mempool

The transactions of the mempool stand in a map by their hash, in an index by their fee
and in a queue for each sender.  All three hold the same transactions, each once.  This
needs no assumption on the hash: a transaction whose hash is already there is refused.

A refused transaction leaves the mempool as it was, with one exception.  A queue counts
as new if its account is the zero address, so the queue of that address is initialized
again by every transaction that comes as far as its queue, also by one that is then
refused because the queue is full.
-/

/-- The transactions queued for a sender. -/
def queueIn (accountQueues : OrderedMap Address AccountQueue) (sender : Address) : List MempoolTransaction :=
  ((accountQueues[sender]?).map AccountQueue.transactions).getD []

variable (prim : Primitives)

/-- A queue holds distinct transactions of its own sender in the order of their nonces. -/
structure Orderly (limit : UInt64) (sender : Address) (queue : List MempoolTransaction) : Prop where
  senders : forall pending, pending ∈ queue -> pending.tx.fromAddr = sender
  sorted : queue.Pairwise fun earlier later => earlier.tx.nonce ≤ later.tx.nonce
  bounded : queue.length ≤ limit.toNat
  distinct : (queue.map fun pending => pending.tx.hash prim).Nodup

/-- The three indexes hold the same transactions, each once. -/
structure Consistent (mempool : Mempool) : Prop where
  fees : forall (hash : Blake3Hash) (pending : MempoolTransaction), mempool.transactions[hash]? = some pending ->
    pending.totalFee = pending.tx.fee
  indexed : forall (fee : UInt64) (hash : Blake3Hash), (fee, hash) ∈ mempool.feeIndex <->
    ∃ pending, mempool.transactions[hash]? = some pending ∧ pending.tx.fee = fee
  indexedOnce : (mempool.feeIndex.map Prod.snd).Nodup
  feeOrder : mempool.feeIndex.Pairwise fun earlier later => earlier.1 ≤ later.1
  queued : forall (hash : Blake3Hash) (pending : MempoolTransaction), mempool.transactions[hash]? = some pending <->
    pending.tx.hash prim = hash ∧ pending ∈ queueIn mempool.accountQueues pending.tx.fromAddr
  queues : forall sender, Orderly prim mempool.config.maxTransactionsPerAccount sender
    (queueIn mempool.accountQueues sender)
  owned : forall (sender : Address) (queue : AccountQueue), mempool.accountQueues[sender]? = some queue ->
    queue.account = sender ∧ queue.transactions ≠ []

variable {prim} {mempool : Mempool} {limit : UInt64} {sender : Address} {queue : List MempoolTransaction}
  {pending : MempoolTransaction}

theorem queueIn_insert (accountQueues : OrderedMap Address AccountQueue) (sender other : Address)
    (queue : AccountQueue) :
    queueIn (accountQueues.insert sender queue) other =
      if other = sender then queue.transactions else queueIn accountQueues other := by
  unfold queueIn
  rw [OrderedMap.find_insert]
  split
  · rfl
  · rfl

theorem queueIn_erase (accountQueues : OrderedMap Address AccountQueue) (sender other : Address) :
    queueIn (accountQueues.erase sender) other = if other = sender then [] else queueIn accountQueues other := by
  unfold queueIn
  rw [OrderedMap.find_erase]
  split
  · rfl
  · rfl

theorem queueIn_eq {accountQueues : OrderedMap Address AccountQueue} {queue : AccountQueue}
    (found : accountQueues[sender]? = some queue) : queueIn accountQueues sender = queue.transactions := by
  unfold queueIn
  rw [found]
  rfl

/-! ## Intake -/

theorem Orderly.place (orderly : Orderly prim limit sender queue) (own : pending.tx.fromAddr = sender)
    (room : queue.length < limit.toNat)
    (fresh : forall other, other ∈ queue -> other.tx.hash prim ≠ pending.tx.hash prim) :
    Orderly prim limit sender (place (fun other => decide (other.tx.nonce < pending.tx.nonce)) pending queue) where
  senders := by
    intro other member
    rcases mem_place.mp member with same | before
    · rw [same]
      exact own
    · exact orderly.senders other before
  sorted := by
    apply pairwise_place
    case transitive => exact fun _ _ _ => UInt64.le_trans
    case ahead => exact fun other smaller => UInt64.le_of_lt (of_decide_eq_true smaller)
    case behind => exact fun other greater => UInt64.not_lt.mp (of_decide_eq_false greater)
    case ordered => exact orderly.sorted
  bounded := by
    rw [length_place]
    exact room
  distinct := by
    rw [((place_perm _ pending queue).map _).nodup_iff, List.map_cons, List.nodup_cons]
    refine ⟨?_, orderly.distinct⟩
    intro member
    rcases List.mem_map.mp member with ⟨other, listed, same⟩
    exact fresh other listed same

/-- The queue of the sender as an accepted transaction finds it. -/
theorem openQueue_spec (consistent : Consistent prim mempool) (manager : Option AccountManager) (sender : Address) :
    (mempool.openQueue manager sender).account = sender ∧
      (mempool.openQueue manager sender).transactions = queueIn mempool.accountQueues sender := by
  unfold openQueue queueIn
  cases found : mempool.accountQueues[sender]? with
  | none => exact ⟨rfl, rfl⟩
  | some queue =>
      simp only [Option.getD_some, Option.map_some]
      split
      · exact ⟨rfl, rfl⟩
      · exact ⟨(consistent.owned sender queue found).1, rfl⟩

/-- A hash that is not in the map is in no queue. -/
theorem Consistent.unlisted (consistent : Consistent prim mempool) {hash : Blake3Hash}
    (fresh : mempool.transactions[hash]? = none) (sender : Address) {other : MempoolTransaction}
    (listed : other ∈ queueIn mempool.accountQueues sender) : other.tx.hash prim ≠ hash := by
  intro same
  have own := (consistent.queues sender).senders other listed
  have stored := (consistent.queued (other.tx.hash prim) other).mpr ⟨rfl, own ▸ listed⟩
  rw [same, fresh] at stored
  cases stored

/-- A hash that is not in the map is not in the fee index. -/
theorem Consistent.unindexed (consistent : Consistent prim mempool) {hash : Blake3Hash}
    (fresh : mempool.transactions[hash]? = none) : hash ∉ mempool.feeIndex.map Prod.snd := by
  intro member
  rcases List.mem_map.mp member with ⟨⟨fee, other⟩, listed, same⟩
  rcases (consistent.indexed fee other).mp listed with ⟨stored, found, _⟩
  rw [show other = hash from same, fresh] at found
  cases found

theorem queueIn_insertInNonceOrder {opened : AccountQueue} (pending : MempoolTransaction)
    (contents : opened.transactions = queueIn mempool.accountQueues pending.tx.fromAddr) (sender : Address) :
    queueIn (mempool.accountQueues.insert pending.tx.fromAddr (insertInNonceOrder opened pending)) sender =
      if sender = pending.tx.fromAddr then
        place (fun other => decide (other.tx.nonce < pending.tx.nonce)) pending (queueIn mempool.accountQueues sender)
      else queueIn mempool.accountQueues sender := by
  rw [queueIn_insert]
  split
  · rename_i same
    rw [same, ← contents]
    rfl
  · rfl

/-- The map and the fee index after a new transaction. -/
theorem Consistent.indexed_store (consistent : Consistent prim mempool) (pending : MempoolTransaction)
    (fresh : mempool.transactions[pending.tx.hash prim]? = none) (fee : UInt64) (hash : Blake3Hash) :
    (fee, hash) ∈ insertFee mempool.feeIndex pending.tx.fee (pending.tx.hash prim) <->
      ∃ stored, (mempool.transactions.insert (pending.tx.hash prim) pending)[hash]? = some stored ∧
        stored.tx.fee = fee := by
  simp only [OrderedMap.find_insert]
  refine mem_place.trans ?_
  rw [Prod.mk.injEq]
  split
  · rename_i same
    constructor
    · rintro (⟨equal, _⟩ | listed)
      · exact ⟨pending, rfl, equal.symm⟩
      · rw [same] at listed
        exact absurd (List.mem_map_of_mem (f := Prod.snd) listed) (consistent.unindexed fresh)
    · rintro ⟨stored, equal, paid⟩
      rw [← Option.some.inj equal] at paid
      exact Or.inl ⟨paid.symm, same⟩
  · rename_i differs
    rw [← consistent.indexed fee hash]
    exact or_iff_right fun both => differs both.2

/-- The map and the queues after a new transaction. -/
theorem Consistent.queued_store (consistent : Consistent prim mempool) (pending : MempoolTransaction)
    {opened : AccountQueue} (fresh : mempool.transactions[pending.tx.hash prim]? = none)
    (contents : opened.transactions = queueIn mempool.accountQueues pending.tx.fromAddr) (hash : Blake3Hash)
    (other : MempoolTransaction) :
    (mempool.transactions.insert (pending.tx.hash prim) pending)[hash]? = some other <->
      other.tx.hash prim = hash ∧ other ∈ queueIn (mempool.accountQueues.insert pending.tx.fromAddr
        (insertInNonceOrder opened pending)) other.tx.fromAddr := by
  rw [OrderedMap.find_insert, queueIn_insertInNonceOrder pending contents]
  split
  · rename_i same
    rw [same]
    constructor
    · intro equal
      rw [← Option.some.inj equal, if_pos rfl]
      exact ⟨rfl, mem_place.mpr (Or.inl rfl)⟩
    · rintro ⟨equal, listed⟩
      split at listed
      · rcases mem_place.mp listed with now | before
        · rw [now]
        · exact absurd equal (consistent.unlisted fresh _ before)
      · exact absurd equal (consistent.unlisted fresh _ listed)
  · rename_i differs
    rw [consistent.queued hash other]
    refine and_congr_right fun equal => ?_
    split
    · rw [mem_place]
      refine (or_iff_right ?_).symm
      intro same
      rw [same] at equal
      exact differs equal.symm
    · rfl

/-- The mempool with a transaction in all three places. -/
theorem Consistent.store (consistent : Consistent prim mempool) (pending : MempoolTransaction) {opened : AccountQueue}
    (fresh : mempool.transactions[pending.tx.hash prim]? = none)
    (fee : pending.totalFee = pending.tx.fee) (account : opened.account = pending.tx.fromAddr)
    (contents : opened.transactions = queueIn mempool.accountQueues pending.tx.fromAddr)
    (room : opened.transactions.length < mempool.config.maxTransactionsPerAccount.toNat) :
    Consistent prim { mempool with
      accountQueues := mempool.accountQueues.insert pending.tx.fromAddr (insertInNonceOrder opened pending)
      transactions := mempool.transactions.insert (pending.tx.hash prim) pending
      feeIndex := insertFee mempool.feeIndex pending.tx.fee (pending.tx.hash prim) } := by
  constructor
  case fees =>
    intro hash stored found
    rw [OrderedMap.find_insert] at found
    split at found
    · rw [← Option.some.inj found]
      exact fee
    · exact consistent.fees hash stored found
  case indexed => exact consistent.indexed_store pending fresh
  case indexedOnce =>
    change (List.map Prod.snd (place _ _ mempool.feeIndex)).Nodup
    rw [((place_perm _ _ mempool.feeIndex).map _).nodup_iff, List.map_cons, List.nodup_cons]
    exact ⟨consistent.unindexed fresh, consistent.indexedOnce⟩
  case feeOrder =>
    apply pairwise_place
    case transitive => exact fun _ _ _ => UInt64.le_trans
    case ahead => exact fun other smaller => of_decide_eq_true smaller
    case behind => exact fun other greater => UInt64.le_of_lt (UInt64.not_le.mp (of_decide_eq_false greater))
    case ordered => exact consistent.feeOrder
  case queued => exact consistent.queued_store pending fresh contents
  case queues =>
    intro sender
    rw [queueIn_insertInNonceOrder pending contents]
    split
    · rename_i same
      refine (consistent.queues sender).place same.symm ?_ fun other => consistent.unlisted fresh sender
      rw [same, ← contents]
      exact room
    · exact consistent.queues sender
  case owned =>
    intro sender queue found
    rw [OrderedMap.find_insert] at found
    split at found
    · rename_i same
      rw [← Option.some.inj found, same]
      refine ⟨account, ?_⟩
      exact List.append_ne_nil_of_right_ne_nil _ (List.cons_ne_nil _ _)
    · exact consistent.owned sender queue found

/-- A queue that is initialized again holds what it held. -/
theorem Consistent.reopen (consistent : Consistent prim mempool) {opened : AccountQueue}
    (account : opened.account = sender) (contents : opened.transactions = queueIn mempool.accountQueues sender)
    (filled : opened.transactions ≠ []) :
    Consistent prim { mempool with accountQueues := mempool.accountQueues.insert sender opened } := by
  have same : forall other, queueIn (mempool.accountQueues.insert sender opened) other =
      queueIn mempool.accountQueues other := by
    intro other
    rw [queueIn_insert]
    split
    · rename_i equal
      rw [equal]
      exact contents
    · rfl
  constructor
  case fees => exact consistent.fees
  case indexed => exact consistent.indexed
  case indexedOnce => exact consistent.indexedOnce
  case feeOrder => exact consistent.feeOrder
  case queued =>
    intro hash pending
    rw [same]
    exact consistent.queued hash pending
  case queues =>
    intro other
    rw [same]
    exact consistent.queues other
  case owned =>
    intro other queue found
    rw [OrderedMap.find_insert] at found
    split at found
    · rename_i equal
      rw [← Option.some.inj found, equal]
      exact ⟨account, filled⟩
    · exact consistent.owned other queue found

/-! ## Removal -/

theorem Orderly.filter (orderly : Orderly prim limit sender queue) (keeps : MempoolTransaction -> Bool) :
    Orderly prim limit sender (queue.filter keeps) where
  senders := fun pending member => orderly.senders pending (List.mem_of_mem_filter member)
  sorted := orderly.sorted.filter keeps
  bounded := Nat.le_trans (List.length_filter_le keeps queue) orderly.bounded
  distinct := orderly.distinct.sublist (List.filter_sublist.map _)

theorem queueIn_removeQueued (accountQueues : OrderedMap Address AccountQueue) (sender other : Address)
    (txHash : Blake3Hash) :
    queueIn (removeQueued prim accountQueues sender txHash) other =
      if other = sender then
        (queueIn accountQueues sender).filter fun pending => decide (pending.tx.hash prim ≠ txHash)
      else queueIn accountQueues other := by
  unfold removeQueued
  cases found : accountQueues[sender]? with
  | none =>
      change queueIn accountQueues other = _
      split
      · rename_i same
        rw [same, queueIn, found]
        rfl
      · rfl
  | some queue =>
      rw [queueIn_eq found]
      by_cases empty : (queue.transactions.filter fun pending => decide (pending.tx.hash prim ≠ txHash)).isEmpty = true
      · simp only [empty, if_true]
        rw [queueIn_erase, List.isEmpty_iff.mp empty]
      · simp only [empty]
        exact queueIn_insert accountQueues sender other _

theorem owned_removeQueued (consistent : Consistent prim mempool) (sender : Address) (txHash : Blake3Hash)
    {other : Address} {queue : AccountQueue}
    (found : (removeQueued prim mempool.accountQueues sender txHash)[other]? = some queue) :
    queue.account = other ∧ queue.transactions ≠ [] := by
  unfold removeQueued at found
  cases stored : mempool.accountQueues[sender]? with
  | none =>
      rw [stored] at found
      exact consistent.owned other queue found
  | some old =>
      simp only [stored] at found
      split at found
      · rw [OrderedMap.find_erase] at found
        split at found
        · cases found
        · exact consistent.owned other queue found
      · rename_i filled
        rw [OrderedMap.find_insert] at found
        split at found
        · rename_i same
          rw [← Option.some.inj found, same]
          exact ⟨(consistent.owned sender old stored).1, fun empty => filled (List.isEmpty_iff.mpr empty)⟩
        · exact consistent.owned other queue found

theorem config_removeTransaction (mempool : Mempool) (txHash : Blake3Hash) :
    (mempool.removeTransaction prim txHash).config = mempool.config := by
  unfold removeTransaction
  split
  · rfl
  · rfl

/-- The map and the fee index without a transaction. -/
theorem Consistent.indexed_remove (consistent : Consistent prim mempool) {txHash : Blake3Hash}
    (found : mempool.transactions[txHash]? = some pending) (fee : UInt64) (hash : Blake3Hash) :
    (fee, hash) ∈ mempool.feeIndex.erase (pending.totalFee, txHash) <->
      ∃ stored, (mempool.transactions.erase txHash)[hash]? = some stored ∧ stored.tx.fee = fee := by
  have distinct : mempool.feeIndex.Nodup := consistent.indexedOnce.of_map
  rw [distinct.mem_erase_iff, OrderedMap.find_erase, consistent.indexed fee hash]
  split
  · rename_i same
    refine iff_of_false ?_ nofun
    rintro ⟨differs, other, stored, paid⟩
    rw [same] at stored differs
    rw [Option.some.inj (stored.symm.trans found), ← consistent.fees txHash pending found] at paid
    exact differs (Prod.ext paid.symm rfl)
  · rename_i differs
    exact and_iff_right fun same => differs (congrArg Prod.snd same)

/-- The map and the queues without a transaction. -/
theorem Consistent.queued_remove (consistent : Consistent prim mempool) {txHash : Blake3Hash}
    (found : mempool.transactions[txHash]? = some pending) (hash : Blake3Hash) (other : MempoolTransaction) :
    (mempool.transactions.erase txHash)[hash]? = some other <->
      other.tx.hash prim = hash ∧
        other ∈ queueIn (removeQueued prim mempool.accountQueues pending.tx.fromAddr txHash) other.tx.fromAddr := by
  rw [OrderedMap.find_erase, queueIn_removeQueued]
  split
  · rename_i same
    refine iff_of_false nofun ?_
    rintro ⟨equal, listed⟩
    split at listed
    · exact of_decide_eq_true (List.mem_filter.mp listed).2 (equal.trans same)
    · rename_i elsewhere
      have stored := (consistent.queued hash other).mpr ⟨equal, listed⟩
      rw [same] at stored
      rw [Option.some.inj (stored.symm.trans found)] at elsewhere
      exact elsewhere rfl
  · rename_i differs
    rw [consistent.queued hash other]
    refine and_congr_right fun equal => ?_
    split
    · rename_i same
      rw [same, List.mem_filter]
      have kept : other.tx.hash prim ≠ txHash := fun hashed => differs (equal.symm.trans hashed)
      exact (and_iff_left (decide_eq_true kept)).symm
    · rfl

/-- The mempool without a transaction, taken out of all three places. -/
theorem Consistent.remove (consistent : Consistent prim mempool) (txHash : Blake3Hash) :
    Consistent prim (mempool.removeTransaction prim txHash) := by
  unfold removeTransaction
  cases found : mempool.transactions[txHash]? with
  | none => exact consistent
  | some pending =>
      constructor
      case fees =>
        intro hash other stored
        rw [OrderedMap.find_erase] at stored
        split at stored
        · cases stored
        · exact consistent.fees hash other stored
      case indexed => exact consistent.indexed_remove found
      case indexedOnce => exact consistent.indexedOnce.sublist (List.erase_sublist.map _)
      case feeOrder => exact consistent.feeOrder.sublist List.erase_sublist
      case queued => exact consistent.queued_remove found
      case queues =>
        intro sender
        rw [queueIn_removeQueued]
        by_cases same : sender = pending.tx.fromAddr
        · rw [if_pos same, same]
          exact (consistent.queues _).filter _
        · rw [if_neg same]
          exact consistent.queues sender
      case owned => exact fun other queue stored => owned_removeQueued consistent pending.tx.fromAddr txHash stored

theorem Consistent.removeAll (consistent : Consistent prim mempool) (txHashes : List Blake3Hash) :
    Consistent prim (mempool.removeTransactions prim txHashes) := by
  unfold removeTransactions
  induction txHashes generalizing mempool with
  | nil => exact consistent
  | cons txHash rest inductionHypothesis => exact inductionHypothesis (consistent.remove txHash)

theorem config_removeTransactions (mempool : Mempool) (txHashes : List Blake3Hash) :
    (mempool.removeTransactions prim txHashes).config = mempool.config := by
  unfold removeTransactions
  induction txHashes generalizing mempool with
  | nil => rfl
  | cons txHash rest inductionHypothesis =>
      exact (inductionHypothesis _).trans (config_removeTransaction mempool txHash)

theorem consistent_empty (prim : Primitives) (config : MempoolConfig) : Consistent prim (empty config) := by
  have noTransaction : forall hash : Blake3Hash, (empty config).transactions[hash]? = none := fun _ =>
    Std.ExtTreeMap.getElem?_empty
  have noQueue : forall sender : Address, (empty config).accountQueues[sender]? = none := fun _ =>
    Std.ExtTreeMap.getElem?_empty
  have nothing : forall sender, queueIn (empty config).accountQueues sender = [] := by
    intro sender
    rw [queueIn, noQueue]
    rfl
  constructor
  case fees => exact fun hash pending found => nomatch (noTransaction hash).symm.trans found
  case indexed =>
    intro fee hash
    rw [noTransaction]
    exact iff_of_false List.not_mem_nil nofun
  case indexedOnce => exact List.nodup_nil
  case feeOrder => exact List.Pairwise.nil
  case queued =>
    intro hash pending
    rw [noTransaction, nothing]
    exact iff_of_false nofun fun both => List.not_mem_nil both.2
  case queues =>
    intro sender
    rw [nothing]
    exact ⟨nofun, List.Pairwise.nil, Nat.zero_le _, List.nodup_nil⟩
  case owned => exact fun sender queue found => nomatch (noQueue sender).symm.trans found

end Mempool
end State
end Sarafu

import Sarafu.Network.Gossip

namespace Sarafu
namespace Network

open Crypto State Library Library.Runs

/-!
# Messages that are handled again

A hash that has been marked stays marked for an hour at least, if the clock does not go
back.  Marking it again moves its time on, and marking another one may remove it.  A call
happens at the time that it reads from the clock.
-/

/-- The time at which a call is made, of the calls that read the clock. -/
def GossipCall.time : GossipCall -> Option UInt64
  | .broadcast now _ => some now
  | .handleMessage now _ => some now
  | .initializeLayer _ => none
  | .shutdown => none
  | .onMessage _ => none

/-- The clock does not go back from a call to a later one. -/
def Chronological (calls : List GossipCall) : Prop :=
  (calls.filterMap GossipCall.time).Pairwise fun earlier later => earlier.toNat ≤ later.toNat

instance (calls : List GossipCall) : Decidable (Chronological calls) :=
  inferInstanceAs (Decidable (List.Pairwise _ _))

/-- An entry expires more than an hour after its time. -/
theorem expired_iff {now timestamp : UInt64} (since : timestamp.toNat ≤ now.toNat) :
    expired now timestamp = true <-> timestamp.toNat + seenMessageTTL.toNat < now.toNat := by
  unfold expired
  rw [decide_eq_true_iff, UInt64.lt_iff_toNat_lt, UInt64.toNat_sub_of_le _ _ (UInt64.le_iff_toNat_le.mpr since)]
  omega

namespace NetworkLayer

/-- The message whose handler a call invokes, and when. -/
def invoked (layer : NetworkLayer) : GossipCall -> Option Processed
  | .handleMessage now message => (layer.handleMessage now message).1.map fun handler => ⟨handler.2, now⟩
  | .broadcast _ _ => none
  | .initializeLayer _ => none
  | .shutdown => none
  | .onMessage _ => none

/-- The handler invocations in a sequence of calls. -/
def invocations (calls : List GossipCall) : List Processed := outputs call invoked create calls

theorem time_of_processed {layer : NetworkLayer} {step : GossipCall} {entry : Processed}
    (made : layer.processed step = some entry) : step.time = some entry.time := by
  cases step with
  | initializeLayer starts => cases made
  | shutdown => cases made
  | onMessage type => cases made
  | broadcast now message =>
      simp only [processed] at made
      split at made
      · rw [← Option.some.inj made]
        rfl
      · cases made
  | handleMessage now message =>
      simp only [processed] at made
      split at made
      · cases made
      · rw [← Option.some.inj made]
        rfl

/-- A handler is invoked only for an unseen message, which is processed. -/
theorem processed_of_invoked {layer : NetworkLayer} {step : GossipCall} {entry : Processed}
    (made : layer.invoked step = some entry) :
    layer.processed step = some entry ∧ layer.isMessageSeen entry.message.hash = false := by
  cases step with
  | initializeLayer starts => cases made
  | shutdown => cases made
  | onMessage type => cases made
  | broadcast now message => cases made
  | handleMessage now message =>
      simp only [invoked] at made
      cases seen : layer.isMessageSeen message.hash with
      | true =>
          rw [handleMessage_of_seen seen] at made
          cases made
      | false =>
          rw [handleMessage_of_unseen seen] at made
          simp only [processed, seen, Bool.false_eq_true, if_false]
          split at made
          · rw [← Option.some.inj made]
            exact ⟨rfl, seen⟩
          · cases made

theorem mem_log_of_invocations {calls : List GossipCall} {entry : Processed} (member : entry ∈ invocations calls) :
    entry ∈ log calls :=
  mem_outputs_iff.mpr ((mem_outputs_iff.mp member).mono fun _ _ made => (processed_of_invoked made).1)

theorem times_sublist (layer : NetworkLayer) (calls : List GossipCall) :
    ((outputs call processed layer calls).map Processed.time).Sublist (calls.filterMap GossipCall.time) := by
  induction calls generalizing layer with
  | nil => exact List.Sublist.slnil
  | cons step rest inductionHypothesis =>
      have behind := inductionHypothesis (layer.call step)
      rw [outputs, List.map_append]
      cases made : layer.processed step with
      | none =>
          cases time : step.time with
          | none =>
              rw [List.filterMap_cons_none time]
              exact behind
          | some now =>
              rw [List.filterMap_cons_some time]
              exact behind.cons now
      | some entry =>
          rw [List.filterMap_cons_some (time_of_processed made)]
          exact behind.cons_cons entry.time

variable {calls : List GossipCall} {hash : Blake3Hash}

theorem notes_ordered (chronological : Chronological calls) :
    ((log calls).map Processed.note).Pairwise fun earlier later => earlier.stamp.toNat ≤ later.stamp.toNat := by
  have times := chronological.sublist (times_sublist create calls)
  rw [List.pairwise_map] at times ⊢
  exact times

/-- If the hash of a processed message has no entry, then more than an hour has passed. -/
theorem expired_of_unseen (chronological : Chronological calls) {entry : Processed} (member : entry ∈ log calls)
    (unseen : (afterCalls calls).isMessageSeen entry.message.hash = false) :
    ∃ other, other ∈ log calls ∧ entry.time.toNat + seenMessageTTL.toNat < other.time.toNat := by
  rw [isMessageSeen_eq_false_iff_memory, memory_afterCalls] at unseen
  rcases SweptMemory.held_or_removed UInt64.toNat expired_self (notes_ordered chronological)
    (List.mem_map_of_mem (f := Processed.note) member) with
    ⟨held, _, found, _⟩ | ⟨stamp, made, listed, since, before, gone⟩
  · have held := found.symm.trans unseen
    cases held
  · rcases List.mem_map.mp listed with ⟨other, known, rfl⟩
    have late := (expired_iff before).mp gone
    exact ⟨other, known, Nat.lt_of_le_of_lt (Nat.add_le_add_right since _) late⟩

theorem Chronological.before {earlier later : List GossipCall} (chronological : Chronological (earlier ++ later)) :
    Chronological earlier :=
  chronological.sublist ((List.sublist_append_left earlier later).filterMap _)

/-- Everything that was processed was processed before the time of a later call. -/
theorem time_le_of_log {step : GossipCall} {now : UInt64} (chronological : Chronological (calls ++ [step]))
    (time : step.time = some now) {entry : Processed} (member : entry ∈ log calls) : entry.time.toNat ≤ now.toNat := by
  have listed : entry.time ∈ calls.filterMap GossipCall.time :=
    (times_sublist create calls).subset (List.mem_map_of_mem member)
  unfold Chronological at chronological
  rw [List.filterMap_append, List.pairwise_append] at chronological
  refine chronological.2.2 entry.time listed now ?_
  rw [List.filterMap_cons_some time]
  exact List.mem_cons_self

/-- A handler is invoked more than an hour after a message with the same hash was processed. -/
theorem later_of_invoked {step : GossipCall} (chronological : Chronological (calls ++ [step])) {entry made : Processed}
    (member : entry ∈ log calls) (invoked : (afterCalls calls).invoked step = some made)
    (same : entry.message.hash = made.message.hash) :
    entry.time.toNat + seenMessageTTL.toNat < made.time.toNat := by
  rcases processed_of_invoked invoked with ⟨processed, unseen⟩
  rw [← same] at unseen
  rcases expired_of_unseen (Chronological.before chronological) member unseen with ⟨other, listed, late⟩
  exact Nat.lt_of_lt_of_le late (time_le_of_log chronological (time_of_processed processed) listed)

theorem invocations_apart (chronological : Chronological calls) :
    (invocations calls).Pairwise fun earlier later => earlier.message.hash = later.message.hash ->
      earlier.time.toNat + seenMessageTTL.toNat < later.time.toNat := by
  induction calls using List.reverseRecOn with
  | nil => exact List.Pairwise.nil
  | append_singleton calls step inductionHypothesis =>
      unfold invocations
      rw [outputs_concat, List.pairwise_append]
      refine ⟨inductionHypothesis (Chronological.before chronological), ?_, ?_⟩
      · cases (run call create calls).invoked step with
        | none => exact List.Pairwise.nil
        | some made => exact List.pairwise_singleton _ made
      · intro entry earlier made now same
        exact later_of_invoked chronological (mem_log_of_invocations earlier) (Option.mem_toList.mp now) same

/-- The call that removes the entry of a hash is made more than an hour after the hash was
marked, also for the last time. -/
theorem forgotten_later {step : GossipCall} (chronological : Chronological (calls ++ [step]))
    (seen : (afterCalls calls).isMessageSeen hash = true)
    (unseen : (afterCalls (calls ++ [step])).isMessageSeen hash = false) :
    ∃ now, step.time = some now ∧ forall entry, entry ∈ log calls -> entry.message.hash = hash ->
      entry.time.toNat + seenMessageTTL.toNat < now.toNat := by
  have extended : log (calls ++ [step]) = log calls ++ ((afterCalls calls).processed step).toList :=
    outputs_concat create calls step
  cases made : (afterCalls calls).processed step with
  | none =>
      -- a call that processes nothing removes nothing
      rw [made] at extended
      rw [isMessageSeen_eq_false_iff_memory, memory_afterCalls, extended, Option.toList_none, List.append_nil,
        ← memory_afterCalls, ← isMessageSeen_eq_false_iff_memory, seen] at unseen
      cases unseen
  | some last =>
      refine ⟨last.time, time_of_processed made, ?_⟩
      rintro entry member rfl
      have listed : entry ∈ log (calls ++ [step]) := by
        rw [extended]
        exact List.mem_append_left _ member
      rcases expired_of_unseen chronological listed unseen with ⟨other, known, late⟩
      refine Nat.lt_of_lt_of_le late ?_
      rw [extended, made, Option.toList_some] at known
      rcases List.mem_append.mp known with old | new
      · exact time_le_of_log chronological (time_of_processed made) old
      · rw [List.mem_singleton.mp new]

end NetworkLayer

/-- Between two invocations of handlers for messages with the same hash more than an hour
passes, and a hash is forgotten more than an hour after every time that it was marked. -/
theorem handled_once_within_ttl (calls : List GossipCall) (chronological : Chronological calls) :
    ((NetworkLayer.invocations calls).Pairwise fun earlier later => earlier.message.hash = later.message.hash ->
      earlier.time.toNat + seenMessageTTL.toNat < later.time.toNat) ∧
    forall before step after hash, calls = before ++ step :: after ->
      (NetworkLayer.afterCalls before).isMessageSeen hash = true ->
      (NetworkLayer.afterCalls (before ++ [step])).isMessageSeen hash = false ->
        ∃ now, step.time = some now ∧
          forall entry, entry ∈ NetworkLayer.log before -> entry.message.hash = hash ->
            entry.time.toNat + seenMessageTTL.toNat < now.toNat := by
  refine ⟨NetworkLayer.invocations_apart chronological, ?_⟩
  rintro before step after hash rfl seen unseen
  refine NetworkLayer.forgotten_later ?_ seen unseen
  rw [← List.singleton_append, ← List.append_assoc] at chronological
  exact NetworkLayer.Chronological.before chronological

/-- A vote comes three times.  Within the hour it is not handled again, and after another
message has removed its hash it is. -/
def repeatedVote : List GossipCall :=
  let vote := NetworkMessage.make Transparent.primitives .vote [1]
  [.onMessage .vote, .handleMessage 1000 vote, .handleMessage 4600 vote,
    .handleMessage 4601 (NetworkMessage.make Transparent.primitives .vote [2]), .handleMessage 4602 vote]

theorem handled_once_within_ttl_repeatedVote :
    ((NetworkLayer.invocations repeatedVote).map Processed.time = [1000, 4601, 4602]) ∧
    ((NetworkLayer.invocations repeatedVote).Pairwise fun earlier later =>
      earlier.message.hash = later.message.hash ->
        earlier.time.toNat + seenMessageTTL.toNat < later.time.toNat) :=
  ⟨by decide +kernel, (handled_once_within_ttl repeatedVote (by decide +kernel)).1⟩

end Network
end Sarafu

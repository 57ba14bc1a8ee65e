import Sarafu.Crypto.Transparent
import Sarafu.Library.Histories
import Sarafu.Library.SweptMemory
import Sarafu.Network.NetworkMessage

namespace Sarafu
namespace Network

open Crypto State Library Library.Runs

/-!
# Gossip and duplicate suppression

The network layer notes the hash of every message that it broadcasts or handles, and it
ignores a message whose hash it has noted.  The hash is the one of the payload, and expired
hashes are removed only when another one is noted.

Connections and the sending of messages do not influence what is suppressed and are left
out.  A handler runs after the message has been noted, so its own broadcasts are calls that
follow.
-/

/-- One hour. -/
def seenMessageTTL : UInt64 := 3600

/-- `now - timestamp > SEEN_MESSAGE_TTL`, in 64 bits. -/
def expired (now timestamp : UInt64) : Bool := decide (seenMessageTTL < now - timestamp)

structure NetworkLayer where
  messageHandlers : List MessageType
  seenMessages : OrderedMap Blake3Hash UInt64
  initialized : Bool

namespace NetworkLayer

/-- The constructor. -/
def create : NetworkLayer := ⟨[], ∅, false⟩

/-- Starting the host may fail. -/
def initializeLayer (layer : NetworkLayer) (starts : Bool) : NetworkLayer :=
  if layer.initialized then layer else { layer with initialized := starts }

def shutdown (layer : NetworkLayer) : NetworkLayer := { layer with initialized := false }

def onMessage (layer : NetworkLayer) (type : MessageType) : NetworkLayer :=
  { layer with messageHandlers := type :: layer.messageHandlers }

def isMessageSeen (layer : NetworkLayer) (hash : Blake3Hash) : Bool := (layer.seenMessages[hash]?).isSome

/-- The time of the entry is not compared with the clock when it is looked up. -/
def markMessageSeen (layer : NetworkLayer) (now : UInt64) (hash : Blake3Hash) : NetworkLayer :=
  { layer with
    seenMessages := (layer.seenMessages.insert hash now).filter fun _ timestamp => !expired now timestamp }

def broadcast (layer : NetworkLayer) (now : UInt64) (message : NetworkMessage) : Except Failure NetworkLayer :=
  if layer.initialized = false then .error (.runtimeError "NetworkLayer::broadcast: not initialized")
  else .ok (layer.markMessageSeen now message.hash)

/-- The handler that is called, if any, and the new state. -/
def handleMessage (layer : NetworkLayer) (now : UInt64) (message : NetworkMessage) :
    Option (MessageType × NetworkMessage) × NetworkLayer :=
  if layer.isMessageSeen message.hash then (none, layer)
  else
    (if message.type ∈ layer.messageHandlers then some (message.type, message) else none,
      layer.markMessageSeen now message.hash)

end NetworkLayer

/-- The calls that this part of the layer takes, each at its time. -/
inductive GossipCall
  | initializeLayer (starts : Bool)
  | shutdown
  | onMessage (type : MessageType)
  | broadcast (now : UInt64) (message : NetworkMessage)
  | handleMessage (now : UInt64) (message : NetworkMessage)

def GossipCall.message : GossipCall -> Option NetworkMessage
  | .broadcast _ message => some message
  | .handleMessage _ message => some message
  | .initializeLayer _ => none
  | .shutdown => none
  | .onMessage _ => none

/-- A message that was processed, and when. -/
structure Processed where
  message : NetworkMessage
  time : UInt64
deriving DecidableEq

namespace NetworkLayer

def call (layer : NetworkLayer) : GossipCall -> NetworkLayer
  | .initializeLayer starts => layer.initializeLayer starts
  | .shutdown => layer.shutdown
  | .onMessage type => layer.onMessage type
  | .broadcast now message =>
      match layer.broadcast now message with
      | .error _ => layer
      | .ok marked => marked
  | .handleMessage now message => (layer.handleMessage now message).2

/-- What a call processes: a duplicate is ignored, and a broadcast may throw. -/
def processed (layer : NetworkLayer) : GossipCall -> Option Processed
  | .initializeLayer _ => none
  | .shutdown => none
  | .onMessage _ => none
  | .broadcast now message => if layer.initialized then some ⟨message, now⟩ else none
  | .handleMessage now message => if layer.isMessageSeen message.hash then none else some ⟨message, now⟩

/-- The layer after a sequence of calls. -/
def afterCalls (calls : List GossipCall) : NetworkLayer := run call create calls

/-- The messages processed in a sequence of calls. -/
def log (calls : List GossipCall) : List Processed := outputs call processed create calls

end NetworkLayer

/-- What is noted of a message. -/
def Processed.note (entry : Processed) : SweptMemory.Note Blake3Hash UInt64 := ⟨entry.message.hash, entry.time⟩

/-- A message of this type with this payload was processed in the last hour. -/
def ProcessedRecently (log : List Processed) (type : MessageType) (payload : List UInt8) (now : UInt64) : Prop :=
  ∃ entry, entry ∈ log ∧ entry.message.type = type ∧ entry.message.payload = payload ∧
    entry.time.toNat ≤ now.toNat ∧ now.toNat ≤ entry.time.toNat + seenMessageTTL.toNat

instance (log : List Processed) (type : MessageType) (payload : List UInt8) (now : UInt64) :
    Decidable (ProcessedRecently log type payload now) :=
  inferInstanceAs (Decidable (∃ entry, entry ∈ log ∧ _))

/-- The last processed message with this payload, of any type, was followed by a processed
message more than an hour later. -/
def PayloadSwept (log : List Processed) (payload : List UInt8) : Prop :=
  forall before entry later, log = before ++ entry :: later -> entry.message.payload = payload ->
    (forall other, other ∈ later -> other.message.payload ≠ payload) ->
      ∃ other, other ∈ later ∧ expired other.time entry.time = true

namespace NetworkLayer

/-! ## The noted hashes as a swept memory -/

def memory (layer : NetworkLayer) : SweptMemory.Memory Blake3Hash UInt64 := fun hash => layer.seenMessages[hash]?

theorem memory_markMessageSeen (layer : NetworkLayer) (entry : Processed) :
    (layer.markMessageSeen entry.time entry.message.hash).memory =
      SweptMemory.note expired layer.memory entry.note := by
  funext hash
  change ((layer.seenMessages.insert entry.message.hash entry.time).filter _)[hash]? = _
  rw [OrderedMap.find_filter, OrderedMap.find_insert]
  rfl

/-- A call notes what it processes. -/
theorem memory_call (layer : NetworkLayer) (step : GossipCall) : (layer.call step).memory =
    run (SweptMemory.note expired) layer.memory ((layer.processed step).toList.map Processed.note) := by
  cases step with
  | initializeLayer starts =>
      change (layer.initializeLayer starts).memory = layer.memory
      unfold initializeLayer
      split
      · rfl
      · rfl
  | shutdown => rfl
  | onMessage type => rfl
  | broadcast now message =>
      cases started : layer.initialized with
      | false =>
          simp only [call, broadcast, processed, started, if_true, Bool.false_eq_true, if_false, Option.toList_none,
            List.map_nil, run_nil]
      | true =>
          simp only [call, broadcast, processed, started, Bool.true_eq_false, if_false, if_true, Option.toList_some,
            List.map_cons, List.map_nil, run_cons, run_nil]
          exact layer.memory_markMessageSeen ⟨message, now⟩
  | handleMessage now message =>
      cases seen : layer.isMessageSeen message.hash with
      | true => simp only [call, handleMessage, processed, seen, if_true, Option.toList_none, List.map_nil, run_nil]
      | false =>
          simp only [call, handleMessage, processed, seen, Bool.false_eq_true, if_false, Option.toList_some,
            List.map_cons, List.map_nil, run_cons, run_nil]
          exact layer.memory_markMessageSeen ⟨message, now⟩

theorem memory_run (layer : NetworkLayer) (calls : List GossipCall) : (run call layer calls).memory =
    run (SweptMemory.note expired) layer.memory ((outputs call processed layer calls).map Processed.note) := by
  induction calls generalizing layer with
  | nil => rfl
  | cons step rest inductionHypothesis =>
      rw [outputs, List.map_append, run_append, ← memory_call]
      exact inductionHypothesis (layer.call step)

theorem expired_self (time : UInt64) : expired time time = false := by
  unfold expired
  rw [UInt64.sub_self]
  rfl

/-- After a sequence of calls the noted hashes are what is remembered of the log. -/
theorem memory_afterCalls (calls : List GossipCall) :
    (afterCalls calls).memory = SweptMemory.after expired ((log calls).map Processed.note) := by
  have start : create.memory = fun _ => none := by
    funext other
    exact Std.ExtTreeMap.getElem?_empty
  rw [afterCalls, memory_run, start]
  rfl

theorem isMessageSeen_eq_false_iff_memory (layer : NetworkLayer) (hash : Blake3Hash) :
    layer.isMessageSeen hash = false <-> layer.memory hash = none := by
  unfold isMessageSeen
  rw [Option.isSome_eq_false_iff, Option.isNone_iff_eq_none]
  exact Iff.rfl

/-- A hash has no entry if and only if the last message with this hash was swept. -/
theorem isMessageSeen_eq_false_iff (calls : List GossipCall) (hash : Blake3Hash) :
    (afterCalls calls).isMessageSeen hash = false <->
      SweptMemory.Forgotten expired ((log calls).map Processed.note) hash := by
  rw [isMessageSeen_eq_false_iff_memory, memory_afterCalls]
  exact SweptMemory.after_eq_none_iff expired_self _ hash

end NetworkLayer

/-! ## Suppression -/

/-- The messages of the calls come from the constructor, and a payload that hashes like
this one is this one. -/
structure Authentic (prim : Primitives) (calls : List GossipCall) (payload : List UInt8) : Prop where
  constructed : forall step, step ∈ calls -> forall message, step.message = some message ->
    message = NetworkMessage.make prim message.type message.payload
  distinct : forall step, step ∈ calls -> forall message, step.message = some message ->
    prim.blake3 message.payload = prim.blake3 payload -> message.payload = payload

variable {prim : Primitives} {calls : List GossipCall} {payload : List UInt8}

theorem NetworkLayer.message_of_processed {layer : NetworkLayer} {step : GossipCall} {entry : Processed}
    (made : layer.processed step = some entry) : step.message = some entry.message := by
  cases step with
  | initializeLayer starts => cases made
  | shutdown => cases made
  | onMessage type => cases made
  | broadcast now message =>
      simp only [processed] at made
      split at made
      · rw [← Option.some.inj made]
        rfl
      · cases made
  | handleMessage now message =>
      simp only [processed] at made
      split at made
      · cases made
      · rw [← Option.some.inj made]
        rfl

/-- A processed message has the hash of the payload exactly if it has the payload. -/
theorem Authentic.hash_eq_iff (authentic : Authentic prim calls payload) {entry : Processed}
    (member : entry ∈ NetworkLayer.log calls) :
    entry.message.hash = prim.blake3 payload <-> entry.message.payload = payload := by
  rcases (mem_outputs_iff.mp member).exists_mem with ⟨layer, step, listed, made⟩
  have message := NetworkLayer.message_of_processed made
  have hash : entry.message.hash = prim.blake3 entry.message.payload :=
    congrArg NetworkMessage.hash (authentic.constructed step listed entry.message message)
  rw [hash]
  constructor
  · exact authentic.distinct step listed entry.message message
  · rintro rfl
    rfl

theorem Authentic.forgotten_iff (authentic : Authentic prim calls payload) :
    SweptMemory.Forgotten expired ((NetworkLayer.log calls).map Processed.note) (prim.blake3 payload) <->
      PayloadSwept (NetworkLayer.log calls) payload := by
  constructor
  · intro forgotten before entry later split same last
    have mine := (authentic.hash_eq_iff (split ▸ List.mem_append_right before List.mem_cons_self)).mpr same
    have others : forall other, other ∈ later -> other ∈ NetworkLayer.log calls := fun other member =>
      split ▸ List.mem_append_right before (List.mem_cons_of_mem entry member)
    have notes : (NetworkLayer.log calls).map Processed.note =
        before.map Processed.note ++ ⟨prim.blake3 payload, entry.time⟩ :: later.map Processed.note := by
      rw [split, List.map_append, List.map_cons, Processed.note, mine]
    have lastNote : forall note, note ∈ later.map Processed.note -> note.key ≠ prim.blake3 payload := by
      intro note member
      rcases List.mem_map.mp member with ⟨other, listed, rfl⟩
      exact fun equal => last other listed ((authentic.hash_eq_iff (others other listed)).mp equal)
    rcases forgotten _ entry.time _ notes lastNote with ⟨note, member, gone⟩
    rcases List.mem_map.mp member with ⟨other, listed, rfl⟩
    exact ⟨other, listed, gone⟩
  · intro swept before time later split last
    rcases List.map_eq_append_iff.mp split with ⟨earlier, rest, parts, rfl, restNotes⟩
    rcases List.map_eq_cons_iff.mp restNotes with ⟨entry, following, rfl, noted, rfl⟩
    have noteHash : entry.message.hash = prim.blake3 payload := congrArg SweptMemory.Note.key noted
    have noteTime : entry.time = time := congrArg SweptMemory.Note.stamp noted
    have listed : entry ∈ NetworkLayer.log calls := parts ▸ List.mem_append_right earlier List.mem_cons_self
    have lastEntry : forall other, other ∈ following -> other.message.payload ≠ payload := by
      intro other member same
      have known : other ∈ NetworkLayer.log calls :=
        parts ▸ List.mem_append_right earlier (List.mem_cons_of_mem entry member)
      exact last other.note (List.mem_map_of_mem member) ((authentic.hash_eq_iff known).mpr same)
    rcases swept earlier entry following parts ((authentic.hash_eq_iff listed).mp noteHash) lastEntry with
      ⟨other, member, gone⟩
    exact ⟨other.note, List.mem_map_of_mem member, noteTime ▸ gone⟩

namespace NetworkLayer

variable {layer : NetworkLayer} {now : UInt64} {message : NetworkMessage}

theorem handleMessage_of_seen (seen : layer.isMessageSeen message.hash = true) :
    layer.handleMessage now message = (none, layer) := if_pos seen

theorem handleMessage_of_unseen (unseen : layer.isMessageSeen message.hash = false) :
    layer.handleMessage now message =
      (if message.type ∈ layer.messageHandlers then some (message.type, message) else none,
        layer.markMessageSeen now message.hash) := by
  unfold handleMessage
  rw [unseen, if_neg Bool.false_ne_true]

end NetworkLayer

/-- A message whose type has a handler, and which was not processed in the last hour. -/
def Unseen (calls : List GossipCall) (type : MessageType) (payload : List UInt8) (now : UInt64) : Prop :=
  type ∈ (NetworkLayer.afterCalls calls).messageHandlers ∧
    ¬ProcessedRecently (NetworkLayer.log calls) type payload now

instance (calls : List GossipCall) (type : MessageType) (payload : List UInt8) (now : UInt64) :
    Decidable (Unseen calls type payload now) := inferInstanceAs (Decidable (_ ∧ _))

/-- After every sequence of calls: an unseen message reaches its handler if and only if the
last processed message with the same payload was swept. -/
theorem handleMessage_invokes_iff (prim : Primitives) (calls : List GossipCall) (type : MessageType)
    (payload : List UInt8) (now : UInt64) (authentic : Authentic prim calls payload) :
    (Unseen calls type payload now ->
        ((NetworkLayer.afterCalls calls).handleMessage now (NetworkMessage.make prim type payload)).1 =
          some (type, NetworkMessage.make prim type payload)) <->
      (Unseen calls type payload now -> PayloadSwept (NetworkLayer.log calls) payload) := by
  refine forall_congr' fun unseen => ?_
  rw [← authentic.forgotten_iff, ← NetworkLayer.isMessageSeen_eq_false_iff]
  cases seen : (NetworkLayer.afterCalls calls).isMessageSeen (prim.blake3 payload) with
  | true =>
      rw [NetworkLayer.handleMessage_of_seen seen]
      exact iff_of_false nofun nofun
  | false =>
      rw [NetworkLayer.handleMessage_of_unseen seen]
      exact iff_of_true (if_pos unseen.1) rfl

/-- A node that waits for votes has handled a transaction with these bytes. -/
def handledBytes (payload : List UInt8) : List GossipCall :=
  [.onMessage MessageType.vote, .handleMessage 1000 (NetworkMessage.make Transparent.primitives .transaction payload)]

theorem handleMessage_invokes_iff_other_payload :
    ((NetworkLayer.afterCalls (handledBytes [2])).handleMessage 1001
      (NetworkMessage.make Transparent.primitives .vote [1])).1 =
        some (.vote, NetworkMessage.make Transparent.primitives .vote [1]) := by
  have authentic : Authentic Transparent.primitives (handledBytes [2]) [1] := by
    constructor
    · intro step listed message carried
      rcases List.mem_pair.mp listed with rfl | rfl
      · cases carried
      · rw [← Option.some.inj carried]
        rfl
    · intro step listed message carried
      rcases List.mem_pair.mp listed with rfl | rfl
      · cases carried
      · rw [← Option.some.inj carried]
        decide +kernel
  have logged : NetworkLayer.log (handledBytes [2]) =
      [⟨NetworkMessage.make Transparent.primitives .transaction [2], 1000⟩] := by decide +kernel
  refine (handleMessage_invokes_iff Transparent.primitives (handledBytes [2]) .vote [1] 1001 authentic).mpr ?_
    (by decide +kernel)
  intro unseen before entry later split same
  have member : entry ∈ NetworkLayer.log (handledBytes [2]) := split ▸ List.mem_append_right before List.mem_cons_self
  rw [logged, List.mem_singleton] at member
  rw [member] at same
  exact absurd same (by decide)

/-- A vote with the bytes of a transaction that was just handled does not reach its handler,
and neither does a vote that was handled a day ago, nothing having been noted since. -/
theorem handleMessage_suppresses_unseen :
    (Unseen (handledBytes [1]) .vote [1] 1001 ∧
      ((NetworkLayer.afterCalls (handledBytes [1])).handleMessage 1001
        (NetworkMessage.make Transparent.primitives .vote [1])).1 = none) ∧
    let calls := [.onMessage .vote, .handleMessage 1000 (NetworkMessage.make Transparent.primitives .vote [1])]
    Unseen calls .vote [1] 87400 ∧
      ((NetworkLayer.afterCalls calls).handleMessage 87400
        (NetworkMessage.make Transparent.primitives .vote [1])).1 = none := by
  decide +kernel

end Network
end Sarafu

import Sarafu.Library.FramedStreams
import Sarafu.Network.MessageBytes

namespace Sarafu
namespace Network

open Crypto Consensus Library.Decoding Library.Runs Library.FramedStreams Library.FramedStreams.Format

/-!
# Messages over a connection

The stand-alone host sends a message as its size in four bytes and its encoding.  It reads the
four bytes and then as many as they say, and disconnects a peer whose size is zero or above ten
megabytes, or whose bytes are no message.  A connection hands the bytes on in pieces of any size.
The messages that are read are decoded and handed to no one, and the network layer has a host of its
own that does not decode.
-/

namespace LibP2PHost

/-- `10 * 1024 * 1024`. -/
def maxMessageLength : UInt32 := 10485760

/-- What `send_to_peer` writes.  The size is cast to 32 bits. -/
def sendToPeer (data : List UInt8) : List UInt8 := bigEndian32 (UInt32.ofNat data.length) ++ data

/-- The check on the four bytes in `start_read`. -/
def messageLength (lengthBuffer : List UInt8) : Option Nat :=
  let messageLength := ofBigEndian32 lengthBuffer
  if messageLength = 0 ∨ maxMessageLength < messageLength then none else some messageLength.toNat

variable (prim : Primitives)

/-- A vector of the sizes that are let through is never read outside of its bounds, so what is no
message throws. -/
def readMessage (dataBuffer : List UInt8) : Option NetworkMessage :=
  match NetworkMessage.deserialize prim dataBuffer with
  | .value message => some message
  | .throws _ => none
  | .outside => none

/-- The chain of reads of `start_read`. -/
def stream : Format UInt8 NetworkMessage where
  headerSize := 4
  bodySize := messageLength
  decode := readMessage prim

/-- The reads of one connection. -/
def readFrom (events : List (StreamEvent UInt8)) : Reader UInt8 NetworkMessage := run (stream prim).step .start events

end LibP2PHost

open LibP2PHost

/-- The size of the encoding is not above the limit. -/
def NetworkMessage.Fits (message : NetworkMessage) : Prop := message.serialize.length ≤ 10485760

instance (message : NetworkMessage) : Decidable message.Fits := inferInstanceAs (Decidable (_ ≤ _))

variable {prim : Primitives}

theorem readMessage_eq_some_iff {dataBuffer : List UInt8} {message : NetworkMessage} :
    readMessage prim dataBuffer = some message <-> NetworkMessage.deserialize prim dataBuffer = .value message := by
  unfold readMessage
  cases NetworkMessage.deserialize prim dataBuffer with
  | value result => simp
  | throws error => simp
  | outside => simp

theorem messageLength_eq_some_iff {lengthBuffer : List UInt8} {count : Nat} :
    messageLength lengthBuffer = some count <->
      (ofBigEndian32 lengthBuffer).toNat = count ∧ 0 < count ∧ count ≤ 10485760 := by
  have limit : maxMessageLength.toNat = 10485760 := rfl
  unfold messageLength
  simp only [← UInt32.toNat_inj, UInt32.lt_iff_toNat_lt, limit, UInt32.toNat_zero]
  split
  · rename_i refuses
    exact iff_of_false nofun (by omega)
  · rw [Option.some.injEq]
    omega

/-- The four bytes in front of an encoding announce its size. -/
theorem messageLength_sent {data : List UInt8} (small : data.length < 2 ^ 32) (count : Nat) :
    messageLength (bigEndian32 (UInt32.ofNat data.length)) = some count <->
      data.length = count ∧ 0 < count ∧ count ≤ 10485760 := by
  rw [messageLength_eq_some_iff, ofBigEndian32_bigEndian32, toNat_ofNat32_length small]

/-- What is read in front of some bytes was framed there. -/
theorem exists_bodies {bytes rest : List UInt8} {messages : List NetworkMessage}
    (frames : (stream prim).Frames bytes messages rest) :
    ∃ bodies : List (List UInt8), bytes = bodies.flatMap sendToPeer ++ rest ∧
      bodies.map (NetworkMessage.deserialize prim) = messages.map .value ∧
      forall body, body ∈ bodies -> 0 < body.length ∧ body.length ≤ 10485760 := by
  induction frames with
  | none rest => exact ⟨[], rfl, rfl, nofun⟩
  | @next header body after rest message messages sized announced decoded _ inductionHypothesis =>
      rcases inductionHypothesis with ⟨bodies, rfl, decodes, bounded⟩
      rcases messageLength_eq_some_iff.mp announced with ⟨length, positive, limited⟩
      have written : sendToPeer body = header ++ body := by
        have same : UInt32.ofNat body.length = ofBigEndian32 header := by
          rw [← length, UInt32.ofNat_toNat]
        rw [sendToPeer, same, bigEndian32_ofBigEndian32 sized]
      refine ⟨body :: bodies, ?_, ?_, ?_⟩
      · rw [List.flatMap_cons, written]
        simp only [List.append_assoc]
      · rw [List.map_cons, List.map_cons, decodes, readMessage_eq_some_iff.mp decoded]
      · exact List.forall_mem_cons.mpr ⟨⟨positive, limited⟩, bounded⟩

/-- A message that can be sent. -/
structure NetworkMessage.Sendable (prim : Primitives) (message : NetworkMessage) : Prop where
  sound : message.Sound prim
  small : message.serialize.length < 2 ^ 32

theorem NetworkMessage.Sendable.frame {message : NetworkMessage} (sendable : message.Sendable prim)
    (fits : message.Fits) (after : List UInt8) :
    (stream prim).Frames (sendToPeer message.serialize ++ after) [message] after := by
  have length := NetworkMessage.length_serialize message
  have limited : message.serialize.length ≤ 10485760 := fits
  refine Frames.single (length_bigEndian32 _) ?_ ?_ after
  · exact (messageLength_sent sendable.small _).mpr ⟨rfl, by omega, limited⟩
  · refine readMessage_eq_some_iff.mpr ((NetworkMessage.accepted_iff (by omega) message).mpr ⟨sendable.sound, [], ?_⟩)
    rw [List.append_nil]

/-- The size of a message that does not fit closes the connection. -/
theorem NetworkMessage.Sendable.refused {message : NetworkMessage} (sendable : message.Sendable prim)
    (large : ¬ message.Fits) (after : List UInt8) :
    (stream prim).Refused (sendToPeer message.serialize ++ after) := by
  refine ⟨bigEndian32 (UInt32.ofNat message.serialize.length), message.serialize ++ after, ?_, rfl, Or.inl ?_⟩
  · rw [sendToPeer, List.append_assoc]
  · refine Option.eq_none_iff_forall_ne_some.mpr ?_
    intro count announced
    rcases (messageLength_sent sendable.small count).mp announced with ⟨length, _, limited⟩
    exact large (length.trans_le limited)

/-- What a sender of messages writes. -/
def sentBytes (sent : List NetworkMessage) : List UInt8 := sent.flatMap fun message => sendToPeer message.serialize

/-- The messages before the first that is too large. -/
def deliverable (sent : List NetworkMessage) : List NetworkMessage := sent.takeWhile fun message => message.Fits

theorem deliverable_cons (message : NetworkMessage) (others : List NetworkMessage) :
    deliverable (message :: others) = if message.Fits then message :: deliverable others else [] := by
  rw [deliverable, List.takeWhile_cons]
  by_cases fits : message.Fits
  · rw [if_pos (decide_eq_true fits), if_pos fits, deliverable]
  · rw [if_neg (by rwa [decide_eq_true_iff]), if_neg fits]

/-- The bytes of a sender are the frames of what can be delivered, and then nothing or a size
that is refused. -/
theorem exists_rest_sent {sent : List NetworkMessage}
    (sendable : forall message, message ∈ sent -> message.Sendable prim) :
    ∃ rest, (stream prim).Frames (sentBytes sent) (deliverable sent) rest ∧
      ((rest = [] ∧ forall message, message ∈ sent -> message.Fits) ∨
        ((stream prim).Refused rest ∧ ∃ message, message ∈ sent ∧ ¬ message.Fits)) := by
  induction sent with
  | nil => exact ⟨[], .none [], Or.inl ⟨rfl, nofun⟩⟩
  | cons message others inductionHypothesis =>
      rw [List.forall_mem_cons] at sendable
      rw [sentBytes, List.flatMap_cons, deliverable_cons]
      by_cases fits : message.Fits
      · rcases inductionHypothesis sendable.2 with ⟨rest, frames, ends⟩
        rw [if_pos fits]
        refine ⟨rest, (sendable.1.frame fits _).trans frames, ?_⟩
        rcases ends with ⟨nothing, all⟩ | ⟨refused, large, member, exceeds⟩
        · exact Or.inl ⟨nothing, List.forall_mem_cons.mpr ⟨fits, all⟩⟩
        · exact Or.inr ⟨refused, large, List.mem_cons_of_mem _ member, exceeds⟩
      · rw [if_neg fits]
        exact ⟨_, .none _, Or.inr ⟨sendable.1.refused fits _, message, List.mem_cons_self, fits⟩⟩

/-- From a sender of messages a reader gets a prefix of those before the first that is too large.
Once everything has arrived and been read it has got all of these, and it has disconnected the
sender exactly if some message was too large. -/
theorem readFrom_sent {sent : List NetworkMessage} (sendable : forall message, message ∈ sent -> message.Sendable prim)
    {events : List (StreamEvent UInt8)} (received : arrivals events <+: sentBytes sent) :
    (readFrom prim events).values <+: deliverable sent ∧
      (arrivals events = sentBytes sent -> (stream prim).Waiting (readFrom prim events) ->
        (readFrom prim events).values = deliverable sent ∧
        ((readFrom prim events).request = .closed <-> ∃ message, message ∈ sent ∧ ¬ message.Fits)) := by
  rcases exists_rest_sent sendable with ⟨rest, frames, ends⟩
  have stuck : (stream prim).Stuck rest := by
    rcases ends with ⟨rfl, _⟩ | ⟨refused, _⟩
    · exact stuck_nil (Nat.succ_pos 3)
    · exact refused.stuck
  rcases reads_of_frames frames stuck received with ⟨shorter, complete⟩
  refine ⟨shorter, ?_⟩
  intro whole waiting
  rcases complete whole waiting with ⟨same, stands⟩
  refine ⟨same, ?_⟩
  rcases ends with ⟨rfl, all⟩ | ⟨refused, large⟩
  · refine iff_of_false ?_ ?_
    · intro closed
      exact absurd (Refused.length_pos (Nat.succ_pos 3) (stands.refused closed)) (Nat.lt_irrefl 0)
    · rintro ⟨message, member, exceeds⟩
      exact exceeds (all message member)
  · exact iff_of_true (stands.closed waiting refused) large

/-- However the bytes of a connection are cut into pieces and whenever they are read, the messages
that were read are what the frames at its start hold; and a sender of messages gets through what
it sends up to the first message that is too large, for which it is disconnected. -/
theorem peerStream_delivers (prim : Primitives) (events : List (StreamEvent UInt8)) {sent : List NetworkMessage}
    (sendable : forall message, message ∈ sent -> message.Sendable prim) :
    (∃ bodies rest : List _, arrivals events = bodies.flatMap sendToPeer ++ rest ∧
      bodies.map (NetworkMessage.deserialize prim) = (readFrom prim events).values.map .value ∧
      forall body, body ∈ bodies -> 0 < body.length ∧ body.length ≤ 10485760) ∧
    (arrivals events <+: sentBytes sent -> (readFrom prim events).values <+: deliverable sent) ∧
    (arrivals events = sentBytes sent -> (stream prim).Waiting (readFrom prim events) ->
      (readFrom prim events).values = deliverable sent ∧
      ((readFrom prim events).request = .closed <-> ∃ message, message ∈ sent ∧ ¬ message.Fits)) := by
  refine ⟨?_, ?_, ?_⟩
  · rcases reads_run (stream prim) events with ⟨rest, frames, _⟩
    rcases exists_bodies frames with ⟨bodies, whole⟩
    exact ⟨bodies, rest, whole⟩
  · intro received
    exact (readFrom_sent sendable received).1
  · intro whole waiting
    exact (readFrom_sent sendable (whole ▸ List.prefix_refl _)).2 whole waiting

/-- A vote and a block, cut behind the third byte and read in between. -/
def cutMessages : List NetworkMessage :=
  [NetworkMessage.make Transparent.primitives MessageType.vote [7],
    NetworkMessage.make Transparent.primitives MessageType.block [8, 9]]

def cutEvents : List (StreamEvent UInt8) :=
  [.arrive ((sentBytes cutMessages).take 3), .answer, .arrive ((sentBytes cutMessages).drop 3), .answer, .answer,
    .answer, .answer]

theorem peerStream_delivers_cut : (readFrom Transparent.primitives cutEvents).values = cutMessages := by
  have sendable : forall message, message ∈ cutMessages -> message.Sendable Transparent.primitives := by
    refine List.forall_mem_cons.mpr ⟨⟨⟨by decide, rfl⟩, by decide +kernel⟩, List.forall_mem_singleton.mpr ?_⟩
    exact ⟨⟨by decide, rfl⟩, by decide +kernel⟩
  have delivered := (peerStream_delivers Transparent.primitives cutEvents sendable).2.2 (by decide +kernel)
    (by decide +kernel)
  have all : deliverable cutMessages = cutMessages := by decide +kernel
  exact delivered.1.trans all

end Network
end Sarafu

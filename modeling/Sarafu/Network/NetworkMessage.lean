import Sarafu.Consensus.BlockCodec
import Sarafu.Crypto.Primitives

namespace Sarafu
namespace Network

open Crypto Consensus Library.Decoding

/-!
# Messages between peers

A message frames a payload with its type, its size in big-endian order and the hash of
the payload.  The types are an enumeration over one byte, and a received byte is cast
without a check, so every byte is a type.
-/

structure MessageType where
  value : UInt8
deriving DecidableEq

namespace MessageType

def transaction : MessageType := ⟨0⟩
def block : MessageType := ⟨1⟩
def vote : MessageType := ⟨2⟩
def blockRequest : MessageType := ⟨3⟩
def blockResponse : MessageType := ⟨4⟩
def validatorSetUpdate : MessageType := ⟨5⟩

end MessageType

structure NetworkMessage where
  type : MessageType
  payload : List UInt8
  hash : Blake3Hash
deriving DecidableEq

namespace NetworkMessage

variable (prim : Primitives)

/-- The constructor: the hash covers the payload and not the type. -/
def make (type : MessageType) (payload : List UInt8) : NetworkMessage := ⟨type, payload, prim.blake3 payload⟩

def serialize (message : NetworkMessage) : List UInt8 :=
  [message.type.value] ++ bigEndian32 (UInt32.ofNat message.payload.length) ++ message.payload ++
    message.hash.serialize

/-- The hash of a message that is rebuilt must be the one that was received. -/
def verifyHash (message : NetworkMessage) (hash : Blake3Hash) : Outcome String NetworkMessage :=
  if message.hash ≠ hash then .throws "NetworkMessage::deserialize: hash mismatch" else .value message

def decoder : ByteDecoder NetworkMessage := do
  let type <- readByte
  let payloadLength <- readBig32
  Decoder.require (payloadLength.toNat + 32) "NetworkMessage::deserialize: invalid payload length"
  let payload <- Decoder.slice payloadLength.toNat
  let hash <- readBlake3Hash
  Decoder.lift (verifyHash (make prim ⟨type⟩ payload) hash)

def deserialize (data : List UInt8) : Outcome String NetworkMessage :=
  if data.length < 37 then .throws "NetworkMessage::deserialize: data too short" else (decoder prim).run data

variable {prim}

theorem length_serialize (message : NetworkMessage) : message.serialize.length = 37 + message.payload.length := by
  simp only [serialize, List.length_append, Crypto.length_serialize, length_bigEndian32, List.length_singleton]
  omega

theorem consumes_decoder (type : MessageType) {payload : List UInt8} (short : payload.length < 2 ^ 32) :
    Consumes (decoder prim) (make prim type payload).serialize [] (make prim type payload) := by
  have verified : verifyHash (make prim type payload) (prim.blake3 payload) = .value (make prim type payload) :=
    if_neg (not_not.mpr rfl)
  have enough : payload.length + 32 ≤ (payload ++ ((prim.blake3 payload).serialize ++ [])).length := by
    rw [List.append_nil, List.length_append, Crypto.length_serialize]
  rw [← List.append_nil (make prim type payload).serialize]
  simp only [serialize, List.append_assoc]
  refine (consumes_readByte _ type.value).bind ?_
  refine (consumes_readBig32 _ (UInt32.ofNat payload.length)).bind ?_
  rw [toNat_ofNat32_length short]
  refine (Consumes.require (by rw [List.append_nil]; exact enough) _).between ?_
  refine (Consumes.slice rfl _).bind ?_
  exact (consumes_readFixed _ _ (prim.blake3 payload)).bind (Consumes.lift verified [])

/-- The round trip of a message. -/
theorem deserialize_serialize (type : MessageType) {payload : List UInt8} (short : payload.length < 2 ^ 32) :
    deserialize prim (make prim type payload).serialize = .value (make prim type payload) := by
  have length := length_serialize (make prim type payload)
  have size : (make prim type payload).payload.length < 2 ^ 32 := short
  unfold deserialize
  rw [if_neg (by omega)]
  exact (consumes_decoder type short).run_eq (by omega)

end NetworkMessage
end Network
end Sarafu

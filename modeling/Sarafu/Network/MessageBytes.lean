import Sarafu.Consensus.BlockBytes
import Sarafu.Network.VoteMessages

namespace Sarafu
namespace Network

open Crypto Consensus Library.Decoding

/-!
# Which bytes are messages

The decoders of the network read a frame from the start of a vector and do not look at what
follows.  So exactly the vectors that start with an encoding are accepted, and bytes behind it
change neither the message nor its hash.
-/

/-! ## Big-endian fields -/

theorem bigEndian64_eq_reverse (value : UInt64) : bigEndian64 value = (littleEndian64 value).reverse := by
  rw [bigEndian64, littleEndian64, List.map_reverse]

theorem bigEndian32_eq_reverse (value : UInt32) : bigEndian32 value = (littleEndian32 value).reverse := by
  rw [bigEndian32, littleEndian32, List.map_reverse]

theorem bigEndian64_ofBigEndian64 {bytes : List UInt8} (sized : bytes.length = 8) :
    bigEndian64 (ofBigEndian64 bytes) = bytes := by
  have encoded : bytes = bigEndian64 (ofLittleEndian64 bytes.reverse) := by
    have reversed : bytes.reverse.length = 8 := by
      rw [List.length_reverse, sized]
    rw [bigEndian64_eq_reverse, littleEndian64_ofLittleEndian64 reversed, List.reverse_reverse]
  rw [encoded, ofBigEndian64_bigEndian64]

theorem bigEndian32_ofBigEndian32 {bytes : List UInt8} (sized : bytes.length = 4) :
    bigEndian32 (ofBigEndian32 bytes) = bytes := by
  have encoded : bytes = bigEndian32 (ofLittleEndian32 bytes.reverse) := by
    have reversed : bytes.reverse.length = 4 := by
      rw [List.length_reverse, sized]
    rw [bigEndian32_eq_reverse, littleEndian32_ofLittleEndian32 reversed, List.reverse_reverse]
  rw [encoded, ofBigEndian32_bigEndian32]

theorem takes_readBig64 : Takes readBig64 fun value taken => taken = bigEndian64 value := by
  refine (Takes.slice (by decide)).last ?_
  rintro _ bytes ⟨rfl, sized⟩
  exact (bigEndian64_ofBigEndian64 sized).symm

theorem takes_readBig32 : Takes readBig32 fun value taken => taken = bigEndian32 value := by
  refine (Takes.slice (by decide)).last ?_
  rintro _ bytes ⟨rfl, sized⟩
  exact (bigEndian32_ofBigEndian32 sized).symm

theorem takes_readByte : Takes readByte fun value taken => taken = [value] := by
  refine (Takes.slice (by decide)).last ?_
  rintro _ bytes ⟨rfl, sized⟩
  rcases List.length_eq_one_iff.mp sized with ⟨byte, rfl⟩
  rfl

/-! ## The frames -/

variable {prim : Primitives} {data : List UInt8}

namespace NetworkMessage

/-- A message that could be built from its type and payload. -/
structure Sound (prim : Primitives) (message : NetworkMessage) : Prop where
  short : message.payload.length < 2 ^ 32
  hashed : message.hash = prim.blake3 message.payload

theorem takes_decoder : Takes (decoder prim) fun message taken => taken = message.serialize ∧ Sound prim message := by
  refine takes_readByte.bind ?_
  rintro type _ rfl
  refine takes_readBig32.bind ?_
  rintro payloadLength _ rfl
  refine (Takes.require (payloadLength.toNat + 32) _).after ?_
  have bounded := payloadLength.toNat_lt
  refine (Takes.slice (by omega)).bind ?_
  rintro _ payload ⟨rfl, sized⟩
  refine takes_readBlake3Hash.bind ?_
  rintro hash _ rfl
  refine (Takes.lift _).weaken ?_
  rintro message _ ⟨rfl, verified⟩
  unfold verifyHash at verified
  split at verified
  · cases verified
  · rename_i same
    rw [not_not] at same
    cases verified
    have count : UInt32.ofNat payload.length = payloadLength := by
      rw [sized, UInt32.ofNat_toNat]
    refine ⟨?_, sized ▸ bounded, rfl⟩
    simp only [serialize, same, List.append_assoc, List.append_nil]
    simp only [make, count]

theorem consumes_decoder_before (message : NetworkMessage) (sound : Sound prim message) (after : List UInt8) :
    Consumes (decoder prim) message.serialize after message := by
  rcases message with ⟨⟨type⟩, payload, hash⟩
  have hashed : hash = prim.blake3 payload := sound.hashed
  subst hashed
  have verified : verifyHash (make prim ⟨type⟩ payload) (prim.blake3 payload) = .value (make prim ⟨type⟩ payload) :=
    if_neg (not_not.mpr rfl)
  rw [← List.append_nil (serialize _)]
  simp only [serialize, List.append_assoc]
  refine (consumes_readByte _ type).bind ?_
  refine (consumes_readBig32 _ (UInt32.ofNat payload.length)).bind ?_
  rw [toNat_ofNat32_length sound.short]
  refine (Consumes.require ?enough _).between ?_
  case enough =>
    simp only [List.length_append, Crypto.length_serialize]
    omega
  refine (Consumes.slice rfl _).bind ?_
  exact (consumes_readFixed _ _ (prim.blake3 payload)).bind (Consumes.lift verified after)

/-- The accepted vectors start with the encoding of a sound message. -/
theorem accepted_iff (vector : data.length < 2 ^ 63) (message : NetworkMessage) :
    deserialize prim data = .value message <-> Sound prim message ∧ ∃ after, data = message.serialize ++ after := by
  unfold deserialize
  constructor
  · intro ends
    split at ends
    · cases ends
    · rcases takes_decoder.run_eq ends with ⟨_, after, rfl, rfl, sound⟩
      exact ⟨sound, after, rfl⟩
  · rintro ⟨sound, after, rfl⟩
    have length := length_serialize message
    rw [List.length_append] at vector ⊢
    rw [if_neg (by omega)]
    refine (message.consumes_decoder_before sound after).run_append ?_
    rw [List.length_append]
    omega

end NetworkMessage

namespace Vote

/-- The bytes of the signature are taken and lost. -/
theorem takes_decoder :
    Takes decoder fun vote taken => ∃ sent : Vote, sent.unsigned = vote ∧ taken = sent.serialize := by
  refine takes_readBig64.bind ?_
  rintro height _ rfl
  refine takes_readBlake3Hash.bind ?_
  rintro hash _ rfl
  refine takes_readBig64.bind ?_
  rintro view _ rfl
  refine takes_readAddress.bind ?_
  rintro validator _ rfl
  refine (Takes.slice (by decide)).last ?_
  rintro _ signature ⟨rfl, sized⟩
  refine ⟨⟨height, hash, view, validator, ⟨signature, sized⟩⟩, rfl, ?_⟩
  simp only [serialize, List.append_assoc]
  rfl

theorem consumes_decoder_before (vote : Vote) (after : List UInt8) :
    Consumes decoder vote.serialize after vote.unsigned := by
  simp only [serialize, List.append_assoc]
  refine (consumes_readBig64 _ vote.blockHeight).bind ?_
  refine (consumes_readFixed _ _ vote.blockHash).bind ?_
  refine (consumes_readBig64 _ vote.viewNumber).bind ?_
  refine (consumes_readFixed _ _ vote.validatorId).bind ?_
  exact (Consumes.slice vote.signature.length_bytes after).last

/-- The accepted vectors start with the encoding of a vote, of which the signature is lost. -/
theorem accepted_iff (short : data.length < 2 ^ 64) (vote : Vote) :
    deserialize data = .value vote <->
      ∃ sent : Vote, sent.unsigned = vote ∧ ∃ after, data = sent.serialize ++ after := by
  unfold deserialize
  constructor
  · intro ends
    split at ends
    · cases ends
    · rcases takes_decoder.run_eq ends with ⟨_, after, rfl, sent, same, rfl⟩
      exact ⟨sent, same, after, rfl⟩
  · rintro ⟨sent, rfl, after, rfl⟩
    have length := sent.length_serialize
    have whole : ¬(sent.serialize ++ after).length < 176 := by
      rw [List.length_append]
      omega
    rw [if_neg whole]
    exact (sent.consumes_decoder_before after).run_append short

/-- What is decoded has the default signature. -/
theorem signature_of_deserialize {vote : Vote} (ends : deserialize data = .value vote) :
    vote.signature = defaultSignature := by
  unfold deserialize at ends
  split at ends
  · cases ends
  · rcases takes_decoder.run_eq ends with ⟨_, _, _, sent, rfl, _⟩
    rfl

end Vote

namespace BlockRequest

theorem takes_decoder : Takes decoder fun request taken => taken = request.serialize := by
  refine takes_readByte.bind ?_
  rintro type _ rfl
  refine takes_readBig64.bind ?_
  rintro height _ rfl
  refine takes_readBlake3Hash.bind ?_
  rintro hash _ rfl
  refine takes_readAddress.last ?_
  rintro requesterId _ rfl
  simp only [serialize, List.append_assoc]

theorem consumes_decoder_before (request : BlockRequest) (after : List UInt8) :
    Consumes decoder request.serialize after request := by
  simp only [serialize, List.append_assoc]
  refine (consumes_readByte _ request.type.value).bind ?_
  refine (consumes_readBig64 _ request.height).bind ?_
  refine (consumes_readFixed _ _ request.hash).bind ?_
  exact (consumes_readFixed _ _ request.requesterId).last

/-- The accepted vectors start with the encoding of the request. -/
theorem accepted_iff (short : data.length < 2 ^ 64) (request : BlockRequest) :
    deserialize data = .value request <-> ∃ after, data = request.serialize ++ after := by
  unfold deserialize
  constructor
  · intro ends
    split at ends
    · cases ends
    · rcases takes_decoder.run_eq ends with ⟨_, after, rfl, rfl⟩
      exact ⟨after, rfl⟩
  · rintro ⟨after, rfl⟩
    have length := request.length_serialize
    have whole : ¬(request.serialize ++ after).length < 73 := by
      rw [List.length_append]
      omega
    rw [if_neg whole]
    exact (request.consumes_decoder_before after).run_append short

end BlockRequest

/-- Exactly these vectors are accepted: for a message those that start with the encoding of a
payload and its hash, for a vote and a request those that start with any encoding.  The message
and the request are what was encoded, and the vote is without its signature. -/
theorem networkFrames_accepted_iff (prim : Primitives) (data : List UInt8) (vector : data.length < 2 ^ 63) :
    (forall message, NetworkMessage.deserialize prim data = .value message <->
      NetworkMessage.Sound prim message ∧ ∃ after, data = message.serialize ++ after) ∧
    (forall vote, Vote.deserialize data = .value vote <->
      ∃ sent : Vote, sent.unsigned = vote ∧ ∃ after, data = sent.serialize ++ after) ∧
    forall request, BlockRequest.deserialize data = .value request <-> ∃ after, data = request.serialize ++ after :=
  ⟨NetworkMessage.accepted_iff vector, Vote.accepted_iff (by omega), BlockRequest.accepted_iff (by omega)⟩

/-- A message with a byte behind it. -/
theorem networkFrames_accepted_iff_trailed :
    let data := (NetworkMessage.make Transparent.primitives MessageType.vote [7]).serialize ++ [9]
    (forall message, NetworkMessage.deserialize Transparent.primitives data = .value message <->
      NetworkMessage.Sound Transparent.primitives message ∧ ∃ after, data = message.serialize ++ after) ∧
    (forall vote, Vote.deserialize data = .value vote <->
      ∃ sent : Vote, sent.unsigned = vote ∧ ∃ after, data = sent.serialize ++ after) ∧
    forall request, BlockRequest.deserialize data = .value request <-> ∃ after, data = request.serialize ++ after :=
  networkFrames_accepted_iff Transparent.primitives _ (by decide +kernel)

end Network
end Sarafu

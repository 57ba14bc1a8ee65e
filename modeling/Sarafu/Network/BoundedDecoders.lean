import Sarafu.Consensus.LightClientCodec
import Sarafu.Network.MessageHandler
import Sarafu.Storage.TransactionReceipt

namespace Sarafu

open Crypto Library.Decoding

/-!
# Decoders of data from peers stay inside

Each of these decoders checks the size of its input first, and then again wherever a count
or a size was read from the input.  The room that a field leaves is written in its lemma.
-/

/-- A decoder behind a check of the least size. -/
theorem checked_ne_outside {Value : Type} {decoder : ByteDecoder Value} {data : List UInt8} {size left : Nat}
    (stays : Stays decoder data size left) (error : String) :
    (if data.length < size then .throws error else decoder.run data) ≠ .outside := by
  split
  · nofun
  · rename_i long
    exact stays.run_ne_outside (Nat.not_lt.mp long)

variable {data : List UInt8}

namespace Consensus

theorem ValidatorStatus.ofByte_ne_outside (byte : UInt8) : ofByte byte ≠ .outside := by
  unfold ofByte
  split
  all_goals nofun

theorem Validator.stays_decoder (vector : data.length < 2 ^ 63) : Stays Validator.decoder data 153 0 := by
  refine (stays_readFixed 121 vector 32 _).bind fun id => ?_
  refine (stays_readFixed 73 vector 48 _).bind fun consensusKey => ?_
  refine (stays_readFixed 41 vector 32 _).bind fun withdrawalKey => ?_
  refine (stays_readLittle64 33 vector).bind fun bondedStake => ?_
  refine (stays_readByte 32 vector).bind fun statusByte => ?_
  refine (Stays.lift (ValidatorStatus.ofByte_ne_outside statusByte) data 32).bind fun status => ?_
  refine (stays_readLittle64 24 vector).bind fun jailedUntilEpoch => ?_
  refine (stays_readLittle64 16 vector).bind fun consecutiveDowntimeEpochs => ?_
  refine (stays_readLittle64 8 vector).bind fun blocksSignedThisEpoch => ?_
  exact (stays_readLittle64 0 vector).last

theorem Validator.deserialize_ne_outside (vector : data.length < 2 ^ 63) : Validator.deserialize data ≠ .outside :=
  checked_ne_outside (Validator.stays_decoder vector) _

theorem ValidatorSet.stays_readValidator (vector : data.length < 2 ^ 63) :
    Stays ValidatorSet.readValidator data 0 0 := by
  refine (Stays.require (by decide) vector _ 0).bind fun _ => ?_
  refine (Stays.slice 153 0 vector).parsed (takesPart_slice 153 data) ?_
  exact fun bytes short => Validator.deserialize_ne_outside (Nat.lt_of_le_of_lt short vector)

theorem ValidatorSet.stays_decoder (vector : data.length < 2 ^ 63) : Stays ValidatorSet.decoder data 52 0 := by
  refine (stays_readLittle64 44 vector).bind fun epoch => ?_
  refine (stays_readLittle64 36 vector).bind fun totalStake => ?_
  refine (stays_readFixed 4 vector 32 _).bind fun merkleRoot => ?_
  refine (stays_readLittle32 0 vector).bind fun numValidators => ?_
  exact (Stays.many (ValidatorSet.stays_readValidator vector) _).last

theorem ValidatorSet.deserialize_ne_outside (vector : data.length < 2 ^ 63) :
    ValidatorSet.deserialize data ≠ .outside :=
  checked_ne_outside (ValidatorSet.stays_decoder vector) _

theorem QuorumCertificate.stays_readSigner (vector : data.length < 2 ^ 63) :
    Stays QuorumCertificate.readSigner data 0 0 :=
  (Stays.require (by decide) vector _ 0).bind fun _ => stays_readFixed 0 vector 32 _

theorem QuorumCertificate.stays_decoder (vector : data.length < 2 ^ 63) :
    Stays QuorumCertificate.decoder data 160 0 := by
  refine (stays_readLittle64 152 vector).bind fun height => ?_
  refine (stays_readFixed 120 vector 32 _).bind fun hash => ?_
  refine (stays_readLittle64 112 vector).bind fun view => ?_
  refine (stays_readFixed 16 vector 96 _).bind fun signature => ?_
  refine (stays_readLittle64 8 vector).bind fun signersCount => ?_
  have signers := Stays.many (QuorumCertificate.stays_readSigner vector) signersCount.toNat
  refine (signers.weaken (Nat.zero_le 8)).bind fun signers => ?_
  refine (Stays.requireEach 8 data _ 0).bind fun _ => ?_
  exact (stays_readLittle64 0 vector).last

theorem QuorumCertificate.deserialize_ne_outside (vector : data.length < 2 ^ 63) :
    QuorumCertificate.deserialize data ≠ .outside := checked_ne_outside (QuorumCertificate.stays_decoder vector) _

theorem WeakSubjectivityCheckpoint.stays_readSigner (vector : data.length < 2 ^ 63) :
    Stays WeakSubjectivityCheckpoint.readSigner data 0 0 :=
  (Stays.require (by decide) vector _ 0).bind fun _ => stays_readFixed 0 vector 32 _

theorem WeakSubjectivityCheckpoint.stays_decoder (vector : data.length < 2 ^ 63) :
    Stays WeakSubjectivityCheckpoint.decoder data 232 0 := by
  refine (stays_readLittle64 224 vector).bind fun blockHeight => ?_
  refine (stays_readFixed 192 vector 32 _).bind fun blockHash => ?_
  refine (stays_readLittle64 184 vector).bind fun epoch => ?_
  refine (stays_readLittle64 176 vector).bind fun timestamp => ?_
  refine (stays_readFixed 144 vector 32 _).bind fun stateRoot => ?_
  refine (stays_readFixed 112 vector 32 _).bind fun validatorSetRoot => ?_
  refine (stays_readFixed 16 vector 96 _).bind fun aggregatedSignature => ?_
  refine (stays_readLittle64 8 vector).bind fun signersCount => ?_
  have signers := Stays.many (WeakSubjectivityCheckpoint.stays_readSigner vector) signersCount.toNat
  refine (signers.weaken (Nat.zero_le 8)).bind fun signers => ?_
  refine (Stays.require (by decide) vector _ 0).bind fun _ => ?_
  exact (stays_readLittle64 0 vector).last

theorem WeakSubjectivityCheckpoint.deserialize_ne_outside (vector : data.length < 2 ^ 63) :
    WeakSubjectivityCheckpoint.deserialize data ≠ .outside :=
  checked_ne_outside (WeakSubjectivityCheckpoint.stays_decoder vector) _

end Consensus

namespace Network

open Consensus

theorem ValidatorInfo.stays_decoder (vector : data.length < 2 ^ 63) : Stays ValidatorInfo.decoder data 89 0 := by
  refine (stays_readFixed 57 vector 32 _).bind fun validatorId => ?_
  refine (stays_readFixed 9 vector 48 _).bind fun consensusKey => ?_
  refine (stays_readBig64 1 vector).bind fun bondedStake => ?_
  exact (stays_readFlag 0 vector).last

theorem ValidatorInfo.deserialize_ne_outside (vector : data.length < 2 ^ 63) :
    ValidatorInfo.deserialize data ≠ .outside := checked_ne_outside (ValidatorInfo.stays_decoder vector) _

theorem ValidatorSetUpdate.stays_readValidator (vector : data.length < 2 ^ 63) :
    Stays ValidatorSetUpdate.readValidator data 0 0 := by
  refine (Stays.require (by decide) vector _ 0).bind fun _ => ?_
  refine (Stays.slice 89 0 vector).parsed (takesPart_slice 89 data) ?_
  exact fun bytes short => ValidatorInfo.deserialize_ne_outside (Nat.lt_of_le_of_lt short vector)

theorem ValidatorSetUpdate.stays_decoder (vector : data.length < 2 ^ 63) :
    Stays ValidatorSetUpdate.decoder data 12 0 := by
  refine (stays_readBig64 4 vector).bind fun epoch => ?_
  refine (stays_readBig32 0 vector).bind fun validatorCount => ?_
  refine (Stays.many (ValidatorSetUpdate.stays_readValidator vector) _).bind fun validators => ?_
  refine (Stays.require (by decide) vector _ 0).bind fun _ => ?_
  refine (stays_readBig64 0 vector).bind fun totalStake => ?_
  refine (Stays.require (by decide) vector _ 0).bind fun _ => ?_
  refine (stays_readFixed 0 vector 32 _).bind fun validatorSetRoot => ?_
  have certificate : Stays (Decoder.rest >>= fun qcBytes => Decoder.lift (QuorumCertificate.deserialize qcBytes))
      data 0 0 :=
    (Stays.rest data 0).parsed (takesPart_rest data) fun bytes short =>
      QuorumCertificate.deserialize_ne_outside (Nat.lt_of_le_of_lt short vector)
  exact certificate.parsed_bind fun transitionQC => Stays.pure _ data 0

theorem ValidatorSetUpdate.deserialize_ne_outside (vector : data.length < 2 ^ 63) :
    ValidatorSetUpdate.deserialize data ≠ .outside := checked_ne_outside (ValidatorSetUpdate.stays_decoder vector) _

theorem NetworkMessage.verifyHash_ne_outside (message : NetworkMessage) (hash : Blake3Hash) :
    message.verifyHash hash ≠ .outside := by
  unfold NetworkMessage.verifyHash
  split
  · nofun
  · nofun

/-- The size of the payload has four bytes, so its sum with the size of the hash does not
wrap around. -/
theorem NetworkMessage.stays_decoder (prim : Primitives) (vector : data.length < 2 ^ 63) :
    Stays (NetworkMessage.decoder prim) data 37 0 := by
  refine (stays_readByte 36 vector).bind fun type => ?_
  refine (stays_readBig32 32 vector).bind fun payloadLength => ?_
  have small : payloadLength.toNat + 32 < 2 ^ 63 := by
    have bounded := payloadLength.toNat_lt
    omega
  refine (Stays.require small vector _ 32).bind fun _ => ?_
  refine (Stays.slice payloadLength.toNat 32 vector).bind fun payload => ?_
  refine (stays_readFixed 0 vector 32 _).bind fun hash => ?_
  exact Stays.lift (NetworkMessage.verifyHash_ne_outside _ hash) data 0

theorem NetworkMessage.deserialize_ne_outside (prim : Primitives) (vector : data.length < 2 ^ 63) :
    NetworkMessage.deserialize prim data ≠ .outside :=
  checked_ne_outside (NetworkMessage.stays_decoder prim vector) _

end Network

namespace Storage

theorem TransactionReceipt.stays_decoder (vector : data.length < 2 ^ 63) :
    Stays TransactionReceipt.decoder data 53 0 := by
  refine (stays_readFixed 21 vector 32 _).bind fun txHash => ?_
  refine (stays_readLittle64 13 vector).bind fun blockHeight => ?_
  refine (stays_readFlag 12 vector).bind fun success => ?_
  refine (stays_readLittle64 4 vector).bind fun gasUsed => ?_
  refine (stays_readLittle32 0 vector).bind fun errorLength => ?_
  refine (Stays.requireExactly errorLength.toNat data _ 0).bind fun _ => ?_
  exact (Stays.rest data 0).last

theorem TransactionReceipt.deserialize_ne_outside (vector : data.length < 2 ^ 63) :
    TransactionReceipt.deserialize data ≠ .outside := checked_ne_outside (TransactionReceipt.stays_decoder vector) _

end Storage

namespace Network

open Consensus Storage

/-- Whatever a vector contains, the bounded decoders throw or return after reading inside of
it.  The reads of the nested decoders in their slices are included. -/
theorem boundedDecoders_readInside (prim : Primitives) (data : List UInt8) (vector : data.length < 2 ^ 63) :
    ValidatorSet.deserialize data ≠ .outside ∧ Validator.deserialize data ≠ .outside ∧
      WeakSubjectivityCheckpoint.deserialize data ≠ .outside ∧ QuorumCertificate.deserialize data ≠ .outside ∧
      ValidatorSetUpdate.deserialize data ≠ .outside ∧ NetworkMessage.deserialize prim data ≠ .outside ∧
      TransactionReceipt.deserialize data ≠ .outside :=
  ⟨ValidatorSet.deserialize_ne_outside vector, Validator.deserialize_ne_outside vector,
    WeakSubjectivityCheckpoint.deserialize_ne_outside vector, QuorumCertificate.deserialize_ne_outside vector,
    ValidatorSetUpdate.deserialize_ne_outside vector, NetworkMessage.deserialize_ne_outside prim vector,
    TransactionReceipt.deserialize_ne_outside vector⟩

/-- A count that is larger than the data is found out. -/
theorem boundedDecoders_readInside_truncated :
    ValidatorSet.deserialize (List.replicate 52 255) ≠ .outside ∧
      ValidatorSet.deserialize (List.replicate 52 255) =
        .throws "Invalid validator set data: truncated validator data" :=
  ⟨(boundedDecoders_readInside Transparent.primitives (List.replicate 52 255) (by decide)).1, by decide +kernel⟩

end Network
end Sarafu

import Sarafu.Consensus.Validator
import Sarafu.Consensus.BlockCodec

namespace Sarafu
namespace Consensus

open Crypto State Library.Decoding

/-!
# The codecs of validators and validator sets

A validator takes 153 bytes, and the decoder of a set cuts its data into slices of that
size.  The count of the validators has four bytes.
-/

/-- The cast of a status byte, after the check of its range. -/
def ValidatorStatus.ofByte : UInt8 -> Outcome String ValidatorStatus
  | 0 => .value .active
  | 1 => .value .standby
  | 2 => .value .jailed
  | 3 => .value .tombstoned
  | _ => .throws "Invalid validator status value"

theorem ValidatorStatus.ofByte_toByte (status : ValidatorStatus) : ofByte status.toByte = .value status := by
  cases status with
  | active => rfl
  | standby => rfl
  | jailed => rfl
  | tombstoned => rfl

namespace Validator

def decoder : ByteDecoder Validator := do
  let id <- readAddress
  let consensusKey <- readBLS12381PublicKey
  let withdrawalKey <- readEd25519PublicKey
  let bondedStake <- readLittle64
  let statusByte <- readByte
  let status <- Decoder.lift (ValidatorStatus.ofByte statusByte)
  let jailedUntilEpoch <- readLittle64
  let consecutiveDowntimeEpochs <- readLittle64
  let blocksSignedThisEpoch <- readLittle64
  let blocksMissedThisEpoch <- readLittle64
  return ⟨id, consensusKey, withdrawalKey, bondedStake, status, jailedUntilEpoch, consecutiveDowntimeEpochs,
    blocksSignedThisEpoch, blocksMissedThisEpoch⟩

def deserialize (data : List UInt8) : Outcome String Validator :=
  if data.length < 153 then .throws "Invalid validator data: insufficient size" else decoder.run data

theorem length_serialize (validator : Validator) : validator.serialize.length = 153 := by
  simp only [serialize, List.length_append, Crypto.length_serialize, length_littleEndian64, List.length_singleton]

theorem consumes_decoder (validator : Validator) (after : List UInt8) :
    Consumes decoder validator.serialize after validator := by
  simp only [serialize, List.append_assoc]
  refine (consumes_readFixed _ _ validator.id).bind ?_
  refine (consumes_readFixed _ _ validator.consensusKey).bind ?_
  refine (consumes_readFixed _ _ validator.withdrawalKey).bind ?_
  refine (consumes_readLittle64 _ validator.bondedStake).bind ?_
  refine (consumes_readByte _ validator.status.toByte).bind ?_
  refine (Consumes.lift validator.status.ofByte_toByte _).between ?_
  refine (consumes_readLittle64 _ validator.jailedUntilEpoch).bind ?_
  refine (consumes_readLittle64 _ validator.consecutiveDowntimeEpochs).bind ?_
  refine (consumes_readLittle64 _ validator.blocksSignedThisEpoch).bind ?_
  exact (consumes_readLittle64 _ validator.blocksMissedThisEpoch).last

/-- The round trip of a validator. -/
theorem deserialize_serialize (validator : Validator) : deserialize validator.serialize = .value validator := by
  unfold deserialize
  rw [length_serialize, if_neg (Nat.lt_irrefl 153)]
  exact (validator.consumes_decoder []).run_eq (by rw [length_serialize]; decide)

/-- The slice of a validator in a longer vector. -/
theorem consumes_slice (validator : Validator) (after : List UInt8) :
    Consumes (do
      let bytes <- Decoder.slice 153
      Decoder.lift (deserialize bytes)) validator.serialize after validator :=
  (Consumes.slice validator.length_serialize after).parsed validator.deserialize_serialize

theorem length_flatMap_serialize (validators : List Validator) :
    (validators.flatMap serialize).length = 153 * validators.length :=
  length_flatMap_of_size validators length_serialize

end Validator

namespace ValidatorSet

def serialize (set : ValidatorSet) : List UInt8 :=
  littleEndian64 set.epoch ++ littleEndian64 set.totalStake ++ set.merkleRoot.serialize ++
    littleEndian32 (UInt32.ofNat set.validators.length) ++ set.validators.flatMap Validator.serialize

/-- One iteration over the validators. -/
def readValidator : ByteDecoder Validator := do
  Decoder.require 153 "Invalid validator set data: truncated validator data"
  let validatorBytes <- Decoder.slice 153
  Decoder.lift (Validator.deserialize validatorBytes)

def decoder : ByteDecoder ValidatorSet := do
  let epoch <- readLittle64
  let totalStake <- readLittle64
  let merkleRoot <- readBlake3Hash
  let numValidators <- readLittle32
  let validators <- Decoder.many readValidator numValidators.toNat
  return ⟨epoch, validators, totalStake, merkleRoot⟩

/-- Bytes behind the last validator are not looked at. -/
def deserialize (data : List UInt8) : Outcome String ValidatorSet :=
  if data.length < 52 then .throws "Invalid validator set data: insufficient size" else decoder.run data

theorem consumes_readValidator (validator : Validator) (after : List UInt8) :
    Consumes readValidator validator.serialize after validator := by
  have enough : 153 ≤ (validator.serialize ++ after).length := by
    rw [List.length_append, Validator.length_serialize]
    exact Nat.le_add_right 153 _
  exact (Consumes.require enough _).between (validator.consumes_slice after)

theorem length_serialize (set : ValidatorSet) : set.serialize.length = 52 + 153 * set.validators.length := by
  simp only [serialize, List.length_append, Crypto.length_serialize, length_littleEndian64, length_littleEndian32,
    Validator.length_flatMap_serialize]

theorem consumes_decoder (set : ValidatorSet) (few : set.validators.length < 2 ^ 32) :
    Consumes decoder set.serialize [] set := by
  simp only [serialize, List.append_assoc]
  refine (consumes_readLittle64 _ set.epoch).bind ?_
  refine (consumes_readLittle64 _ set.totalStake).bind ?_
  refine (consumes_readFixed _ _ set.merkleRoot).bind ?_
  refine (consumes_readLittle32 _ (UInt32.ofNat set.validators.length)).bind ?_
  rw [toNat_ofNat32_length few]
  exact (Consumes.many (fun validator _ => consumes_readValidator validator) []).last

/-- The round trip of a validator set. -/
theorem deserialize_serialize (set : ValidatorSet) (few : set.validators.length < 2 ^ 32) :
    deserialize set.serialize = .value set := by
  have long : ¬set.serialize.length < 52 := by
    rw [length_serialize]
    exact Nat.not_lt.mpr (Nat.le_add_right 52 _)
  unfold deserialize
  rw [if_neg long]
  refine (set.consumes_decoder few).run_eq ?_
  rw [length_serialize]
  omega

end ValidatorSet
end Consensus
end Sarafu

import Sarafu.Consensus.CheckpointManager
import Sarafu.Consensus.GenesisBuilder
import Sarafu.Consensus.LightClient
import Sarafu.Consensus.ValidatorCodec

namespace Sarafu
namespace Consensus

open Crypto State Library.Decoding

/-!
# The codecs of checkpoints, header proofs and genesis allocations

A checkpoint copies its integers from memory, which is little endian on the supported
platforms.  A header proof has no checks behind the first one: what is cut off is read
outside of the data.  An allocation without a vesting schedule ends with a byte that the
decoder looks at and leaves.
-/

namespace WeakSubjectivityCheckpoint

def serialize (checkpoint : WeakSubjectivityCheckpoint) : List UInt8 :=
  littleEndian64 checkpoint.blockHeight ++ checkpoint.blockHash.serialize ++ littleEndian64 checkpoint.epoch ++
    littleEndian64 checkpoint.timestamp ++ checkpoint.stateRoot.serialize ++ checkpoint.validatorSetRoot.serialize ++
    checkpoint.aggregatedSignature.serialize ++ littleEndian64 (UInt64.ofNat checkpoint.signers.length) ++
    checkpoint.signers.flatMap FixedBytes.serialize ++ littleEndian64 checkpoint.totalStakeSigned

/-- One iteration over the signers. -/
def readSigner : ByteDecoder ValidatorID := do
  Decoder.require 32 "Insufficient data for signer deserialization"
  readAddress

def decoder : ByteDecoder WeakSubjectivityCheckpoint := do
  let blockHeight <- readLittle64
  let blockHash <- readBlake3Hash
  let epoch <- readLittle64
  let timestamp <- readLittle64
  let stateRoot <- readBlake3Hash
  let validatorSetRoot <- readBlake3Hash
  let aggregatedSignature <- readBLS12381Signature
  let signersCount <- readLittle64
  let signers <- Decoder.many readSigner signersCount.toNat
  Decoder.require 8 "Insufficient data for total_stake_signed"
  let totalStakeSigned <- readLittle64
  return ⟨blockHeight, blockHash, epoch, timestamp, stateRoot, validatorSetRoot, aggregatedSignature, signers,
    totalStakeSigned⟩

def deserialize (data : List UInt8) : Outcome String WeakSubjectivityCheckpoint :=
  if data.length < 232 then .throws "Insufficient data for checkpoint deserialization" else decoder.run data

theorem consumes_readSigner (signer : ValidatorID) (after : List UInt8) :
    Consumes readSigner signer.serialize after signer := consumes_checkedFixed after _ _ signer

theorem length_serialize (checkpoint : WeakSubjectivityCheckpoint) :
    checkpoint.serialize.length = 232 + (checkpoint.signers.flatMap FixedBytes.serialize).length := by
  simp only [serialize, List.length_append, Crypto.length_serialize, length_littleEndian64]
  omega

theorem length_signers_le (checkpoint : WeakSubjectivityCheckpoint) :
    checkpoint.signers.length ≤ checkpoint.serialize.length := by
  have counted := length_le_length_flatMap FixedBytes.serialize checkpoint.signers fun signer => by
    rw [Crypto.length_serialize]
    decide
  rw [length_serialize]
  exact Nat.le_trans counted (Nat.le_add_left _ _)

theorem consumes_decoder (checkpoint : WeakSubjectivityCheckpoint) (short : checkpoint.serialize.length < 2 ^ 64) :
    Consumes decoder checkpoint.serialize [] checkpoint := by
  have counted := toNat_ofNat_length (Nat.lt_of_le_of_lt checkpoint.length_signers_le short)
  simp only [serialize, List.append_assoc]
  refine (consumes_readLittle64 _ checkpoint.blockHeight).bind ?_
  refine (consumes_readFixed _ _ checkpoint.blockHash).bind ?_
  refine (consumes_readLittle64 _ checkpoint.epoch).bind ?_
  refine (consumes_readLittle64 _ checkpoint.timestamp).bind ?_
  refine (consumes_readFixed _ _ checkpoint.stateRoot).bind ?_
  refine (consumes_readFixed _ _ checkpoint.validatorSetRoot).bind ?_
  refine (consumes_readFixed _ _ checkpoint.aggregatedSignature).bind ?_
  refine (consumes_readLittle64 _ (UInt64.ofNat checkpoint.signers.length)).bind ?_
  rw [counted]
  refine (Consumes.many (fun signer _ => consumes_readSigner signer) _).bind ?_
  have enough : 8 ≤ (littleEndian64 checkpoint.totalStakeSigned ++ []).length := Nat.le_add_left 8 0
  exact (Consumes.require enough _).between (consumes_readLittle64 _ checkpoint.totalStakeSigned).last

/-- The round trip of a checkpoint. -/
theorem deserialize_serialize (checkpoint : WeakSubjectivityCheckpoint) (short : checkpoint.serialize.length < 2 ^ 64) :
    deserialize checkpoint.serialize = .value checkpoint := by
  have long : ¬checkpoint.serialize.length < 232 := by
    rw [length_serialize]
    exact Nat.not_lt.mpr (Nat.le_add_right 232 _)
  unfold deserialize
  rw [if_neg long]
  exact (checkpoint.consumes_decoder short).run_eq short

end WeakSubjectivityCheckpoint

namespace HeaderProof

/-- A vector behind its size. -/
def writeSized (bytes : List UInt8) : List UInt8 := littleEndian32 (UInt32.ofNat bytes.length) ++ bytes

def serialize (proof : HeaderProof) : List UInt8 :=
  writeSized proof.header.serialize ++ writeSized proof.qc.serialize ++
    littleEndian32 (UInt32.ofNat proof.validatorSetMerkleProof.length) ++
    proof.validatorSetMerkleProof.flatMap FixedBytes.serialize ++
    littleEndian32 (UInt32.ofNat proof.signingValidators.length) ++
    proof.signingValidators.flatMap Validator.serialize ++ littleEndian64 proof.totalValidatorSetStake

def readSized : ByteDecoder (List UInt8) := do
  let size <- readLittle32
  Decoder.slice size.toNat

/-- One iteration over the validators. -/
def readValidator : ByteDecoder Validator := do
  let validatorData <- Decoder.slice 153
  Decoder.lift (Validator.deserialize validatorData)

def decoder : ByteDecoder HeaderProof := do
  let headerData <- readSized
  let header <- Decoder.lift (BlockHeader.deserialize headerData)
  let qcData <- readSized
  let qc <- Decoder.lift (QuorumCertificate.deserialize qcData)
  let proofCount <- readLittle32
  let validatorSetMerkleProof <- Decoder.many readBlake3Hash proofCount.toNat
  let validatorCount <- readLittle32
  let signingValidators <- Decoder.many readValidator validatorCount.toNat
  let totalValidatorSetStake <- readLittle64
  return ⟨header, qc, validatorSetMerkleProof, signingValidators, totalValidatorSetStake⟩

def deserialize (data : List UInt8) : Outcome String HeaderProof :=
  if data.length < 16 then .throws "HeaderProof data too short" else decoder.run data

/-- The sizes and counts that four bytes can hold. -/
structure Sized (proof : HeaderProof) : Prop where
  certificate : proof.qc.serialize.length < 2 ^ 32
  hashes : proof.validatorSetMerkleProof.length < 2 ^ 32
  validators : proof.signingValidators.length < 2 ^ 32

theorem consumes_readSized {bytes : List UInt8} (short : bytes.length < 2 ^ 32) (after : List UInt8) :
    Consumes readSized (writeSized bytes) after bytes := by
  refine (consumes_readLittle32 _ (UInt32.ofNat bytes.length)).bind ?_
  rw [toNat_ofNat32_length short]
  exact Consumes.slice rfl after

theorem length_serialize (proof : HeaderProof) : proof.serialize.length =
    208 + proof.qc.serialize.length + 32 * proof.validatorSetMerkleProof.length +
      153 * proof.signingValidators.length := by
  simp only [serialize, writeSized, List.length_append, BlockHeader.length_serialize, length_littleEndian32,
    length_littleEndian64, Validator.length_flatMap_serialize, length_flatMap_serialize]
  omega

theorem consumes_decoder (proof : HeaderProof) (sized : proof.Sized) :
    Consumes decoder proof.serialize [] proof := by
  have headerShort : proof.header.serialize.length < 2 ^ 32 := by
    rw [BlockHeader.length_serialize]
    decide
  have certificate := proof.qc.deserialize_serialize (Nat.lt_trans sized.certificate (by decide))
  simp only [serialize, List.append_assoc]
  refine (consumes_readSized headerShort _).bind ?_
  refine (Consumes.lift proof.header.deserialize_serialize _).between ?_
  refine (consumes_readSized sized.certificate _).bind ?_
  refine (Consumes.lift certificate _).between ?_
  refine (consumes_readLittle32 _ (UInt32.ofNat proof.validatorSetMerkleProof.length)).bind ?_
  rw [toNat_ofNat32_length sized.hashes]
  refine (Consumes.many (fun hash _ bytes => consumes_readFixed bytes Blake3Hash.mismatch hash) _).bind ?_
  refine (consumes_readLittle32 _ (UInt32.ofNat proof.signingValidators.length)).bind ?_
  rw [toNat_ofNat32_length sized.validators]
  refine (Consumes.many (fun validator _ => validator.consumes_slice) _).bind ?_
  exact (consumes_readLittle64 [] proof.totalValidatorSetStake).last

/-- The round trip of a header proof. -/
theorem deserialize_serialize (proof : HeaderProof) (sized : proof.Sized) :
    deserialize proof.serialize = .value proof := by
  have length := proof.length_serialize
  have bounded : proof.serialize.length < 2 ^ 64 := by
    have certificate := sized.certificate
    have hashes := sized.hashes
    have validators := sized.validators
    omega
  unfold deserialize
  rw [if_neg (by omega)]
  exact (proof.consumes_decoder sized).run_eq bounded

end HeaderProof

namespace VestingSchedule

def serialize (schedule : VestingSchedule) : List UInt8 :=
  littleEndian64 schedule.totalAmount ++ littleEndian64 schedule.vestedAmount ++
    littleEndian64 schedule.startTimestamp ++ littleEndian64 schedule.durationSeconds

def decoder : ByteDecoder VestingSchedule := do
  let totalAmount <- readLittle64
  let vestedAmount <- readLittle64
  let startTimestamp <- readLittle64
  let durationSeconds <- readLittle64
  return ⟨totalAmount, vestedAmount, startTimestamp, durationSeconds⟩

def deserialize (data : List UInt8) : Outcome String VestingSchedule :=
  if data.length < 32 then .throws "Invalid vesting schedule data size" else decoder.run data

theorem length_serialize (schedule : VestingSchedule) : schedule.serialize.length = 32 := rfl

theorem consumes_decoder (schedule : VestingSchedule) (after : List UInt8) :
    Consumes decoder schedule.serialize after schedule := by
  simp only [serialize, List.append_assoc]
  refine (consumes_readLittle64 _ schedule.totalAmount).bind ?_
  refine (consumes_readLittle64 _ schedule.vestedAmount).bind ?_
  refine (consumes_readLittle64 _ schedule.startTimestamp).bind ?_
  exact (consumes_readLittle64 _ schedule.durationSeconds).last

theorem deserialize_serialize (schedule : VestingSchedule) : deserialize schedule.serialize = .value schedule := by
  unfold deserialize
  rw [length_serialize, if_neg (Nat.lt_irrefl 32)]
  exact (schedule.consumes_decoder []).run_eq (by rw [length_serialize]; decide)

end VestingSchedule

namespace GenesisAllocation

def writeVesting : Option VestingSchedule -> List UInt8
  | some schedule => 1 :: schedule.serialize
  | none => [0]

def serialize (allocation : GenesisAllocation) : List UInt8 :=
  allocation.address.serialize ++ littleEndian64 allocation.amount ++
    littleEndian32 (UInt32.ofNat allocation.category.length) ++ allocation.category ++
    writeVesting allocation.vestingSchedule

/-- A flag other than one, or none at all, stands for no schedule. -/
def readVesting : ByteDecoder (Option VestingSchedule) := do
  let flag <- Decoder.peek
  if flag = some 1 then do
    let _ <- readByte
    let vestingData <- Decoder.rest
    let schedule <- Decoder.lift (VestingSchedule.deserialize vestingData)
    return some schedule
  else
    return none

def decoder : ByteDecoder GenesisAllocation := do
  let address <- readAddress
  let amount <- readLittle64
  let categoryLength <- readLittle32
  let category <- Decoder.slice categoryLength.toNat
  let vestingSchedule <- readVesting
  return ⟨address, amount, category, vestingSchedule⟩

def deserialize (data : List UInt8) : Outcome String GenesisAllocation :=
  if data.length < 45 then .throws "Invalid genesis allocation data size" else decoder.run data

/-- The part of the flag and the schedule that the decoder takes. -/
def takenVesting : Option VestingSchedule -> List UInt8
  | some schedule => 1 :: schedule.serialize
  | none => []

/-- The part that it leaves. -/
def leftVesting : Option VestingSchedule -> List UInt8
  | some _ => []
  | none => [0]

theorem writeVesting_eq (vesting : Option VestingSchedule) :
    writeVesting vesting = takenVesting vesting ++ leftVesting vesting := by
  cases vesting with
  | none => rfl
  | some schedule => exact (List.append_nil _).symm

theorem consumes_readVesting (vesting : Option VestingSchedule) :
    Consumes readVesting (takenVesting vesting) (leftVesting vesting) vesting := by
  cases vesting with
  | none => exact (Consumes.peek [0]).between (Consumes.pure none [0])
  | some schedule =>
      refine (Consumes.peek (takenVesting (some schedule) ++ [])).between ?_
      change Consumes (readByte >>= fun _ => _) ([1] ++ schedule.serialize) [] (some schedule)
      refine (consumes_readByte _ 1).bind ?_
      rw [← List.append_nil schedule.serialize]
      refine (Consumes.rest schedule.serialize).bind ?_
      exact (Consumes.lift schedule.deserialize_serialize []).last

theorem consumes_decoder (allocation : GenesisAllocation) (short : allocation.category.length < 2 ^ 32) :
    Consumes decoder (allocation.address.serialize ++ littleEndian64 allocation.amount ++
        littleEndian32 (UInt32.ofNat allocation.category.length) ++ allocation.category ++
        takenVesting allocation.vestingSchedule) (leftVesting allocation.vestingSchedule) allocation := by
  simp only [List.append_assoc]
  refine (consumes_readFixed _ _ allocation.address).bind ?_
  refine (consumes_readLittle64 _ allocation.amount).bind ?_
  refine (consumes_readLittle32 _ (UInt32.ofNat allocation.category.length)).bind ?_
  rw [toNat_ofNat32_length short]
  refine (Consumes.slice rfl _).bind ?_
  exact (consumes_readVesting allocation.vestingSchedule).last

theorem length_writeVesting (vesting : Option VestingSchedule) :
    1 ≤ (writeVesting vesting).length ∧ (writeVesting vesting).length ≤ 33 := by
  cases vesting with
  | none => decide
  | some schedule => exact ⟨Nat.le_add_left 1 32, Nat.le_refl 33⟩

theorem length_serialize (allocation : GenesisAllocation) : allocation.serialize.length =
    44 + allocation.category.length + (writeVesting allocation.vestingSchedule).length := by
  simp only [serialize, List.length_append, Crypto.length_serialize, length_littleEndian64, length_littleEndian32]

/-- The round trip of an allocation. -/
theorem deserialize_serialize (allocation : GenesisAllocation) (short : allocation.category.length < 2 ^ 32) :
    deserialize allocation.serialize = .value allocation := by
  have length := allocation.length_serialize
  have vesting := length_writeVesting allocation.vestingSchedule
  have bounded : allocation.serialize.length < 2 ^ 64 := by omega
  have parts : allocation.serialize = (allocation.address.serialize ++ littleEndian64 allocation.amount ++
      littleEndian32 (UInt32.ofNat allocation.category.length) ++ allocation.category ++
      takenVesting allocation.vestingSchedule) ++ leftVesting allocation.vestingSchedule := by
    rw [serialize, writeVesting_eq]
    simp only [List.append_assoc]
  unfold deserialize
  rw [if_neg (by omega)]
  rw [parts] at bounded ⊢
  exact (allocation.consumes_decoder short).run_append bounded

end GenesisAllocation

/-- The round trips of the records that a light client and a new node start from.  A
checkpoint has an encoding if its size is below `2^64`. -/
theorem lightClientCodecs_roundTrip :
    (forall set : ValidatorSet, set.validators.length < 2 ^ 32 ->
        ValidatorSet.deserialize set.serialize = .value set) ∧
      (forall proof : HeaderProof, proof.Sized -> HeaderProof.deserialize proof.serialize = .value proof) ∧
      (forall checkpoint : WeakSubjectivityCheckpoint, checkpoint.serialize.length < 2 ^ 64 ->
        WeakSubjectivityCheckpoint.deserialize checkpoint.serialize = .value checkpoint) ∧
      forall allocation : GenesisAllocation, allocation.category.length < 2 ^ 32 ->
        GenesisAllocation.deserialize allocation.serialize = .value allocation :=
  ⟨ValidatorSet.deserialize_serialize, HeaderProof.deserialize_serialize,
    WeakSubjectivityCheckpoint.deserialize_serialize, GenesisAllocation.deserialize_serialize⟩

/-- A header proof with one hash and one signing validator. -/
def encodedHeaderProof : HeaderProof :=
  ⟨encodedBlock.header, encodedBlock.justify, [Blake3Hash.zero],
    [Validator.make (FixedBytes.ofNat 32 1) (FixedBytes.ofNat 48 2) (FixedBytes.ofNat 32 3) 400], 900⟩

/-- A checkpoint with one signer. -/
def encodedCheckpoint : WeakSubjectivityCheckpoint :=
  ⟨100, Blake3Hash.zero, 2, 1000, Blake3Hash.zero, Blake3Hash.zero, FixedBytes.zero 96, [FixedBytes.ofNat 32 1], 400⟩

theorem lightClientCodecs_roundTrip_encoded :
    ValidatorSet.deserialize (ValidatorSet.mk 4 encodedHeaderProof.signingValidators 400 Blake3Hash.zero).serialize =
        .value ⟨4, encodedHeaderProof.signingValidators, 400, Blake3Hash.zero⟩ ∧
      HeaderProof.deserialize encodedHeaderProof.serialize = .value encodedHeaderProof ∧
      WeakSubjectivityCheckpoint.deserialize encodedCheckpoint.serialize = .value encodedCheckpoint ∧
      GenesisAllocation.deserialize (GenesisAllocation.mk Address.zero 5 [84] none).serialize =
        .value ⟨Address.zero, 5, [84], none⟩ :=
  ⟨lightClientCodecs_roundTrip.1 _ (by decide),
    lightClientCodecs_roundTrip.2.1 _ ⟨by decide +kernel, by decide, by decide⟩,
    lightClientCodecs_roundTrip.2.2.1 _ (by decide +kernel), lightClientCodecs_roundTrip.2.2.2 _ (by decide)⟩

end Consensus
end Sarafu

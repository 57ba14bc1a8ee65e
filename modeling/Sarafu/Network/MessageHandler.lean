import Sarafu.Crypto.Transparent
import Sarafu.Network.NetworkMessage

namespace Sarafu
namespace Network

open Crypto Consensus Library.Decoding

/-!
# The payloads of the messages

The frames are big endian, and the blocks and certificates inside of them keep their own
little-endian format and take all the bytes that are left.  A `std::string` is the list of
its bytes.
-/

/-- The two enumerators are `byHeight` and `byHash`; other values come from the unchecked
cast of a byte. -/
structure RequestType where
  value : UInt8
deriving DecidableEq

namespace RequestType

def byHeight : RequestType := ⟨0⟩
def byHash : RequestType := ⟨1⟩

end RequestType

structure BlockRequest where
  type : RequestType
  height : UInt64
  hash : Blake3Hash
  requesterId : ValidatorID
deriving DecidableEq

structure BlockResponse where
  block : Block
  found : Bool
  error : List UInt8
deriving DecidableEq

structure ValidatorInfo where
  validatorId : ValidatorID
  consensusKey : BLS12381PublicKey
  bondedStake : UInt64
  isActive : Bool
deriving DecidableEq

structure ValidatorSetUpdate where
  epoch : UInt64
  validators : List ValidatorInfo
  totalStake : UInt64
  validatorSetRoot : Blake3Hash
  transitionQC : QuorumCertificate
deriving DecidableEq

namespace BlockRequest

def serialize (request : BlockRequest) : List UInt8 :=
  [request.type.value] ++ bigEndian64 request.height ++ request.hash.serialize ++ request.requesterId.serialize

def decoder : ByteDecoder BlockRequest := do
  let type <- readByte
  let height <- readBig64
  let hash <- readBlake3Hash
  let requesterId <- readAddress
  return ⟨⟨type⟩, height, hash, requesterId⟩

def deserialize (data : List UInt8) : Outcome String BlockRequest :=
  if data.length < 73 then .throws "BlockRequest::deserialize: data too short" else decoder.run data

theorem length_serialize (request : BlockRequest) : request.serialize.length = 73 := by
  simp only [serialize, List.length_append, Crypto.length_serialize, length_bigEndian64, List.length_singleton]

theorem consumes_decoder (request : BlockRequest) : Consumes decoder request.serialize [] request := by
  simp only [serialize, List.append_assoc]
  refine (consumes_readByte _ request.type.value).bind ?_
  refine (consumes_readBig64 _ request.height).bind ?_
  refine (consumes_readFixed _ _ request.hash).bind ?_
  exact (consumes_readFixed _ _ request.requesterId).last

/-- The round trip of a request. -/
theorem deserialize_serialize (request : BlockRequest) : deserialize request.serialize = .value request := by
  unfold deserialize
  rw [length_serialize, if_neg (Nat.lt_irrefl 73)]
  exact request.consumes_decoder.run_eq (by rw [length_serialize]; decide)

end BlockRequest

namespace BlockResponse

/-- The block of a response that was not found. -/
def defaultBlock : Block :=
  ⟨⟨0, 0, Blake3Hash.zero, Blake3Hash.zero, Blake3Hash.zero, Blake3Hash.zero, FixedBytes.zero 32, 0⟩, [],
    QuorumCertificate.empty⟩

/-- `operator==`: without the flag the blocks are not compared. -/
def equal (left right : BlockResponse) : Bool :=
  left.found == right.found && left.error == right.error && (!left.found || left.block == right.block)

def serialize (response : BlockResponse) : List UInt8 :=
  [flagByte response.found] ++ bigEndian32 (UInt32.ofNat response.error.length) ++ response.error ++
    if response.found then response.block.serialize else []

def readBlock (found : Bool) : ByteDecoder Block :=
  if found then do
    let blockBytes <- Decoder.rest
    Decoder.lift (Block.deserialize blockBytes)
  else
    return defaultBlock

def decoder : ByteDecoder BlockResponse := do
  let found <- readFlag
  let errorLength <- readBig32
  Decoder.require errorLength.toNat "BlockResponse::deserialize: invalid error length"
  let error <- Decoder.slice errorLength.toNat
  let block <- readBlock found
  return ⟨block, found, error⟩

def deserialize (data : List UInt8) : Outcome String BlockResponse :=
  if data.length < 5 then .throws "BlockResponse::deserialize: data too short" else decoder.run data

/-- What the decoder makes of a response: the block survives only if it was found. -/
def received (response : BlockResponse) : BlockResponse :=
  { response with block := if response.found then response.block else defaultBlock }

theorem equal_received (response : BlockResponse) : response.received.equal response = true := by
  rcases response with ⟨block, found, error⟩
  cases found with
  | false => simp only [equal, received, beq_self_eq_true, Bool.not_false, Bool.true_or, Bool.and_self]
  | true => simp only [equal, received, if_true, beq_self_eq_true, Bool.or_true, Bool.and_self]

theorem length_serialize (response : BlockResponse) : response.serialize.length =
    5 + response.error.length + (if response.found then response.block.serialize else []).length := by
  simp only [serialize, List.length_append, length_bigEndian32, List.length_singleton]

theorem consumes_readBlock (response : BlockResponse) (short : response.serialize.length < 2 ^ 64) :
    Consumes (readBlock response.found) (if response.found then response.block.serialize else []) []
      response.received.block := by
  have length := response.length_serialize
  unfold received
  cases found : response.found with
  | false => exact Consumes.pure defaultBlock []
  | true =>
      rw [found, if_pos rfl] at length
      rw [if_pos rfl, if_pos rfl]
      exact (Consumes.rest response.block.serialize).parsed (response.block.deserialize_serialize (by omega))

theorem consumes_decoder (response : BlockResponse) (errorShort : response.error.length < 2 ^ 32)
    (short : response.serialize.length < 2 ^ 64) : Consumes decoder response.serialize [] response.received := by
  have blockBytes := response.consumes_readBlock short
  simp only [serialize, List.append_assoc]
  refine (consumes_readFlag _ response.found).bind ?_
  refine (consumes_readBig32 _ (UInt32.ofNat response.error.length)).bind ?_
  rw [toNat_ofNat32_length errorShort]
  refine (Consumes.require ?enough _).between ?_
  case enough =>
    rw [List.length_append, List.length_append]
    omega
  exact (Consumes.slice rfl _).bind blockBytes.last

/-- The round trip of a response. -/
theorem deserialize_serialize (response : BlockResponse) (errorShort : response.error.length < 2 ^ 32)
    (short : response.serialize.length < 2 ^ 64) : deserialize response.serialize = .value response.received := by
  have length := response.length_serialize
  unfold deserialize
  rw [if_neg (by omega)]
  exact (response.consumes_decoder errorShort short).run_eq short

end BlockResponse

namespace ValidatorInfo

def serialize (info : ValidatorInfo) : List UInt8 :=
  info.validatorId.serialize ++ info.consensusKey.serialize ++ bigEndian64 info.bondedStake ++ [flagByte info.isActive]

def decoder : ByteDecoder ValidatorInfo := do
  let validatorId <- readAddress
  let consensusKey <- readBLS12381PublicKey
  let bondedStake <- readBig64
  let isActive <- readFlag
  return ⟨validatorId, consensusKey, bondedStake, isActive⟩

def deserialize (data : List UInt8) : Outcome String ValidatorInfo :=
  if data.length < 89 then .throws "ValidatorInfo::deserialize: data too short" else decoder.run data

theorem length_serialize (info : ValidatorInfo) : info.serialize.length = 89 := by
  simp only [serialize, List.length_append, Crypto.length_serialize, length_bigEndian64, List.length_singleton]

theorem consumes_decoder (info : ValidatorInfo) : Consumes decoder info.serialize [] info := by
  simp only [serialize, List.append_assoc]
  refine (consumes_readFixed _ _ info.validatorId).bind ?_
  refine (consumes_readFixed _ _ info.consensusKey).bind ?_
  refine (consumes_readBig64 _ info.bondedStake).bind ?_
  exact (consumes_readFlag [] info.isActive).last

theorem deserialize_serialize (info : ValidatorInfo) : deserialize info.serialize = .value info := by
  unfold deserialize
  rw [length_serialize, if_neg (Nat.lt_irrefl 89)]
  exact info.consumes_decoder.run_eq (by rw [length_serialize]; decide)

end ValidatorInfo

namespace ValidatorSetUpdate

def serialize (update : ValidatorSetUpdate) : List UInt8 :=
  bigEndian64 update.epoch ++ bigEndian32 (UInt32.ofNat update.validators.length) ++
    update.validators.flatMap ValidatorInfo.serialize ++ bigEndian64 update.totalStake ++
    update.validatorSetRoot.serialize ++ update.transitionQC.serialize

/-- One iteration over the validators. -/
def readValidator : ByteDecoder ValidatorInfo := do
  Decoder.require 89 "ValidatorSetUpdate::deserialize: invalid validator data"
  let validatorBytes <- Decoder.slice 89
  Decoder.lift (ValidatorInfo.deserialize validatorBytes)

def decoder : ByteDecoder ValidatorSetUpdate := do
  let epoch <- readBig64
  let validatorCount <- readBig32
  let validators <- Decoder.many readValidator validatorCount.toNat
  Decoder.require 8 "ValidatorSetUpdate::deserialize: data too short for total_stake"
  let totalStake <- readBig64
  Decoder.require 32 "ValidatorSetUpdate::deserialize: data too short for validator_set_root"
  let validatorSetRoot <- readBlake3Hash
  let qcBytes <- Decoder.rest
  let transitionQC <- Decoder.lift (QuorumCertificate.deserialize qcBytes)
  return ⟨epoch, validators, totalStake, validatorSetRoot, transitionQC⟩

def deserialize (data : List UInt8) : Outcome String ValidatorSetUpdate :=
  if data.length < 12 then .throws "ValidatorSetUpdate::deserialize: data too short" else decoder.run data

theorem consumes_readValidator (info : ValidatorInfo) (after : List UInt8) :
    Consumes readValidator info.serialize after info := by
  have enough : 89 ≤ (info.serialize ++ after).length := by
    rw [List.length_append, ValidatorInfo.length_serialize]
    exact Nat.le_add_right 89 _
  refine (Consumes.require enough _).between ?_
  exact (Consumes.slice info.length_serialize after).parsed info.deserialize_serialize

theorem length_serialize (update : ValidatorSetUpdate) : update.serialize.length =
    52 + (update.validators.flatMap ValidatorInfo.serialize).length + update.transitionQC.serialize.length := by
  simp only [serialize, List.length_append, Crypto.length_serialize, length_bigEndian64, length_bigEndian32]
  omega

theorem consumes_decoder (update : ValidatorSetUpdate) (few : update.validators.length < 2 ^ 32)
    (short : update.serialize.length < 2 ^ 64) : Consumes decoder update.serialize [] update := by
  have length := update.length_serialize
  have certificate := update.transitionQC.deserialize_serialize (by omega)
  simp only [serialize, List.append_assoc]
  refine (consumes_readBig64 _ update.epoch).bind ?_
  refine (consumes_readBig32 _ (UInt32.ofNat update.validators.length)).bind ?_
  rw [toNat_ofNat32_length few]
  refine (Consumes.many (fun info _ => consumes_readValidator info) _).bind ?_
  refine (Consumes.require ?stake _).between ?_
  case stake =>
    simp only [List.length_append, length_bigEndian64]
    omega
  refine (consumes_readBig64 _ update.totalStake).bind ?_
  refine (Consumes.require ?root _).between ?_
  case root =>
    simp only [List.length_append, Crypto.length_serialize]
    omega
  refine (consumes_readFixed _ _ update.validatorSetRoot).bind ?_
  rw [← List.append_nil update.transitionQC.serialize]
  refine (Consumes.rest update.transitionQC.serialize).bind ?_
  exact (Consumes.lift certificate []).last

/-- The round trip of an update. -/
theorem deserialize_serialize (update : ValidatorSetUpdate) (few : update.validators.length < 2 ^ 32)
    (short : update.serialize.length < 2 ^ 64) : deserialize update.serialize = .value update := by
  have length := update.length_serialize
  unfold deserialize
  rw [if_neg (by omega)]
  exact (update.consumes_decoder few short).run_eq short

end ValidatorSetUpdate

/-- The round trips of the network formats.  A response and an update have an encoding if
its size is below `2^64`. -/
theorem networkCodecs_roundTrip (prim : Primitives) :
    (forall (type : MessageType) (payload : List UInt8), payload.length < 2 ^ 32 ->
        NetworkMessage.deserialize prim (NetworkMessage.make prim type payload).serialize =
          .value (NetworkMessage.make prim type payload)) ∧
      (forall request : BlockRequest, BlockRequest.deserialize request.serialize = .value request) ∧
      (forall response : BlockResponse, response.error.length < 2 ^ 32 -> response.serialize.length < 2 ^ 64 ->
        ∃ answer, BlockResponse.deserialize response.serialize = .value answer ∧ answer.equal response = true) ∧
      forall update : ValidatorSetUpdate, update.validators.length < 2 ^ 32 -> update.serialize.length < 2 ^ 64 ->
        ValidatorSetUpdate.deserialize update.serialize = .value update :=
  ⟨fun type _ short => NetworkMessage.deserialize_serialize type short, BlockRequest.deserialize_serialize,
    fun response errorShort short =>
      ⟨response.received, response.deserialize_serialize errorShort short, response.equal_received⟩,
    ValidatorSetUpdate.deserialize_serialize⟩

/-- An update with one active validator. -/
def encodedUpdate : ValidatorSetUpdate :=
  ⟨3, [⟨FixedBytes.ofNat 32 1, FixedBytes.ofNat 48 2, 400, true⟩], 400, Blake3Hash.zero, encodedBlock.justify⟩

theorem networkCodecs_roundTrip_encoded :
    (NetworkMessage.deserialize Transparent.primitives
        (NetworkMessage.make Transparent.primitives MessageType.vote [1, 2]).serialize =
          .value (NetworkMessage.make Transparent.primitives MessageType.vote [1, 2])) ∧
      (∃ answer, BlockResponse.deserialize (BlockResponse.mk encodedBlock true []).serialize = .value answer ∧
        answer.equal ⟨encodedBlock, true, []⟩ = true) ∧
      ValidatorSetUpdate.deserialize encodedUpdate.serialize = .value encodedUpdate :=
  ⟨(networkCodecs_roundTrip Transparent.primitives).1 MessageType.vote [1, 2] (by decide),
    (networkCodecs_roundTrip Transparent.primitives).2.2.1 ⟨encodedBlock, true, []⟩ (by decide) (by decide +kernel),
    (networkCodecs_roundTrip Transparent.primitives).2.2.2 encodedUpdate (by decide) (by decide +kernel)⟩

end Network
end Sarafu

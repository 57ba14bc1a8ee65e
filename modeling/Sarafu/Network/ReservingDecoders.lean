import Sarafu.Consensus.BlockBytes
import Sarafu.Network.BoundedDecoders

namespace Sarafu
namespace Consensus

open Crypto State Library.Decoding

/-!
# Decoders that reserve space for counted items

Some decoders call `reserve` with a count that they have just read, and a count that cannot be
allocated throws there, before any item is read.  Which counts can be allocated is a
parameter.  When all of them can, these are the decoders of the codecs.
-/

/-- The vectors that are reserved. -/
inductive ReservedVector
  | signers
  | transactions
  | hashes
  | validators

variable (canReserve : ReservedVector -> Nat -> Bool)

def reserve (vector : ReservedVector) (count : Nat) : ByteDecoder Unit :=
  Decoder.lift (if canReserve vector count then .value () else .throws "vector::reserve")

namespace QuorumCertificate

def reservingDecoder : ByteDecoder QuorumCertificate := do
  let height <- readLittle64
  let hash <- readBlake3Hash
  let view <- readLittle64
  let signature <- readBLS12381Signature
  let signersCount <- readLittle64
  reserve canReserve .signers signersCount.toNat
  let signers <- Decoder.many readSigner signersCount.toNat
  Decoder.requireEach 8 "QuorumCertificate data truncated"
  let stake <- readLittle64
  return ⟨height, hash, view, signature, signers, stake⟩

def deserializeReserving (data : List UInt8) : Outcome String QuorumCertificate :=
  if data.length < 160 then .throws "QuorumCertificate data too short" else (reservingDecoder canReserve).run data

end QuorumCertificate

namespace Block

def reservingDecoder : ByteDecoder Block := do
  let headerBytes <- Decoder.slice 184
  let header <- Decoder.lift (BlockHeader.deserialize headerBytes)
  Decoder.requireEach 8 "Block data truncated"
  let txCount <- readLittle64
  reserve canReserve .transactions txCount.toNat
  let transactions <- Decoder.many readTransaction txCount.toNat
  let qcBytes <- Decoder.rest
  let justify <- Decoder.lift (QuorumCertificate.deserializeReserving canReserve qcBytes)
  return ⟨header, transactions, justify⟩

def deserializeReserving (data : List UInt8) : Outcome String Block :=
  if data.length < 192 then .throws "Block data too short" else (reservingDecoder canReserve).run data

end Block

namespace HeaderProof

def reservingDecoder : ByteDecoder HeaderProof := do
  let headerData <- readSized
  let header <- Decoder.lift (BlockHeader.deserialize headerData)
  let qcData <- readSized
  let qc <- Decoder.lift (QuorumCertificate.deserializeReserving canReserve qcData)
  let proofCount <- readLittle32
  reserve canReserve .hashes proofCount.toNat
  let validatorSetMerkleProof <- Decoder.many readBlake3Hash proofCount.toNat
  let validatorCount <- readLittle32
  reserve canReserve .validators validatorCount.toNat
  let signingValidators <- Decoder.many readValidator validatorCount.toNat
  let totalValidatorSetStake <- readLittle64
  return ⟨header, qc, validatorSetMerkleProof, signingValidators, totalValidatorSetStake⟩

def deserializeReserving (data : List UInt8) : Outcome String HeaderProof :=
  if data.length < 16 then .throws "HeaderProof data too short" else (reservingDecoder canReserve).run data

end HeaderProof

/-! ## With all space that is asked for -/

theorem reserve_bind {Result : Type} (vector : ReservedVector) (count : Nat) (next : Unit -> ByteDecoder Result) :
    (reserve (fun _ _ => true) vector count >>= next) = next () := rfl

theorem QuorumCertificate.deserializeReserving_eq (data : List UInt8) :
    deserializeReserving (fun _ _ => true) data = deserialize data := by
  unfold deserializeReserving reservingDecoder
  simp only [reserve_bind]
  rfl

theorem Block.deserializeReserving_eq (data : List UInt8) :
    deserializeReserving (fun _ _ => true) data = deserialize data := by
  unfold deserializeReserving reservingDecoder
  simp only [reserve_bind, QuorumCertificate.deserializeReserving_eq]
  rfl

theorem HeaderProof.deserializeReserving_eq (data : List UInt8) :
    deserializeReserving (fun _ _ => true) data = deserialize data := by
  unfold deserializeReserving reservingDecoder
  simp only [reserve_bind, QuorumCertificate.deserializeReserving_eq]
  rfl

/-! ## Certificates -/

variable {canReserve}

theorem Safe.reserve_bind_iff {Result : Type} {data : List UInt8} {offset : Nat} {vector : ReservedVector} {count : Nat}
    {next : Unit -> ByteDecoder Result} : Safe (reserve canReserve vector count >>= next) data offset <->
      (canReserve vector count = true -> Safe (next ()) data offset) := by
  unfold reserve
  cases canReserve vector count with
  | true => exact ⟨fun safe _ => safe, fun holds => holds rfl⟩
  | false => exact iff_of_true nofun fun impossible => absurd impossible Bool.false_ne_true

/-- The space for the signers is all that makes a difference. -/
theorem QuorumCertificate.deserializeReserving_cases {data : List UInt8} (vector : data.length < 2 ^ 63)
    (long : 160 ≤ data.length) : deserializeReserving canReserve data =
      if canReserve .signers (wordAt data 144).toNat then deserialize data else .throws "vector::reserve" := by
  have heightField := readLittle64_eq vector 0
  have hashField : Reaches readBlake3Hash data (0 + 8) (0 + 8 + 32) := reaches_readFixed vector (by decide) _ (by omega)
  have viewField := readLittle64_eq vector (0 + 8 + 32)
  have signatureField : Reaches readBLS12381Signature data (0 + 8 + 32 + 8) (0 + 8 + 32 + 8 + 96) :=
    reaches_readFixed vector (by decide) _ (by omega)
  have countField := readLittle64_eq vector (0 + 8 + 32 + 8 + 96)
  rw [if_pos (by omega)] at heightField viewField countField
  rcases hashField with ⟨hash, hashField⟩
  rcases signatureField with ⟨signature, signatureField⟩
  have place : 0 + 8 + 32 + 8 + 96 = 144 := rfl
  unfold deserializeReserving deserialize
  rw [if_neg (Nat.not_lt.mpr long), if_neg (Nat.not_lt.mpr long)]
  unfold Decoder.run reservingDecoder decoder
  rw [bind_of_value heightField, bind_of_value hashField, bind_of_value viewField, bind_of_value signatureField,
    bind_of_value countField, bind_of_value heightField, bind_of_value hashField, bind_of_value viewField,
    bind_of_value signatureField, bind_of_value countField, place]
  unfold reserve
  cases canReserve .signers (wordAt data 144).toNat with
  | true => rfl
  | false => rfl

theorem QuorumCertificate.deserializeReserving_ne_outside {data : List UInt8} (vector : data.length < 2 ^ 63) :
    deserializeReserving canReserve data ≠ .outside := by
  by_cases long : 160 ≤ data.length
  · rw [deserializeReserving_cases vector long]
    split
    · exact deserialize_ne_outside vector
    · nofun
  · rw [deserializeReserving, if_pos (Nat.not_le.mp long)]
    nofun

/-- A certificate is decoded if and only if its signers fit into the string and can be
reserved. -/
theorem QuorumCertificate.exists_deserializeReserving_iff {data : List UInt8} (vector : data.length < 2 ^ 63) :
    (∃ qc, deserializeReserving canReserve data = .value qc) <->
      160 + 32 * (wordAt data 144).toNat ≤ data.length ∧ canReserve .signers (wordAt data 144).toNat = true := by
  by_cases long : 160 ≤ data.length
  · rw [deserializeReserving_cases vector long, ← exists_deserialize_iff vector]
    split
    · rename_i reserved
      exact (and_iff_left reserved).symm
    · rename_i refused
      exact iff_of_false (fun ⟨_, impossible⟩ => nomatch impossible) fun both => refused both.2
  · rw [deserializeReserving, if_pos (Nat.not_le.mp long)]
    exact iff_of_false (fun ⟨_, impossible⟩ => nomatch impossible) fun both => by omega

end Consensus
end Sarafu

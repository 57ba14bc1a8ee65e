import Sarafu.Crypto.CanonicalFields
import Sarafu.Crypto.FieldOffsets
import Sarafu.Crypto.MerkleTree

namespace Sarafu
namespace Crypto
namespace MerkleTree
namespace MerkleProof

open Library.Decoding

/-!
# The codec of Merkle proofs

The integers of a proof are copied from memory, which is little endian on the supported
platforms.  The decoder computes the size that the count of siblings announces and asks for
exactly that size.  The product wraps around from `2^59` siblings on, and the loop runs as
often as the count says.
-/

deriving instance DecidableEq for MerkleProof

def serialize (proof : MerkleProof) : List UInt8 :=
  littleEndian64 (UInt64.ofNat proof.leafIndex) ++ proof.leafHash.serialize ++
    littleEndian64 (UInt64.ofNat proof.siblingHashes.length) ++ proof.siblingHashes.flatMap FixedBytes.serialize

def decoder : ByteDecoder MerkleProof := do
  let leafIndex <- readLittle64
  let leafHash <- readBlake3Hash
  let numSiblings <- readLittle64
  Decoder.requireExactly (numSiblings.toNat * 32) "Invalid proof data: size mismatch"
  let siblingHashes <- Decoder.many readBlake3Hash numSiblings.toNat
  return ⟨leafIndex.toNat, leafHash, siblingHashes⟩

def deserialize (data : List UInt8) : Outcome String MerkleProof :=
  if data.length < 48 then .throws "Invalid proof data: too short" else decoder.run data

/-- The index is a `size_t` and the encoding is a vector. -/
structure Encodable (proof : MerkleProof) : Prop where
  index : proof.leafIndex < 2 ^ 64
  short : proof.serialize.length < 2 ^ 64

theorem length_serialize (proof : MerkleProof) : proof.serialize.length = 48 + 32 * proof.siblingHashes.length := by
  simp only [serialize, List.length_append, Crypto.length_serialize, length_littleEndian64, length_flatMap_serialize]

theorem consumes_decoder {proof : MerkleProof} (encodable : proof.Encodable) :
    Consumes decoder proof.serialize [] proof := by
  have short := encodable.short
  rw [length_serialize] at short
  have index : (UInt64.ofNat proof.leafIndex).toNat = proof.leafIndex := UInt64.toNat_ofNat_of_lt' encodable.index
  have counted : (UInt64.ofNat proof.siblingHashes.length).toNat = proof.siblingHashes.length :=
    UInt64.toNat_ofNat_of_lt' (by change _ < 2 ^ 64; omega)
  have size : proof.siblingHashes.length * 32 = (proof.siblingHashes.flatMap FixedBytes.serialize ++ []).length := by
    rw [List.append_nil, length_flatMap_serialize, Nat.mul_comm]
  simp only [serialize, List.append_assoc]
  refine (consumes_readLittle64 _ (UInt64.ofNat proof.leafIndex)).bind ?_
  refine (consumes_readFixed _ _ proof.leafHash).bind ?_
  refine (consumes_readLittle64 _ (UInt64.ofNat proof.siblingHashes.length)).bind ?_
  rw [counted, index]
  refine (Consumes.requireExactly size _).between ?_
  exact (Consumes.many (fun hash _ bytes => consumes_readFixed bytes Blake3Hash.mismatch hash) _).last

/-- The round trip of a proof. -/
theorem deserialize_serialize {proof : MerkleProof} (encodable : proof.Encodable) :
    deserialize proof.serialize = .value proof := by
  have length := proof.length_serialize
  unfold deserialize
  rw [if_neg (by omega)]
  exact (consumes_decoder encodable).run_eq encodable.short

/-! ## Arbitrary bytes -/

theorem takes_decoder : Takes decoder fun proof taken => taken = proof.serialize := by
  refine takes_readLittle64.bind ?_
  rintro leafIndex _ rfl
  refine takes_readBlake3Hash.bind ?_
  rintro leafHash _ rfl
  refine takes_readLittle64.bind ?_
  rintro numSiblings _ rfl
  refine (Takes.requireExactly _ _).after ((Takes.many takes_readBlake3Hash numSiblings.toNat).last ?_)
  rintro siblingHashes _ ⟨rfl, counted⟩
  simp only [serialize, List.append_assoc]
  rw [counted, UInt64.ofNat_toNat, UInt64.ofNat_toNat]

section Bounds

variable {data : List UInt8} (vector : data.length < 2 ^ 63)

include vector

/-- An accepted string is as long as its count announces. -/
theorem deserialize_of_mismatch (long : 48 ≤ data.length)
    (mismatch : sizeSum 48 ((wordAt data 40).toNat * 32) ≠ data.length) :
    deserialize data = .throws "Invalid proof data: size mismatch" := by
  have indexField := readLittle64_eq vector 0
  have hashField : Reaches readBlake3Hash data (0 + 8) (0 + 8 + 32) := reaches_readFixed vector (by decide) _ (by omega)
  have countField := readLittle64_eq vector (0 + 8 + 32)
  rw [if_pos (by omega)] at indexField countField
  rcases hashField with ⟨hash, hashField⟩
  have checked : Decoder.requireExactly ((wordAt data (0 + 8 + 32)).toNat * 32) "Invalid proof data: size mismatch" data
      (0 + 8 + 32 + 8) = .throws "Invalid proof data: size mismatch" := if_pos mismatch
  unfold deserialize
  rw [if_neg (Nat.not_lt.mpr long)]
  unfold Decoder.run decoder
  rw [bind_of_value indexField, bind_of_value hashField, bind_of_value countField]
  change Outcome.map Prod.fst ((Decoder.requireExactly _ _ data _).bind _) = _
  rw [checked]
  rfl

/-- The decoder stays inside if the siblings it loops over are there. -/
theorem deserialize_ne_outside_iff (long : 48 ≤ data.length) : deserialize data ≠ .outside <->
    (sizeSum 48 ((wordAt data 40).toNat * 32) = data.length -> 48 + 32 * (wordAt data 40).toNat ≤ data.length) := by
  have hashes : Strides readBlake3Hash data 32 fun start => start + 32 ≤ data.length :=
    strides_readFixed vector (by decide) Blake3Hash.mismatch
  have safe : forall start, Safe readBlake3Hash data start <-> start + 32 ≤ data.length := fun start =>
    safe_readFixed_iff vector (by decide) Blake3Hash.mismatch
  have tail : forall leafHash : Blake3Hash, Safe (readLittle64 >>= fun numSiblings =>
      Decoder.requireExactly (numSiblings.toNat * 32) "Invalid proof data: size mismatch" >>= fun _ =>
        Decoder.many readBlake3Hash numSiblings.toNat >>= fun siblingHashes =>
          Pure.pure (MerkleProof.mk (wordAt data 0).toNat leafHash siblingHashes)) data (0 + 8 + 32) <->
      (sizeSum 48 ((wordAt data 40).toNat * 32) = data.length -> 48 + 32 * (wordAt data 40).toNat ≤ data.length) := by
    intro leafHash
    rw [Safe.field_bind_iff (readLittle64_eq vector (0 + 8 + 32)), Safe.requireExactly_bind_iff, Safe.last_iff,
      safe_many_iff_le hashes safe long]
    exact and_iff_right long
  unfold deserialize
  rw [if_neg (Nat.not_lt.mpr long), run_ne_outside_iff, decoder, Safe.field_bind_iff (readLittle64_eq vector 0),
    Safe.bind_iff_of_strides hashes tail, safe]
  constructor
  · intro holds
    exact holds.2.2 (by omega)
  · intro holds
    exact ⟨by omega, by omega, fun _ => holds⟩

/-- What is left of an accepted string is the encoding of the proof. -/
theorem serialize_of_deserialize (long : 48 ≤ data.length) {proof : MerkleProof}
    (ends : deserialize data = .value proof) :
    proof.serialize = data := by
  have announced : sizeSum 48 ((wordAt data 40).toNat * 32) = data.length := by
    by_contra mismatch
    rw [deserialize_of_mismatch vector long mismatch] at ends
    cases ends
  rw [deserialize, if_neg (Nat.not_lt.mpr long)] at ends
  rcases takes_decoder.run_eq ends with ⟨_, after, rfl, rfl⟩
  have size := proof.length_serialize
  rw [List.length_append, size] at vector
  have counted : (UInt64.ofNat proof.siblingHashes.length).toNat = proof.siblingHashes.length :=
    UInt64.toNat_ofNat_of_lt' (by change _ < 2 ^ 64; omega)
  have count : wordAt (proof.serialize ++ after) 40 = UInt64.ofNat proof.siblingHashes.length := by
    have word := wordAt_append (littleEndian64 (UInt64.ofNat proof.leafIndex) ++ proof.leafHash.serialize)
      (UInt64.ofNat proof.siblingHashes.length) (proof.siblingHashes.flatMap FixedBytes.serialize ++ after)
    rw [List.length_append, length_littleEndian64, Crypto.length_serialize] at word
    rw [← word]
    simp only [serialize, List.append_assoc]
  rw [count, counted, List.length_append, size, sizeSum] at announced
  have nothing : after = [] := List.length_eq_zero_iff.mp (by omega)
  rw [nothing, List.append_nil]

/-- The announced size of `2^59` siblings or more wraps around to the size of the string. -/
def WrapsTo (data : List UInt8) : Prop :=
  2 ^ 59 ≤ (wordAt data 40).toNat ∧ data.length = 48 + 32 * ((wordAt data 40).toNat % 2 ^ 59)

/-- A string is read inside, and is the encoding of what is read, unless its announced size
wraps around. -/
theorem exact_iff : (deserialize data ≠ .outside ∧
    forall proof, deserialize data = .value proof -> proof.serialize = data) <-> ¬ WrapsTo data := by
  by_cases long : 48 ≤ data.length
  · have canonical : forall proof, deserialize data = .value proof -> proof.serialize = data :=
      fun _ ends => serialize_of_deserialize vector long ends
    rw [and_iff_left canonical, deserialize_ne_outside_iff vector long]
    unfold WrapsTo sizeSum
    constructor
    · rintro holds ⟨many, length⟩
      have enough := holds (by omega)
      omega
    · intro unwrapped announced
      by_contra cut
      exact unwrapped ⟨by omega, by omega⟩
  · have throws : deserialize data = .throws "Invalid proof data: too short" := if_pos (Nat.not_le.mp long)
    rw [throws]
    refine iff_of_true ⟨nofun, nofun⟩ ?_
    rintro ⟨_, length⟩
    omega

end Bounds

/-- Every proof survives the round trip, and the decoder is exact apart from sizes that wrap
around. -/
theorem merkleProofCodec_exact_iff (data : List UInt8) (vector : data.length < 2 ^ 63) :
    (forall proof : MerkleProof, proof.Encodable -> deserialize proof.serialize = .value proof) ∧
      ((deserialize data ≠ .outside ∧ forall proof, deserialize data = .value proof -> proof.serialize = data) <->
        ¬ WrapsTo data) :=
  ⟨fun _ encodable => deserialize_serialize encodable, exact_iff vector⟩

/-- A proof with two siblings. -/
def encodedProof : MerkleProof := ⟨5, Blake3Hash.zero, [FixedBytes.ofNat 32 1, FixedBytes.ofNat 32 2]⟩

theorem merkleProofCodec_exact_iff_encodedProof :
    deserialize encodedProof.serialize = .value encodedProof ∧ ¬ WrapsTo encodedProof.serialize := by
  have exactly := merkleProofCodec_exact_iff encodedProof.serialize (by decide +kernel)
  have trip := exactly.1 encodedProof ⟨by decide, by decide +kernel⟩
  refine ⟨trip, exactly.2.mp ⟨?_, ?_⟩⟩
  · rw [trip]
    nofun
  · intro proof ends
    rw [trip] at ends
    cases ends
    rfl

/-- No siblings are there and `2^59` are announced: the size is accepted, and the loop starts
behind the end. -/
def wrappingProof : List UInt8 := littleEndian64 0 ++ Blake3Hash.zero.serialize ++ littleEndian64 (2 ^ 59)

theorem wrapping_count_passes : wrappingProof.length = 48 ∧ deserialize wrappingProof = .outside := by
  refine ⟨?_, ?_⟩
  · decide +kernel
  · decide +kernel

end MerkleProof
end MerkleTree
end Crypto
end Sarafu

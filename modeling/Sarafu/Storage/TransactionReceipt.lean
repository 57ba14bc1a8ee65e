import Sarafu.Crypto.Encoding

namespace Sarafu
namespace Storage

open Crypto Library.Decoding

/-!
# Receipts as they are stored

On disk the error message of a receipt is any `std::string`, so it is a list of bytes
here.  Its length is written in four bytes, and the decoder wants the message to end where
the data ends.
-/

structure TransactionReceipt where
  txHash : Blake3Hash
  blockHeight : UInt64
  success : Bool
  gasUsed : UInt64
  errorMessage : List UInt8
deriving DecidableEq

namespace TransactionReceipt

def serialize (receipt : TransactionReceipt) : List UInt8 :=
  receipt.txHash.serialize ++ littleEndian64 receipt.blockHeight ++ [flagByte receipt.success] ++
    littleEndian64 receipt.gasUsed ++ littleEndian32 (UInt32.ofNat receipt.errorMessage.length) ++ receipt.errorMessage

def decoder : ByteDecoder TransactionReceipt := do
  let txHash <- readBlake3Hash
  let blockHeight <- readLittle64
  let success <- readFlag
  let gasUsed <- readLittle64
  let errorLength <- readLittle32
  Decoder.requireExactly errorLength.toNat "Invalid error message length in receipt"
  let errorMessage <- Decoder.rest
  return ⟨txHash, blockHeight, success, gasUsed, errorMessage⟩

def deserialize (data : List UInt8) : Outcome String TransactionReceipt :=
  if data.length < 53 then .throws "Invalid transaction receipt data size" else decoder.run data

theorem length_serialize (receipt : TransactionReceipt) :
    receipt.serialize.length = 53 + receipt.errorMessage.length := by
  simp only [serialize, List.length_append, Crypto.length_serialize, length_littleEndian64, length_littleEndian32,
    List.length_singleton]

theorem consumes_decoder (receipt : TransactionReceipt) (short : receipt.errorMessage.length < 2 ^ 32) :
    Consumes decoder receipt.serialize [] receipt := by
  have size : (UInt32.ofNat receipt.errorMessage.length).toNat = receipt.errorMessage.length :=
    UInt32.toNat_ofNat_of_lt short
  simp only [serialize, List.append_assoc]
  refine (consumes_readFixed _ _ receipt.txHash).bind ?_
  refine (consumes_readLittle64 _ receipt.blockHeight).bind ?_
  refine (consumes_readFlag _ receipt.success).bind ?_
  refine (consumes_readLittle64 _ receipt.gasUsed).bind ?_
  refine (consumes_readLittle32 _ (UInt32.ofNat receipt.errorMessage.length)).bind ?_
  rw [size]
  have ends : receipt.errorMessage.length = (receipt.errorMessage ++ []).length := by
    rw [List.append_nil]
  refine (Consumes.requireExactly ends _).between ?_
  exact (Consumes.rest receipt.errorMessage).last

/-- The round trip of a receipt. -/
theorem deserialize_serialize (receipt : TransactionReceipt) (short : receipt.errorMessage.length < 2 ^ 32) :
    deserialize receipt.serialize = .value receipt := by
  have long : ¬receipt.serialize.length < 53 := by
    rw [length_serialize]
    exact Nat.not_lt.mpr (Nat.le_add_right 53 _)
  unfold deserialize
  rw [if_neg long]
  refine (receipt.consumes_decoder short).run_eq ?_
  rw [length_serialize]
  omega

/-- A longer message does not fit its length field. -/
theorem deserialize_serialize_of_long (receipt : TransactionReceipt) (long : 2 ^ 32 ≤ receipt.errorMessage.length)
    (vector : receipt.serialize.length < 2 ^ 64) :
    deserialize receipt.serialize = .throws "Invalid error message length in receipt" := by
  have size : (UInt32.ofNat receipt.errorMessage.length).toNat ≠ receipt.errorMessage.length := by
    have small := (UInt32.ofNat receipt.errorMessage.length).toNat_lt
    omega
  have refuses : Refuses decoder receipt.serialize "Invalid error message length in receipt" := by
    simp only [serialize, List.append_assoc]
    refine (consumes_readFixed _ _ receipt.txHash).refuses ?_
    refine (consumes_readLittle64 _ receipt.blockHeight).refuses ?_
    refine (consumes_readFlag _ receipt.success).refuses ?_
    refine (consumes_readLittle64 _ receipt.gasUsed).refuses ?_
    refine (consumes_readLittle32 _ (UInt32.ofNat receipt.errorMessage.length)).refuses ?_
    have small := (UInt32.ofNat receipt.errorMessage.length).toNat_lt
    exact (Refuses.requireExactly (by omega) size _).bind
  have enough : ¬receipt.serialize.length < 53 := by
    rw [length_serialize]
    exact Nat.not_lt.mpr (Nat.le_add_right 53 _)
  unfold deserialize
  rw [if_neg enough]
  exact refuses.run_eq vector

/-- A receipt survives its encoding if and only if its message fits the length field. -/
theorem deserialize_serialize_iff (receipt : TransactionReceipt) (vector : receipt.serialize.length < 2 ^ 64) :
    deserialize receipt.serialize = .value receipt <-> receipt.errorMessage.length < 2 ^ 32 := by
  constructor
  · intro survives
    by_contra long
    rw [receipt.deserialize_serialize_of_long (Nat.not_lt.mp long) vector] at survives
    cases survives
  · exact receipt.deserialize_serialize

end TransactionReceipt
end Storage
end Sarafu

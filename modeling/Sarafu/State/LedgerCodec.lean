import Sarafu.Crypto.Encoding
import Sarafu.State.Ledger

namespace Sarafu
namespace State

open Crypto Library.Decoding

/-!
# The codecs of transactions and accounts

Both formats have a fixed size, and the decoders accept no other.
-/

namespace Transaction

def serialize (tx : Transaction) : List UInt8 :=
  tx.fromAddr.serialize ++ tx.toAddr.serialize ++ littleEndian64 tx.amount ++ littleEndian64 tx.nonce ++
    littleEndian64 tx.fee ++ littleEndian64 tx.gasLimit ++ littleEndian32 tx.chainId ++ tx.signature.serialize

/-- The fields after the check of the size.  The signature is what remains. -/
def decoder : ByteDecoder Transaction := do
  let fromAddr <- readAddress
  let toAddr <- readAddress
  let amount <- readLittle64
  let nonce <- readLittle64
  let fee <- readLittle64
  let gasLimit <- readLittle64
  let chainId <- readLittle32
  let signature <- readFixedRest 64 "Ed25519_Signature: data must be exactly 64 bytes"
  return ⟨fromAddr, toAddr, amount, nonce, fee, gasLimit, chainId, signature⟩

def deserialize (data : List UInt8) : Outcome String Transaction :=
  if data.length ≠ 164 then .throws "Invalid transaction data size" else decoder.run data

theorem length_serialize (tx : Transaction) : tx.serialize.length = 164 := by
  simp only [serialize, List.length_append, Crypto.length_serialize, length_littleEndian64, length_littleEndian32]

theorem consumes_decoder (tx : Transaction) : Consumes decoder tx.serialize [] tx := by
  simp only [serialize, List.append_assoc]
  refine (consumes_readFixed _ _ tx.fromAddr).bind ?_
  refine (consumes_readFixed _ _ tx.toAddr).bind ?_
  refine (consumes_readLittle64 _ tx.amount).bind ?_
  refine (consumes_readLittle64 _ tx.nonce).bind ?_
  refine (consumes_readLittle64 _ tx.fee).bind ?_
  refine (consumes_readLittle64 _ tx.gasLimit).bind ?_
  refine (consumes_readLittle32 _ tx.chainId).bind ?_
  exact (consumes_readFixedRest _ tx.signature).last

/-- The round trip of a transaction. -/
theorem deserialize_serialize (tx : Transaction) : deserialize tx.serialize = .value tx := by
  unfold deserialize
  rw [length_serialize, if_neg (not_not.mpr rfl)]
  exact tx.consumes_decoder.run_eq (by rw [length_serialize]; decide)

end Transaction

namespace Account

def decoder : ByteDecoder Account := do
  let owner <- readAddress
  let balance <- readLittle64
  let nonce <- readLittle64
  let codeHash <- readFixedRest 32 Blake3Hash.mismatch
  return ⟨owner, balance, nonce, codeHash⟩

def deserialize (data : List UInt8) : Outcome String Account :=
  if data.length ≠ 80 then .throws "Invalid account data size" else decoder.run data

theorem length_serialize (account : Account) : account.serialize.length = 80 := by
  simp only [serialize, List.length_append, Crypto.length_serialize, length_littleEndian64]

theorem consumes_decoder (account : Account) : Consumes decoder account.serialize [] account := by
  simp only [serialize, List.append_assoc]
  refine (consumes_readFixed _ _ account.address).bind ?_
  refine (consumes_readLittle64 _ account.balance).bind ?_
  refine (consumes_readLittle64 _ account.nonce).bind ?_
  exact (consumes_readFixedRest _ account.codeHash).last

/-- The round trip of an account. -/
theorem deserialize_serialize (account : Account) : deserialize account.serialize = .value account := by
  unfold deserialize
  rw [length_serialize, if_neg (not_not.mpr rfl)]
  exact account.consumes_decoder.run_eq (by rw [length_serialize]; decide)

end Account
end State
end Sarafu

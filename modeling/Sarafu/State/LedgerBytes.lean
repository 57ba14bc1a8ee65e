import Sarafu.Crypto.CanonicalFields
import Sarafu.Crypto.FieldOffsets
import Sarafu.State.LedgerCodec

namespace Sarafu
namespace State

open Crypto Library.Decoding

/-!
# Transactions and accounts from arbitrary bytes

The size of a record is fixed and the decoder asks for exactly that size, so every string
that it accepts is the encoding of what it leaves.
-/

namespace Transaction

theorem takes_decoder : Takes decoder fun tx taken => taken = tx.serialize := by
  refine takes_readAddress.bind ?_
  rintro fromAddr _ rfl
  refine takes_readAddress.bind ?_
  rintro toAddr _ rfl
  refine takes_readLittle64.bind ?_
  rintro amount _ rfl
  refine takes_readLittle64.bind ?_
  rintro nonce _ rfl
  refine takes_readLittle64.bind ?_
  rintro fee _ rfl
  refine takes_readLittle64.bind ?_
  rintro gasLimit _ rfl
  refine takes_readLittle32.bind ?_
  rintro chainId _ rfl
  refine (takes_readFixedRest 64 _).last ?_
  rintro signature _ rfl
  simp only [serialize, List.append_assoc]

theorem serialize_of_deserialize {data : List UInt8} {tx : Transaction} (ends : deserialize data = .value tx) :
    tx.serialize = data := by
  unfold deserialize at ends
  split at ends
  · cases ends
  · rename_i sized
    exact takes_decoder.whole length_serialize (not_not.mp sized) ends

theorem reaches_decoder {data : List UInt8} (sized : data.length = 164) : Reaches decoder data 0 164 := by
  have vector : data.length < 2 ^ 63 := by
    rw [sized]
    decide
  refine (reaches_readFixed vector (by decide) _ (by omega)).bind fun fromAddr => ?_
  refine (reaches_readFixed vector (by decide) _ (by omega)).bind fun toAddr => ?_
  refine (reaches_readLittle64 vector (by omega)).bind fun amount => ?_
  refine (reaches_readLittle64 vector (by omega)).bind fun nonce => ?_
  refine (reaches_readLittle64 vector (by omega)).bind fun fee => ?_
  refine (reaches_readLittle64 vector (by omega)).bind fun gasLimit => ?_
  refine (reaches_readLittle32 vector (by omega)).bind fun chainId => ?_
  rw [← sized]
  exact (reaches_readFixedRest _ (by omega)).last

/-- A transaction is decoded from every string of its size. -/
theorem exists_deserialize_iff (data : List UInt8) : (∃ tx, deserialize data = .value tx) <-> data.length = 164 := by
  unfold deserialize
  split
  · rename_i other
    exact iff_of_false (fun ⟨_, impossible⟩ => nomatch impossible) other
  · rename_i sized
    have sized := not_not.mp sized
    exact iff_of_true (exists_run_eq_value_iff.mpr ⟨164, reaches_decoder sized⟩) sized

/-- Decoding and encoding are inverse to each other. -/
theorem deserialize_eq_value_iff (data : List UInt8) (tx : Transaction) :
    deserialize data = .value tx <-> tx.serialize = data := by
  constructor
  · exact serialize_of_deserialize
  · rintro rfl
    exact tx.deserialize_serialize

theorem deserialize_ne_outside (data : List UInt8) : deserialize data ≠ .outside := by
  by_cases sized : data.length = 164
  · rcases (exists_deserialize_iff data).mpr sized with ⟨tx, ends⟩
    rw [ends]
    nofun
  · rw [deserialize, if_pos sized]
    nofun

/-! ### The part that is signed -/

/-- The signature follows the bytes that are signed. -/
theorem serialize_eq_append (tx : Transaction) : tx.serialize = tx.serializeForSigning ++ tx.signature.serialize := rfl

theorem serializeForSigning_eq_take (tx : Transaction) : tx.serializeForSigning = tx.serialize.take 100 := by
  rw [serialize_eq_append]
  exact (List.take_left' tx.length_serializeForSigning).symm

/-- The signed bytes determine every field but the signature. -/
theorem serializeForSigning_eq_iff (left right : Transaction) :
    left.serializeForSigning = right.serializeForSigning <-> { left with signature := right.signature } = right := by
  constructor
  · intro same
    -- with one signature on both, the whole encodings agree
    have encoded : { left with signature := right.signature }.serialize = right.serialize := by
      rw [serialize_eq_append right, ← same]
      rfl
    have decoded := congrArg deserialize encoded
    rw [deserialize_serialize, deserialize_serialize] at decoded
    exact Outcome.value.inj decoded
  · intro same
    rw [← same]
    rfl

end Transaction

namespace Account

theorem takes_decoder : Takes decoder fun account taken => taken = account.serialize := by
  refine takes_readAddress.bind ?_
  rintro owner _ rfl
  refine takes_readLittle64.bind ?_
  rintro balance _ rfl
  refine takes_readLittle64.bind ?_
  rintro nonce _ rfl
  refine (takes_readFixedRest 32 _).last ?_
  rintro codeHash _ rfl
  simp only [serialize, List.append_assoc]

theorem serialize_of_deserialize {data : List UInt8} {account : Account} (ends : deserialize data = .value account) :
    account.serialize = data := by
  unfold deserialize at ends
  split at ends
  · cases ends
  · rename_i sized
    exact takes_decoder.whole length_serialize (not_not.mp sized) ends

theorem reaches_decoder {data : List UInt8} (sized : data.length = 80) : Reaches decoder data 0 80 := by
  have vector : data.length < 2 ^ 63 := by
    rw [sized]
    decide
  refine (reaches_readFixed vector (by decide) _ (by omega)).bind fun owner => ?_
  refine (reaches_readLittle64 vector (by omega)).bind fun balance => ?_
  refine (reaches_readLittle64 vector (by omega)).bind fun nonce => ?_
  rw [← sized]
  exact (reaches_readFixedRest _ (by omega)).last

/-- An account is decoded from every string of its size. -/
theorem exists_deserialize_iff (data : List UInt8) :
    (∃ account, deserialize data = .value account) <-> data.length = 80 := by
  unfold deserialize
  split
  · rename_i other
    exact iff_of_false (fun ⟨_, impossible⟩ => nomatch impossible) other
  · rename_i sized
    have sized := not_not.mp sized
    exact iff_of_true (exists_run_eq_value_iff.mpr ⟨80, reaches_decoder sized⟩) sized

theorem deserialize_eq_value_iff (data : List UInt8) (account : Account) :
    deserialize data = .value account <-> account.serialize = data := by
  constructor
  · exact serialize_of_deserialize
  · rintro rfl
    exact account.deserialize_serialize

end Account

/-- The codecs of transactions and accounts are bijections with the strings of their sizes.
The bytes of a transaction that are signed are the first hundred, and they determine all the
fields but the signature; so do the hashes, unless the signed bytes collide. -/
theorem ledgerCodecs_bijective (prim : Primitives) :
    ((forall data, (∃ tx, Transaction.deserialize data = .value tx) <-> data.length = 164) ∧
      forall data tx, Transaction.deserialize data = .value tx <-> tx.serialize = data) ∧
    ((forall data, (∃ account, Account.deserialize data = .value account) <-> data.length = 80) ∧
      forall data account, Account.deserialize data = .value account <-> account.serialize = data) ∧
    (forall tx : Transaction, tx.serializeForSigning.length = 100 ∧ tx.serializeForSigning = tx.serialize.take 100) ∧
    (forall left right : Transaction, left.serializeForSigning = right.serializeForSigning <->
      { left with signature := right.signature } = right) ∧
    forall left right : Transaction, left.hash prim = right.hash prim ->
      { left with signature := right.signature } = right ∨
        left.serializeForSigning ≠ right.serializeForSigning ∧
          prim.blake3 left.serializeForSigning = prim.blake3 right.serializeForSigning := by
  refine ⟨⟨Transaction.exists_deserialize_iff, Transaction.deserialize_eq_value_iff⟩,
    ⟨Account.exists_deserialize_iff, Account.deserialize_eq_value_iff⟩,
    fun tx => ⟨tx.length_serializeForSigning, tx.serializeForSigning_eq_take⟩,
    Transaction.serializeForSigning_eq_iff, ?_⟩
  intro left right same
  rw [← Transaction.serializeForSigning_eq_iff]
  exact (em _).imp_right fun different => ⟨different, same⟩

end State
end Sarafu

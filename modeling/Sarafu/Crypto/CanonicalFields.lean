import Sarafu.Crypto.Encoding
import Sarafu.Library.TakenSymbols

namespace Sarafu
namespace Crypto

open Library.Decoding

/-!
# Fields that are read from arbitrary bytes

Every string of eight bytes is the encoding of a word, and of four bytes that of a short
word, so the integers and the fixed arrays of a decoder take exactly their encodings.
-/

/-- The number with given little-endian digits. -/
def numberOf (bytes : List UInt8) : Nat := Nat.ofDigits 256 (bytes.map UInt8.toNat)

theorem numberOf_lt (bytes : List UInt8) : numberOf bytes < 256 ^ bytes.length := by
  have bounded : numberOf bytes < 256 ^ (bytes.map UInt8.toNat).length := by
    apply Nat.ofDigits_lt_base_pow_length (by decide)
    intro digit member
    rcases List.mem_map.mp member with ⟨byte, _, rfl⟩
    exact byte.toNat_lt
  rw [List.length_map] at bounded
  exact bounded

/-- Each byte is a digit of the number. -/
theorem getD_numberOf (bytes : List UInt8) (index : Nat) :
    (bytes.getD index 0).toNat = numberOf bytes / 256 ^ index % 256 := by
  induction bytes generalizing index with
  | nil =>
      rw [numberOf, List.map_nil, Nat.ofDigits_nil, Nat.zero_div]
      rfl
  | cons byte rest inductionHypothesis =>
      have small := byte.toNat_lt
      have whole : numberOf (byte :: rest) = byte.toNat + 256 * numberOf rest := Nat.ofDigits_cons
      rw [whole]
      cases index with
      | zero =>
          rw [List.getD_cons_zero, Nat.pow_zero, Nat.div_one]
          omega
      | succ index =>
          have quotient : (byte.toNat + 256 * numberOf rest) / 256 = numberOf rest := by omega
          rw [List.getD_cons_succ, inductionHypothesis index, Nat.pow_succ', ← Nat.div_div_eq_div_mul, quotient]

/-- Byte strings of one length are equal if their digits are. -/
theorem eq_of_getD {left right : List UInt8} (lengths : left.length = right.length)
    (digits : forall index, index < left.length -> (left.getD index 0).toNat = (right.getD index 0).toNat) :
    left = right := by
  apply List.ext_getElem lengths
  intro index inLeft inRight
  have same := digits index inLeft
  rw [List.getD_eq_getElem _ _ inLeft, List.getD_eq_getElem _ _ inRight] at same
  exact UInt8.toNat_inj.mp same

theorem littleEndian64_ofLittleEndian64 {bytes : List UInt8} (sized : bytes.length = 8) :
    littleEndian64 (ofLittleEndian64 bytes) = bytes := by
  have bounded := numberOf_lt bytes
  rw [sized] at bounded
  have encoded : bytes = littleEndian64 (UInt64.ofNat (numberOf bytes)) := by
    apply eq_of_getD sized
    intro index small
    rw [sized] at small
    rw [getD_littleEndian64 _ small, UInt64.toNat_ofNat_of_lt' bounded, getD_numberOf]
  rw [encoded, ofLittleEndian64_littleEndian64]

theorem littleEndian32_ofLittleEndian32 {bytes : List UInt8} (sized : bytes.length = 4) :
    littleEndian32 (ofLittleEndian32 bytes) = bytes := by
  have bounded := numberOf_lt bytes
  rw [sized] at bounded
  have encoded : bytes = littleEndian32 (UInt32.ofNat (numberOf bytes)) := by
    apply eq_of_getD sized
    intro index small
    rw [sized] at small
    rw [getD_littleEndian32 _ small, UInt32.toNat_ofNat_of_lt' bounded, getD_numberOf]
  rw [encoded, ofLittleEndian32_littleEndian32]

theorem takes_readLittle64 : Takes readLittle64 fun value taken => taken = littleEndian64 value := by
  refine (Takes.slice (by decide)).last ?_
  rintro _ bytes ⟨rfl, sized⟩
  exact (littleEndian64_ofLittleEndian64 sized).symm

theorem takes_readLittle32 : Takes readLittle32 fun value taken => taken = littleEndian32 value := by
  refine (Takes.slice (by decide)).last ?_
  rintro _ bytes ⟨rfl, sized⟩
  exact (littleEndian32_ofLittleEndian32 sized).symm

theorem FixedBytes.serialize_of_ofBytes {size : Nat} {mismatch : String} {bytes : List UInt8} {value : FixedBytes size}
    (ends : FixedBytes.ofBytes size mismatch bytes = .value value) : value.serialize = bytes := by
  unfold FixedBytes.ofBytes at ends
  split at ends
  · cases ends
    rfl
  · cases ends

theorem takes_readFixed (size : Nat) (mismatch : String) (small : size < 2 ^ 64) :
    Takes (readFixed size mismatch) fun value taken => taken = value.serialize :=
  ((Takes.slice small).weaken fun _ _ both => both.1).parsed fun _ _ ends =>
    (FixedBytes.serialize_of_ofBytes ends).symm

theorem takes_readFixedRest (size : Nat) (mismatch : String) :
    Takes (readFixedRest size mismatch) fun value taken => taken = value.serialize :=
  Takes.rest.parsed fun _ _ ends => (FixedBytes.serialize_of_ofBytes ends).symm

theorem takes_readBlake3Hash : Takes readBlake3Hash fun value taken => taken = value.serialize :=
  takes_readFixed 32 _ (by decide)

theorem takes_readAddress : Takes readAddress fun value taken => taken = value.serialize :=
  takes_readFixed 32 _ (by decide)

end Crypto
end Sarafu

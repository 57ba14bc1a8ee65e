import Sarafu.Crypto.Encoding
import Sarafu.Library.ReachedOffsets

namespace Sarafu
namespace Crypto

open Library.Decoding

/-!
# Fields at their places

An integer has a known value wherever it is inside of a vector, and a fixed array is accepted
wherever it is inside.
-/

/-- The integer of eight bytes at a place of a string. -/
def wordAt (data : List UInt8) (place : Nat) : UInt64 := ofLittleEndian64 ((data.drop place).take 8)

/-- The integer of four bytes at a place of a string. -/
def shortAt (data : List UInt8) (place : Nat) : UInt32 := ofLittleEndian32 ((data.drop place).take 4)

theorem wordAt_append (before : List UInt8) (word : UInt64) (after : List UInt8) :
    wordAt (before ++ (littleEndian64 word ++ after)) before.length = word := by
  have bytes : (littleEndian64 word ++ after).take 8 = littleEndian64 word :=
    List.take_left' (length_littleEndian64 word)
  rw [wordAt, List.drop_left, bytes, ofLittleEndian64_littleEndian64]

/-- The places of a part are counted from its start. -/
theorem wordAt_drop (data : List UInt8) (start place : Nat) :
    wordAt (data.drop start) place = wordAt data (start + place) := by
  rw [wordAt, List.drop_drop, wordAt]

/-- A word inside of a slice is a word of the vector. -/
theorem wordAt_take {data : List UInt8} {count place : Nat} (inside : place + 8 ≤ count) :
    wordAt (data.take count) place = wordAt data place := by
  rw [wordAt, List.drop_take, List.take_take, Nat.min_eq_left (by omega), wordAt]

variable {data : List UInt8} (vector : data.length < 2 ^ 63)

include vector

theorem readLittle64_eq (offset : Nat) : readLittle64 data offset =
    if offset + 8 ≤ data.length then .value (wordAt data offset, offset + 8) else .outside := by
  change (Decoder.slice 8 data offset).bind _ = _
  rw [slice_eq (by decide) (by omega)]
  split
  · rfl
  · rfl

theorem readLittle32_eq (offset : Nat) : readLittle32 data offset =
    if offset + 4 ≤ data.length then .value (shortAt data offset, offset + 4) else .outside := by
  change (Decoder.slice 4 data offset).bind _ = _
  rw [slice_eq (by decide) (by omega)]
  split
  · rfl
  · rfl

theorem readByte_eq (offset : Nat) : readByte data offset =
    if offset + 1 ≤ data.length then .value (data.getD offset 0, offset + 1) else .outside := by
  have first : ((data.drop offset).take 1).getD 0 0 = data.getD offset 0 := by
    rw [List.getD_eq_getElem?_getD, List.getD_eq_getElem?_getD, List.getElem?_take_of_lt Nat.zero_lt_one,
      List.getElem?_drop, Nat.add_zero]
  change (Decoder.slice 1 data offset).bind _ = _
  rw [slice_eq (by decide) (by omega), ← first]
  split
  · rfl
  · rfl

theorem readFixed_eq {size : Nat} (small : size < 2 ^ 64) (mismatch : String) (offset : Nat) : ∃ value,
    readFixed size mismatch data offset =
      if offset + size ≤ data.length then .value (value, offset + size) else .outside := by
  by_cases inside : offset + size ≤ data.length
  · have sized : ((data.drop offset).take size).length = size := by
      rw [List.length_take, List.length_drop]
      omega
    refine ⟨⟨_, sized⟩, ?_⟩
    change (Decoder.slice size data offset).bind _ = _
    rw [slice_eq small (by omega), if_pos inside, if_pos inside]
    change (FixedBytes.ofBytes size mismatch ((data.drop offset).take size)).map _ = _
    rw [FixedBytes.ofBytes, dif_pos sized]
    rfl
  · refine ⟨FixedBytes.zero size, ?_⟩
    change (Decoder.slice size data offset).bind _ = _
    rw [slice_eq small (by omega), if_neg inside, if_neg inside]
    rfl

theorem strides_readFixed {size : Nat} (small : size < 2 ^ 64) (mismatch : String) :
    Strides (readFixed size mismatch) data size fun start => start + size ≤ data.length :=
  strides_of_field (readFixed_eq vector small mismatch)

theorem safe_readFixed_iff {size offset : Nat} (small : size < 2 ^ 64) (mismatch : String) :
    Safe (readFixed size mismatch) data offset <-> offset + size ≤ data.length := by
  rcases readFixed_eq vector small mismatch offset with ⟨value, field⟩
  exact Safe.field_iff field

theorem reaches_readFixed {size start : Nat} (small : size < 2 ^ 64) (mismatch : String)
    (inside : start + size ≤ data.length) : Reaches (readFixed size mismatch) data start (start + size) :=
  (strides_readFixed vector small mismatch start _).mpr ⟨inside, rfl⟩

theorem reaches_readLittle64 {start : Nat} (inside : start + 8 ≤ data.length) :
    Reaches readLittle64 data start (start + 8) :=
  ⟨_, (readLittle64_eq vector start).trans (if_pos inside)⟩

theorem reaches_readLittle32 {start : Nat} (inside : start + 4 ≤ data.length) :
    Reaches readLittle32 data start (start + 4) :=
  ⟨_, (readLittle32_eq vector start).trans (if_pos inside)⟩

omit vector in
theorem reaches_readFixedRest {size start : Nat} (mismatch : String) (ends : start + size = data.length) :
    Reaches (readFixedRest size mismatch) data start data.length := by
  have sized : (data.drop start).length = size := by
    rw [List.length_drop]
    omega
  have inside : start ≤ data.length := by omega
  refine ⟨⟨data.drop start, sized⟩, ?_⟩
  change (Decoder.rest data start).bind _ = _
  rw [Decoder.rest, if_pos inside]
  change (FixedBytes.ofBytes size mismatch (data.drop start)).map _ = _
  rw [FixedBytes.ofBytes, dif_pos sized]
  rfl

end Crypto
end Sarafu

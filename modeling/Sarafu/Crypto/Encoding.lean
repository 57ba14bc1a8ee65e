import Sarafu.Crypto.Bytes
import Sarafu.Library.ReadBounds

namespace Sarafu
namespace Crypto

open Library.Decoding

/-!
# Integers and fixed arrays on the wire

Every `deserialize` assembles its integers byte by byte: the little-endian ones by
shifting each byte to its place, the big-endian ones by shifting what is read so far.
Exceptions are represented by their texts.
-/

/-! ## The other encoders -/

/-- Eight bytes, the most significant one first. -/
def bigEndian64 (value : UInt64) : List UInt8 :=
  (List.range 8).reverse.map fun index => (value >>> UInt64.ofNat (index * 8)).toUInt8

/-- Four bytes, the most significant one first. -/
def bigEndian32 (value : UInt32) : List UInt8 :=
  (List.range 4).reverse.map fun index => (value >>> UInt32.ofNat (index * 8)).toUInt8

/-- A flag in one byte. -/
def flagByte (value : Bool) : UInt8 := if value then 1 else 0

theorem length_littleEndian64 (value : UInt64) : (littleEndian64 value).length = 8 := rfl

theorem length_littleEndian32 (value : UInt32) : (littleEndian32 value).length = 4 := rfl

theorem length_bigEndian64 (value : UInt64) : (bigEndian64 value).length = 8 := rfl

theorem length_bigEndian32 (value : UInt32) : (bigEndian32 value).length = 4 := rfl

theorem length_serialize {size : Nat} (value : FixedBytes size) : value.serialize.length = size := value.length_bytes

theorem length_flatMap_serialize {size : Nat} (values : List (FixedBytes size)) :
    (values.flatMap FixedBytes.serialize).length = size * values.length :=
  length_flatMap_of_size values length_serialize

/-! ## The loops of the decoders -/

def ofLittleEndian64 (bytes : List UInt8) : UInt64 :=
  (List.range 8).foldl
    (fun value index => value ||| (bytes.getD index 0).toUInt64 <<< UInt64.ofNat (index * 8)) 0

def ofLittleEndian32 (bytes : List UInt8) : UInt32 :=
  (List.range 4).foldl
    (fun value index => value ||| (bytes.getD index 0).toUInt32 <<< UInt32.ofNat (index * 8)) 0

def ofBigEndian64 (bytes : List UInt8) : UInt64 := bytes.foldl (fun value byte => value <<< 8 ||| byte.toUInt64) 0

def ofBigEndian32 (bytes : List UInt8) : UInt32 :=
  (bytes.getD 0 0).toUInt32 <<< 24 ||| (bytes.getD 1 0).toUInt32 <<< 16 ||| (bytes.getD 2 0).toUInt32 <<< 8 |||
    (bytes.getD 3 0).toUInt32

/-- One more digit in its place. -/
theorem or_digit (value index : Nat) :
    value % 256 ^ index ||| (value / 256 ^ index % 256) <<< (index * 8) = value % 256 ^ (index + 1) := by
  have power : 256 ^ index = 2 ^ (index * 8) := by
    rw [Nat.mul_comm, Nat.pow_mul]
  have small : value % 256 ^ index < 2 ^ (index * 8) := power ▸ Nat.mod_lt _ (Nat.pow_pos (by decide))
  rw [Nat.or_comm, ← Nat.shiftLeft_add_eq_or_of_lt small, Nat.shiftLeft_eq, ← power, Nat.mod_pow_succ, Nat.add_comm,
    Nat.mul_comm (256 ^ index)]

/-- One more digit behind the more significant ones. -/
theorem digit_or (value index : Nat) :
    (value / 256 ^ (index + 1)) <<< 8 ||| value / 256 ^ index % 256 = value / 256 ^ index := by
  have small : value / 256 ^ index % 256 < 2 ^ 8 := Nat.mod_lt _ (by decide)
  rw [← Nat.shiftLeft_add_eq_or_of_lt small, Nat.shiftLeft_eq, Nat.pow_succ, ← Nat.div_div_eq_div_mul]
  exact Nat.div_add_mod' _ 256

theorem toNat_byte32 (value : UInt32) {index : Nat} (small : index < 4) :
    ((value >>> UInt32.ofNat (index * 8)).toUInt8).toNat = value.toNat / 256 ^ index % 256 := by
  rw [UInt32.toNat_toUInt8, UInt32.toNat_shiftRight, UInt32.toNat_ofNat', Nat.shiftRight_eq_div_pow]
  have inRange : index * 8 % 2 ^ 32 % 32 = 8 * index := by omega
  rw [inRange, Nat.pow_mul]

theorem getD_littleEndian64 (value : UInt64) {index : Nat} (small : index < 8) :
    ((littleEndian64 value).getD index 0).toNat = value.toNat / 256 ^ index % 256 := by
  rw [littleEndian64, List.getD_eq_getElem?_getD, List.getElem?_map, List.getElem?_range small]
  exact toNat_byte value small

theorem getD_littleEndian32 (value : UInt32) {index : Nat} (small : index < 4) :
    ((littleEndian32 value).getD index 0).toNat = value.toNat / 256 ^ index % 256 := by
  rw [littleEndian32, List.getD_eq_getElem?_getD, List.getElem?_map, List.getElem?_range small]
  exact toNat_byte32 value small

/-- A byte shifted to its place does not overflow. -/
theorem digit_shiftLeft_lt (digit : Nat) {index count : Nat} (byte : digit < 256) (small : index < count) :
    digit <<< (index * 8) < 256 ^ count := by
  rw [Nat.shiftLeft_eq, Nat.mul_comm index, Nat.pow_mul]
  calc digit * 256 ^ index
    _ < 256 * 256 ^ index := Nat.mul_lt_mul_of_pos_right byte (Nat.pow_pos (by decide))
    _ = 256 ^ (index + 1) := by rw [Nat.pow_succ, Nat.mul_comm]
    _ ≤ 256 ^ count := Nat.pow_le_pow_right (by decide) small

theorem ofLittleEndian64_littleEndian64 (value : UInt64) : ofLittleEndian64 (littleEndian64 value) = value := by
  have partly : forall count, count ≤ 8 -> ((List.range count).foldl (fun total index =>
      total ||| ((littleEndian64 value).getD index 0).toUInt64 <<< UInt64.ofNat (index * 8)) 0).toNat =
        value.toNat % 256 ^ count := by
    intro count
    induction count with
    | zero => exact fun _ => (Nat.mod_one _).symm
    | succ index inductionHypothesis =>
        intro small
        have place : index * 8 % 2 ^ 64 % 64 = index * 8 := by omega
        have digit := getD_littleEndian64 value small
        have fits : (value.toNat / 256 ^ index % 256) <<< (index * 8) < 2 ^ 64 :=
          digit_shiftLeft_lt _ (Nat.mod_lt _ (by decide)) small
        rw [List.range_succ, List.foldl_concat, UInt64.toNat_or, inductionHypothesis (Nat.le_of_succ_le small),
          UInt64.toNat_shiftLeft, UInt8.toNat_toUInt64, digit, UInt64.toNat_ofNat', place, Nat.mod_eq_of_lt fits,
          or_digit]
  apply UInt64.toNat_inj.mp
  exact (partly 8 (Nat.le_refl 8)).trans (Nat.mod_eq_of_lt value.toNat_lt)

theorem ofLittleEndian32_littleEndian32 (value : UInt32) : ofLittleEndian32 (littleEndian32 value) = value := by
  have partly : forall count, count ≤ 4 -> ((List.range count).foldl (fun total index =>
      total ||| ((littleEndian32 value).getD index 0).toUInt32 <<< UInt32.ofNat (index * 8)) 0).toNat =
        value.toNat % 256 ^ count := by
    intro count
    induction count with
    | zero => exact fun _ => (Nat.mod_one _).symm
    | succ index inductionHypothesis =>
        intro small
        have place : index * 8 % 2 ^ 32 % 32 = index * 8 := by omega
        have digit := getD_littleEndian32 value small
        have fits : (value.toNat / 256 ^ index % 256) <<< (index * 8) < 2 ^ 32 :=
          digit_shiftLeft_lt _ (Nat.mod_lt _ (by decide)) small
        rw [List.range_succ, List.foldl_concat, UInt32.toNat_or, inductionHypothesis (Nat.le_of_succ_le small),
          UInt32.toNat_shiftLeft, UInt8.toNat_toUInt32, digit, UInt32.toNat_ofNat', place, Nat.mod_eq_of_lt fits,
          or_digit]
  apply UInt32.toNat_inj.mp
  exact (partly 4 (Nat.le_refl 4)).trans (Nat.mod_eq_of_lt value.toNat_lt)

theorem ofBigEndian64_bigEndian64 (value : UInt64) : ofBigEndian64 (bigEndian64 value) = value := by
  have onwards : forall count (read : UInt64), count ≤ 8 -> read.toNat = value.toNat / 256 ^ count ->
      (((List.range count).reverse.map fun index => (value >>> UInt64.ofNat (index * 8)).toUInt8).foldl
        (fun (total : UInt64) (byte : UInt8) => total <<< 8 ||| byte.toUInt64) read).toNat = value.toNat := by
    intro count
    induction count with
    | zero => exact fun read _ all => all.trans (Nat.div_one _)
    | succ index inductionHypothesis =>
        intro read small sofar
        rw [List.range_succ, List.reverse_append, List.reverse_singleton, List.singleton_append, List.map_cons,
          List.foldl_cons]
        refine inductionHypothesis _ (Nat.le_of_succ_le small) ?_
        have bounded : value.toNat / 256 ^ (index + 1) ≤ value.toNat / 256 :=
          Nat.div_le_div_left (Nat.le_pow (Nat.succ_pos index)) (by decide)
        have fits : (value.toNat / 256 ^ (index + 1)) <<< 8 < 2 ^ 64 := by
          have below := value.toNat_lt
          rw [Nat.shiftLeft_eq]
          omega
        rw [UInt64.toNat_or, UInt64.toNat_shiftLeft, UInt8.toNat_toUInt64, toNat_byte value small, sofar]
        exact (congrArg (· ||| _) (Nat.mod_eq_of_lt fits)).trans (digit_or value.toNat index)
  apply UInt64.toNat_inj.mp
  exact onwards 8 0 (Nat.le_refl 8) (Nat.div_eq_of_lt value.toNat_lt).symm

theorem ofBigEndian32_bigEndian32 (value : UInt32) : ofBigEndian32 (bigEndian32 value) = value := by
  have reversed : ofBigEndian32 (bigEndian32 value) = ofLittleEndian32 (littleEndian32 value) := by
    have places : ofLittleEndian32 (littleEndian32 value) =
        (0 : UInt32) ||| (value >>> 0).toUInt8.toUInt32 <<< 0 ||| (value >>> 8).toUInt8.toUInt32 <<< 8 |||
          (value >>> 16).toUInt8.toUInt32 <<< 16 ||| (value >>> 24).toUInt8.toUInt32 <<< 24 := rfl
    have digits : ofBigEndian32 (bigEndian32 value) =
        (value >>> 24).toUInt8.toUInt32 <<< 24 ||| (value >>> 16).toUInt8.toUInt32 <<< 16 |||
          (value >>> 8).toUInt8.toUInt32 <<< 8 ||| (value >>> 0).toUInt8.toUInt32 := rfl
    rw [places, digits, UInt32.zero_or, UInt32.shiftLeft_zero]
    generalize (value >>> 24).toUInt8.toUInt32 <<< 24 = first, (value >>> 16).toUInt8.toUInt32 <<< 16 = second,
      (value >>> 8).toUInt8.toUInt32 <<< 8 = third, (value >>> 0).toUInt8.toUInt32 = fourth
    rw [UInt32.or_comm (first ||| second ||| third), UInt32.or_comm (first ||| second), UInt32.or_comm first,
      UInt32.or_assoc, UInt32.or_assoc]
  exact reversed.trans (ofLittleEndian32_littleEndian32 value)

/-! ## The fields -/

/-- The decoders of the source: bytes in, an exception with a text. -/
abbrev ByteDecoder := Decoder UInt8 String

def readByte : ByteDecoder UInt8 := do
  let bytes <- Decoder.slice 1
  return bytes.getD 0 0

/-- Every byte other than zero is true. -/
def readFlag : ByteDecoder Bool := do
  let flag <- readByte
  return decide (flag ≠ 0)

def readLittle64 : ByteDecoder UInt64 := do
  let bytes <- Decoder.slice 8
  return ofLittleEndian64 bytes

def readLittle32 : ByteDecoder UInt32 := do
  let bytes <- Decoder.slice 4
  return ofLittleEndian32 bytes

def readBig64 : ByteDecoder UInt64 := do
  let bytes <- Decoder.slice 8
  return ofBigEndian64 bytes

def readBig32 : ByteDecoder UInt32 := do
  let bytes <- Decoder.slice 4
  return ofBigEndian32 bytes

/-- The constructor of a wrapper from a vector throws if the size differs. -/
def FixedBytes.ofBytes (size : Nat) (mismatch : String) (bytes : List UInt8) : Outcome String (FixedBytes size) :=
  if sized : bytes.length = size then .value ⟨bytes, sized⟩ else .throws mismatch

def readFixed (size : Nat) (mismatch : String) : ByteDecoder (FixedBytes size) := do
  let bytes <- Decoder.slice size
  Decoder.lift (FixedBytes.ofBytes size mismatch bytes)

/-- A wrapper made of all the remaining bytes. -/
def readFixedRest (size : Nat) (mismatch : String) : ByteDecoder (FixedBytes size) := do
  let bytes <- Decoder.rest
  Decoder.lift (FixedBytes.ofBytes size mismatch bytes)

def Blake3Hash.mismatch : String := "Blake3Hash: data must be exactly 32 bytes"

def readBlake3Hash : ByteDecoder Blake3Hash := readFixed 32 Blake3Hash.mismatch

def readAddress : ByteDecoder (FixedBytes 32) := readFixed 32 "Address data must be exactly 32 bytes"

def readBLS12381PublicKey : ByteDecoder BLS12381PublicKey :=
  readFixed 48 "BLS12_381_PublicKey: data must be exactly 48 bytes"

def readBLS12381Signature : ByteDecoder BLS12381Signature :=
  readFixed 96 "BLS12_381_Signature: data must be exactly 96 bytes"

def readEd25519PublicKey : ByteDecoder Ed25519PublicKey :=
  readFixed 32 "Ed25519_PublicKey: data must be exactly 32 bytes"

theorem FixedBytes.ofBytes_serialize {size : Nat} (mismatch : String) (value : FixedBytes size) :
    FixedBytes.ofBytes size mismatch value.serialize = .value value := dif_pos value.length_bytes

variable (after : List UInt8)

theorem consumes_readByte (value : UInt8) : Consumes readByte [value] after value :=
  (Consumes.slice rfl after).last

theorem consumes_readFlag (value : Bool) : Consumes readFlag [flagByte value] after value := by
  have flag : decide (flagByte value ≠ 0) = value := by
    cases value with
    | true => rfl
    | false => rfl
  have whole : Consumes readFlag [flagByte value] after (decide (flagByte value ≠ 0)) :=
    (consumes_readByte after (flagByte value)).last
  rw [flag] at whole
  exact whole

theorem consumes_readLittle64 (value : UInt64) : Consumes readLittle64 (littleEndian64 value) after value := by
  have whole : Consumes readLittle64 (littleEndian64 value) after (ofLittleEndian64 (littleEndian64 value)) :=
    (Consumes.slice (length_littleEndian64 value) after).last
  rw [ofLittleEndian64_littleEndian64] at whole
  exact whole

theorem consumes_readLittle32 (value : UInt32) : Consumes readLittle32 (littleEndian32 value) after value := by
  have whole : Consumes readLittle32 (littleEndian32 value) after (ofLittleEndian32 (littleEndian32 value)) :=
    (Consumes.slice (length_littleEndian32 value) after).last
  rw [ofLittleEndian32_littleEndian32] at whole
  exact whole

theorem consumes_readBig64 (value : UInt64) : Consumes readBig64 (bigEndian64 value) after value := by
  have whole : Consumes readBig64 (bigEndian64 value) after (ofBigEndian64 (bigEndian64 value)) :=
    (Consumes.slice (length_bigEndian64 value) after).last
  rw [ofBigEndian64_bigEndian64] at whole
  exact whole

theorem consumes_readBig32 (value : UInt32) : Consumes readBig32 (bigEndian32 value) after value := by
  have whole : Consumes readBig32 (bigEndian32 value) after (ofBigEndian32 (bigEndian32 value)) :=
    (Consumes.slice (length_bigEndian32 value) after).last
  rw [ofBigEndian32_bigEndian32] at whole
  exact whole

theorem consumes_readFixed {size : Nat} (mismatch : String) (value : FixedBytes size) :
    Consumes (readFixed size mismatch) value.serialize after value :=
  (Consumes.slice value.length_bytes after).parsed (FixedBytes.ofBytes_serialize mismatch value)

/-- A field whose size is checked before it is read. -/
theorem consumes_checkedFixed {size : Nat} (truncated mismatch : String) (value : FixedBytes size) :
    Consumes (Decoder.require size truncated >>= fun _ => readFixed size mismatch) value.serialize after value := by
  have enough : size ≤ (value.serialize ++ after).length := by
    rw [List.length_append, length_serialize]
    exact Nat.le_add_right size _
  exact (Consumes.require enough _).between (consumes_readFixed after mismatch value)

theorem consumes_readFixedRest {size : Nat} (mismatch : String) (value : FixedBytes size) :
    Consumes (readFixedRest size mismatch) value.serialize [] value :=
  (Consumes.rest value.serialize).parsed (FixedBytes.ofBytes_serialize mismatch value)

/-! ## Fields of arbitrary vectors -/

variable {data : List UInt8} (left : Nat) (vector : data.length < 2 ^ 63)

include vector

theorem stays_readByte : Stays readByte data (1 + left) left := (Stays.slice 1 left vector).last

theorem stays_readFlag : Stays readFlag data (1 + left) left := (stays_readByte left vector).last

theorem stays_readLittle64 : Stays readLittle64 data (8 + left) left := (Stays.slice 8 left vector).last

theorem stays_readLittle32 : Stays readLittle32 data (4 + left) left := (Stays.slice 4 left vector).last

theorem stays_readBig64 : Stays readBig64 data (8 + left) left := (Stays.slice 8 left vector).last

theorem stays_readBig32 : Stays readBig32 data (4 + left) left := (Stays.slice 4 left vector).last

omit vector in
theorem FixedBytes.ofBytes_ne_outside (size : Nat) (mismatch : String) (bytes : List UInt8) :
    FixedBytes.ofBytes size mismatch bytes ≠ .outside := by
  unfold FixedBytes.ofBytes
  split
  · nofun
  · nofun

theorem stays_readFixed (size : Nat) (mismatch : String) : Stays (readFixed size mismatch) data (size + left) left :=
  (Stays.slice size left vector).parsed (takesPart_slice size data)
    fun bytes _ => FixedBytes.ofBytes_ne_outside size mismatch bytes

end Crypto
end Sarafu

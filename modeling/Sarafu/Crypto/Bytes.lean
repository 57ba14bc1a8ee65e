import Mathlib

namespace Sarafu
namespace Crypto

/-!
# Byte strings of a fixed size

Hashes, addresses, keys and signatures are `std::array<uint8_t, n>` wrappers in
the source.  They share one Lean type indexed by the size, so that a value of
the wrong length cannot be built.  `std::array` compares lexicographically,
which is the order used by every `std::map` and by every sort of hashes.
-/

/-- `std::array<uint8_t, size>`. -/
structure FixedBytes (size : Nat) where
  bytes : List UInt8
  length_bytes : bytes.length = size
deriving DecidableEq

namespace FixedBytes

variable {size : Nat}

theorem ext_bytes {left right : FixedBytes size} (same : left.bytes = right.bytes) : left = right := by
  cases left
  cases right
  cases same
  rfl

/-- The default constructor of each wrapper fills the array with zeros. -/
def zero (size : Nat) : FixedBytes size :=
  ⟨List.replicate size 0, List.length_replicate⟩

/-- The `size` low-order bytes of a number, the most significant one first. -/
def ofNat (size : Nat) (value : Nat) : FixedBytes size :=
  ⟨(List.range size).map fun index => UInt8.ofNat (value / 256 ^ (size - 1 - index)),
    by rw [List.length_map, List.length_range]⟩

/-- `serialize` copies the array into a vector. -/
def serialize (value : FixedBytes size) : List UInt8 := value.bytes

def hexDigit (value : Nat) : Char :=
  if value < 10 then Char.ofNat (48 + value) else Char.ofNat (87 + value)

/-- `to_hex`: two lower-case digits for each byte. -/
def toHex (value : FixedBytes size) : String :=
  String.ofList (value.bytes.flatMap fun byte => [hexDigit (byte.toNat / 16), hexDigit (byte.toNat % 16)])

instance : Inhabited (FixedBytes size) := ⟨zero size⟩

instance : Ord (FixedBytes size) := ⟨fun left right => compare left.bytes right.bytes⟩

theorem compare_def (left right : FixedBytes size) :
    compare left right = compare left.bytes right.bytes := rfl

instance : Std.TransOrd (FixedBytes size) where
  eq_swap := by
    intro left right
    rw [compare_def, compare_def]
    exact Std.OrientedCmp.eq_swap
  isLE_trans := by
    intro first second third firstLe secondLe
    rw [compare_def] at *
    exact Std.TransCmp.isLE_trans firstLe secondLe

instance : Std.LawfulEqOrd (FixedBytes size) where
  compare_self := by
    intro value
    rw [compare_def]
    exact Std.ReflCmp.compare_self
  eq_of_compare := by
    intro left right same
    rw [compare_def] at same
    exact ext_bytes (Std.LawfulEqCmp.eq_of_compare same)

end FixedBytes

/-- The eight-byte little-endian encoding written by every `serialize`. -/
def littleEndian64 (value : UInt64) : List UInt8 :=
  (List.range 8).map fun index => (value >>> UInt64.ofNat (index * 8)).toUInt8

/-- The four-byte little-endian encoding of chain ids and short counts. -/
def littleEndian32 (value : UInt32) : List UInt8 :=
  (List.range 4).map fun index => (value >>> UInt32.ofNat (index * 8)).toUInt8

/-- A byte of the encoding, as a digit of the number. -/
theorem toNat_byte (value : UInt64) {index : Nat} (small : index < 8) :
    ((value >>> UInt64.ofNat (index * 8)).toUInt8).toNat = value.toNat / 256 ^ index % 256 := by
  rw [UInt64.toNat_toUInt8, UInt64.toNat_shiftRight, UInt64.toNat_ofNat', Nat.shiftRight_eq_div_pow]
  have inRange : index * 8 % 2 ^ 64 % 64 = 8 * index := by omega
  rw [inRange, Nat.pow_mul]

/-- The low-order digits determine the remainder. -/
theorem mod_pow_eq_of_digits {left right base count : Nat}
    (digits : forall index, index < count -> left / base ^ index % base = right / base ^ index % base) :
    left % base ^ count = right % base ^ count := by
  induction count with
  | zero => rw [Nat.pow_zero, Nat.mod_one, Nat.mod_one]
  | succ count inductionHypothesis =>
      rw [Nat.mod_pow_succ, Nat.mod_pow_succ, digits count (Nat.lt_succ_self count),
        inductionHypothesis fun index small => digits index (Nat.lt_succ_of_lt small)]

theorem littleEndian64_inj {left right : UInt64} (same : littleEndian64 left = littleEndian64 right) :
    left = right := by
  have equal : left.toNat % 256 ^ 8 = right.toNat % 256 ^ 8 := by
    apply mod_pow_eq_of_digits
    intro index small
    rw [← toNat_byte left small, ← toNat_byte right small]
    exact congrArg UInt8.toNat (List.map_inj_left.mp same index (List.mem_range.mpr small))
  rw [show 256 ^ 8 = 2 ^ 64 by rfl, Nat.mod_eq_of_lt left.toNat_lt, Nat.mod_eq_of_lt right.toNat_lt] at equal
  exact UInt64.toNat_inj.mp equal

/-- `std::map`, iterated in the order of its keys. -/
abbrev OrderedMap (Key : Type) (Value : Type) [Ord Key] := Std.ExtTreeMap Key Value compare

/-- Lookup after an assignment, with equality of keys for equality of the order. -/
theorem OrderedMap.find_insert {Key Value : Type} [Ord Key] [Std.TransOrd Key] [Std.LawfulEqOrd Key]
    [DecidableEq Key] (map : OrderedMap Key Value) (key other : Key) (value : Value) :
    (map.insert key value)[other]? = if other = key then some value else map[other]? := by
  rw [Std.ExtTreeMap.getElem?_insert]
  by_cases same : other = key
  · rw [if_pos same, if_pos (Std.LawfulEqOrd.compare_eq_iff_eq.mpr same.symm)]
  · rw [if_neg same, if_neg fun equal => same (Std.LawfulEqOrd.compare_eq_iff_eq.mp equal).symm]

/-- Lookup after an erasure. -/
theorem OrderedMap.find_erase {Key Value : Type} [Ord Key] [Std.TransOrd Key] [Std.LawfulEqOrd Key]
    [DecidableEq Key] (map : OrderedMap Key Value) (key other : Key) :
    (map.erase key)[other]? = if other = key then none else map[other]? := by
  rw [Std.ExtTreeMap.getElem?_erase]
  by_cases same : other = key
  · rw [if_pos same, if_pos (Std.LawfulEqOrd.compare_eq_iff_eq.mpr same.symm)]
  · rw [if_neg same, if_neg fun equal => same (Std.LawfulEqOrd.compare_eq_iff_eq.mp equal).symm]

/-- Lookup after erasing the entries that a test on the entry rejects. -/
theorem OrderedMap.find_filter {Key Value : Type} [Ord Key] [Std.TransOrd Key] [Std.LawfulEqOrd Key]
    (map : OrderedMap Key Value) (test : Key -> Value -> Bool) (key : Key) :
    (map.filter test)[key]? = (map[key]?).filter (test key) := by
  apply Option.ext
  intro value
  rw [← Std.ExtTreeMap.mem_toList_iff_getElem?_eq_some, Std.ExtTreeMap.toList_filter, List.mem_filter,
    Std.ExtTreeMap.mem_toList_iff_getElem?_eq_some, Option.filter_eq_some_iff]

abbrev Blake3Hash := FixedBytes 32
abbrev BLS12381PublicKey := FixedBytes 48
abbrev BLS12381Signature := FixedBytes 96
abbrev BLS12381PrivateKey := FixedBytes 32
abbrev Ed25519PublicKey := FixedBytes 32
abbrev Ed25519Signature := FixedBytes 64

/-- `Blake3Hash::zero` is the all-zero array of the default constructor. -/
def Blake3Hash.zero : Blake3Hash := FixedBytes.zero 32

-- Every map is keyed by 32 bytes or by a number, and its operations name this instance.
instance Blake3Hash.transOrd : Std.TransOrd Blake3Hash := inferInstance

end Crypto
end Sarafu

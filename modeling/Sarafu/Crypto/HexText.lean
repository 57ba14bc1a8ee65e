import Sarafu.Crypto.Primitives

namespace Sarafu
namespace Crypto

/-!
# Hex text

`to_hex` writes two lower-case digits for each byte.  `from_hex` hands two characters at a time
to `std::stoi`, which reads what `strtol` reads: white space, a sign and a `0x` may come before
the digits, and what comes after them is not looked at.
-/

/-- What `to_hex` writes, in bytes. -/
def hexText {size : Nat} (value : FixedBytes size) : List UInt8 :=
  value.toHex.toList.map fun digit => UInt8.ofNat digit.toNat

namespace Strtol

/-- The white space of the C locale. -/
def isSpace (character : UInt8) : Bool := character == 32 || (9 ≤ character && character ≤ 13)

def isSign (character : UInt8) : Bool := character == 43 || character == 45

def digitValue (character : UInt8) : Option Nat :=
  if 48 ≤ character ∧ character ≤ 57 then some (character.toNat - 48)
  else if 97 ≤ character ∧ character ≤ 102 then some (character.toNat - 87)
  else if 65 ≤ character ∧ character ≤ 70 then some (character.toNat - 55)
  else none

def leadingDigits : List UInt8 -> List Nat
  | [] => []
  | character :: rest =>
      match digitValue character with
      | none => []
      | some value => value :: leadingDigits rest

/-- `0x` counts as a prefix only in front of a digit. -/
def withoutPrefix : List UInt8 -> List UInt8
  | zero :: letter :: character :: rest =>
      if zero = 48 ∧ (letter = 120 ∨ letter = 88) ∧ (digitValue character).isSome then character :: rest
      else zero :: letter :: character :: rest
  | text => text

def magnitude (text : List UInt8) : Option Int :=
  match leadingDigits (withoutPrefix text) with
  | [] => none
  | first :: rest => some ((first :: rest).foldl (fun value digit => value * 16 + digit) 0 : Nat)

/-- `strtol` in base 16, or `none` if it converts nothing. -/
def strtol (text : List UInt8) : Option Int :=
  match text.dropWhile isSpace with
  | [] => none
  | first :: rest =>
      if first = 45 then (magnitude rest).map Neg.neg
      else if first = 43 then magnitude rest
      else magnitude (first :: rest)

end Strtol

open Strtol

/-- The texts have two characters at most, so the value always fits. -/
def stoi (text : List UInt8) : Except Failure Int :=
  match strtol text with
  | none => .error (.invalidArgument "stoi")
  | some value => .ok value

/-- The loop over the text.  Only `HexToBytes` can meet an odd character at the end. -/
def readPairs : List UInt8 -> Except Failure (List UInt8)
  | [] => .ok []
  | [last] => (stoi [last]).map fun value => [UInt8.ofInt value]
  | first :: second :: rest =>
      match stoi [first, second] with
      | .error failure => .error failure
      | .ok value => (readPairs rest).map fun bytes => UInt8.ofInt value :: bytes

theorem length_of_readPairs {size : Nat} {text bytes : List UInt8} (long : text.length = size * 2)
    (read : readPairs text = .ok bytes) : bytes.length = size := by
  induction text using readPairs.induct generalizing size bytes with
  | case1 =>
      cases read
      rw [List.length_nil] at long ⊢
      omega
  | case2 last =>
      rw [List.length_singleton] at long
      omega
  | case3 first second rest failure failed =>
      simp only [readPairs, failed] at read
      cases read
  | case4 first second rest value found inductionHypothesis =>
      simp only [readPairs, found] at read
      cases others : readPairs rest with
      | error failure =>
          rw [others] at read
          cases read
      | ok bytes =>
          rw [others] at read
          cases read
          have shorter : rest.length = (size - 1) * 2 := by
            simp only [List.length_cons] at long
            omega
          have length := inductionHypothesis shorter others
          simp only [List.length_cons] at long ⊢
          omega

/-- `from_hex` of an array of so many bytes. -/
def fromHex (size : Nat) (wrongLength : String) (text : List UInt8) : Except Failure (FixedBytes size) :=
  if long : text.length = size * 2 then
    match read : readPairs text with
    | .error failure => .error failure
    | .ok bytes => .ok ⟨bytes, length_of_readPairs long read⟩
  else .error (.invalidArgument wrongLength)

namespace Blake3Hash

def fromHex : List UInt8 -> Except Failure Blake3Hash :=
  Crypto.fromHex 32 "Blake3Hash::from_hex: hex string must be 64 characters"

end Blake3Hash

namespace Ed25519

def publicKeyFromHex : List UInt8 -> Except Failure Ed25519PublicKey :=
  fromHex 32 "Ed25519_PublicKey::from_hex: hex string must be 64 characters"

def signatureFromHex : List UInt8 -> Except Failure Ed25519Signature :=
  fromHex 64 "Ed25519_Signature::from_hex: hex string must be 128 characters"

def privateKeyFromHex : List UInt8 -> Except Failure (FixedBytes 64) :=
  fromHex 64 "Ed25519_PrivateKey::from_hex: hex string must be 128 characters"

end Ed25519

namespace BLS12381

def publicKeyFromHex : List UInt8 -> Except Failure BLS12381PublicKey :=
  fromHex 48 "BLS12_381_PublicKey::from_hex: hex string must be 96 characters"

def signatureFromHex : List UInt8 -> Except Failure BLS12381Signature :=
  fromHex 96 "BLS12_381_Signature::from_hex: hex string must be 192 characters"

def privateKeyFromHex : List UInt8 -> Except Failure BLS12381PrivateKey :=
  fromHex 32 "BLS12_381_PrivateKey::from_hex: hex string must be 64 characters"

end BLS12381

/-- `Address::from_hex`. -/
def addressFromHex : List UInt8 -> Except Failure (FixedBytes 32) :=
  fromHex 32 "Hex string must be exactly 64 characters"

/-- A digit as `to_hex` writes it. -/
def digitByte (value : Nat) : UInt8 := UInt8.ofNat (FixedBytes.hexDigit value).toNat

/-! The gateway's own pair takes bytes of any number and texts of odd length. -/

namespace RestGateway

def bytesToHex (bytes : List UInt8) : List UInt8 :=
  bytes.flatMap fun byte => [digitByte (byte.toNat / 16), digitByte (byte.toNat % 16)]

def hexToBytes : List UInt8 -> Except Failure (List UInt8) := readPairs

end RestGateway

open RestGateway

/-! ## Which pairs are read -/

/-- A digit with anything after it, or a digit after white space or a sign. -/
def Readable (first second : UInt8) : Prop :=
  (digitValue first).isSome = true ∨
    ((isSpace first = true ∨ isSign first = true) ∧ (digitValue second).isSome = true)

instance (first second : UInt8) : Decidable (Readable first second) := inferInstanceAs (Decidable (_ ∨ _))

def IsLowerDigit (character : UInt8) : Prop := (48 ≤ character ∧ character ≤ 57) ∨ (97 ≤ character ∧ character ≤ 102)

/-- The characters of a text, two at a time. -/
def pairsOf : List UInt8 -> List (UInt8 × UInt8)
  | first :: second :: rest => (first, second) :: pairsOf rest
  | _ => []

variable {first second character : UInt8}

theorem digitValue_isSome_iff : (digitValue character).isSome = true <->
    (48 ≤ character.toNat ∧ character.toNat ≤ 57) ∨ (97 ≤ character.toNat ∧ character.toNat ≤ 102) ∨
      (65 ≤ character.toNat ∧ character.toNat ≤ 70) := by
  unfold digitValue
  simp only [UInt8.le_iff_toNat_le, UInt8.reduceToNat]
  split
  · rename_i range
    exact iff_of_true rfl (Or.inl range)
  · split
    · rename_i range
      exact iff_of_true rfl (Or.inr (Or.inl range))
    · split
      · rename_i range
        exact iff_of_true rfl (Or.inr (Or.inr range))
      · simp only [Option.isSome_none, Bool.false_eq_true, false_iff]
        omega

/-- Digits are neither white space nor signs. -/
theorem digit_apart (digit : (digitValue character).isSome = true) :
    isSpace character = false ∧ character ≠ 43 ∧ character ≠ 45 := by
  rw [digitValue_isSome_iff] at digit
  simp only [isSpace, Bool.or_eq_false_iff, beq_eq_false_iff_ne, Bool.and_eq_false_iff, decide_eq_false_iff_not, ne_eq,
    ← UInt8.toNat_inj, UInt8.le_iff_toNat_le, UInt8.reduceToNat]
  omega

theorem leadingDigits_pair (first second : UInt8) : magnitude [first, second] =
    (digitValue first).map fun high =>
      match digitValue second with
      | none => (high : Int)
      | some low => ((high * 16 + low : Nat) : Int) := by
  cases top : digitValue first with
  | none => simp [magnitude, withoutPrefix, leadingDigits, top]
  | some high =>
      cases bottom : digitValue second with
      | none => simp [magnitude, withoutPrefix, leadingDigits, top, bottom]
      | some low => simp [magnitude, withoutPrefix, leadingDigits, top, bottom]

theorem magnitude_single (character : UInt8) :
    magnitude [character] = (digitValue character).map fun value => (value : Int) := by
  cases found : digitValue character with
  | none => simp [magnitude, withoutPrefix, leadingDigits, found]
  | some value => simp [magnitude, withoutPrefix, leadingDigits, found]

/-- `strtol` on two characters. -/
theorem strtol_pair (first second : UInt8) : strtol [first, second] =
    if isSpace first = true then
      if isSpace second = true then none
      else (digitValue second).map fun value => (value : Int)
    else if first = 45 then (digitValue second).map fun value => -(value : Int)
    else if first = 43 then (digitValue second).map fun value => (value : Int)
    else magnitude [first, second] := by
  unfold strtol
  cases space : isSpace first with
  | true =>
      cases also : isSpace second with
      | true => simp [space, also]
      | false =>
          simp only [List.dropWhile_cons, space, also, if_true, Bool.false_eq_true, if_false, magnitude_single]
          split
          · rename_i minus
            subst minus
            rfl
          · split
            · rename_i plus
              subst plus
              rfl
            · rfl
  | false =>
      simp only [List.dropWhile_cons, space, Bool.false_eq_true, if_false, magnitude_single, Option.map_map]
      rfl

theorem exists_stoi_iff : (∃ value, stoi [first, second] = .ok value) <-> Readable first second := by
  have converts : (∃ value, stoi [first, second] = .ok value) <-> (strtol [first, second]).isSome = true := by
    unfold stoi
    cases strtol [first, second] with
    | none => simp
    | some value => simp
  rw [converts, strtol_pair]
  unfold Readable
  by_cases digit : (digitValue first).isSome = true
  · rcases digit_apart digit with ⟨space, plus, minus⟩
    simp [space, plus, minus, leadingDigits_pair, digit]
  · simp only [digit, Bool.false_eq_true, false_or]
    cases space : isSpace first with
    | true =>
        cases also : isSpace second with
        | false =>
            cases digitValue second with
            | none => simp
            | some value => simp
        | true =>
            have none : (digitValue second).isSome = false := by
              by_contra some
              rw [(digit_apart (Bool.eq_true_of_not_eq_false some)).1] at also
              cases also
            simp [none]
    | false =>
        have unread : magnitude [first, second] = none := by
          rw [leadingDigits_pair, Option.not_isSome_iff_eq_none.mp digit]
          rfl
        by_cases minus : first = 45
        · cases digitValue second with
          | none => simp [minus]
          | some value => simp [minus, isSign]
        · by_cases plus : first = 43
          · cases digitValue second with
            | none => simp [plus]
            | some value => simp [plus, isSign]
          · simp [minus, plus, isSign, unread]

/-! ## Round trip -/

theorem hexText_eq {size : Nat} (value : FixedBytes size) : hexText value = bytesToHex value.bytes := by
  simp only [hexText, FixedBytes.toHex, String.toList_ofList, List.map_flatMap, List.map_cons, List.map_nil, digitByte,
    bytesToHex]

theorem digitValue_digitByte (value : Nat) (small : value < 16) : digitValue (digitByte value) = some value := by
  have all : forall value : Fin 16, digitValue (digitByte value) = some value.val := by decide +kernel
  exact all ⟨value, small⟩

theorem digitByte_lower {value : Nat} (small : value < 16) : IsLowerDigit (digitByte value) := by
  have all : forall value : Fin 16, (48 ≤ digitByte value ∧ digitByte value ≤ 57) ∨
      (97 ≤ digitByte value ∧ digitByte value ≤ 102) := by decide +kernel
  exact all ⟨value, small⟩

theorem stoi_digits {high low : Nat} (top : digitValue first = some high) (bottom : digitValue second = some low) :
    stoi [first, second] = .ok ((high * 16 + low : Nat) : Int) := by
  rcases digit_apart (Option.isSome_of_eq_some top) with ⟨space, plus, minus⟩
  unfold stoi
  rw [strtol_pair, space, if_neg Bool.false_ne_true, if_neg minus, if_neg plus, leadingDigits_pair, top, bottom]
  rfl

theorem hexToBytes_bytesToHex (bytes : List UInt8) : hexToBytes (bytesToHex bytes) = .ok bytes := by
  unfold hexToBytes
  induction bytes with
  | nil => rfl
  | cons byte rest inductionHypothesis =>
      have bound := byte.toNat_lt
      have high := digitValue_digitByte (byte.toNat / 16) (by omega)
      have low := digitValue_digitByte (byte.toNat % 16) (by omega)
      have whole : byte.toNat / 16 * 16 + byte.toNat % 16 = byte.toNat := Nat.div_add_mod' _ _
      have same : UInt8.ofInt ((byte.toNat : Nat) : Int) = byte := by
        unfold UInt8.ofInt
        have kept : ((byte.toNat : Int) % 2 ^ 8).toNat = byte.toNat := by omega
        rw [kept]
        exact UInt8.ofNat_toNat
      simp only [bytesToHex, List.flatMap_cons, List.cons_append, List.nil_append, readPairs, stoi_digits high low,
        whole, same]
      unfold bytesToHex at inductionHypothesis
      rw [inductionHypothesis]
      rfl

theorem fromHex_eq_ok_iff {size : Nat} {wrongLength : String} {text : List UInt8} {value : FixedBytes size} :
    fromHex size wrongLength text = .ok value <-> text.length = size * 2 ∧ readPairs text = .ok value.bytes := by
  unfold fromHex
  split
  · rename_i long
    rw [and_iff_right long]
    split
    · rename_i failure failed
      rw [failed]
      simp
    · rename_i bytes read
      constructor
      · intro same
        cases same
        exact read
      · intro same
        exact congrArg Except.ok (FixedBytes.ext_bytes (Except.ok.inj (read.symm.trans same)))
  · rename_i short
    exact iff_of_false nofun fun both => short both.1

theorem length_hexText {size : Nat} (value : FixedBytes size) : (hexText value).length = size * 2 := by
  have pairs : (hexText value).length = value.bytes.length * 2 := by
    rw [hexText_eq]
    simp [bytesToHex, List.length_flatMap]
  rw [pairs, value.length_bytes]

theorem exists_readPairs_iff {half : Nat} {text : List UInt8} (long : text.length = half * 2) :
    (∃ bytes, readPairs text = .ok bytes) <-> forall pair, pair ∈ pairsOf text -> Readable pair.1 pair.2 := by
  induction text using readPairs.induct generalizing half with
  | case1 => exact iff_of_true ⟨[], rfl⟩ nofun
  | case2 last =>
      rw [List.length_singleton] at long
      omega
  | case3 first second rest failure failed =>
      refine iff_of_false ?_ ?_
      · rintro ⟨bytes, read⟩
        simp only [readPairs, failed] at read
        cases read
      · intro readable
        rcases exists_stoi_iff.mpr (readable (first, second) List.mem_cons_self) with ⟨value, found⟩
        rw [failed] at found
        cases found
  | case4 first second rest value found inductionHypothesis =>
      have shorter : rest.length = (half - 1) * 2 := by
        simp only [List.length_cons] at long
        omega
      rw [pairsOf, List.forall_mem_cons, ← inductionHypothesis shorter]
      have readable : Readable first second := exists_stoi_iff.mp ⟨value, found⟩
      rw [and_iff_right readable]
      simp only [readPairs, found]
      cases readPairs rest with
      | error failure => exact iff_of_false (fun ⟨_, read⟩ => nomatch read) (fun ⟨_, read⟩ => nomatch read)
      | ok bytes => exact iff_of_true ⟨_, rfl⟩ ⟨bytes, rfl⟩

/-- A text of lower-case digits is what `to_hex` writes for some bytes. -/
theorem exists_hexText {size : Nat} {text : List UInt8} (long : text.length = size * 2)
    (lower : forall character, character ∈ text -> IsLowerDigit character) :
    ∃ value : FixedBytes size, hexText value = text := by
  have digits : forall character, IsLowerDigit character -> ∃ value, value < 16 ∧ digitByte value = character := by
    intro character lower
    have all : forall character : Fin 256, (48 ≤ UInt8.ofNat character ∧ UInt8.ofNat character ≤ 57) ∨
        (97 ≤ UInt8.ofNat character ∧ UInt8.ofNat character ≤ 102) ->
        ∃ value : Fin 16, digitByte value = UInt8.ofNat character := by decide +kernel
    have bound := character.toNat_lt
    have named : UInt8.ofNat character.toNat = character := UInt8.ofNat_toNat
    rcases all ⟨character.toNat, bound⟩ (by rw [named]; exact lower) with ⟨value, same⟩
    exact ⟨value, value.isLt, same.trans named⟩
  have bytes : ∃ bytes : List UInt8, bytes.length = size ∧ bytesToHex bytes = text := by
    induction size generalizing text with
    | zero =>
        rw [Nat.zero_mul, List.length_eq_zero_iff] at long
        exact ⟨[], rfl, long.symm⟩
    | succ size inductionHypothesis =>
        match text, long, lower with
        | [], long, _ =>
            rw [List.length_nil] at long
            omega
        | [last], long, _ =>
            rw [List.length_singleton] at long
            omega
        | first :: second :: rest, long, lower =>
            rw [List.forall_mem_cons, List.forall_mem_cons] at lower
            have shorter : rest.length = size * 2 := by
              simp only [List.length_cons] at long
              omega
            rcases digits first lower.1 with ⟨high, topSmall, rfl⟩
            rcases digits second lower.2.1 with ⟨low, bottomSmall, rfl⟩
            rcases inductionHypothesis shorter lower.2.2 with ⟨bytes, length, rfl⟩
            refine ⟨UInt8.ofNat (high * 16 + low) :: bytes, congrArg Nat.succ length, ?_⟩
            have value : (UInt8.ofNat (high * 16 + low)).toNat = high * 16 + low := UInt8.toNat_ofNat_of_lt' (by
              change high * 16 + low < 256
              omega)
            have quotient : (high * 16 + low) / 16 = high := by omega
            have rest : (high * 16 + low) % 16 = low := by omega
            simp only [bytesToHex, List.flatMap_cons, value, quotient, rest, List.cons_append, List.nil_append]
  rcases bytes with ⟨bytes, length, same⟩
  exact ⟨⟨bytes, length⟩, (hexText_eq _).trans same⟩

/-- `from_hex` reads back what `to_hex` writes; it accepts exactly the texts of the right length
whose pairs start with a digit or with white space or a sign before a digit; and an accepted text
is the one that `to_hex` writes for the result exactly if it consists of lower-case digits. -/
theorem hexCodec (size : Nat) (wrongLength : String) :
    (forall value : FixedBytes size, fromHex size wrongLength (hexText value) = .ok value) ∧
    (forall text, (∃ value, fromHex size wrongLength text = .ok value) <->
      text.length = size * 2 ∧ forall pair, pair ∈ pairsOf text -> Readable pair.1 pair.2) ∧
    forall text value, fromHex size wrongLength text = .ok value ->
      (hexText value = text <-> forall character, character ∈ text -> IsLowerDigit character) := by
  have back : forall value : FixedBytes size, fromHex size wrongLength (hexText value) = .ok value := by
    intro value
    refine fromHex_eq_ok_iff.mpr ⟨length_hexText value, ?_⟩
    rw [hexText_eq]
    exact hexToBytes_bytesToHex value.bytes
  refine ⟨back, ?_, ?_⟩
  · intro text
    constructor
    · rintro ⟨value, read⟩
      rcases fromHex_eq_ok_iff.mp read with ⟨long, pairs⟩
      exact ⟨long, (exists_readPairs_iff long).mp ⟨value.bytes, pairs⟩⟩
    · rintro ⟨long, readable⟩
      rcases (exists_readPairs_iff long).mpr readable with ⟨bytes, pairs⟩
      exact ⟨⟨bytes, length_of_readPairs long pairs⟩, fromHex_eq_ok_iff.mpr ⟨long, pairs⟩⟩
  · intro text value read
    constructor
    · rintro rfl character member
      rw [hexText_eq, bytesToHex] at member
      rcases List.mem_flatMap.mp member with ⟨byte, _, written⟩
      have bound := byte.toNat_lt
      rcases List.mem_pair.mp written with rfl | rfl
      · exact digitByte_lower (by omega)
      · exact digitByte_lower (by omega)
    · intro lower
      rcases exists_hexText (fromHex_eq_ok_iff.mp read).1 lower with ⟨other, rfl⟩
      rw [Except.ok.inj ((back other).symm.trans read)]

end Crypto
end Sarafu

import Mathlib.Data.List.Infix
import Mathlib.Data.Nat.Digits.Lemmas

namespace Library
namespace TextSearch

/-!
# Searching a text

The first place of a word in a text.  A part of the text without the first symbol of the word can be
skipped.  The decimal digits of a number are read back by the reader that takes as many
digits as there are.
-/

universe u

variable {Symbol : Type u} [DecidableEq Symbol]

/-- The first place at which a word stands in a text. -/
def find (word : List Symbol) : List Symbol -> Option Nat
  | [] => if word.isEmpty then some 0 else none
  | symbol :: rest => if word.isPrefixOf (symbol :: rest) then some 0 else (find word rest).map (· + 1)

variable {word text before rest : List Symbol} {first symbol : Symbol}

theorem find_append_self (word rest : List Symbol) : find word (word ++ rest) = some 0 := by
  cases text : word ++ rest with
  | nil =>
      rw [(List.append_eq_nil_iff.mp text).1]
      rfl
  | cons symbol others =>
      rw [find, if_pos]
      rw [← text]
      exact List.isPrefixOf_iff_prefix.mpr (List.prefix_append word rest)

theorem find_cons_of_not_prefix (other : ¬ word <+: symbol :: rest) :
    find word (symbol :: rest) = (find word rest).map (· + 1) := by
  rw [find, if_neg]
  exact fun isPrefix => other (List.isPrefixOf_iff_prefix.mp isPrefix)

/-- A part without the first symbol of the word is skipped. -/
theorem find_skip (absent : first ∉ before) :
    find (first :: word) (before ++ rest) = (find (first :: word) rest).map (· + before.length) := by
  induction before with
  | nil => exact Option.map_id'.symm
  | cons symbol before inductionHypothesis =>
      rw [List.mem_cons, not_or] at absent
      have other : ¬ first :: word <+: symbol :: (before ++ rest) := by
        rw [List.cons_prefix_cons]
        exact fun same => absent.1 same.1
      rw [List.cons_append, find_cons_of_not_prefix other, inductionHypothesis absent.2, Option.map_map]
      congr 1

theorem find_eq_none_of_notMem (absent : first ∉ text) : find (first :: word) text = none := by
  have skipped : find (first :: word) (text ++ []) = _ := find_skip absent
  rw [List.append_nil] at skipped
  exact skipped

/-! ## Decimal numbers -/

/-- The value of some digits, the most significant first. -/
def numberOf (digits : List Nat) : Nat := digits.foldl (fun number digit => 10 * number + digit) 0

def decimalDigits (number : Nat) : List Nat := if number = 0 then [0] else (Nat.digits 10 number).reverse

theorem numberOf_eq (digits : List Nat) : numberOf digits = Nat.ofDigits 10 digits.reverse := by
  induction digits using List.reverseRecOn with
  | nil => rfl
  | append_singleton digits last inductionHypothesis =>
      rw [numberOf, List.foldl_append, List.foldl_cons, List.foldl_nil, List.reverse_append, List.reverse_singleton,
        List.singleton_append, Nat.ofDigits_cons, ← inductionHypothesis, numberOf, Nat.add_comm]

/-- Digits are read back. -/
theorem numberOf_decimalDigits (number : Nat) : numberOf (decimalDigits number) = number := by
  unfold decimalDigits
  split
  · rename_i zero
    exact zero.symm
  · rw [numberOf_eq, List.reverse_reverse, Nat.ofDigits_digits]

theorem decimalDigits_lt {number digit : Nat} (member : digit ∈ decimalDigits number) : digit < 10 := by
  unfold decimalDigits at member
  split at member
  · rw [List.mem_singleton.mp member]
    decide
  · exact Nat.digits_lt_base (by decide) (List.mem_reverse.mp member)

theorem decimalDigits_ne_nil (number : Nat) : decimalDigits number ≠ [] := by
  unfold decimalDigits
  split
  · exact List.cons_ne_nil _ _
  · rename_i nonzero
    rw [Ne, List.reverse_eq_nil_iff]
    exact Nat.digits_ne_nil_iff_ne_zero.mpr nonzero

/-! ## Bytes of a text -/

/-- The bytes of a literal. -/
def bytesOf (text : String) : List UInt8 := text.toList.map fun letter => UInt8.ofNat letter.toNat

def isDigit (byte : UInt8) : Bool := decide (48 ≤ byte) && decide (byte ≤ 57)

/-- A number in decimal digits. -/
def decimal (number : Nat) : List UInt8 := (decimalDigits number).map fun digit => UInt8.ofNat (48 + digit)

theorem isDigit_of_lt {digit : Nat} (small : digit < 10) : isDigit (UInt8.ofNat (48 + digit)) = true := by
  have byte : (UInt8.ofNat (48 + digit)).toNat = 48 + digit := UInt8.toNat_ofNat_of_lt' (by
    change 48 + digit < 256
    omega)
  rw [isDigit, Bool.and_eq_true, decide_eq_true_iff, decide_eq_true_iff, UInt8.le_iff_toNat_le, UInt8.le_iff_toNat_le,
    byte]
  constructor
  · change 48 ≤ 48 + digit
    omega
  · change 48 + digit ≤ 57
    omega

theorem isDigit_decimal {number : Nat} {byte : UInt8} (member : byte ∈ decimal number) : isDigit byte = true := by
  rcases List.mem_map.mp member with ⟨digit, listed, rfl⟩
  exact isDigit_of_lt (decimalDigits_lt listed)

/-- The digits as numbers again. -/
theorem digits_decimal (number : Nat) : (decimal number).map (fun byte => byte.toNat - 48) = decimalDigits number := by
  rw [decimal, List.map_map]
  refine (List.map_congr_left ?_).trans (List.map_id _)
  intro digit member
  have small := decimalDigits_lt member
  have byte : (UInt8.ofNat (48 + digit)).toNat = 48 + digit := UInt8.toNat_ofNat_of_lt' (by
    change 48 + digit < 256
    omega)
  rw [Function.comp_apply, byte, Nat.add_sub_cancel_left]
  rfl

theorem digit_range {byte : UInt8} (digit : isDigit byte = true) : 48 ≤ byte.toNat ∧ byte.toNat ≤ 57 := by
  rw [isDigit, Bool.and_eq_true, decide_eq_true_iff, decide_eq_true_iff, UInt8.le_iff_toNat_le,
    UInt8.le_iff_toNat_le] at digit
  exact digit

theorem notMem_decimal {byte : UInt8} (other : isDigit byte = false) (number : Nat) : byte ∉ decimal number := by
  intro member
  rw [isDigit_decimal member] at other
  cases other

end TextSearch
end Library

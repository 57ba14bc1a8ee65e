import Sarafu.Crypto.MerkleBinding
import Sarafu.Library.RepeatedEnds

namespace Sarafu
namespace Crypto
namespace MerkleTree

open Library.PairTree

/-!
# Sorted leaves with repetitions

Leaves that are sorted before the tree is built have their repetitions side by side.
Against a tree over distinct leaves, repetitions go unnoticed only at the end: copies of
the last leaf, fewer than a power of two that divides the number of the leaves before it.
-/

/-- Copies of a leaf behind the given number of other leaves that the root does not show. -/
def Unseen (places copies : Nat) : Prop := copies = 0 ∨ 0 < places ∧ Hidden places copies

variable {prim : Primitives} {strings : List (List UInt8)} {front longer : List Blake3Hash} {last : Blake3Hash}

/-- Hidden copies fit under the same height, and above the level where they vanish. -/
theorem clog_copies {places copies exponent : Nat} (some : 0 < places) (few : copies < 2 ^ exponent)
    (divides : 2 ^ exponent ∣ places) :
    ∃ extra, Nat.clog 2 (places + 1) = extra + exponent ∧ Nat.clog 2 (places + (copies + 1)) = extra + exponent := by
  rcases divides with ⟨blocks, rfl⟩
  have block := Nat.two_pow_pos exponent
  have several : 0 < blocks := (Nat.mul_pos_iff_of_pos_left block).mp some
  have above : exponent ≤ Nat.clog 2 (2 ^ exponent * blocks + 1) := by
    have below : exponent < Nat.clog 2 (2 ^ exponent * blocks + 1) := by
      rw [Nat.lt_clog_iff_pow_lt Nat.one_lt_two]
      exact Nat.lt_succ_of_le (Nat.le_mul_of_pos_right _ several)
    exact Nat.le_of_lt below
  rcases Nat.exists_eq_add_of_le' above with ⟨extra, height⟩
  refine ⟨extra, height, Nat.le_antisymm ?_ ?_⟩
  · have fits := Nat.le_pow_clog Nat.one_lt_two (2 ^ exponent * blocks + 1)
    rw [height, Nat.pow_add, Nat.mul_comm (2 ^ extra)] at fits
    have blocksFit : blocks < 2 ^ extra := by
      rw [← Nat.mul_lt_mul_left block]
      exact Nat.lt_of_succ_le fits
    apply Nat.clog_le_of_le_pow
    rw [Nat.add_comm extra, Nat.pow_add]
    calc
      2 ^ exponent * blocks + (copies + 1) ≤ 2 ^ exponent * blocks + 2 ^ exponent :=
        Nat.add_le_add_left (Nat.succ_le_of_lt few) _
      _ = 2 ^ exponent * (blocks + 1) := (Nat.mul_succ _ _).symm
      _ ≤ 2 ^ exponent * 2 ^ extra := Nat.mul_le_mul_left _ (Nat.succ_le_of_lt blocksFit)
  · rw [← height]
    exact Nat.clog_mono_right 2 (Nat.add_le_add_left (Nat.le_add_left 1 copies) _)

/-- Unseen copies leave the root as it was. -/
theorem rootOf_copies (prim : Primitives) (front : List Blake3Hash) (last : Blake3Hash) {copies : Nat}
    (unseen : Unseen front.length copies) :
    rootOf prim (front ++ List.replicate (copies + 1) last) = rootOf prim (front ++ [last]) := by
  rcases unseen with none | ⟨some, exponent, few, divides⟩
  · rw [none]
    rfl
  · rcases clog_copies some few divides with ⟨extra, height, longerHeight⟩
    have nonempty : front ++ [last] ≠ [] := List.concat_ne_nil last front
    have longerNonempty : front ++ List.replicate (copies + 1) last ≠ [] := by
      rw [List.replicate_succ]
      exact List.append_ne_nil_of_right_ne_nil _ (List.cons_ne_nil _ _)
    have top := rise_clog prim nonempty
    have longerTop := rise_clog prim longerNonempty
    rw [List.length_append, List.length_singleton, height, Function.iterate_add_apply] at top
    rw [List.length_append, List.length_replicate, longerHeight, Function.iterate_add_apply,
      rise_iterate_copies (combine prim) exponent few divides, top] at longerTop
    exact (List.singleton_inj.mp longerTop).symm

/-- Sorted leaves have the root of distinct leaves exactly if they are these leaves with
unseen copies of the last one. -/
theorem rootOf_eq_iff_copies (free : CollisionFree prim strings) (distinct : (front ++ [last]).Nodup)
    (nonempty : longer ≠ []) (grouped : Grouped longer)
    (leaf : forall leaf, leaf ∈ front ++ [last] ->
      ∃ string, string ∈ strings ∧ string.length ≠ 64 ∧ prim.blake3 string = leaf)
    (longerLeaf : forall leaf, leaf ∈ longer ->
      ∃ string, string ∈ strings ∧ string.length ≠ 64 ∧ prim.blake3 string = leaf)
    (hashed : hashedFrom prim (front ++ [last]).length (front ++ [last]) ⊆ strings)
    (longerHashed : hashedFrom prim longer.length longer ⊆ strings) :
    rootOf prim longer = rootOf prim (front ++ [last]) <->
      ∃ copies, longer = front ++ List.replicate (copies + 1) last ∧ Unseen front.length copies := by
  have some : front ++ [last] ≠ [] := List.concat_ne_nil last front
  constructor
  · intro same
    have heights := clog_eq_of_rootOf_eq free nonempty some longerLeaf leaf longerHashed hashed same
    have injective := free.injectiveOn_trees nonempty some longerHashed hashed
    rw [heights] at injective
    have levels := rise_clog_eq nonempty some heights same
    rcases exists_copies_of_rise_iterate_eq _ distinct grouped injective levels with ⟨copies, split, hidden⟩
    refine ⟨copies, split, ?_⟩
    cases front with
    | nil =>
        -- one leaf is its own root, so copies of it would make the tree higher
        left
        rw [split, List.nil_append, List.nil_append, List.length_replicate, List.length_singleton,
          Nat.clog_one_right] at heights
        have few := Nat.le_pow_clog Nat.one_lt_two (copies + 1)
        rw [← heights] at few
        omega
    | cons first rest => exact Or.inr ⟨Nat.succ_pos _, hidden⟩
  · rintro ⟨copies, rfl, unseen⟩
    exact rootOf_copies prim front last unseen

end MerkleTree
end Crypto
end Sarafu

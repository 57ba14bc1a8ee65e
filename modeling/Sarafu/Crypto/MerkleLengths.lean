import Sarafu.Crypto.MerkleBinding

namespace Sarafu
namespace Crypto
namespace MerkleTree

open Library.PairTree

/-!
# Roots of leaves with repetitions

Without collisions a root determines the leaves among all lists of one length, and it
determines the height of the tree.  It does not determine the length.  If the number of
leaves is not a power of two, the last of them can be repeated under the same root, and
no string is hashed that was not hashed before.  If it is one and the leaves are
distinct, no other list has the root.
-/

variable {prim : Primitives} {strings : List (List UInt8)} {left right leaves : List Blake3Hash}

/-- A root determines the leaves among the lists of one length. -/
theorem leaves_eq_of_length (free : CollisionFree prim strings)
    (leftHashed : hashedFrom prim left.length left ⊆ strings)
    (rightHashed : hashedFrom prim right.length right ⊆ strings) (sameLength : left.length = right.length)
    (same : rootOf prim left = rootOf prim right) : left = right := by
  by_cases empty : left = []
  · rw [empty] at sameLength ⊢
    exact (List.length_eq_zero_iff.mp sameLength.symm).symm
  · have rightNonempty : right ≠ [] := by
      intro rightEmpty
      rw [rightEmpty] at sameLength
      exact empty (List.length_eq_zero_iff.mp sameLength)
    have injective := free.injectiveOn_trees empty rightNonempty leftHashed rightHashed
    have height : Nat.clog 2 right.length = Nat.clog 2 left.length := by
      rw [sameLength]
    rw [height] at injective
    exact rise_iterate_inj_of_length _ sameLength injective (rise_clog_eq empty rightNonempty height same)

/-- Distinct leaves whose number is a power of two are the only ones with their root. -/
theorem leaves_eq_of_full (free : CollisionFree prim strings) {height : Nat} (full : left.length = 2 ^ height)
    (distinct : left.Nodup) (rightNonempty : right ≠ [])
    (leftLeaf : forall leaf, leaf ∈ left -> ∃ string, string ∈ strings ∧ string.length ≠ 64 ∧ prim.blake3 string = leaf)
    (rightLeaf : forall leaf, leaf ∈ right ->
      ∃ string, string ∈ strings ∧ string.length ≠ 64 ∧ prim.blake3 string = leaf)
    (leftHashed : hashedFrom prim left.length left ⊆ strings)
    (rightHashed : hashedFrom prim right.length right ⊆ strings) (same : rootOf prim left = rootOf prim right) :
    left = right := by
  have leftNonempty : left ≠ [] := by
    rw [← List.length_pos_iff, full]
    exact Nat.two_pow_pos height
  have heights := clog_eq_of_rootOf_eq free leftNonempty rightNonempty leftLeaf rightLeaf leftHashed rightHashed same
  have injective := free.injectiveOn_trees leftNonempty rightNonempty leftHashed rightHashed
  rw [heights] at injective
  refine rise_iterate_inj_of_full _ ?_ distinct injective (rise_clog_eq leftNonempty rightNonempty heights same)
  rw [full, Nat.clog_pow 2 height Nat.one_lt_two]

/-- One more block of leaves fits under the same height. -/
theorem clog_succ_block (height : Nat) {blocks : Nat} (odd : ¬2 ∣ blocks) (several : 1 < blocks) :
    ∃ extra, Nat.clog 2 (2 ^ height * blocks) = height + 1 + extra ∧
      Nat.clog 2 (2 ^ height * (blocks + 1)) = height + 1 + extra := by
  have block := Nat.two_pow_pos height
  have above : height < Nat.clog 2 (2 ^ height * blocks) := by
    rw [Nat.lt_clog_iff_pow_lt Nat.one_lt_two]
    exact (Nat.lt_mul_iff_one_lt_right block).mpr several
  rcases Nat.exists_eq_add_of_lt above with ⟨extra, split⟩
  have total : Nat.clog 2 (2 ^ height * blocks) = height + 1 + extra := by
    omega
  refine ⟨extra, total, Nat.le_antisymm ?_ ?_⟩
  · have fits := Nat.le_pow_clog Nat.one_lt_two (2 ^ height * blocks)
    rw [total, Nat.add_assoc, Nat.pow_add] at fits
    have within := Nat.le_of_mul_le_mul_left fits block
    have even : 2 ∣ 2 ^ (1 + extra) := by
      rw [Nat.add_comm, Nat.pow_succ]
      exact Nat.dvd_mul_left 2 _
    have apart : blocks ≠ 2 ^ (1 + extra) := fun equal => odd (equal ▸ even)
    apply Nat.clog_le_of_le_pow
    rw [Nat.add_assoc, Nat.pow_add]
    exact Nat.mul_le_mul_left _ (Nat.lt_of_le_of_ne within apart)
  · rw [← total]
    exact Nat.clog_mono_right 2 (Nat.mul_le_mul_left _ (Nat.le_succ blocks))

/-- The last `2 ^ height` leaves can be repeated when the number of leaves is an odd
multiple of `2 ^ height`, and not `2 ^ height` itself. -/
theorem rootOf_repeatEnd (prim : Primitives) (height : Nat) {blocks : Nat} (odd : ¬2 ∣ blocks) (several : 1 < blocks)
    (length : leaves.length = 2 ^ height * blocks) :
    rootOf prim (repeatEnd (2 ^ height) leaves) = rootOf prim leaves ∧
      hashedFrom prim (repeatEnd (2 ^ height) leaves).length (repeatEnd (2 ^ height) leaves) ⊆
        hashedFrom prim leaves.length leaves := by
  have block := Nat.two_pow_pos height
  have nonempty : leaves ≠ [] := by
    rw [← List.length_pos_iff, length]
    exact Nat.mul_pos block (Nat.lt_of_succ_lt several)
  have longer : (repeatEnd (2 ^ height) leaves).length = 2 ^ height * (blocks + 1) := by
    have most : 2 ^ height ≤ leaves.length := by
      rw [length]
      exact Nat.le_mul_of_pos_right _ (Nat.lt_of_succ_lt several)
    rw [length_repeatEnd most, length, Nat.mul_succ]
  have repeatedNonempty : repeatEnd (2 ^ height) leaves ≠ [] := by
    rw [← List.length_pos_iff, longer]
    exact Nat.mul_pos block (Nat.succ_pos blocks)
  rcases clog_succ_block height odd several with ⟨extra, before, after⟩
  rcases rise_iterate_repeatEnd (combine prim) height odd length with ⟨same, fewer⟩
  have roots := rise_clog prim nonempty
  have repeatedRoots := rise_clog prim repeatedNonempty
  rw [length, before, Nat.add_comm, Function.iterate_add_apply] at roots
  rw [longer, after, Nat.add_comm, Function.iterate_add_apply, same, roots] at repeatedRoots
  refine ⟨(List.singleton_inj.mp repeatedRoots).symm, ?_⟩
  rw [← usedPairs_clog prim nonempty, ← usedPairs_clog prim repeatedNonempty, longer, length, before, after,
    usedPairs_add _ (height + 1) extra leaves, usedPairs_add _ (height + 1) extra (repeatEnd _ _), same]
  exact List.map_subset _ (List.append_subset.mpr ⟨List.Subset.trans fewer (List.subset_append_left _ _),
    List.subset_append_right _ _⟩)

end MerkleTree
end Crypto
end Sarafu

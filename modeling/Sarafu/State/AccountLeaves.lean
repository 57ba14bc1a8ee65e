import Sarafu.Crypto.MerkleCopies
import Sarafu.State.StateBinding

namespace Sarafu
namespace State

open Crypto Crypto.MerkleTree Library.PairTree

/-!
# Roots over lists of accounts

The leaves of a state root are the sorted hashes of a list of accounts.  The order of the
list does not matter.  A list with repetitions has the root of a list of distinct
accounts only if it repeats the account with the largest hash, so often that the root
does not show it.
-/

variable (prim : Primitives)

/-- The sorted hashes of a list of accounts. -/
def accountLeaves (accounts : List Account) : List Blake3Hash :=
  (accounts.map (Account.hash prim)).insertionSort fun left right => StateMachine.hashLe left right

/-- The strings that are hashed for the root over a list of accounts. -/
def accountStrings (accounts : List Account) : List (List UInt8) :=
  accounts.map Account.serialize ++ hashedFrom prim (accountLeaves prim accounts).length (accountLeaves prim accounts)

namespace StateMachine

instance : Std.Total fun left right : Blake3Hash => hashLe left right = true where
  total := by
    intro left right
    have swapped : compare right left = (compare left right).swap := Std.OrientedCmp.eq_swap
    unfold hashLe
    rw [swapped]
    cases compare left right <;> decide

instance : IsTrans Blake3Hash fun left right => hashLe left right = true where
  trans := by
    intro first second third earlier later
    exact Std.TransCmp.isLE_trans earlier later

theorem hashLe_antisymm {left right : Blake3Hash} (below : hashLe left right = true)
    (above : hashLe right left = true) : left = right := by
  have swapped : compare right left = (compare left right).swap := Std.OrientedCmp.eq_swap
  unfold hashLe at below above
  rw [swapped] at above
  cases order : compare left right with
  | eq => exact Std.LawfulEqOrd.compare_eq_iff_eq.mp order
  | lt =>
      rw [order] at above
      cases above
  | gt =>
      rw [order] at below
      cases below

end StateMachine

open StateMachine

theorem accountLeaves_ordered (accounts : List Account) :
    (accountLeaves prim accounts).Pairwise fun left right => hashLe left right = true :=
  List.pairwise_insertionSort (fun left right => hashLe left right = true) _

theorem accountLeaves_perm (accounts : List Account) :
    (accountLeaves prim accounts).Perm (accounts.map (Account.hash prim)) := List.perm_insertionSort _ _

theorem accountLeaves_grouped (accounts : List Account) : Grouped (accountLeaves prim accounts) :=
  Grouped.of_pairwise (accountLeaves_ordered prim accounts) fun _ _ => hashLe_antisymm

/-- Sorted lists of the same hashes are equal. -/
theorem eq_accountLeaves {leaves : List Blake3Hash} {accounts : List Account}
    (ordered : leaves.Pairwise fun left right => hashLe left right = true)
    (same : leaves.Perm (accounts.map (Account.hash prim))) : leaves = accountLeaves prim accounts :=
  List.Perm.eq_of_pairwise (fun _ _ _ _ => hashLe_antisymm) ordered (accountLeaves_ordered prim accounts)
    (same.trans (accountLeaves_perm prim accounts).symm)

/-- An account with the largest hash has the last leaf. -/
theorem exists_front {accounts : List Account} {largest : Account} (member : largest ∈ accounts)
    (most : forall account, account ∈ accounts -> hashLe (account.hash prim) (largest.hash prim) = true) :
    ∃ front, accountLeaves prim accounts = front ++ [largest.hash prim] ∧ front.length = accounts.length - 1 := by
  have leaf : largest.hash prim ∈ accountLeaves prim accounts :=
    (accountLeaves_perm prim accounts).mem_iff.mpr (List.mem_map_of_mem member)
  rcases List.eq_nil_or_concat (accountLeaves prim accounts) with empty | ⟨front, last, split⟩
  · rw [empty] at leaf
    cases leaf
  · rw [List.concat_eq_append] at split
    have ordered := accountLeaves_ordered prim accounts
    have lengths := (accountLeaves_perm prim accounts).length_eq
    rw [split, List.length_append, List.length_singleton, List.length_map] at lengths
    rw [split, List.pairwise_append] at ordered
    have below : hashLe (largest.hash prim) last = true := by
      rw [split, List.mem_append, List.mem_singleton] at leaf
      rcases leaf with before | here
      · exact ordered.2.2 _ before last (List.mem_singleton_self last)
      · rw [here]
        exact Std.ReflCmp.isLE_rfl
    have above : hashLe last (largest.hash prim) = true := by
      have listed : last ∈ accountLeaves prim accounts := by
        rw [split]
        exact List.mem_append_right _ (List.mem_singleton_self last)
      rcases List.mem_map.mp ((accountLeaves_perm prim accounts).mem_iff.mp listed) with ⟨account, stored, rfl⟩
      exact most account stored
    refine ⟨front, ?_, by omega⟩
    rw [split, hashLe_antisymm below above]

/-- An account with the largest hash. -/
theorem exists_largest {accounts : List Account} (nonempty : accounts ≠ []) :
    ∃ largest, largest ∈ accounts ∧
      forall account, account ∈ accounts -> hashLe (account.hash prim) (largest.hash prim) = true := by
  induction accounts with
  | nil => exact absurd rfl nonempty
  | cons account rest inductionHypothesis =>
      by_cases alone : rest = []
      · refine ⟨account, List.mem_cons_self, ?_⟩
        rw [alone, List.forall_mem_singleton]
        exact Std.ReflCmp.isLE_rfl
      · rcases inductionHypothesis alone with ⟨largest, member, most⟩
        rcases Std.Total.total (r := fun left right : Blake3Hash => hashLe left right = true) (account.hash prim)
          (largest.hash prim) with below | above
        · exact ⟨largest, List.mem_cons_of_mem account member, List.forall_mem_cons.mpr ⟨below, most⟩⟩
        · refine ⟨account, List.mem_cons_self, List.forall_mem_cons.mpr ⟨Std.ReflCmp.isLE_rfl, ?_⟩⟩
          intro other listed
          exact Std.TransCmp.isLE_trans (most other listed) above

/-- A list of accounts is another one with copies of one account. -/
structure CopiesOf (once : List Account) (repeated : Account) (copies : Nat) (accounts : List Account) : Prop where
  listed : accounts.Perm (once ++ List.replicate copies repeated)
  member : repeated ∈ once
  largest : forall account, account ∈ once -> hashLe (account.hash prim) (repeated.hash prim) = true
  unseen : Unseen (once.length - 1) copies

variable {prim} {once accounts : List Account} {repeated : Account} {copies : Nat}

/-- Unseen copies leave the root as it was. -/
theorem CopiesOf.rootOf_eq (copiesOf : CopiesOf prim once repeated copies accounts) :
    rootOf prim (accountLeaves prim accounts) = rootOf prim (accountLeaves prim once) := by
  rcases exists_front prim copiesOf.member copiesOf.largest with ⟨front, split, length⟩
  have ordered := accountLeaves_ordered prim once
  rw [split] at ordered
  have leaves : front ++ List.replicate (copies + 1) (repeated.hash prim) = accountLeaves prim accounts := by
    apply eq_accountLeaves
    · rw [List.pairwise_append] at ordered ⊢
      refine ⟨ordered.1, List.pairwise_replicate_of_refl, ?_⟩
      intro leaf before copy member
      rw [List.eq_of_mem_replicate member]
      exact ordered.2.2 leaf before _ (List.mem_singleton_self _)
    · have hashes := copiesOf.listed.map (Account.hash prim)
      rw [List.map_append, List.map_replicate] at hashes
      refine List.Perm.trans ?_ hashes.symm
      rw [List.replicate_succ, List.append_cons]
      refine List.Perm.append_right _ ?_
      rw [← split]
      exact accountLeaves_perm prim once
  rw [← leaves, split]
  exact rootOf_copies prim front _ (length ▸ copiesOf.unseen)

/-- Lists that a function maps to the same items are rearrangements of each other, if the
function tells their items apart. -/
theorem perm_of_perm_map {Source Target : Type} (image : Source -> Target) {first second : List Source}
    (injective : forall item, item ∈ first -> forall other, other ∈ second -> image item = image other -> item = other)
    (same : (first.map image).Perm (second.map image)) : first.Perm second := by
  have split : Relation.Comp (fun left right => left = right.map image) List.Perm (first.map image) second := by
    rw [List.eq_map_comp_perm]
    exact same
  rcases split with ⟨middle, images, rearranged⟩
  have equal : first = middle := Library.PairTree.map_inj_on (fun item member other listed =>
    injective item member other (rearranged.mem_iff.mp listed)) images
  exact equal ▸ rearranged

theorem eq_of_hash_eq {strings : List (List UInt8)} (free : CollisionFree prim strings) {account other : Account}
    (listed : account.serialize ∈ strings) (otherListed : other.serialize ∈ strings)
    (same : account.hash prim = other.hash prim) : account = other :=
  Account.serialize_inj (free _ listed _ otherListed same)

/-- The leaves are hashes of strings of another length than a pair of nodes. -/
theorem exists_accountString (prim : Primitives) {strings : List (List UInt8)}
    (listed : accounts.map Account.serialize ⊆ strings)
    (leaf : Blake3Hash) (member : leaf ∈ accountLeaves prim accounts) :
    ∃ string, string ∈ strings ∧ string.length ≠ 64 ∧ prim.blake3 string = leaf := by
  rcases List.mem_map.mp ((accountLeaves_perm prim accounts).mem_iff.mp member) with ⟨account, stored, hash⟩
  refine ⟨account.serialize, listed (List.mem_map_of_mem stored), ?_, hash⟩
  rw [account.length_serialize]
  decide

/-- Without collisions a list has the root of a list of distinct accounts exactly if it
is that list with unseen copies. -/
theorem rootOf_accountLeaves_eq_iff (distinct : once.Nodup) (nonempty : once ≠ []) (some : accounts ≠ [])
    (free : CollisionFree prim (accountStrings prim accounts ++ accountStrings prim once)) :
    rootOf prim (accountLeaves prim accounts) = rootOf prim (accountLeaves prim once) <->
      ∃ repeated copies, CopiesOf prim once repeated copies accounts := by
  constructor
  · intro same
    rcases exists_largest prim nonempty with ⟨repeated, member, largest⟩
    rcases exists_front prim member largest with ⟨front, split, length⟩
    have accountsListed : accounts.map Account.serialize ⊆ accountStrings prim accounts ++ accountStrings prim once :=
      List.Subset.trans (List.subset_append_left _ _) (List.subset_append_left _ _)
    have onceListed : once.map Account.serialize ⊆ accountStrings prim accounts ++ accountStrings prim once :=
      List.Subset.trans (List.subset_append_left _ _) (List.subset_append_right _ _)
    have distinctLeaves : (front ++ [repeated.hash prim]).Nodup := by
      rw [← split, (accountLeaves_perm prim once).nodup_iff]
      apply List.Nodup.map_on _ distinct
      intro account stored other listed equal
      exact eq_of_hash_eq free (onceListed (List.mem_map_of_mem stored)) (onceListed (List.mem_map_of_mem listed)) equal
    have longer : accountLeaves prim accounts ≠ [] := by
      intro empty
      have lengths := (accountLeaves_perm prim accounts).length_eq
      rw [empty, List.length_map] at lengths
      exact some (List.length_eq_zero_iff.mp lengths.symm)
    rw [split] at same
    have onceLeaves := exists_accountString prim onceListed
    rw [split] at onceLeaves
    have onceHashed : hashedFrom prim (front ++ [repeated.hash prim]).length (front ++ [repeated.hash prim]) ⊆
        accountStrings prim accounts ++ accountStrings prim once := by
      rw [← split]
      exact List.Subset.trans (List.subset_append_right _ _) (List.subset_append_right _ _)
    rcases (rootOf_eq_iff_copies free distinctLeaves longer (accountLeaves_grouped prim accounts) onceLeaves
      (exists_accountString prim accountsListed) onceHashed
      (List.Subset.trans (List.subset_append_right _ _) (List.subset_append_left _ _))).mp same with
      ⟨copies, leaves, unseen⟩
    refine ⟨repeated, copies, ?_, member, largest, length ▸ unseen⟩
    apply perm_of_perm_map (Account.hash prim)
    · intro account stored other listed equal
      apply eq_of_hash_eq free (accountsListed (List.mem_map_of_mem stored)) _ equal
      rcases List.mem_append.mp listed with first | copy
      · exact onceListed (List.mem_map_of_mem first)
      · rw [List.eq_of_mem_replicate copy]
        exact onceListed (List.mem_map_of_mem member)
    · rw [List.map_append, List.map_replicate]
      refine (accountLeaves_perm prim accounts).symm.trans ?_
      rw [leaves, List.replicate_succ, List.append_cons, ← split]
      exact List.Perm.append_right _ (accountLeaves_perm prim once)
  · rintro ⟨repeated, copies, copiesOf⟩
    exact copiesOf.rootOf_eq

end State
end Sarafu

import Sarafu.Crypto.MerkleTree
import Sarafu.Library.PairTree

namespace Sarafu
namespace Crypto
namespace MerkleTree

open Library.PairTree

/-!
# What a Merkle root binds

A pass over a level hashes the sixty-four bytes of each pair.  Neither leaves nor
nodes are tagged, and the last node of an odd level is paired with itself.  As long
as the strings that are hashed do not collide and the leaves are distinct, the level
below can be read back from the one above.  If the leaves are hashes of strings of
another length than a pair, the depth of the tree can be read back as well.
-/

/-- No two different strings of a list have the same hash. -/
def CollisionFree (prim : Primitives) (strings : List (List UInt8)) : Prop :=
  forall first, first ∈ strings -> forall second, second ∈ strings ->
    prim.blake3 first = prim.blake3 second -> first = second

theorem CollisionFree.mono {prim : Primitives} {strings fewer : List (List UInt8)} (free : CollisionFree prim strings)
    (subset : fewer ⊆ strings) : CollisionFree prim fewer := by
  intro first firstListed second secondListed same
  exact free first (subset firstListed) second (subset secondListed) same

/-- The string that is hashed for a pair of nodes. -/
def pairBytes (pair : Blake3Hash × Blake3Hash) : List UInt8 := pair.1.bytes ++ pair.2.bytes

theorem length_pairBytes (pair : Blake3Hash × Blake3Hash) : (pairBytes pair).length = 64 := by
  rw [pairBytes, List.length_append, FixedBytes.length_bytes, FixedBytes.length_bytes]

theorem pairBytes_inj {left right : Blake3Hash × Blake3Hash} (same : pairBytes left = pairBytes right) :
    left = right := by
  rcases List.append_inj same (left.1.length_bytes.trans right.1.length_bytes.symm) with ⟨firsts, seconds⟩
  exact Prod.ext (FixedBytes.ext_bytes firsts) (FixedBytes.ext_bytes seconds)

variable (prim : Primitives)

/-- `hash_pair` on a pair. -/
def combine (pair : Blake3Hash × Blake3Hash) : Blake3Hash := hashPair prim pair.1 pair.2

/-- The strings that are hashed while the levels above a level are built. -/
def hashedFrom : Nat -> List Blake3Hash -> List (List UInt8)
  | 0, _ => []
  | fuel + 1, currentLevel =>
      if 1 < currentLevel.length then
        (pairs currentLevel).map pairBytes ++ hashedFrom fuel (nextLevel prim currentLevel)
      else []

theorem nextLevel_eq_rise (level : List Blake3Hash) : nextLevel prim level = rise (combine prim) level := by
  induction level using nextLevel.induct with
  | case1 => rfl
  | case2 last => rfl
  | case3 left right rest inductionHypothesis =>
      rw [nextLevel, inductionHypothesis]
      rfl

/-- The only node of the last level. -/
def top (fuel : Nat) (level : List Blake3Hash) : Blake3Hash :=
  (((levelsFrom prim fuel level).getLast?.getD []).head?).getD Blake3Hash.zero

theorem top_singleton (fuel : Nat) (node : Blake3Hash) : top prim fuel [node] = node := by
  cases fuel with
  | zero => rfl
  | succ fuel => rfl

theorem levelsFrom_ne_nil (fuel : Nat) (level : List Blake3Hash) : levelsFrom prim fuel level ≠ [] := by
  cases fuel with
  | zero => exact List.cons_ne_nil _ _
  | succ fuel =>
      rw [levelsFrom]
      split
      · exact List.cons_ne_nil _ _
      · exact List.cons_ne_nil _ _

theorem top_succ (fuel : Nat) {level : List Blake3Hash} (several : 1 < level.length) :
    top prim (fuel + 1) level = top prim fuel (nextLevel prim level) := by
  unfold top
  rw [levelsFrom, if_pos several]
  cases higher : levelsFrom prim fuel (nextLevel prim level) with
  | nil => exact absurd higher (levelsFrom_ne_nil prim fuel _)
  | cons head tail => rw [List.getLast?_cons_cons]

theorem rootOf_eq_top {leaves : List Blake3Hash} (nonempty : leaves ≠ []) :
    rootOf prim leaves = top prim leaves.length leaves := by
  unfold rootOf buildTree getRoot
  split
  · exact absurd rfl nonempty
  · exact (top_singleton prim _ _).symm
  · rfl

/-- The loop rises until one node is left, and what it hashes are the pairs that
it meets. -/
theorem rise_iterate_clog (fuel : Nat) (level : List Blake3Hash) (nonempty : 0 < level.length)
    (enough : level.length ≤ fuel + 1) :
    (rise (combine prim))^[Nat.clog 2 level.length] level = [top prim fuel level] ∧
      (usedPairs (combine prim) (Nat.clog 2 level.length) level).map pairBytes = hashedFrom prim fuel level := by
  have single : forall (fuel : Nat) (node : Blake3Hash),
      (rise (combine prim))^[Nat.clog 2 [node].length] [node] = [top prim fuel [node]] ∧
        (usedPairs (combine prim) (Nat.clog 2 [node].length) [node]).map pairBytes = hashedFrom prim fuel [node] := by
    intro fuel node
    rw [List.length_singleton, Nat.clog_one_right]
    refine ⟨?_, ?_⟩
    · rw [top_singleton, Function.iterate_zero_apply]
    · cases fuel with
      | zero => rfl
      | succ fuel => rfl
  induction fuel generalizing level with
  | zero =>
      rcases List.length_eq_one_iff.mp (Nat.le_antisymm enough nonempty) with ⟨node, rfl⟩
      exact single 0 node
  | succ fuel inductionHypothesis =>
      by_cases several : 1 < level.length
      · have shorter := length_nextLevel prim level
        rcases inductionHypothesis (nextLevel prim level) (by omega) (by omega) with ⟨reached, hashed⟩
        have height : Nat.clog 2 level.length = Nat.clog 2 (nextLevel prim level).length + 1 := by
          rw [Nat.clog_of_two_le Nat.one_lt_two several, shorter]
          rfl
        rw [height]
        refine ⟨?_, ?_⟩
        · rw [Function.iterate_succ_apply, ← nextLevel_eq_rise, reached, top_succ prim fuel several]
        · rw [usedPairs, List.map_append, ← nextLevel_eq_rise, hashed, hashedFrom, if_pos several]
      · rcases List.length_eq_one_iff.mp (Nat.le_antisymm (Nat.not_lt.mp several) nonempty) with ⟨node, rfl⟩
        exact single (fuel + 1) node

variable {prim} {strings : List (List UInt8)} {left right leaves : List Blake3Hash}

theorem rise_clog (prim : Primitives) (nonempty : leaves ≠ []) :
    (rise (combine prim))^[Nat.clog 2 leaves.length] leaves = [rootOf prim leaves] := by
  rw [rootOf_eq_top prim nonempty]
  exact (rise_iterate_clog prim leaves.length leaves (List.length_pos_iff.mpr nonempty) (Nat.le_succ _)).1

theorem usedPairs_clog (prim : Primitives) (nonempty : leaves ≠ []) :
    (usedPairs (combine prim) (Nat.clog 2 leaves.length) leaves).map pairBytes =
      hashedFrom prim leaves.length leaves :=
  (rise_iterate_clog prim leaves.length leaves (List.length_pos_iff.mpr nonempty) (Nat.le_succ _)).2

theorem pairBytes_mem (nonempty : leaves ≠ []) (hashed : hashedFrom prim leaves.length leaves ⊆ strings)
    {pair : Blake3Hash × Blake3Hash} (used : pair ∈ usedPairs (combine prim) (Nat.clog 2 leaves.length) leaves) :
    pairBytes pair ∈ strings :=
  hashed (usedPairs_clog prim nonempty ▸ List.mem_map_of_mem used)

theorem CollisionFree.injectiveOn (free : CollisionFree prim strings)
    {used : List (Blake3Hash × Blake3Hash)} (hashed : forall pair, pair ∈ used -> pairBytes pair ∈ strings) :
    InjectiveOn (combine prim) used := by
  intro first firstUsed second secondUsed same
  exact pairBytes_inj (free _ (hashed first firstUsed) _ (hashed second secondUsed) same)

/-- The pairs of two trees are combined injectively. -/
theorem CollisionFree.injectiveOn_trees (free : CollisionFree prim strings) (leftNonempty : left ≠ [])
    (rightNonempty : right ≠ []) (leftHashed : hashedFrom prim left.length left ⊆ strings)
    (rightHashed : hashedFrom prim right.length right ⊆ strings) :
    InjectiveOn (combine prim) (usedPairs (combine prim) (Nat.clog 2 left.length) left ++
      usedPairs (combine prim) (Nat.clog 2 right.length) right) := by
  apply free.injectiveOn
  intro pair member
  rcases List.mem_append.mp member with inLeft | inRight
  · exact pairBytes_mem leftNonempty leftHashed inLeft
  · exact pairBytes_mem rightNonempty rightHashed inRight

/-- Trees of one height with the same root, seen from their leaves. -/
theorem rise_clog_eq (leftNonempty : left ≠ []) (rightNonempty : right ≠ [])
    (sameHeight : Nat.clog 2 right.length = Nat.clog 2 left.length) (same : rootOf prim left = rootOf prim right) :
    (rise (combine prim))^[Nat.clog 2 left.length] left = (rise (combine prim))^[Nat.clog 2 left.length] right := by
  have top := rise_clog prim rightNonempty
  rw [sameHeight] at top
  rw [rise_clog prim leftNonempty, top, same]

/-- The first leaf of a tree is not a node of a higher tree with the same root. -/
theorem clog_le_of_rootOf_eq (free : CollisionFree prim strings) (leftNonempty : left ≠ []) (rightNonempty : right ≠ [])
    (leaf : forall leaf, leaf ∈ left -> ∃ string, string ∈ strings ∧ string.length ≠ 64 ∧ prim.blake3 string = leaf)
    (leftHashed : hashedFrom prim left.length left ⊆ strings)
    (rightHashed : hashedFrom prim right.length right ⊆ strings) (same : rootOf prim left = rootOf prim right) :
    Nat.clog 2 right.length ≤ Nat.clog 2 left.length := by
  by_contra higher
  rcases Nat.exists_eq_add_of_lt (Nat.not_le.mp higher) with ⟨extra, height⟩
  have injective := free.injectiveOn_trees leftNonempty rightNonempty leftHashed rightHashed
  have tops : (rise (combine prim))^[Nat.clog 2 left.length] left =
      (rise (combine prim))^[Nat.clog 2 right.length] right := by
    rw [rise_clog prim leftNonempty, rise_clog prim rightNonempty, same]
  have split : Nat.clog 2 right.length = (extra + 1) + Nat.clog 2 left.length := by
    omega
  have listed : forall pair, pair ∈ usedPairs (combine prim) (extra + 1 + Nat.clog 2 left.length) right ->
      pairBytes pair ∈ strings := by
    intro pair used
    rw [← split] at used
    exact pairBytes_mem rightNonempty rightHashed used
  rw [split, usedPairs_add] at injective
  rw [split, Nat.add_comm, Function.iterate_add_apply] at tops
  have heads := head_eq_of_rise_iterate (Nat.clog 2 left.length)
    (injective.mono ((List.Sublist.refl _).append (List.sublist_append_right _ _)).subset) tops
  cases first : left.head? with
  | none => exact leftNonempty (List.head?_eq_none_iff.mp first)
  | some node =>
      rcases leaf node (List.mem_of_mem_head? first) with ⟨string, member, sized, hash⟩
      rw [first, Function.iterate_succ_apply', rise, List.head?_map] at heads
      rcases Option.map_eq_some_iff.mp heads.symm with ⟨pair, paired, combined⟩
      have used : pair ∈ usedPairs (combine prim) (extra + 1 + Nat.clog 2 left.length) right := by
        rw [Nat.add_assoc, Nat.add_comm 1, usedPairs_add]
        exact List.mem_append_right _ (List.mem_append_left _ (List.mem_of_mem_head? paired))
      have equal := free string member (pairBytes pair) (listed pair used) (hash.trans combined.symm)
      exact sized (equal ▸ length_pairBytes pair)

/-- Trees over hashes of strings that are no pairs have the same height if they have the
same root. -/
theorem clog_eq_of_rootOf_eq (free : CollisionFree prim strings) (leftNonempty : left ≠ []) (rightNonempty : right ≠ [])
    (leftLeaf : forall leaf, leaf ∈ left -> ∃ string, string ∈ strings ∧ string.length ≠ 64 ∧ prim.blake3 string = leaf)
    (rightLeaf : forall leaf, leaf ∈ right ->
      ∃ string, string ∈ strings ∧ string.length ≠ 64 ∧ prim.blake3 string = leaf)
    (leftHashed : hashedFrom prim left.length left ⊆ strings)
    (rightHashed : hashedFrom prim right.length right ⊆ strings) (same : rootOf prim left = rootOf prim right) :
    Nat.clog 2 right.length = Nat.clog 2 left.length :=
  Nat.le_antisymm (clog_le_of_rootOf_eq free leftNonempty rightNonempty leftLeaf leftHashed rightHashed same)
    (clog_le_of_rootOf_eq free rightNonempty leftNonempty rightLeaf rightHashed leftHashed same.symm)

/-- The leaves of a tree: distinct, and hashes of listed strings of another
length than a pair. -/
structure LeavesOf (prim : Primitives) (strings : List (List UInt8)) (leaves : List Blake3Hash) : Prop where
  nonempty : leaves ≠ []
  distinct : leaves.Nodup
  hashed : forall leaf, leaf ∈ leaves -> ∃ string, string ∈ strings ∧ string.length ≠ 64 ∧ prim.blake3 string = leaf

/-- Without collisions among the strings hashed, a root determines distinct leaves. -/
theorem leaves_eq_of_rootOf_eq (free : CollisionFree prim strings) (leftLeaves : LeavesOf prim strings left)
    (rightLeaves : LeavesOf prim strings right) (leftHashed : hashedFrom prim left.length left ⊆ strings)
    (rightHashed : hashedFrom prim right.length right ⊆ strings) (same : rootOf prim left = rootOf prim right) :
    left = right := by
  have heights :=
    clog_eq_of_rootOf_eq free leftLeaves.nonempty rightLeaves.nonempty leftLeaves.hashed rightLeaves.hashed
    leftHashed rightHashed same
  have injective := free.injectiveOn_trees leftLeaves.nonempty rightLeaves.nonempty leftHashed rightHashed
  rw [heights] at injective
  exact rise_iterate_inj _ leftLeaves.distinct rightLeaves.distinct injective
    (rise_clog_eq leftLeaves.nonempty rightLeaves.nonempty heights same)

/-- A root over hashes of listed strings is the hash of a listed string. -/
theorem exists_string_of_hashed (nonempty : leaves ≠ [])
    (ofStrings : forall leaf, leaf ∈ leaves -> ∃ string, string ∈ strings ∧ prim.blake3 string = leaf)
    (hashed : hashedFrom prim leaves.length leaves ⊆ strings) :
    ∃ string, string ∈ strings ∧ prim.blake3 string = rootOf prim leaves := by
  have member := List.mem_singleton_self (rootOf prim leaves)
  rw [← rise_clog prim nonempty] at member
  cases height : Nat.clog 2 leaves.length with
  | zero =>
      rw [height] at member
      exact ofStrings _ member
  | succ lower =>
      rw [height, Function.iterate_succ_apply'] at member
      rcases List.mem_map.mp member with ⟨pair, paired, node⟩
      have used : pair ∈ usedPairs (combine prim) (Nat.clog 2 leaves.length) leaves := by
        rw [height, usedPairs_add]
        exact List.mem_append_right _ (List.mem_append_left _ paired)
      exact ⟨pairBytes pair, pairBytes_mem nonempty hashed used, node⟩

/-- A root over leaves is the hash of a listed string. -/
theorem exists_string_of_rootOf
    (leavesOf : LeavesOf prim strings leaves) (hashed : hashedFrom prim leaves.length leaves ⊆ strings) :
    ∃ string, string ∈ strings ∧ prim.blake3 string = rootOf prim leaves := by
  refine exists_string_of_hashed leavesOf.nonempty ?_ hashed
  intro leaf member
  rcases leavesOf.hashed leaf member with ⟨string, listed, _, hash⟩
  exact ⟨string, listed, hash⟩

end MerkleTree
end Crypto
end Sarafu

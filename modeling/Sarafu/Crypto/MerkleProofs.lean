import Sarafu.Crypto.MerkleBinding
import Sarafu.Crypto.Transparent
import Sarafu.Library.Decoding
import Sarafu.Library.PairWalks

namespace Sarafu
namespace Crypto
namespace MerkleTree

open Library.Decoding Library.PairTree

/-!
# Membership proofs

`generate_proof` collects the siblings of a leaf and of the nodes above it, and
`verify_proof` climbs along them.  Each of the two finds its way with its own arithmetic of
the index.  Neither the index nor the number of siblings is checked when a proof is
verified, and an index or a node outside of a level has no result.
-/

/-- `level_nodes[index]`. -/
def nodeAt (levelNodes : List Blake3Hash) (index : Nat) : Outcome Empty Blake3Hash :=
  match levelNodes[index]? with
  | some node => .value node
  | none => .outside

/-- A node without a sibling is duplicated. -/
def getSibling (levelNodes : List Blake3Hash) (index : Nat) : Outcome Empty Blake3Hash :=
  let siblingIndex := if index % 2 = 0 then index + 1 else index - 1
  if siblingIndex < levelNodes.length then nodeAt levelNodes siblingIndex else nodeAt levelNodes index

/-- The loop over the levels below the root. -/
def siblingsAlong : List (List Blake3Hash) -> Nat -> Outcome Empty (List Blake3Hash)
  | [], _ => .value []
  | levelNodes :: higher, currentIndex => do
      let sibling <- getSibling levelNodes currentIndex
      let siblings <- siblingsAlong higher (currentIndex / 2)
      return sibling :: siblings

def generateProof (tree : MerkleTree) (leafIndex : Nat) : Outcome Empty (Option MerkleProof) :=
  if tree.leaves.length ≤ leafIndex then .value none
  else if tree.leaves.length = 1 then do
    let leafHash <- nodeAt tree.leaves 0
    return some ⟨leafIndex, leafHash, []⟩
  else do
    let leafHash <- nodeAt tree.leaves leafIndex
    let siblingHashes <- siblingsAlong tree.treeLevels.dropLast leafIndex
    return some ⟨leafIndex, leafHash, siblingHashes⟩

variable (prim : Primitives)

/-- The strings that are hashed while a proof is verified. -/
def hashedAlong : Blake3Hash × Nat -> List Blake3Hash -> List (List UInt8)
  | _, [] => []
  | current, sibling :: rest =>
      pairBytes (if current.2 % 2 = 0 then (current.1, sibling) else (sibling, current.1)) ::
        hashedAlong (climb prim current sibling) rest

/-! ## Verification as a walk -/

/-- The sides on which the nodes above an index stand, with the siblings. -/
def stepsFrom : Nat -> List Blake3Hash -> List (Bool × Blake3Hash)
  | _, [] => []
  | index, sibling :: rest => (index % 2 == 0, sibling) :: stepsFrom (index / 2) rest

theorem length_stepsFrom (index : Nat) (siblings : List Blake3Hash) :
    (stepsFrom index siblings).length = siblings.length := by
  induction siblings generalizing index with
  | nil => rfl
  | cons sibling rest inductionHypothesis => rw [stepsFrom, List.length_cons, inductionHypothesis, List.length_cons]

theorem beside_eq (node : Blake3Hash) (index : Nat) (sibling : Blake3Hash) :
    beside node (index % 2 == 0, sibling) = if index % 2 = 0 then (node, sibling) else (sibling, node) := by
  simp only [beside, beq_iff_eq]

theorem climb_eq (node : Blake3Hash) (index : Nat) (sibling : Blake3Hash) :
    climb prim (node, index) sibling = (combine prim (beside node (index % 2 == 0, sibling)), index / 2) := by
  rw [beside_eq]
  unfold climb combine
  split
  · rfl
  · rfl

theorem foldl_climb (node : Blake3Hash) (index : Nat) (siblings : List Blake3Hash) :
    (siblings.foldl (climb prim) (node, index)).1 = follow (combine prim) node (stepsFrom index siblings) := by
  induction siblings generalizing node index with
  | nil => rfl
  | cons sibling rest inductionHypothesis =>
      rw [List.foldl_cons, climb_eq, inductionHypothesis]
      rfl

theorem walked_stepsFrom (node : Blake3Hash) (index : Nat) (siblings : List Blake3Hash) :
    (walked (combine prim) node (stepsFrom index siblings)).map pairBytes =
      hashedAlong prim (node, index) siblings := by
  induction siblings generalizing node index with
  | nil => rfl
  | cons sibling rest inductionHypothesis =>
      rw [stepsFrom, walked, List.map_cons, inductionHypothesis, hashedAlong, climb_eq, ← beside_eq]

theorem pairBytes_mem_hashedAlong {node : Blake3Hash} {index : Nat} {siblings : List Blake3Hash}
    {pair : Blake3Hash × Blake3Hash} (met : pair ∈ walked (combine prim) node (stepsFrom index siblings)) :
    pairBytes pair ∈ hashedAlong prim (node, index) siblings := by
  rw [← walked_stepsFrom]
  exact List.mem_map_of_mem met

/-- A proof without siblings is no exception. -/
theorem verifyProof_iff (proof : MerkleProof) (root : Blake3Hash) : verifyProof prim proof root = true <->
    follow (combine prim) proof.leafHash (stepsFrom proof.leafIndex proof.siblingHashes) = root := by
  unfold verifyProof
  split
  · rename_i empty
    rw [decide_eq_true_iff, List.isEmpty_iff.mp empty]
    rfl
  · rw [decide_eq_true_iff, foldl_climb]

/-! ## Completeness -/

variable {prim} {level leaves : List Blake3Hash} {index : Nat} {node : Blake3Hash}

theorem nodeAt_eq (found : level[index]? = some node) : nodeAt level index = .value node := by
  unfold nodeAt
  rw [found]

theorem getSibling_eq (found : level[index]? = some node) :
    ∃ sibling, neighbour level index = some sibling ∧ getSibling level index = .value sibling := by
  unfold neighbour getSibling
  have inside := (List.getElem?_eq_some_iff.mp found).1
  split
  · change ∃ sibling, (level[index + 1]?).or level[index]? = some sibling ∧
      (if index + 1 < level.length then nodeAt level (index + 1) else nodeAt level index) = .value sibling
    cases next : level[index + 1]? with
    | none =>
        rw [if_neg (Nat.not_lt.mpr (List.getElem?_eq_none_iff.mp next))]
        exact ⟨node, found, nodeAt_eq found⟩
    | some right =>
        rw [if_pos (List.getElem?_eq_some_iff.mp next).1]
        exact ⟨right, rfl, nodeAt_eq next⟩
  · change ∃ sibling, level[index - 1]? = some sibling ∧
      (if index - 1 < level.length then nodeAt level (index - 1) else nodeAt level index) = .value sibling
    have before : index - 1 < level.length := by omega
    rw [if_pos before]
    have next := List.getElem?_eq_getElem before
    exact ⟨level[index - 1], next, nodeAt_eq next⟩

theorem eq_singleton (single : level.length ≤ 1) (found : level[index]? = some node) : level = [node] := by
  have inside := (List.getElem?_eq_some_iff.mp found).1
  rcases List.length_eq_one_iff.mp (Nat.le_antisymm single (Nat.zero_lt_of_lt inside)) with ⟨only, rfl⟩
  rw [List.mem_singleton.mp (List.mem_of_getElem? found)]

/-- From every node of a level the collected siblings lead to the top, one for each level
below it. -/
theorem siblingsAlong_levelsFrom (prim : Primitives) (fuel : Nat) (enough : level.length ≤ fuel + 1)
    (found : level[index]? = some node) :
    ∃ siblings, siblingsAlong (levelsFrom prim fuel level).dropLast index = .value siblings ∧
      siblings.length + 1 = (levelsFrom prim fuel level).length ∧
      follow (combine prim) node (stepsFrom index siblings) = top prim fuel level := by
  induction fuel generalizing level index node with
  | zero =>
      cases eq_singleton enough found
      exact ⟨[], rfl, rfl, (top_singleton prim 0 node).symm⟩
  | succ fuel inductionHypothesis =>
      by_cases several : 1 < level.length
      · have shorter := length_nextLevel prim level
        rcases getSibling_eq found with ⟨sibling, next, here⟩
        have above : (rise (combine prim) level)[index / 2]? =
            some (combine prim (beside node (index % 2 == 0, sibling))) := getElem?_rise found next
        rw [← nextLevel_eq_rise] at above
        rcases inductionHypothesis (by omega) above with ⟨siblings, collected, length, reached⟩
        refine ⟨sibling :: siblings, ?_, ?_, ?_⟩
        · rw [levelsFrom, if_pos several, List.dropLast_cons_of_ne_nil (levelsFrom_ne_nil prim fuel _), siblingsAlong,
            here, collected]
          rfl
        · rw [levelsFrom, if_pos several, List.length_cons, List.length_cons, length]
        · rw [top_succ prim fuel several, ← reached]
          rfl
      · cases eq_singleton (Nat.not_lt.mp several) found
        exact ⟨[], rfl, rfl, (top_singleton prim (fuel + 1) node).symm⟩

theorem leaves_buildTree (prim : Primitives) (leaves : List Blake3Hash) : (buildTree prim leaves).leaves = leaves := by
  unfold buildTree
  split
  · rfl
  · rfl
  · rfl

theorem treeLevels_buildTree (prim : Primitives) (nonempty : leaves ≠ []) :
    (buildTree prim leaves).treeLevels = levelsFrom prim leaves.length leaves := by
  unfold buildTree
  split
  · exact absurd rfl nonempty
  · rfl
  · rfl

/-- For every leaf a proof is generated that leads from the leaf to the root, with a sibling
for each level above the leaves.  Behind the last leaf there is none. -/
theorem generateProof_complete (prim : Primitives) (leaves : List Blake3Hash) :
    (forall index (inside : index < leaves.length), ∃ proof : MerkleProof,
      generateProof (buildTree prim leaves) index = .value (some proof) ∧ proof.leafHash = leaves[index] ∧
        verifyProof prim proof (buildTree prim leaves).getRoot = true ∧
        proof.siblingHashes.length + 1 = (buildTree prim leaves).treeLevels.length) ∧
    forall index, leaves.length ≤ index -> generateProof (buildTree prim leaves) index = .value none := by
  constructor
  · intro index inside
    have nonempty : leaves ≠ [] := List.ne_nil_of_length_pos (Nat.zero_lt_of_lt inside)
    have found := List.getElem?_eq_getElem inside
    rcases siblingsAlong_levelsFrom prim leaves.length (Nat.le_succ _) found with ⟨siblings, collected, length, reached⟩
    rw [← treeLevels_buildTree prim nonempty] at collected length
    refine ⟨⟨index, leaves[index], siblings⟩, ?_, rfl, ?_, length⟩
    · unfold generateProof
      rw [leaves_buildTree, if_neg (Nat.not_le.mpr inside)]
      split
      · rename_i single
        rcases List.length_eq_one_iff.mp single with ⟨leaf, rfl⟩
        rw [List.length_singleton, Nat.lt_one_iff] at inside
        cases inside
        cases collected
        rfl
      · rw [nodeAt_eq found, collected]
        rfl
    · rw [verifyProof_iff]
      exact reached.trans (rootOf_eq_top prim nonempty).symm
  · intro index outside
    unfold generateProof
    rw [leaves_buildTree, if_pos outside]

/-! ## Soundness -/

/-- A proof that is accepted for the hash of a string that is no pair, against the root over
such hashes, is one for a leaf, and it has a sibling for each level above the leaves. -/
theorem leafHash_mem_of_verifyProof (prim : Primitives) (leafStrings : List (List UInt8)) (leafString : List UInt8)
    (proof : MerkleProof) (nonempty : leafStrings ≠ [])
    (leafSizes : forall string, string ∈ leafStrings -> string.length ≠ 64) (size : leafString.length ≠ 64)
    (leafHash : proof.leafHash = prim.blake3 leafString)
    (free : CollisionFree prim (leafString :: leafStrings ++
      hashedFrom prim (leafStrings.map prim.blake3).length (leafStrings.map prim.blake3) ++
      hashedAlong prim (proof.leafHash, proof.leafIndex) proof.siblingHashes))
    (accepted : verifyProof prim proof (buildTree prim (leafStrings.map prim.blake3)).getRoot = true) :
    proof.leafHash ∈ leafStrings.map prim.blake3 ∧ proof.siblingHashes.length = Nat.clog 2 leafStrings.length := by
  have some : leafStrings.map prim.blake3 ≠ [] := fun empty => nonempty (List.map_eq_nil_iff.mp empty)
  rw [verifyProof_iff] at accepted
  -- what is combined in the tree is hashed as sixty-four bytes, as it is along the proof
  have inTree : forall pair, pair ∈ usedPairs (combine prim) (Nat.clog 2 (leafStrings.map prim.blake3).length)
      (leafStrings.map prim.blake3) -> pairBytes pair ∈
        hashedFrom prim (leafStrings.map prim.blake3).length (leafStrings.map prim.blake3) := fun pair used =>
    pairBytes_mem some (List.Subset.refl _) used
  have injective : InjectiveOn (combine prim)
      (walked (combine prim) proof.leafHash (stepsFrom proof.leafIndex proof.siblingHashes) ++
        usedPairs (combine prim) (Nat.clog 2 (leafStrings.map prim.blake3).length) (leafStrings.map prim.blake3)) := by
    apply free.injectiveOn
    intro pair member
    rcases List.mem_append.mp member with met | used
    · exact List.mem_append_right _ (pairBytes_mem_hashedAlong prim met)
    · exact List.mem_append_left _ (List.mem_append_right _ (inTree pair used))
  rw [← length_stepsFrom proof.leafIndex, ← @List.length_map _ _ leafStrings prim.blake3]
  refine mem_of_follow injective ?_ ?_ ?_
  · intro pair used same
    have equal := free (pairBytes pair) (List.mem_append_left _ (List.mem_append_right _ (inTree pair used))) leafString
      List.mem_cons_self (same.trans leafHash)
    exact size (equal ▸ length_pairBytes pair)
  · intro pair met member
    rcases List.mem_map.mp member with ⟨string, listed, same⟩
    have equal := free string (List.mem_append_left _ (List.mem_append_left _ (List.mem_cons_of_mem _ listed)))
      (pairBytes pair) (List.mem_append_right _ (pairBytes_mem_hashedAlong prim met)) same
    exact leafSizes string listed (equal ▸ length_pairBytes pair)
  · rw [rise_clog prim some, List.mem_singleton]
    exact accepted

/-- The proof for the last of three leaves, which is its own sibling. -/
def lastOfThree : MerkleProof :=
  let leaf := Transparent.primitives.blake3
  ⟨2, leaf [3], [leaf [3], hashPair Transparent.primitives (leaf [1]) (leaf [2])]⟩

theorem leafHash_mem_of_verifyProof_lastOfThree :
    lastOfThree.leafHash ∈ [[1], [2], [3]].map Transparent.primitives.blake3 ∧
      lastOfThree.siblingHashes.length = Nat.clog 2 3 := by
  refine leafHash_mem_of_verifyProof Transparent.primitives [[1], [2], [3]] [3] lastOfThree (by decide) (by decide)
    (by decide) rfl ?_ (by decide +kernel)
  unfold CollisionFree
  decide +kernel

end MerkleTree
end Crypto
end Sarafu

import Sarafu.Crypto.Primitives

namespace Sarafu
namespace Crypto

/-!
# Merkle trees

`build_internal_tree` pairs neighbours level by level and duplicates the last
node of an odd level.  The number of levels is bounded by the number of leaves,
which is the fuel of the structural recursion below.
-/

structure MerkleTree where
  leaves : List Blake3Hash
  treeLevels : List (List Blake3Hash)
  root : Blake3Hash

namespace MerkleTree

variable (prim : Primitives)

def hashPair (left right : Blake3Hash) : Blake3Hash :=
  prim.blake3 (left.bytes ++ right.bytes)

/-- One pass over a level. -/
def nextLevel : List Blake3Hash -> List Blake3Hash
  | [] => []
  | [last] => [hashPair prim last last]
  | left :: right :: rest => hashPair prim left right :: nextLevel rest

/-- The levels from `currentLevel` up to the root. -/
def levelsFrom : Nat -> List Blake3Hash -> List (List Blake3Hash)
  | 0, currentLevel => [currentLevel]
  | fuel + 1, currentLevel =>
      if 1 < currentLevel.length then currentLevel :: levelsFrom fuel (nextLevel prim currentLevel)
      else [currentLevel]

def buildTree (leafHashes : List Blake3Hash) : MerkleTree :=
  match leafHashes with
  | [] => ⟨[], [], Blake3Hash.zero⟩
  | [leaf] => ⟨[leaf], [[leaf]], leaf⟩
  | _ =>
      let levels := levelsFrom prim leafHashes.length leafHashes
      ⟨leafHashes, levels, ((levels.getLast?.getD []).head?).getD Blake3Hash.zero⟩

def getRoot (tree : MerkleTree) : Blake3Hash := tree.root

/-- `MerkleTree tree; tree.build_tree(leaves); tree.get_root()`. -/
def rootOf (leafHashes : List Blake3Hash) : Blake3Hash := (buildTree prim leafHashes).getRoot

structure MerkleProof where
  leafIndex : Nat
  leafHash : Blake3Hash
  siblingHashes : List Blake3Hash

/-- One step towards the root; the parity of the index says on which side the current
node stands. -/
def climb (current : Blake3Hash × Nat) (sibling : Blake3Hash) : Blake3Hash × Nat :=
  (if current.2 % 2 = 0 then hashPair prim current.1 sibling else hashPair prim sibling current.1, current.2 / 2)

def verifyProof (proof : MerkleProof) (root : Blake3Hash) : Bool :=
  if proof.siblingHashes.isEmpty then decide (proof.leafHash = root)
  else decide ((proof.siblingHashes.foldl (climb prim) (proof.leafHash, proof.leafIndex)).1 = root)

theorem length_nextLevel (level : List Blake3Hash) :
    (nextLevel prim level).length = (level.length + 1) / 2 := by
  induction level using nextLevel.induct with
  | case1 => rfl
  | case2 last => simp only [nextLevel, List.length_singleton]
  | case3 left right rest inductionHypothesis =>
      simp only [nextLevel, List.length_cons, inductionHypothesis]
      omega

end MerkleTree
end Crypto
end Sarafu

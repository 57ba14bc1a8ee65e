import Sarafu.Consensus.BlockValidator
import Sarafu.Crypto.MerkleLengths
import Sarafu.Crypto.Transparent

namespace Sarafu
namespace Consensus

open Crypto State Library.PairTree

/-!
# What the transactions root commits to

The root in the header is built over the hashes of the transactions, and signatures are
not hashed.  Two blocks with one header that both pass the check have the same
transactions if they have the same number of them.  The number itself is not committed
to: the last transactions of a block can be repeated under the same header, except when
their number is a power of two.
-/

/-- The signed parts of the transactions. -/
def Block.signedParts (block : Block) : List (List UInt8) := block.transactions.map Transaction.serializeForSigning

/-- The strings that `verify_transactions_root` hashes. -/
def Block.hashedStrings (prim : Primitives) (block : Block) : List (List UInt8) :=
  block.signedParts ++ MerkleTree.hashedFrom prim (block.transactionHashes prim).length (block.transactionHashes prim)

/-- No two strings hashed for two blocks collide, and none hashes to zero. -/
structure HashesApart (prim : Primitives) (first second : Block) : Prop where
  free : MerkleTree.CollisionFree prim (first.hashedStrings prim ++ second.hashedStrings prim)
  nonzero : forall string, string ∈ first.hashedStrings prim ++ second.hashedStrings prim ->
    prim.blake3 string ≠ Blake3Hash.zero

/-- Equal up to signatures. -/
def SameTransactions (first second : Block) : Prop := first.signedParts = second.signedParts

/-- A block that passes the check under a header. -/
structure PassesUnder (prim : Primitives) (header : BlockHeader) (block : Block) : Prop where
  header : block.header = header
  passes : BlockValidator.verifyTransactionsRoot prim block = ""

variable {prim : Primitives} {header : BlockHeader} {first second block : Block}

theorem PassesUnder.rootOf (passing : PassesUnder prim header block) :
    header.transactionsRoot = MerkleTree.rootOf prim (block.transactionHashes prim) := by
  rw [← passing.header]
  exact BlockValidator.verifyTransactionsRoot_eq_empty_iff.mp passing.passes

theorem Block.transactionHashes_eq (prim : Primitives) (block : Block) :
    block.transactionHashes prim = block.signedParts.map prim.blake3 :=
  List.map_map.symm

theorem Block.length_signedParts (block : Block) : block.signedParts.length = block.transactions.length :=
  List.length_map _

theorem Block.length_transactionHashes (prim : Primitives) (block : Block) :
    (block.transactionHashes prim).length = block.transactions.length :=
  List.length_map _

/-- The leaves are hashes of strings of another length than a pair of nodes. -/
theorem Block.exists_signedPart {strings : List (List UInt8)} (listed : block.hashedStrings prim ⊆ strings)
    (leaf : Blake3Hash) (member : leaf ∈ block.transactionHashes prim) :
    ∃ string, string ∈ strings ∧ string.length ≠ 64 ∧ prim.blake3 string = leaf := by
  rcases List.mem_map.mp member with ⟨tx, included, hash⟩
  refine ⟨tx.serializeForSigning, listed (List.mem_append_left _ (List.mem_map_of_mem included)), ?_, hash⟩
  rw [tx.length_serializeForSigning]
  decide

/-- The hashes of the transactions determine their signed parts. -/
theorem HashesApart.sameTransactions (apart : HashesApart prim first second)
    (same : first.transactionHashes prim = second.transactionHashes prim) : SameTransactions first second := by
  rw [Block.transactionHashes_eq, Block.transactionHashes_eq] at same
  refine map_inj_on ?_ same
  intro part member other listed equal
  exact apart.free part (List.mem_append_left _ (List.mem_append_left _ member)) other
    (List.mem_append_right _ (List.mem_append_left _ listed)) equal

theorem HashesApart.self (apart : HashesApart prim first second) : HashesApart prim first first where
  free := apart.free.mono (List.append_subset.mpr ⟨List.subset_append_left _ _, List.subset_append_left _ _⟩)
  nonzero := by
    intro string member
    rcases List.mem_append.mp member with before | after
    · exact apart.nonzero string (List.mem_append_left _ before)
    · exact apart.nonzero string (List.mem_append_left _ after)

/-- Blocks of the same length under one header have the same transactions. -/
theorem sameTransactions_of_length (firstPasses : PassesUnder prim header first)
    (secondPasses : PassesUnder prim header second) (apart : HashesApart prim first second)
    (sameLength : first.transactions.length = second.transactions.length) : SameTransactions first second := by
  apply apart.sameTransactions
  refine MerkleTree.leaves_eq_of_length apart.free ?_ ?_ ?_ (firstPasses.rootOf.symm.trans secondPasses.rootOf)
  · exact List.Subset.trans (List.subset_append_right _ _) (List.subset_append_left _ _)
  · exact List.Subset.trans (List.subset_append_right _ _) (List.subset_append_right _ _)
  · rw [Block.length_transactionHashes, Block.length_transactionHashes, sameLength]

/-- A block with transactions has a root that is not zero. -/
theorem PassesUnder.root_ne_zero (passing : PassesUnder prim header block)
    (nonzero : forall string, string ∈ block.hashedStrings prim -> prim.blake3 string ≠ Blake3Hash.zero)
    (some : block.transactions ≠ []) : header.transactionsRoot ≠ Blake3Hash.zero := by
  have leaves : block.transactionHashes prim ≠ [] := some ∘ List.map_eq_nil_iff.mp
  rcases MerkleTree.exists_string_of_hashed leaves (fun leaf member => by
    rcases Block.exists_signedPart (List.Subset.refl _) leaf member with ⟨string, listed, _, hash⟩
    exact ⟨string, listed, hash⟩) (List.subset_append_right _ _) with ⟨string, listed, hash⟩
  rw [passing.rootOf, ← hash]
  exact nonzero string listed

/-- Without transactions the root is zero. -/
theorem PassesUnder.root_eq_zero (passing : PassesUnder prim header block) (empty : block.transactions = []) :
    header.transactionsRoot = Blake3Hash.zero := by
  rw [passing.rootOf, Block.transactionHashes, empty]
  rfl

/-- The last transactions of a block once more. -/
def Block.repeatTransactions (count : Nat) (block : Block) : Block :=
  { block with transactions := repeatEnd count block.transactions }

/-- If the number of transactions is not a power of two, some of them can be repeated: the
header stays as it is, the check is passed, and no new string is hashed. -/
theorem PassesUnder.repeatTransactions (passing : PassesUnder prim header block) {height blocks : Nat}
    (odd : ¬2 ∣ blocks) (several : 1 < blocks) (length : block.transactions.length = 2 ^ height * blocks) :
    PassesUnder prim header (block.repeatTransactions (2 ^ height)) ∧
      (block.repeatTransactions (2 ^ height)).hashedStrings prim ⊆ block.hashedStrings prim := by
  have hashes : (block.repeatTransactions (2 ^ height)).transactionHashes prim =
      repeatEnd (2 ^ height) (block.transactionHashes prim) := map_repeatEnd _ _ _
  have parts : (block.repeatTransactions (2 ^ height)).signedParts = repeatEnd (2 ^ height) block.signedParts :=
    map_repeatEnd _ _ _
  rcases MerkleTree.rootOf_repeatEnd prim height odd several
    ((block.length_transactionHashes prim).trans length) with ⟨same, fewer⟩
  refine ⟨⟨passing.header, ?_⟩, ?_⟩
  · rw [BlockValidator.verifyTransactionsRoot_eq_empty_iff, hashes, same, ← passing.rootOf]
    exact congrArg BlockHeader.transactionsRoot passing.header
  · unfold Block.hashedStrings
    rw [hashes, parts]
    exact List.append_subset.mpr ⟨List.Subset.trans (repeatEnd_subset _ _) (List.subset_append_left _ _),
      List.Subset.trans fewer (List.subset_append_right _ _)⟩

theorem HashesApart.of_subset (apart : HashesApart prim first first)
    (fewer : second.hashedStrings prim ⊆ first.hashedStrings prim) : HashesApart prim first second where
  free := apart.free.mono (List.append_subset.mpr
    ⟨List.subset_append_left _ _, List.Subset.trans fewer (List.subset_append_left _ _)⟩)
  nonzero := by
    intro string member
    rcases List.mem_append.mp member with before | after
    · exact apart.nonzero string (List.mem_append_left _ before)
    · exact apart.nonzero string (List.mem_append_left _ (fewer after))

/-- No other block passes under the header of a block with distinct transactions whose
number is a power of two. -/
theorem sameTransactions_of_full (firstPasses : PassesUnder prim header first)
    (secondPasses : PassesUnder prim header second) (apart : HashesApart prim first second)
    (distinct : first.signedParts.Nodup) {height : Nat} (full : first.transactions.length = 2 ^ height) :
    SameTransactions first second := by
  have firstListed : first.hashedStrings prim ⊆ first.hashedStrings prim ++ second.hashedStrings prim :=
    List.subset_append_left _ _
  have secondListed : second.hashedStrings prim ⊆ first.hashedStrings prim ++ second.hashedStrings prim :=
    List.subset_append_right _ _
  have some : first.transactions ≠ [] := by
    rw [← List.length_pos_iff, full]
    exact Nat.two_pow_pos height
  have root := firstPasses.root_ne_zero (fun string member => apart.nonzero string (firstListed member)) some
  apply apart.sameTransactions
  refine MerkleTree.leaves_eq_of_full apart.free ((first.length_transactionHashes prim).trans full) ?_ ?_
    (Block.exists_signedPart firstListed) (Block.exists_signedPart secondListed) ?_ ?_
    (firstPasses.rootOf.symm.trans secondPasses.rootOf)
  · rw [Block.transactionHashes_eq]
    apply List.Nodup.map_on _ distinct
    intro part member other listed equal
    exact apart.free part (firstListed (List.mem_append_left _ member)) other
      (firstListed (List.mem_append_left _ listed)) equal
  · intro empty
    exact root (secondPasses.root_eq_zero (List.map_eq_nil_iff.mp empty))
  · exact List.Subset.trans (List.subset_append_right _ _) firstListed
  · exact List.Subset.trans (List.subset_append_right _ _) secondListed

/-- Two blocks with one header have the same transactions exactly if they have the same
number of them.  Among the blocks with distinct transactions, the header of a block
determines its transactions exactly if their number is zero or a power of two. -/
theorem sameTransactions_iff (firstPasses : PassesUnder prim header first)
    (secondPasses : PassesUnder prim header second) (apart : HashesApart prim first second) :
    (SameTransactions first second <-> first.transactions.length = second.transactions.length) ∧
    (first.signedParts.Nodup ->
      ((forall other, PassesUnder prim header other -> HashesApart prim first other -> SameTransactions first other) <->
        first.transactions.length = 0 ∨ ∃ height, first.transactions.length = 2 ^ height)) := by
  refine ⟨⟨?_, sameTransactions_of_length firstPasses secondPasses apart⟩, ?_⟩
  · intro same
    rw [← Block.length_signedParts, ← Block.length_signedParts, same]
  · intro distinct
    constructor
    · intro determined
      by_contra irregular
      rw [not_or, not_exists] at irregular
      rcases Nat.exists_eq_two_pow_mul_odd irregular.1 with ⟨height, blocks, odd, length⟩
      have several : 1 < blocks := by
        rcases odd with ⟨half, rfl⟩
        by_contra single
        have zero : half = 0 := by omega
        rw [zero, Nat.mul_zero, Nat.zero_add, Nat.mul_one] at length
        exact irregular.2 height length
      rcases firstPasses.repeatTransactions odd.not_two_dvd_nat several length with ⟨passes, fewer⟩
      have same := determined _ passes (apart.self.of_subset fewer)
      have lengths := congrArg List.length same
      have enough : 2 ^ height ≤ first.transactions.length := by
        rw [length]
        exact Nat.le_mul_of_pos_right _ (Nat.lt_of_succ_lt several)
      rw [Block.length_signedParts, Block.length_signedParts, Block.repeatTransactions,
        length_repeatEnd enough] at lengths
      have block := Nat.two_pow_pos height
      omega
    · rintro (none | ⟨height, full⟩) other passes otherApart
      · have root := firstPasses.root_eq_zero (List.length_eq_zero_iff.mp none)
        have empty : other.transactions = [] := by
          by_contra some
          exact passes.root_ne_zero (fun string member => otherApart.nonzero string (List.mem_append_right _ member))
            some root
        exact sameTransactions_of_length firstPasses passes otherApart (by rw [none, empty]; rfl)
      · exact sameTransactions_of_full firstPasses passes otherApart distinct full

/-- A block of transfers under the root that a proposer would give it. -/
def transferBlock (prim : Primitives) (amounts : List UInt64) (signature : Ed25519Signature) : Block :=
  let transactions := amounts.map fun amount =>
    (⟨FixedBytes.ofNat 32 1, FixedBytes.ofNat 32 2, amount, 0, 1, 1, 1, signature⟩ : Transaction)
  ⟨⟨1, 0, Blake3Hash.zero, Blake3Hash.zero, MerkleTree.rootOf prim (transactions.map (Transaction.hash prim)),
    Blake3Hash.zero, FixedBytes.zero 32, 0⟩, transactions, QuorumCertificate.empty⟩

/-- Two transfers with two signatures each. -/
theorem sameTransactions_iff_resigned :
    let first := transferBlock Transparent.primitives [5, 6] (FixedBytes.zero 64)
    let second := transferBlock Transparent.primitives [5, 6] (FixedBytes.ofNat 64 1)
    (SameTransactions first second <-> first.transactions.length = second.transactions.length) ∧
    (first.signedParts.Nodup ->
      ((forall other, PassesUnder Transparent.primitives first.header other ->
          HashesApart Transparent.primitives first other -> SameTransactions first other) <->
        first.transactions.length = 0 ∨ ∃ height, first.transactions.length = 2 ^ height)) := by
  intro first second
  have free : MerkleTree.CollisionFree Transparent.primitives
      (first.hashedStrings Transparent.primitives ++ second.hashedStrings Transparent.primitives) := by
    unfold MerkleTree.CollisionFree
    decide +kernel
  exact sameTransactions_iff ⟨rfl, by decide +kernel⟩ ⟨by decide +kernel, by decide +kernel⟩ ⟨free, by decide +kernel⟩

/-- Three transfers, and the same three with the last one repeated. -/
theorem repeated_transfer_passes :
    let first := transferBlock Transparent.primitives [1, 2, 3] (FixedBytes.zero 64)
    let second := transferBlock Transparent.primitives [1, 2, 3, 3] (FixedBytes.zero 64)
    first.header = second.header ∧
      BlockValidator.verifyTransactionsRoot Transparent.primitives first = "" ∧
      BlockValidator.verifyTransactionsRoot Transparent.primitives second = "" ∧
      HashesApart Transparent.primitives first second ∧ ¬SameTransactions first second := by
  intro first second
  have free : MerkleTree.CollisionFree Transparent.primitives
      (first.hashedStrings Transparent.primitives ++ second.hashedStrings Transparent.primitives) := by
    unfold MerkleTree.CollisionFree
    decide +kernel
  refine ⟨by decide +kernel, by decide +kernel, by decide +kernel, ⟨free, by decide +kernel⟩, ?_⟩
  unfold SameTransactions
  decide +kernel

end Consensus
end Sarafu

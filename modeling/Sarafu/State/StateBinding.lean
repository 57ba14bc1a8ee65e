import Sarafu.Crypto.MerkleBinding
import Sarafu.State.Conservation
import Sarafu.State.LedgerCodec

namespace Sarafu
namespace State

open Crypto Crypto.MerkleTree

/-!
# The state root binds the state

The root is built over the sorted hashes of the accounts, eighty bytes each.
Accounts are stored under their own addresses, so two of them differ in the bytes
that are hashed, and the leaves are distinct as long as no two hashed strings
collide.  The leaves then determine the accounts, and the root determines the
leaves.  A state without accounts has the zero root, which no string hashes to.
-/

namespace Account

theorem serialize_inj {left right : Account} (same : left.serialize = right.serialize) : left = right := by
  have sized : forall left right : UInt64, (littleEndian64 left).length = (littleEndian64 right).length :=
    fun left right => (length_littleEndian64 left).trans (length_littleEndian64 right).symm
  rcases List.append_inj' same (left.codeHash.length_bytes.trans right.codeHash.length_bytes.symm) with ⟨rest, codes⟩
  rcases List.append_inj' rest (sized _ _) with ⟨start, nonces⟩
  rcases List.append_inj' start (sized _ _) with ⟨addresses, balances⟩
  cases left
  cases right
  cases FixedBytes.ext_bytes addresses
  cases littleEndian64_inj balances
  cases littleEndian64_inj nonces
  cases FixedBytes.ext_bytes codes
  rfl

end Account

namespace AccountManager

variable (manager : AccountManager)

theorem mem_getAllAccounts_iff (account : Account) :
    account ∈ manager.getAllAccounts <-> manager.accounts[account.address]? = some account := by
  unfold getAllAccounts
  constructor
  · intro member
    rcases List.mem_map.mp member with ⟨⟨address, stored⟩, listed, rfl⟩
    have found := Std.ExtTreeMap.mem_toList_iff_getElem?_eq_some.mp listed
    rw [manager.keyed address stored found]
    exact found
  · intro found
    exact List.mem_map.mpr ⟨_, Std.ExtTreeMap.mem_toList_iff_getElem?_eq_some.mpr found, rfl⟩

/-- The listed accounts determine the map. -/
theorem accounts_eq_of_mem_iff {first second : AccountManager}
    (same : forall account, account ∈ first.getAllAccounts <-> account ∈ second.getAllAccounts) :
    first.accounts = second.accounts := by
  apply Std.ExtTreeMap.ext_getElem?
  intro address
  apply Option.ext
  intro account
  constructor
  · intro found
    have own := first.keyed address account found
    have listed := (first.mem_getAllAccounts_iff account).mpr (own.symm ▸ found)
    exact own ▸ (second.mem_getAllAccounts_iff account).mp ((same account).mp listed)
  · intro found
    have own := second.keyed address account found
    have listed := (second.mem_getAllAccounts_iff account).mpr (own.symm ▸ found)
    exact own ▸ (first.mem_getAllAccounts_iff account).mp ((same account).mpr listed)

/-- Accounts are stored under their own addresses, so none is listed twice. -/
theorem nodup_getAllAccounts : manager.getAllAccounts.Nodup := by
  apply List.Nodup.map_on
  · rintro ⟨leftKey, left⟩ leftListed ⟨rightKey, right⟩ rightListed same
    change left = right at same
    have leftOwn := manager.keyed leftKey left (Std.ExtTreeMap.mem_toList_iff_getElem?_eq_some.mp leftListed)
    have rightOwn := manager.keyed rightKey right (Std.ExtTreeMap.mem_toList_iff_getElem?_eq_some.mp rightListed)
    rw [← leftOwn, ← rightOwn, same]
  · exact Library.KeyedMaps.nodup_toList manager.accounts

end AccountManager

namespace StateMachine

variable (prim : Primitives)

/-- The leaves that `compute_state_root` sorts. -/
def leaves (machine : StateMachine) : List Blake3Hash :=
  (machine.accountManager.getAllAccounts.map (Account.hash prim)).insertionSort fun left right => hashLe left right

/-- The strings that `compute_state_root` hashes: every account, and every pair of
nodes of the tree. -/
def hashedStrings (machine : StateMachine) : List (List UInt8) :=
  machine.accountManager.getAllAccounts.map Account.serialize ++
    hashedFrom prim (machine.leaves prim).length (machine.leaves prim)

theorem computeStateRoot_eq (machine : StateMachine) :
    machine.computeStateRoot prim =
      if machine.accountManager.getAllAccounts.isEmpty then Blake3Hash.zero
      else rootOf prim (machine.leaves prim) := rfl

theorem mem_leaves_iff (machine : StateMachine) (leaf : Blake3Hash) :
    leaf ∈ machine.leaves prim <->
      ∃ account, account ∈ machine.accountManager.getAllAccounts ∧ account.hash prim = leaf := by
  unfold leaves
  rw [(List.perm_insertionSort _ _).mem_iff, List.mem_map]

variable {prim}

/-- The leaves of a state with accounts, under collision freedom. -/
theorem leavesOf {machine : StateMachine} {strings : List (List UInt8)} (free : CollisionFree prim strings)
    (listed : machine.hashedStrings prim ⊆ strings) (inhabited : machine.accountManager.getAllAccounts ≠ []) :
    LeavesOf prim strings (machine.leaves prim) where
  nonempty := by
    rcases List.exists_mem_of_ne_nil _ inhabited with ⟨account, member⟩
    exact List.ne_nil_of_mem ((machine.mem_leaves_iff prim _).mpr ⟨account, member, rfl⟩)
  distinct := by
    unfold leaves
    rw [(List.perm_insertionSort _ _).nodup_iff]
    apply List.Nodup.map_on
    · intro left leftListed right rightListed same
      refine Account.serialize_inj (free _ (listed ?_) _ (listed ?_) same)
      · exact List.mem_append_left _ (List.mem_map_of_mem leftListed)
      · exact List.mem_append_left _ (List.mem_map_of_mem rightListed)
    · exact machine.accountManager.nodup_getAllAccounts
  hashed := by
    intro leaf member
    rcases (machine.mem_leaves_iff prim leaf).mp member with ⟨account, stored, hash⟩
    refine ⟨account.serialize, listed (List.mem_append_left _ (List.mem_map_of_mem stored)), ?_, hash⟩
    rw [account.length_serialize]
    decide

/-- States with the same leaves have the same accounts. -/
theorem mem_getAllAccounts_of_leaves_eq {first second : StateMachine} {strings : List (List UInt8)}
    (free : CollisionFree prim strings) (firstListed : first.hashedStrings prim ⊆ strings)
    (secondListed : second.hashedStrings prim ⊆ strings) (same : first.leaves prim = second.leaves prim)
    {account : Account} (stored : account ∈ first.accountManager.getAllAccounts) :
    account ∈ second.accountManager.getAllAccounts := by
  have member := (first.mem_leaves_iff prim _).mpr ⟨account, stored, rfl⟩
  rw [same] at member
  rcases (second.mem_leaves_iff prim _).mp member with ⟨other, otherStored, hash⟩
  have equal : other = account := by
    refine Account.serialize_inj (free _ (secondListed ?_) _ (firstListed ?_) hash)
    · exact List.mem_append_left _ (List.mem_map_of_mem otherStored)
    · exact List.mem_append_left _ (List.mem_map_of_mem stored)
  exact equal ▸ otherStored

theorem root_ne_zero {machine : StateMachine} (free : CollisionFree prim (machine.hashedStrings prim))
    (nonzero : forall string, string ∈ machine.hashedStrings prim -> prim.blake3 string ≠ Blake3Hash.zero)
    (inhabited : machine.accountManager.getAllAccounts ≠ []) :
    rootOf prim (machine.leaves prim) ≠ Blake3Hash.zero := by
  rcases exists_string_of_rootOf (leavesOf free (List.Subset.refl _) inhabited) (List.subset_append_right _ _) with
    ⟨string, listed, hash⟩
  rw [← hash]
  exact nonzero string listed

/-- The state root binds the state: two states with the same root have the same
accounts, unless two of the strings hashed for the two roots collide or one of
them hashes to zero. -/
theorem computeStateRoot_binds (prim : Primitives) (first second : StateMachine)
    (free : CollisionFree prim (first.hashedStrings prim ++ second.hashedStrings prim))
    (nonzero : forall string, string ∈ first.hashedStrings prim ++ second.hashedStrings prim ->
      prim.blake3 string ≠ Blake3Hash.zero)
    (same : first.computeStateRoot prim = second.computeStateRoot prim) :
    first.accountManager.accounts = second.accountManager.accounts := by
  have firstListed : first.hashedStrings prim ⊆ first.hashedStrings prim ++ second.hashedStrings prim :=
    List.subset_append_left _ _
  have secondListed : second.hashedStrings prim ⊆ first.hashedStrings prim ++ second.hashedStrings prim :=
    List.subset_append_right _ _
  rw [computeStateRoot_eq, computeStateRoot_eq] at same
  apply AccountManager.accounts_eq_of_mem_iff
  by_cases firstEmpty : first.accountManager.getAllAccounts = []
  · by_cases secondEmpty : second.accountManager.getAllAccounts = []
    · rw [firstEmpty, secondEmpty]
      exact fun _ => Iff.rfl
    · rw [firstEmpty, List.isEmpty_nil, if_pos rfl, if_neg (mt List.isEmpty_iff.mp secondEmpty)] at same
      exact absurd same.symm (root_ne_zero (free.mono secondListed)
        (fun string listed => nonzero string (secondListed listed)) secondEmpty)
  · by_cases secondEmpty : second.accountManager.getAllAccounts = []
    · rw [secondEmpty, List.isEmpty_nil, if_pos rfl, if_neg (mt List.isEmpty_iff.mp firstEmpty)] at same
      exact absurd same (root_ne_zero (free.mono firstListed)
        (fun string listed => nonzero string (firstListed listed)) firstEmpty)
    · rw [if_neg (mt List.isEmpty_iff.mp firstEmpty), if_neg (mt List.isEmpty_iff.mp secondEmpty)] at same
      have equal : first.leaves prim = second.leaves prim :=
        leaves_eq_of_rootOf_eq free (leavesOf free firstListed firstEmpty) (leavesOf free secondListed secondEmpty)
          (List.Subset.trans (List.subset_append_right _ _) firstListed)
          (List.Subset.trans (List.subset_append_right _ _) secondListed) same
      intro account
      constructor
      · exact mem_getAllAccounts_of_leaves_eq free firstListed secondListed equal
      · exact mem_getAllAccounts_of_leaves_eq free secondListed firstListed equal.symm

/-- A machine with numbered accounts, created in the order of the list. -/
def withAccounts (numbers : List Nat) : StateMachine :=
  { create 1 with
    transactionExecutor := ⟨numbers.foldl (fun manager number =>
      manager.createAccount (FixedBytes.ofNat 32 number) 5) AccountManager.empty, 0, 0⟩ }

/-- Three accounts, created in two orders, the last node of the level paired with
itself. -/
theorem computeStateRoot_binds_orders :
    (withAccounts [1, 2, 3]).accountManager.accounts = (withAccounts [3, 1, 2]).accountManager.accounts := by
  apply computeStateRoot_binds Transparent.primitives (withAccounts [1, 2, 3]) (withAccounts [3, 1, 2])
  · unfold CollisionFree
    decide +kernel
  · decide +kernel
  · decide +kernel

end StateMachine
end State
end Sarafu

import Sarafu.Consensus.GenesisBuilder
import Sarafu.Crypto.Transparent
import Sarafu.State.AccountLeaves

namespace Sarafu
namespace Consensus

open Crypto State Library.Runs Library.KeyedMaps Crypto.MerkleTree

/-!
# The genesis block and the state machine that starts from it

The builder commits to a list of allocations, the state machine to a map of accounts in
which a later allocation to an address replaces an earlier one.  The two roots agree and
no balance is lost if no address is allocated twice and the amounts do not wrap.  The
only other case is hidden from both sides: copies of one allocation that the Merkle tree
does not show and that add up to a multiple of `2^64`.
-/

/-- The calls that fill a builder. -/
inductive BuilderCall
  | addAllocation (address : Address) (amount : UInt64) (category : List UInt8)
  | addVestingAllocation (address : Address) (amount : UInt64) (category : List UInt8)
      (vestingDurationSeconds : UInt64)
  | createGenesisValidatorSet (validators : List Validator)

namespace GenesisBuilder

variable (share : UInt64 -> Rat -> UInt64) (prim : Primitives)

/-- The builder after a call. -/
def call (builder : GenesisBuilder) : BuilderCall -> GenesisBuilder
  | .addAllocation address amount category => (builder.addAllocation share address amount category).2
  | .addVestingAllocation address amount category duration =>
      (builder.addVestingAllocation share address amount category duration).2
  | .createGenesisValidatorSet validators => (builder.createGenesisValidatorSet prim validators).2

/-- The sum of the amounts, as a natural number. -/
def sumOfAmounts (allocations : List GenesisAllocation) : Nat :=
  (allocations.map fun allocation => allocation.amount.toNat).sum

/-- The configuration stays, and the allocations are unchanged or one longer, its amount
added to the total. -/
structure Extends (before after : GenesisBuilder) : Prop where
  config : after.config = before.config
  grown : (after.allocations = before.allocations ∧ after.totalAllocated = before.totalAllocated) ∨
    ∃ allocation, after.allocations = before.allocations ++ [allocation] ∧
      after.totalAllocated = before.totalAllocated + allocation.amount

variable {share} {prim} {builder : GenesisBuilder}

theorem extends_addVestingAllocation (address : Address) (amount : UInt64) (category : List UInt8)
    (duration : UInt64) : Extends builder (builder.addVestingAllocation share address amount category duration).2 := by
  unfold addVestingAllocation
  split
  · exact ⟨rfl, Or.inl ⟨rfl, rfl⟩⟩
  · split
    · exact ⟨rfl, Or.inl ⟨rfl, rfl⟩⟩
    · exact ⟨rfl, Or.inr ⟨_, rfl, rfl⟩⟩

theorem extends_call (share : UInt64 -> Rat -> UInt64) (prim : Primitives) (builder : GenesisBuilder)
    (step : BuilderCall) : Extends builder (builder.call share prim step) := by
  cases step with
  | addAllocation address amount category =>
      simp only [call, addAllocation]
      split
      · exact ⟨rfl, Or.inl ⟨rfl, rfl⟩⟩
      · split
        · exact ⟨rfl, Or.inl ⟨rfl, rfl⟩⟩
        · split
          · exact extends_addVestingAllocation address amount category _
          · exact ⟨rfl, Or.inr ⟨_, rfl, rfl⟩⟩
  | addVestingAllocation address amount category duration =>
      exact extends_addVestingAllocation address amount category duration
  | createGenesisValidatorSet validators =>
      simp only [call, createGenesisValidatorSet]
      split
      · exact ⟨rfl, Or.inl ⟨rfl, rfl⟩⟩
      · split
        · exact ⟨rfl, Or.inl ⟨rfl, rfl⟩⟩
        · exact ⟨rfl, Or.inl ⟨rfl, rfl⟩⟩

/-- The allocated total is the sum of the amounts modulo `2^64`, under the given
configuration. -/
structure Accounted (config : GenesisConfig) (builder : GenesisBuilder) : Prop where
  config : builder.config = config
  total : builder.totalAllocated.toNat = sumOfAmounts builder.allocations % 2 ^ 64

theorem accounted_calls (config : GenesisConfig) (calls : List BuilderCall) :
    Accounted config (run (call share prim) (create config) calls) := by
  refine invariant_run (Accounted config) ?_ ⟨rfl, rfl⟩ (along_true _ _)
  intro before step accounted _
  rcases extends_call share prim before step with ⟨sameConfig, same | ⟨allocation, longer, total⟩⟩
  · refine ⟨sameConfig.trans accounted.config, ?_⟩
    rw [same.1, same.2]
    exact accounted.total
  · refine ⟨sameConfig.trans accounted.config, ?_⟩
    unfold sumOfAmounts
    rw [longer, total, UInt64.toNat_add, accounted.total, List.map_append, List.sum_append, List.map_singleton,
      List.sum_singleton, sumOfAmounts, Nat.mod_add_mod]

/-- What `build` returns. -/
theorem header_of_build {genesis : Block} (built : builder.build share prim = .ok genesis) :
    genesis.header.height = 0 ∧ genesis.header.epoch = builder.config.initialEpoch ∧
      genesis.header.stateRoot = builder.computeStateRoot prim := by
  unfold build at built
  split at built
  · cases built
  · split at built
    · cases built
    · cases built
      exact ⟨rfl, rfl, rfl⟩

/-- The accounts that the builder hashes. -/
def accountsOf (allocations : List GenesisAllocation) : List Account := allocations.map accountOf

theorem computeStateRoot_eq (prim : Primitives) (builder : GenesisBuilder) :
    builder.computeStateRoot prim =
      if (accountsOf builder.allocations).isEmpty then Blake3Hash.zero
      else rootOf prim (accountLeaves prim (accountsOf builder.allocations)) := by
  unfold computeStateRoot accountLeaves accountsOf
  rw [List.map_map]
  simp only [List.isEmpty_map]
  rfl

/-! ## The accounts of the state machine -/

/-- The accounts that the state machine creates. -/
def createdAccounts (machine : StateMachine) (allocations : List GenesisAllocation) : List Account :=
  (machine.clear.createAccounts allocations).accountManager.getAllAccounts

/-- The strings hashed by the builder and by the state machine for their roots. -/
def genesisStrings (prim : Primitives) (machine : StateMachine) (allocations : List GenesisAllocation) :
    List (List UInt8) :=
  accountStrings prim (accountsOf allocations) ++ accountStrings prim (createdAccounts machine allocations)

theorem accounts_foldl (allocations : List GenesisAllocation) (manager : AccountManager) :
    (allocations.foldl (fun manager allocation => manager.createAccount allocation.address allocation.amount)
      manager).accounts = storeAll Account.address (accountsOf allocations) manager.accounts := by
  induction allocations generalizing manager with
  | nil => rfl
  | cons allocation rest inductionHypothesis =>
      exact inductionHypothesis (manager.createAccount allocation.address allocation.amount)

theorem accounts_createAccounts (machine : StateMachine) (allocations : List GenesisAllocation) :
    (machine.clear.createAccounts allocations).accountManager.accounts =
      storeAll Account.address (accountsOf allocations) ∅ := accounts_foldl allocations AccountManager.empty

variable {machine : StateMachine} {allocations : List GenesisAllocation} {once : List Account} {repeated : Account}
  {copies : Nat}

theorem mem_accountsOf_of_created {account : Account} (created : account ∈ createdAccounts machine allocations) :
    account ∈ accountsOf allocations := by
  have found := (AccountManager.mem_getAllAccounts_iff _ account).mp created
  rw [accounts_createAccounts] at found
  rcases mem_of_getElem?_storeAll ∅ found with impossible | ⟨member, _⟩
  · rw [Std.ExtTreeMap.getElem?_empty] at impossible
    cases impossible
  · exact member

theorem exists_created (machine : StateMachine) {account : Account} (member : account ∈ accountsOf allocations) :
    ∃ created, created ∈ createdAccounts machine allocations ∧ created.address = account.address := by
  rcases exists_getElem?_storeAll Account.address (∅ : OrderedMap Address Account) member with ⟨created, found⟩
  rw [← accounts_createAccounts machine] at found
  have own := (machine.clear.createAccounts allocations).accountManager.keyed _ _ found
  exact ⟨created, (AccountManager.mem_getAllAccounts_iff _ created).mpr (own ▸ found), own⟩

theorem distinct_createdAccounts (machine : StateMachine) (allocations : List GenesisAllocation) :
    ((createdAccounts machine allocations).map Account.address).Nodup := by
  apply List.Nodup.map_on _ (AccountManager.nodup_getAllAccounts _)
  intro account stored other listed same
  have found := (AccountManager.mem_getAllAccounts_iff _ account).mp stored
  rw [same, (AccountManager.mem_getAllAccounts_iff _ other).mp listed] at found
  exact (Option.some.inj found).symm

/-- If the allocations are accounts of distinct addresses with copies of one of them, the
state machine creates these accounts. -/
theorem createdAccounts_perm (machine : StateMachine) (distinct : (once.map Account.address).Nodup)
    (copiesOf : CopiesOf prim once repeated copies (accountsOf allocations)) :
    (createdAccounts machine allocations).Perm once := by
  have within : forall account, account ∈ accountsOf allocations -> account ∈ once := by
    intro account member
    rcases List.mem_append.mp (copiesOf.listed.mem_iff.mp member) with first | copy
    · exact first
    · rw [List.eq_of_mem_replicate copy]
      exact copiesOf.member
  have covers : forall account, account ∈ once -> account ∈ accountsOf allocations := fun account member =>
    copiesOf.listed.mem_iff.mpr (List.mem_append_left _ member)
  apply (List.perm_ext_iff_of_nodup (AccountManager.nodup_getAllAccounts _) distinct.of_map).mpr
  intro account
  constructor
  · exact fun created => within account (mem_accountsOf_of_created created)
  · intro member
    rcases exists_created machine (covers account member) with ⟨created, stored, same⟩
    have equal : created = account :=
      List.inj_on_of_nodup_map distinct (within created (mem_accountsOf_of_created stored)) member same
    exact equal ▸ stored

/-- With allocations the roots agree exactly if the allocations are accounts of distinct
addresses with unseen copies of one of them. -/
theorem roots_eq_iff (nonempty : allocations ≠ [])
    (free : MerkleTree.CollisionFree prim (genesisStrings prim machine allocations)) :
    rootOf prim (accountLeaves prim (accountsOf allocations)) =
        rootOf prim (accountLeaves prim (createdAccounts machine allocations)) <->
      ∃ once repeated copies, (once.map Account.address).Nodup ∧
        CopiesOf prim once repeated copies (accountsOf allocations) := by
  have some : accountsOf allocations ≠ [] := fun empty => nonempty (List.map_eq_nil_iff.mp empty)
  have created : createdAccounts machine allocations ≠ [] := by
    rcases List.exists_mem_of_ne_nil _ some with ⟨account, member⟩
    rcases exists_created machine member with ⟨stored, listed, _⟩
    exact List.ne_nil_of_mem listed
  constructor
  · intro same
    rcases (rootOf_accountLeaves_eq_iff (AccountManager.nodup_getAllAccounts _) created some free).mp same with
      ⟨repeated, copies, copiesOf⟩
    exact ⟨_, repeated, copies, distinct_createdAccounts machine allocations, copiesOf⟩
  · rintro ⟨once, repeated, copies, distinct, copiesOf⟩
    have same := createdAccounts_perm machine distinct copiesOf
    have leaves : accountLeaves prim (createdAccounts machine allocations) = accountLeaves prim once :=
      eq_accountLeaves prim (accountLeaves_ordered prim _) ((accountLeaves_perm prim _).trans (same.map _))
    rw [leaves]
    exact copiesOf.rootOf_eq

/-- The balances of a list of accounts. -/
def sumOfBalances (accounts : List Account) : Nat := (accounts.map fun account => account.balance.toNat).sum

theorem sumOfBalances_created (machine : StateMachine) (allocations : List GenesisAllocation) :
    (machine.clear.createAccounts allocations).accountManager.sumOfBalances =
      sumOfBalances (createdAccounts machine allocations) := by
  unfold AccountManager.sumOfBalances sumOfBalances createdAccounts AccountManager.getAllAccounts total
  rw [List.map_map]
  rfl

theorem sumOfBalances_accountsOf (allocations : List GenesisAllocation) :
    sumOfBalances (accountsOf allocations) = sumOfAmounts allocations := by
  unfold sumOfBalances accountsOf sumOfAmounts
  rw [List.map_map]
  rfl

theorem sumOfBalances_copies (copiesOf : CopiesOf prim once repeated copies (accountsOf allocations)) :
    sumOfAmounts allocations = sumOfBalances once + copies * repeated.balance.toNat := by
  rw [← sumOfBalances_accountsOf]
  have sums := (copiesOf.listed.map fun account => account.balance.toNat).sum_eq
  rw [List.map_append, List.sum_append, List.map_replicate, List.sum_replicate_nat] at sums
  exact sums

/-- A sum is its first part modulo a number exactly if that part is small and the rest
vanishes. -/
theorem eq_add_mod_iff (part rest bound : Nat) (positive : 0 < bound) :
    part = (part + rest) % bound <-> part < bound ∧ bound ∣ rest := by
  constructor
  · intro same
    have small : part < bound := same ▸ Nat.mod_lt _ positive
    refine ⟨small, ?_⟩
    have congruent : part ≡ part + rest [MOD bound] := by
      unfold Nat.ModEq
      rw [← same, Nat.mod_eq_of_lt small]
    have difference := (Nat.modEq_iff_dvd' (Nat.le_add_right part rest)).mp congruent
    rw [Nat.add_sub_cancel_left] at difference
    exact difference
  · rintro ⟨small, count, rfl⟩
    rw [Nat.add_mul_mod_self_left, Nat.mod_eq_of_lt small]

/-! ## The agreement -/

/-- No address is allocated twice, and the amounts do not wrap. -/
def AllocatesOnce (allocations : List GenesisAllocation) : Prop :=
  (allocations.map GenesisAllocation.address).Nodup ∧ sumOfAmounts allocations < 2 ^ 64

/-- One allocation is made several times: it has the largest account hash, its copies are
fewer than a power of two that divides the number of the other allocations, and they add
up to a multiple of `2^64`. -/
def AllocatesUnseen (prim : Primitives) (allocations : List GenesisAllocation) : Prop :=
  ∃ once repeated copies, 0 < copies ∧ (once.map Account.address).Nodup ∧
    CopiesOf prim once repeated copies (accountsOf allocations) ∧ sumOfBalances once < 2 ^ 64 ∧
      2 ^ 64 ∣ copies * repeated.balance.toNat

/-- Without copies the allocations name every address once. -/
theorem allocatesOnce_iff (nonempty : allocations ≠ []) :
    AllocatesOnce allocations <-> ∃ once repeated, (once.map Account.address).Nodup ∧
      CopiesOf prim once repeated 0 (accountsOf allocations) ∧ sumOfBalances once < 2 ^ 64 := by
  have addresses : (accountsOf allocations).map Account.address = allocations.map GenesisAllocation.address :=
    List.map_map
  unfold AllocatesOnce
  constructor
  · rintro ⟨distinct, small⟩
    have some : accountsOf allocations ≠ [] := fun empty => nonempty (List.map_eq_nil_iff.mp empty)
    rcases exists_largest prim some with ⟨repeated, member, largest⟩
    refine ⟨accountsOf allocations, repeated, addresses ▸ distinct, ⟨?_, member, largest, Or.inl rfl⟩, ?_⟩
    · rw [List.replicate_zero, List.append_nil]
    · rw [sumOfBalances_accountsOf]
      exact small
  · rintro ⟨once, repeated, distinct, copiesOf, small⟩
    have listed := copiesOf.listed
    rw [List.replicate_zero, List.append_nil] at listed
    refine ⟨?_, ?_⟩
    · rw [← addresses]
      exact (listed.map Account.address).nodup_iff.mpr distinct
    · rw [sumOfBalances_copies copiesOf, Nat.zero_mul, Nat.add_zero]
      exact small

/-- The start from the allocations keeps its promise in the two cases. -/
theorem agrees_iff (nonempty : allocations ≠ [])
    (free : MerkleTree.CollisionFree prim (genesisStrings prim machine allocations)) :
    (rootOf prim (accountLeaves prim (accountsOf allocations)) =
        rootOf prim (accountLeaves prim (createdAccounts machine allocations)) ∧
      sumOfBalances (createdAccounts machine allocations) = sumOfAmounts allocations % 2 ^ 64) <->
      AllocatesOnce allocations ∨ AllocatesUnseen prim allocations := by
  have sums : forall {once : List Account} {repeated : Account} {copies : Nat}, (once.map Account.address).Nodup ->
      CopiesOf prim once repeated copies (accountsOf allocations) ->
      (sumOfBalances (createdAccounts machine allocations) = sumOfAmounts allocations % 2 ^ 64 <->
        sumOfBalances once < 2 ^ 64 ∧ 2 ^ 64 ∣ copies * repeated.balance.toNat) := by
    intro once repeated copies distinct copiesOf
    have same : sumOfBalances (createdAccounts machine allocations) = sumOfBalances once :=
      ((createdAccounts_perm machine distinct copiesOf).map fun account : Account => account.balance.toNat).sum_eq
    rw [same, sumOfBalances_copies copiesOf]
    exact eq_add_mod_iff _ _ _ (Nat.two_pow_pos 64)
  rw [roots_eq_iff nonempty free, allocatesOnce_iff nonempty]
  constructor
  · rintro ⟨⟨once, repeated, copies, distinct, copiesOf⟩, total⟩
    rcases (sums distinct copiesOf).mp total with ⟨small, wraps⟩
    cases copies with
    | zero => exact Or.inl ⟨once, repeated, distinct, copiesOf, small⟩
    | succ copies => exact Or.inr ⟨once, repeated, copies + 1, Nat.succ_pos _, distinct, copiesOf, small, wraps⟩
  · rintro (⟨once, repeated, distinct, copiesOf, small⟩ | ⟨once, repeated, copies, _, distinct, copiesOf, small, wraps⟩)
    · refine ⟨⟨once, repeated, 0, distinct, copiesOf⟩, (sums distinct copiesOf).mpr ⟨small, ?_⟩⟩
      rw [Nat.zero_mul]
      exact Nat.dvd_zero _
    · exact ⟨⟨once, repeated, copies, distinct, copiesOf⟩, (sums distinct copiesOf).mpr ⟨small, wraps⟩⟩

/-- When the state machine starts from allocations, and with which balances. -/
theorem roots_of_initialize (prim : Primitives) (machine : StateMachine) {genesis : Block}
    (height : genesis.header.height = 0) (epoch : genesis.header.epoch = 0) (nonempty : allocations ≠ []) :
    ((machine.initializeFromGenesis prim genesis allocations).1 = true <->
      genesis.header.stateRoot = rootOf prim (accountLeaves prim (createdAccounts machine allocations))) ∧
    (genesis.header.stateRoot = rootOf prim (accountLeaves prim (createdAccounts machine allocations)) ->
      (machine.initializeFromGenesis prim genesis allocations).2.accountManager.sumOfBalances =
        sumOfBalances (createdAccounts machine allocations)) := by
  have some : accountsOf allocations ≠ [] := fun empty => nonempty (List.map_eq_nil_iff.mp empty)
  have created : (createdAccounts machine allocations).isEmpty = false := by
    rcases List.exists_mem_of_ne_nil _ some with ⟨account, member⟩
    rcases exists_created machine member with ⟨stored, listed, _⟩
    rw [List.isEmpty_eq_false_iff]
    exact List.ne_nil_of_mem listed
  have root : (machine.clear.createAccounts allocations).computeStateRoot prim =
      rootOf prim (accountLeaves prim (createdAccounts machine allocations)) := by
    rw [StateMachine.computeStateRoot_eq]
    unfold createdAccounts at created ⊢
    rw [created]
    rfl
  unfold StateMachine.initializeFromGenesis
  rw [if_neg (not_or.mpr ⟨not_not.mpr height, not_not.mpr epoch⟩)]
  simp only [root]
  split
  · rename_i differs
    exact ⟨iff_of_false Bool.false_ne_true fun same => differs same.symm, fun same => absurd same.symm differs⟩
  · rename_i same
    exact ⟨iff_of_true rfl (not_not.mp same).symm, fun _ => sumOfBalances_created machine allocations⟩

/-- A state machine starts from the block and the allocations of a builder, with balances
that sum up to the allocated total, exactly if every address is allocated once and the
amounts do not wrap, or the only repeated allocation is hidden in the Merkle tree and its
copies add up to a multiple of `2^64`. -/
theorem initializeFromGenesis_iff (share : UInt64 -> Rat -> UInt64) (prim : Primitives)
    (supply timestamp validatorSetSize minimumBond : UInt64) (chain : UInt32) (calls : List BuilderCall)
    (machine : StateMachine) (genesis : Block) (builder : GenesisBuilder)
    (filled : builder = run (call share prim)
      (create (GenesisConfig.make supply timestamp validatorSetSize minimumBond chain)) calls)
    (built : builder.build share prim = .ok genesis)
    (free : MerkleTree.CollisionFree prim (genesisStrings prim machine builder.allocations)) :
    ((machine.initializeFromGenesis prim genesis builder.allocations).1 = true ∧
      (machine.initializeFromGenesis prim genesis builder.allocations).2.accountManager.sumOfBalances =
        builder.totalAllocated.toNat) <->
      AllocatesOnce builder.allocations ∨ AllocatesUnseen prim builder.allocations := by
  have accounted : Accounted (GenesisConfig.make supply timestamp validatorSetSize minimumBond chain) builder :=
    filled ▸ accounted_calls _ calls
  rcases header_of_build built with ⟨height, initialEpoch, root⟩
  have epoch : genesis.header.epoch = 0 := by
    rw [initialEpoch, accounted.config]
    rfl
  rw [computeStateRoot_eq] at root
  by_cases empty : builder.allocations = []
  · -- nothing is allocated: both roots are zero and so are both sums
    rw [empty] at root ⊢
    have once : AllocatesOnce [] := ⟨List.nodup_nil, Nat.two_pow_pos 64⟩
    have start : machine.initializeFromGenesis prim genesis [] =
        (true, (machine.clear.createAccounts []).saveStateSnapshot prim 0) := by
      unfold StateMachine.initializeFromGenesis
      rw [if_neg (not_or.mpr ⟨not_not.mpr height, not_not.mpr epoch⟩), root]
      rfl
    rw [start]
    refine iff_of_true ⟨rfl, ?_⟩ (Or.inl once)
    rw [accounted.total, empty]
    rfl
  · have some : (accountsOf builder.allocations).isEmpty = false := by
      rw [List.isEmpty_eq_false_iff]
      exact fun none => empty (List.map_eq_nil_iff.mp none)
    rw [some] at root
    simp only [Bool.false_eq_true, if_false] at root
    rcases roots_of_initialize prim machine height epoch empty with ⟨starts, balances⟩
    rw [← agrees_iff empty free, starts, root, accounted.total]
    rw [root] at balances
    exact and_congr_right fun same => by rw [balances same]

/-! ## Two allocations -/

/-- A configuration with a supply of one thousand. -/
def smallGenesis : GenesisConfig := GenesisConfig.make 1000 7 3 1 1

/-- Allocations of ten tokens to numbered addresses, and one validator. -/
def allocateTen (numbers : List Nat) : List BuilderCall :=
  numbers.map (fun number => .addAllocation (FixedBytes.ofNat 32 number) 10 []) ++
    [.createGenesisValidatorSet [Validator.make (FixedBytes.ofNat 32 1) (FixedBytes.zero 48) (FixedBytes.zero 32) 5]]

/-- The builder after these calls. -/
def tenBuilder (numbers : List Nat) : GenesisBuilder :=
  run (call shareOfSupply Transparent.primitives) (create smallGenesis) (allocateTen numbers)

/-- The block of a builder whose checks pass. -/
def builtBlock (builder : GenesisBuilder) : Block :=
  ⟨⟨0, builder.config.genesisTimestamp, Blake3Hash.zero, builder.computeStateRoot Transparent.primitives,
    MerkleTree.rootOf Transparent.primitives [], builder.validatorSet.merkleRoot, Address.zero,
    builder.config.initialEpoch⟩, [], QuorumCertificate.empty⟩

/-- An address that is allocated to twice: every call and the build succeed, and the
state machine refuses the block. -/
theorem initializeFromGenesis_refuses_repeated :
    (tenBuilder [1, 1]).totalAllocated = 20 ∧
      (tenBuilder [1, 1]).build shareOfSupply Transparent.primitives = .ok (builtBlock (tenBuilder [1, 1])) ∧
      ((StateMachine.create 1).initializeFromGenesis Transparent.primitives (builtBlock (tenBuilder [1, 1]))
        (tenBuilder [1, 1]).allocations).1 = false := by
  decide +kernel

/-- Two addresses with ten tokens each. -/
theorem initializeFromGenesis_iff_two :
    ((StateMachine.create 1).initializeFromGenesis Transparent.primitives (builtBlock (tenBuilder [1, 2]))
        (tenBuilder [1, 2]).allocations).1 = true ∧
      ((StateMachine.create 1).initializeFromGenesis Transparent.primitives (builtBlock (tenBuilder [1, 2]))
        (tenBuilder [1, 2]).allocations).2.accountManager.sumOfBalances = (tenBuilder [1, 2]).totalAllocated.toNat := by
  refine (initializeFromGenesis_iff shareOfSupply Transparent.primitives 1000 7 3 1 1 (allocateTen [1, 2])
    (StateMachine.create 1) (builtBlock (tenBuilder [1, 2])) (tenBuilder [1, 2]) rfl (by decide +kernel) ?_).mpr
      (Or.inl ?_)
  · unfold MerkleTree.CollisionFree
    decide +kernel
  · unfold AllocatesOnce
    decide +kernel

end GenesisBuilder
end Consensus
end Sarafu

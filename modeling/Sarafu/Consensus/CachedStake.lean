import Sarafu.Consensus.RegistryRecords
import Sarafu.Crypto.Transparent
import Sarafu.Library.WordSums

namespace Sarafu
namespace Consensus

open Crypto State Library.Runs Library.KeyedMaps Library.WordSums

/-!
# The cached total of the current set

Every threshold reads `total_stake` of the current set, which the operations adjust
one by one.  Bonding and slashing adjust it for active entries and an epoch
transition computes it anew.  `update_validator` adjusts it for the step from
`Active` to `Tombstoned` only: any other change of a status into or out of
`Active` leaves the total behind by the stake of the entry.
-/

/-- What an entry contributes to the active stake. -/
def Validator.activeWeight (validator : Validator) : Nat :=
  if validator.isActive then validator.bondedStake.toNat else 0

theorem ValidatorSet.activeStake_eq_sum (set : ValidatorSet) :
    set.activeStake = (set.validators.map Validator.activeWeight).sum := by
  unfold activeStake getActiveValidators
  induction set.validators with
  | nil => rfl
  | cons validator rest inductionHypothesis =>
      rw [List.filter_cons, List.map_cons, List.sum_cons, Validator.activeWeight]
      split
      · rw [List.map_cons, List.sum_cons, inductionHypothesis]
      · rw [inductionHypothesis, Nat.zero_add]

namespace ValidatorRegistry

variable {registry : ValidatorRegistry} {id : ValidatorID}

theorem changeFirst_of_find_none {change : Validator -> Validator} {validators : List Validator}
    (absent : validators.find? (fun validator => validator.id == id) = none) :
    changeFirst id change validators = validators := by
  induction validators with
  | nil => rfl
  | cons validator rest inductionHypothesis =>
      have unequal := List.find?_eq_none.mp absent validator List.mem_cons_self
      have later := List.find?_eq_none.mpr fun other member =>
        List.find?_eq_none.mp absent other (List.mem_cons_of_mem validator member)
      rw [changeFirst, if_neg fun same => unequal (beq_iff_eq.mpr same), inductionHypothesis later]

/-- Changing the first entry moves a sum by the difference at that entry. -/
theorem sum_changeFirst (weight : Validator -> Nat) (change : Validator -> Validator) {validators : List Validator}
    {listed : Validator} (found : validators.find? (fun validator => validator.id == id) = some listed) :
    ((changeFirst id change validators).map weight).sum + weight listed =
      (validators.map weight).sum + weight (change listed) := by
  induction validators with
  | nil => cases found
  | cons validator rest inductionHypothesis =>
      rw [changeFirst]
      by_cases same : validator.id = id
      · have here : (validator.id == id) = true := beq_iff_eq.mpr same
        simp only [List.find?_cons, here] at found
        rw [if_pos same, ← Option.some.inj found, List.map_cons, List.map_cons, List.sum_cons, List.sum_cons]
        omega
      · have elsewhere : (validator.id == id) = false := beq_eq_false_iff_ne.mpr same
        simp only [List.find?_cons, elsewhere] at found
        have later := inductionHypothesis found
        rw [if_neg same, List.map_cons, List.map_cons, List.sum_cons, List.sum_cons]
        omega

/-- The entry of an id contributes no more than the whole. -/
theorem activeWeight_le_activeStake {set : ValidatorSet} {listed : Validator}
    (found : set.findValidator id = some listed) : listed.activeWeight ≤ set.activeStake := by
  rw [set.activeStake_eq_sum]
  exact List.single_le_sum (fun _ _ => Nat.zero_le _) _ (List.mem_map_of_mem (List.mem_of_find?_eq_some found))

/-- The cached total is the sum of the active stakes. -/
def Cached (registry : ValidatorRegistry) : Prop :=
  registry.currentSet.totalStake.toNat = registry.currentSet.activeStake

/-- The active stake after a call is below `2^64`. -/
def StaysBelow (prim : Primitives) (registry : ValidatorRegistry) (call : RegistryCall) : Prop :=
  (registry.call prim call).currentSet.activeStake < 2 ^ 64

/-- A status given to a listed validator by `update_validator` keeps it active or
inactive, or tombstones it, or the entry has no stake. -/
def KeepsActivity (registry : ValidatorRegistry) : RegistryCall -> Prop
  | .updateValidator id _ _ (some status) => forall listed, registry.currentSet.findValidator id = some listed ->
      (listed.status = .active <-> status = .active) ∨ (listed.status = .active ∧ status = .tombstoned) ∨
        listed.bondedStake = 0
  | _ => True

/-- The active stake after a change of the first entry under an id. -/
theorem activeStake_changeFirst {set after : ValidatorSet} {change : Validator -> Validator}
    (validators : after.validators = changeFirst id change set.validators)
    {listed : Validator} (found : set.findValidator id = some listed) :
    after.activeStake + listed.activeWeight = set.activeStake + (change listed).activeWeight := by
  rw [ValidatorSet.activeStake_eq_sum, ValidatorSet.activeStake_eq_sum, validators]
  exact sum_changeFirst Validator.activeWeight change found

/-- A change under an id that the set does not list. -/
theorem activeStake_unlisted {set after : ValidatorSet} {change : Validator -> Validator}
    (validators : after.validators = changeFirst id change set.validators)
    (absent : set.findValidator id = none) : after.activeStake = set.activeStake := by
  rw [ValidatorSet.activeStake_eq_sum, ValidatorSet.activeStake_eq_sum, validators, changeFirst_of_find_none absent]

/-- The cached total follows if it moves by the difference that the entry
contributes. -/
theorem Adjusts.cached {set after : ValidatorSet} {change : Validator -> Validator} {total : Validator -> UInt64}
    (adjusts : Adjusts id change total set after) (cached : set.totalStake.toNat = set.activeStake)
    (moves : forall entry, set.findValidator id = some entry -> entry.activeWeight ≤ set.activeStake ->
      after.activeStake + entry.activeWeight = set.activeStake + (change entry).activeWeight ->
        (total entry).toNat + entry.activeWeight = set.totalStake.toNat + (change entry).activeWeight) :
    after.totalStake.toNat = after.activeStake := by
  cases found : set.findValidator id with
  | none => rw [adjusts.unlisted found, cached, activeStake_unlisted adjusts.validators found]
  | some entry =>
      have moved := activeStake_changeFirst adjusts.validators found
      have total := moves entry found (activeWeight_le_activeStake found) moved
      rw [adjusts.listed entry found]
      omega

theorem activeWeight_eq (validator : Validator) :
    validator.activeWeight = if validator.status = .active then validator.bondedStake.toNat else 0 := by
  unfold Validator.activeWeight Validator.isActive
  simp only [beq_iff_eq]

/-- An operation on one record that moves the total with the entry of the set. -/
theorem Cached.of_performs (cached : Cached registry) {write : Write} {result : Bool × ValidatorRegistry}
    (performs : Performs registry id write result)
    (moves : forall found entry, registry.currentSet.findValidator id = some entry ->
      entry.activeWeight ≤ registry.currentSet.activeStake ->
      result.2.currentSet.activeStake + entry.activeWeight =
        registry.currentSet.activeStake + (write.entry found entry).activeWeight ->
      (write.total found registry.currentSet.totalStake entry).toNat + entry.activeWeight =
        registry.currentSet.totalStake.toNat + (write.entry found entry).activeWeight) : Cached result.2 := by
  rcases performs with refused | ⟨validator, wrote⟩
  · rw [refused]
    exact cached
  · exact wrote.set.cached cached (moves validator)

/-! ## The operations that adjust the total -/

theorem Cached.bondStake (cached : Cached registry) (id : ValidatorID) (amount : UInt64)
    (below : (registry.bondStake id amount).2.currentSet.activeStake < 2 ^ 64) :
    Cached (registry.bondStake id amount).2 := by
  apply cached.of_performs (registry.bondStake_performs id amount)
  intro _ entry _ smaller moved
  by_cases active : entry.status = .active
  · have total : registry.currentSet.totalStake.toNat = registry.currentSet.activeStake := cached
    simp only [bondWrite, activeWeight_eq, if_pos active, UInt64.toNat_add] at smaller moved ⊢
    omega
  · simp only [bondWrite, activeWeight_eq, if_neg active]

theorem Cached.slashValidator (cached : Cached registry) (id : ValidatorID) (amount : UInt64) (reason : SlashReason) :
    Cached (registry.slashValidator id amount reason).2 := by
  apply cached.of_performs (registry.slashValidator_performs id amount reason)
  intro found entry _ smaller _
  by_cases active : entry.status = .active
  · have taken := actualSlash_le entry.bondedStake (actualSlash found.bondedStake amount)
    have fits := UInt64.le_iff_toNat_le.mp taken
    rw [← cached] at smaller
    simp only [slashWrite, activeWeight_eq, if_pos active, UInt64.toNat_sub_of_le _ _ taken] at smaller ⊢
    have room : actualSlash entry.bondedStake (actualSlash found.bondedStake amount) ≤ registry.currentSet.totalStake :=
      UInt64.le_iff_toNat_le.mpr (Nat.le_trans fits smaller)
    rw [deductClamped, if_pos room, UInt64.toNat_sub_of_le _ _ room]
    omega
  · simp only [slashWrite, activeWeight_eq, if_neg active]

theorem Cached.updateValidator (cached : Cached registry) {id : ValidatorID} {consensusKey : Option BLS12381PublicKey}
    {withdrawalKey : Option Ed25519PublicKey} {newStatus : Option ValidatorStatus}
    (keeps : KeepsActivity registry (.updateValidator id consensusKey withdrawalKey newStatus)) :
    Cached (registry.updateValidator id consensusKey withdrawalKey newStatus).2 := by
  apply cached.of_performs (registry.updateValidator_performs id consensusKey withdrawalKey newStatus)
  intro _ entry found smaller _
  rw [← cached] at smaller
  simp only [updateWrite, activeWeight_eq, withUpdates] at smaller ⊢
  cases newStatus with
  | none => simp only [reduceCtorEq, false_and, if_false, Option.getD_none]
  | some status =>
      simp only [Option.some.injEq, Option.getD_some]
      rcases keeps entry found with same | ⟨active, rfl⟩ | empty
      · have untouched : ¬ (status = .tombstoned ∧ entry.status = .active) := by
          rintro ⟨rfl, active⟩
          cases same.mp active
        rw [if_neg untouched]
        simp only [same]
      · rw [if_pos active] at smaller
        have room : entry.bondedStake ≤ registry.currentSet.totalStake := UInt64.le_iff_toNat_le.mpr smaller
        simp only [active, and_self, if_true, deductClamped, if_pos room, UInt64.toNat_sub_of_le _ _ room, reduceCtorEq,
          if_false]
        omega
      · simp only [empty, UInt64.toNat_zero, ite_self, deductClamped, UInt64.zero_le, if_true, UInt64.sub_zero]

/-- The sum over the activated validators, taken modulo `2^64`. -/
theorem toNat_sumActive (set : ValidatorSet) : (sumActive set.validators).toNat = set.activeStake % 2 ^ 64 :=
  toNat_sum Validator.bondedStake set.getActiveValidators

/-! ## Runs -/

/-- The step lemma. -/
theorem Cached.call (prim : Primitives) (cached : Cached registry) {call : RegistryCall}
    (below : StaysBelow prim registry call) (keeps : KeepsActivity registry call) :
    Cached (registry.call prim call) := by
  have sameSet : forall after : ValidatorRegistry, after.currentSet = registry.currentSet -> Cached after := by
    intro after same
    unfold Cached
    rw [same]
    exact cached
  cases call with
  | addValidator id consensusKey withdrawalKey initialStake =>
      apply sameSet
      unfold ValidatorRegistry.call ValidatorRegistry.addValidator
      simp only []
      split
      · rfl
      · rfl
  | bondStake id amount => exact cached.bondStake id amount below
  | unbondStake id amount currentHeight =>
      exact cached.of_performs (registry.unbondStake_performs id amount currentHeight) (fun _ _ _ _ _ => rfl)
  | processUnbonding currentHeight => exact cached
  | slashValidator id amount reason => exact cached.slashValidator id amount reason
  | updateValidator id consensusKey withdrawalKey newStatus => exact cached.updateValidator keeps
  | recordSignature id blockHeight =>
      exact cached.of_performs (registry.recordSignature_performs id blockHeight) (fun _ _ _ _ _ => rfl)
  | checkDowntime epoch totalBlocks =>
      apply sameSet
      unfold ValidatorRegistry.call ValidatorRegistry.checkDowntime
      simp only []
      split
      · rfl
      · rfl
  | transitionEpoch newEpoch totalBlocks =>
      unfold StaysBelow ValidatorRegistry.call at below
      exact (toNat_sumActive _).trans (Nat.mod_eq_of_lt below)

/-- The cached total over every run from the empty registry whose active stakes stay
below `2^64`: it is the sum of the active stakes, as long as each
`update_validator` of a listed validator keeps it active or inactive or tombstones
it. -/
theorem cached_of_keepsActivity (prim : Primitives) (config : RegistryConfig) (calls : List RegistryCall)
    (below : Along (ValidatorRegistry.call prim) (StaysBelow prim) (create config) calls)
    (keeps : Along (ValidatorRegistry.call prim) KeepsActivity (create config) calls) :
    (run (ValidatorRegistry.call prim) (create config) calls).currentSet.totalStake.toNat =
      (run (ValidatorRegistry.call prim) (create config) calls).currentSet.activeStake := by
  have initial : Cached (create config) := rfl
  refine invariant_run Cached ?_ initial (along_and below keeps)
  rintro registry call cached ⟨stays, activity⟩
  exact cached.call prim stays activity

/-- Two active validators, a bond, and the tombstone for one of them. -/
def tombstoningCalls : List RegistryCall :=
  [newcomer 1 20, newcomer 2 10, .transitionEpoch 1 0, .bondStake (numbered 2) 3,
    .updateValidator (numbered 1) none none (some .tombstoned)]

theorem cached_of_keepsActivity_tombstoning :
    (run (ValidatorRegistry.call Transparent.primitives) (create smallConfig) tombstoningCalls).currentSet.totalStake =
      13 ∧
    (run (ValidatorRegistry.call Transparent.primitives) (create smallConfig)
      tombstoningCalls).currentSet.totalStake.toNat =
    (run (ValidatorRegistry.call Transparent.primitives) (create smallConfig)
      tombstoningCalls).currentSet.activeStake := by
  refine ⟨by decide +kernel, ?_⟩
  apply cached_of_keepsActivity
  · unfold tombstoningCalls
    refine ⟨?_, ?_, ?_, ?_, ?_, trivial⟩
    all_goals
      unfold StaysBelow
      decide +kernel
  · refine ⟨trivial, trivial, trivial, trivial, ?_, trivial⟩
    intro listed found
    have active : (((run (ValidatorRegistry.call Transparent.primitives) (create smallConfig)
        (tombstoningCalls.take 4)).currentSet.findValidator (numbered 1)).map Validator.status) = some .active := by
      decide +kernel
    have status := Option.some.inj (active.symm.trans (congrArg (Option.map Validator.status) found))
    exact Or.inr (Or.inl ⟨status.symm, rfl⟩)

/-- Jailing an active validator takes it out of the active stake and not out of the
total. -/
theorem jailing_leaves_total :
    Along (ValidatorRegistry.call Transparent.primitives) (StaysBelow Transparent.primitives) (create smallConfig)
      [newcomer 1 20, newcomer 2 10, .transitionEpoch 1 0, .updateValidator (numbered 1) none none (some .jailed)] ∧
    (run (ValidatorRegistry.call Transparent.primitives) (create smallConfig)
      [newcomer 1 20, newcomer 2 10, .transitionEpoch 1 0,
        .updateValidator (numbered 1) none none (some .jailed)]).currentSet.totalStake = 30 ∧
    (run (ValidatorRegistry.call Transparent.primitives) (create smallConfig)
      [newcomer 1 20, newcomer 2 10, .transitionEpoch 1 0,
        .updateValidator (numbered 1) none none (some .jailed)]).currentSet.activeStake = 10 := by
  refine ⟨⟨?_, ?_, ?_, ?_, trivial⟩, by decide +kernel, by decide +kernel⟩
  all_goals
    unfold StaysBelow
    decide +kernel

end ValidatorRegistry
end Consensus
end Sarafu

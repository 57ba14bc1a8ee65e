import Sarafu.Consensus.CertificateSoundness
import Sarafu.Consensus.EpochSelection
import Sarafu.Consensus.GenesisBuilder

namespace Sarafu
namespace Consensus

open Crypto State Library.Runs Library.KeyedMaps

/-!
# The genesis set and the first epoch

The genesis builder ranks and activates the validators it is given by itself.  A registry
that has registered the same validators selects the same set at the transition to epoch
zero: there is no downtime to check and nobody is jailed, the ranking depends on stakes
and ids only, and the builder accepts no validator of the first ranks that the registry
would pass over.
-/

namespace ValidatorRegistry

/-- The record that `add_validator` creates. -/
def newRecord (validator : Validator) : Validator :=
  Validator.make validator.id validator.consensusKey validator.withdrawalKey validator.bondedStake

/-- `add_validator` with the keys and the stake of a validator. -/
def registering (validator : Validator) : RegistryCall :=
  .addValidator validator.id validator.consensusKey validator.withdrawalKey validator.bondedStake

variable {prim : Primitives} {registry : ValidatorRegistry} {validators added : List Validator}

/-- Validators with new ids are stored one after another. -/
theorem run_registering (distinct : (added.map Validator.id).Nodup)
    (fresh : forall validator, validator ∈ added -> registry.validators[validator.id]? = none) :
    run (ValidatorRegistry.call prim) registry (added.map registering) =
      { registry with validators := storeAll Validator.id (added.map newRecord) registry.validators } := by
  induction added generalizing registry with
  | nil => rfl
  | cons validator rest inductionHypothesis =>
      rw [List.map_cons, List.nodup_cons] at distinct
      rw [List.forall_mem_cons] at fresh
      have registered : registry.call prim (registering validator) =
          { registry with validators := registry.validators.insert validator.id (newRecord validator) } := by
        simp only [ValidatorRegistry.call, registering, addValidator, fresh.1]
        rfl
      rw [List.map_cons, run_cons, registered]
      refine (inductionHypothesis distinct.2 ?_).trans rfl
      intro other member
      have differs : other.id ≠ validator.id := fun same =>
        distinct.1 (List.mem_map.mpr ⟨other, member, same⟩)
      rw [OrderedMap.find_insert, if_neg differs]
      exact fresh.2 other member

end ValidatorRegistry

open ValidatorRegistry

namespace Validator

/-- Two rankings of validators with distinct ids are equal. -/
theorem ranking_unique {first second : List Validator} (firstOrdered : first.Pairwise ranksNotAfter)
    (secondOrdered : second.Pairwise ranksNotAfter) (same : first.Perm second)
    (distinct : (second.map Validator.id).Nodup) : first = second := by
  refine List.Perm.eq_of_pairwise ?_ firstOrdered secondOrdered same
  intro left right leftListed rightListed below above
  apply List.inj_on_of_nodup_map distinct (same.mem_iff.mp leftListed) rightListed
  by_contra differs
  have before := ranksBefore_of_ranksNotAfter below differs
  exact above before

end Validator

namespace GenesisBuilder

variable {prim : Primitives} {builder : GenesisBuilder} {validators added : List Validator} {size bond : UInt64}

theorem sortByStake_perm (validators : List Validator) : (sortByStake validators).Perm validators :=
  List.perm_insertionSort _ _

/-- The registry ranks the records of the builder's ranking. -/
theorem rankByStake_registering (prim : Primitives) (config : RegistryConfig) (same : added.Perm validators)
    (distinct : (validators.map Validator.id).Nodup) :
    (run (ValidatorRegistry.call prim) (ValidatorRegistry.create config) (added.map registering)).rankByStake =
      (sortByStake validators).map newRecord := by
  have addedDistinct : (added.map Validator.id).Nodup := (same.map Validator.id).nodup_iff.mpr distinct
  have ids : forall list : List Validator, (list.map newRecord).map Validator.id = list.map Validator.id := by
    intro list
    rw [List.map_map]
    rfl
  rw [run_registering addedDistinct fun _ _ => Std.ExtTreeMap.getElem?_empty]
  apply Validator.ranking_unique
  · exact rankByStake_ordered _
  · rw [List.pairwise_map]
    exact List.pairwise_insertionSort Validator.ranksNotAfter validators
  · refine (List.perm_insertionSort _ _).trans ?_
    have values : ((storeAll Validator.id (added.map newRecord) (∅ : OrderedMap ValidatorID Validator)).toList.map
        Prod.snd).Perm (added.map newRecord) := by
      apply values_storeAll_perm
      · rw [ids]
        exact addedDistinct
      · intro other stored found
        rw [Std.ExtTreeMap.getElem?_empty] at found
        cases found
    exact values.trans ((same.trans (sortByStake_perm validators).symm).map newRecord)
  · rw [ids, ((sortByStake_perm validators).map Validator.id).nodup_iff]
    exact distinct

/-- What the transition makes of a new record of sufficient stake, and what the builder
makes of the validator. -/
theorem selectOne_newRecord {config : RegistryConfig} {index activeCount : Nat} (validator : Validator)
    (limit : index < activeCount <-> index < config.activeValidatorCount.toNat)
    (bonded : index < activeCount -> config.minimumSelfBond ≤ validator.bondedStake) :
    selectOne config 0 index (newRecord validator) = genesisRecord activeCount index validator := by
  unfold selectOne genesisRecord newRecord Validator.make
  simp only [reduceCtorEq, false_and, if_false, ne_eq, not_false_eq_true, and_true]
  by_cases first : index < activeCount
  · rw [if_pos ⟨limit.mp first, bonded first⟩, if_pos first]
  · rw [if_neg fun both => first (limit.mpr both.1), if_neg first]

/-- The active validators of a ranking are the first ones. -/
theorem filter_genesisRecord (activeCount : Nat) (ranked : List Validator) :
    ((ranked.mapIdx (genesisRecord activeCount)).filter Validator.isActive).map Validator.bondedStake =
      (ranked.take activeCount).map Validator.bondedStake := by
  induction ranked generalizing activeCount with
  | nil => rw [List.take_nil]; rfl
  | cons validator rest inductionHypothesis =>
      rw [List.mapIdx_cons]
      cases activeCount with
      | zero =>
          have shifted : (fun index => genesisRecord 0 (index + 1)) = genesisRecord 0 := by
            funext index other
            rfl
          rw [shifted, List.filter_cons_of_neg (Bool.not_eq_true _ ▸ rfl)]
          exact inductionHypothesis 0
      | succ activeCount =>
          have shifted : (fun index => genesisRecord (activeCount + 1) (index + 1)) = genesisRecord activeCount := by
            funext index other
            unfold genesisRecord
            simp only [Nat.add_lt_add_iff_right]
          rw [shifted, List.filter_cons_of_pos (by rfl), List.map_cons, inductionHypothesis activeCount,
            List.take_succ_cons, List.map_cons]
          rfl

theorem sumActive_genesisRecord (activeCount : Nat) (ranked : List Validator) :
    sumActive (ranked.mapIdx (genesisRecord activeCount)) =
      (ranked.take activeCount).foldl (fun total v => total + v.bondedStake) 0 := by
  have stakes := congrArg (List.foldl (fun total stake => total + stake) (0 : UInt64))
    (filter_genesisRecord activeCount ranked)
  rw [List.foldl_map, List.foldl_map] at stakes
  exact stakes

/-- The set of a successful call. -/
theorem validatorSet_of_created {created : GenesisBuilder}
    (succeeded : builder.createGenesisValidatorSet prim validators = (true, created)) :
    let activeCount := min builder.config.validatorSetSize.toNat (sortByStake validators).length
    let records := (sortByStake validators).mapIdx (genesisRecord activeCount)
    validators ≠ [] ∧
      (forall validator, validator ∈ (sortByStake validators).take activeCount ->
        builder.config.minimumSelfBond ≤ validator.bondedStake) ∧
      created.validatorSet = ⟨builder.config.initialEpoch, records,
        ((sortByStake validators).take activeCount).foldl (fun total v => total + v.bondedStake) 0,
        MerkleTree.rootOf prim (records.map (Validator.hash prim))⟩ := by
  intro activeCount records
  unfold createGenesisValidatorSet at succeeded
  split at succeeded
  · cases succeeded
  · rename_i some
    simp only at succeeded
    split at succeeded
    · cases succeeded
    · rename_i bonded
      refine ⟨fun empty => some (List.isEmpty_iff.mpr empty), ?_, ?_⟩
      · intro validator member
        rw [List.any_eq_true, not_exists] at bonded
        exact UInt64.not_lt.mp fun small => bonded validator ⟨member, decide_eq_true small⟩
      · rw [← (Prod.mk.inj succeeded).2]

/-- The transition makes the builder's records of the new records. -/
theorem selectedFor_registering (prim : Primitives) (config : RegistryConfig)
    (sameSize : config.activeValidatorCount = size) (sameBond : config.minimumSelfBond = bond)
    (distinct : (validators.map Validator.id).Nodup)
    (bonded : forall validator,
      validator ∈ (sortByStake validators).take (min size.toNat (sortByStake validators).length) ->
        bond ≤ validator.bondedStake)
    (same : added.Perm validators) {totalBlocks : UInt64} :
    (run (ValidatorRegistry.call prim) (ValidatorRegistry.create config) (added.map registering)).selectedFor 0
        totalBlocks =
      (sortByStake validators).mapIdx (genesisRecord (min size.toNat (sortByStake validators).length)) := by
  have registry : (run (ValidatorRegistry.call prim) (ValidatorRegistry.create config)
      (added.map registering)).config = config := by
    rw [run_registering ((same.map Validator.id).nodup_iff.mpr distinct) fun _ _ => Std.ExtTreeMap.getElem?_empty]
    rfl
  have unchecked : ¬(1 : UInt64) < 0 := by decide
  unfold selectedFor checkedFor
  rw [if_neg unchecked, rankByStake_registering prim config same distinct, registry, List.mapIdx_eq_iff]
  intro index
  rw [List.getElem?_mapIdx, List.getElem?_map, Option.map_map]
  cases found : (sortByStake validators)[index]? with
  | none => rfl
  | some validator =>
      have bound := (List.getElem?_eq_some_iff.mp found).1
      have limit : index < min size.toNat (sortByStake validators).length <->
          index < config.activeValidatorCount.toNat := by
        rw [sameSize, Nat.lt_min]
        exact and_iff_left bound
      refine congrArg Option.some (selectOne_newRecord validator limit fun first => ?_).symm
      rw [sameBond]
      apply bonded
      rw [List.mem_iff_getElem?]
      exact ⟨index, (List.getElem?_take_of_lt first).trans found⟩

/-- The genesis set is the set of the transition to epoch zero in every registry that
has registered the same validators, in whatever order. -/
theorem createGenesisValidatorSet_eq_transition (prim : Primitives)
    (supply timestamp validatorSetSize minimumBond : UInt64) (chain : UInt32) (builder created : GenesisBuilder)
    (configured : builder.config = GenesisConfig.make supply timestamp validatorSetSize minimumBond chain)
    (config : RegistryConfig) (sameSize : config.activeValidatorCount = validatorSetSize)
    (sameBond : config.minimumSelfBond = minimumBond) (validators added : List Validator)
    (distinct : (validators.map Validator.id).Nodup)
    (succeeded : builder.createGenesisValidatorSet prim validators = (true, created))
    (same : added.Perm validators) (totalBlocks : UInt64) :
    ((run (ValidatorRegistry.call prim) (ValidatorRegistry.create config) (added.map registering)).transitionEpoch
      prim 0 totalBlocks).1 = created.validatorSet := by
  rcases validatorSet_of_created succeeded with ⟨some, bonded, set⟩
  rw [configured] at bonded set
  rw [transitionEpoch_eq, set]
  unfold selectedSet ValidatorSet.computeRoot
  rw [selectedFor_registering prim config sameSize sameBond distinct bonded same, sumActive_genesisRecord]
  have nonempty : ((sortByStake validators).mapIdx
      (genesisRecord (min validatorSetSize.toNat (sortByStake validators).length))).isEmpty = false := by
    rw [List.isEmpty_eq_false_iff]
    intro empty
    rw [List.mapIdx_eq_nil_iff] at empty
    have none := (sortByStake_perm validators).length_eq
    rw [empty] at none
    exact some (List.length_eq_zero_iff.mp none.symm)
  simp only [nonempty, Bool.false_eq_true, if_false]
  rfl

/-- Four validators for two places, two of them with the same stake, registered in
another order. -/
def genesisValidators : List Validator :=
  [numberedValidator 4 10, numberedValidator 1 7, numberedValidator 3 10, numberedValidator 2 20]

theorem createGenesisValidatorSet_eq_transition_four :
    let builder := create (GenesisConfig.make 1000 7 2 5 1)
    let config : RegistryConfig := { activeValidatorCount := 2, minimumSelfBond := 5 }
    let registry := run (ValidatorRegistry.call Transparent.primitives) (ValidatorRegistry.create config)
      (genesisValidators.reverse.map registering)
    (builder.createGenesisValidatorSet Transparent.primitives genesisValidators).2.validatorSet.validators.map
        (fun v => (v.id, v.status)) =
      [(FixedBytes.ofNat 32 2, .active), (FixedBytes.ofNat 32 3, .active), (FixedBytes.ofNat 32 4, .standby),
        (FixedBytes.ofNat 32 1, .standby)] ∧
    (registry.transitionEpoch Transparent.primitives 0 9).1 =
      (builder.createGenesisValidatorSet Transparent.primitives genesisValidators).2.validatorSet := by
  intro builder config registry
  refine ⟨by decide +kernel, ?_⟩
  have succeeded : builder.createGenesisValidatorSet Transparent.primitives genesisValidators =
      (true, (builder.createGenesisValidatorSet Transparent.primitives genesisValidators).2) := rfl
  exact createGenesisValidatorSet_eq_transition Transparent.primitives 1000 7 2 5 1 builder _ rfl config rfl rfl
    genesisValidators genesisValidators.reverse (by decide +kernel) succeeded (List.reverse_perm _) 9

end GenesisBuilder
end Consensus
end Sarafu

import Sarafu.Consensus.CachedStake
import Sarafu.Consensus.StakeTotals

namespace Sarafu
namespace Consensus

open Crypto State Library.Runs Library.KeyedMaps

/-!
# What an epoch transition selects

The transition penalizes downtime, ranks all records, releases whoever has served
its time, and activates the eligible records among the first ranks.  Each of these
steps changes statuses and counters of a record and leaves its id; only the
penalties change a stake, and they come before the ranking.  The ranking of the
selected records is therefore the ranking they were selected by.
-/

namespace Validator

/-- The order of the ranking: stake descending, then id ascending. -/
def rankOrder : Validator -> Validator -> Ordering :=
  compareLex (fun first second => compareOn Validator.bondedStake second first) (compareOn Validator.id)

instance : Std.TransCmp rankOrder := inferInstanceAs (Std.TransCmp (compareLex _ _))

theorem rankOrder_def (left right : Validator) :
    rankOrder left right = (compare right.bondedStake left.bondedStake).then (compare left.id right.id) := rfl

theorem ranksBefore_eq (left right : Validator) : left.ranksBefore right = (rankOrder left right).isLT := by
  rw [ranksBefore, rankOrder_def]
  by_cases same : left.bondedStake = right.bondedStake
  · rw [if_neg (not_not.mpr same), Std.LawfulEqOrd.compare_eq_iff_eq.mpr same.symm]
    rfl
  · rw [if_pos same]
    cases order : compare right.bondedStake left.bondedStake with
    | eq => exact absurd (Std.LawfulEqOrd.compare_eq_iff_eq.mp order).symm same
    | lt =>
        rw [decide_eq_true (Std.compare_eq_lt.mp order)]
        rfl
    | gt =>
        rw [decide_eq_false (UInt64.not_lt.mpr (UInt64.le_of_lt (Std.compare_eq_gt.mp order)))]
        rfl

/-- The relation that the ranking sorts by. -/
def ranksNotAfter (left right : Validator) : Prop := ¬ right.ranksBefore left

instance : DecidableRel ranksNotAfter := fun left right => inferInstanceAs (Decidable (¬ right.ranksBefore left = true))

theorem rankOrder_swap (left right : Validator) : rankOrder right left = (rankOrder left right).swap :=
  Std.OrientedCmp.eq_swap

theorem ranksNotAfter_iff (left right : Validator) :
    ranksNotAfter left right <-> (rankOrder left right).isLE = true := by
  unfold ranksNotAfter
  rw [ranksBefore_eq, rankOrder_swap left right]
  cases rankOrder left right <;> decide

/-- Distinct validators that are ranked in order are ranked strictly. -/
theorem ranksBefore_of_ranksNotAfter {left right : Validator} (ordered : ranksNotAfter left right)
    (distinct : left.id ≠ right.id) : left.ranksBefore right = true := by
  rw [ranksNotAfter_iff] at ordered
  rw [ranksBefore_eq]
  cases order : rankOrder left right with
  | lt => rfl
  | gt =>
      rw [order] at ordered
      cases ordered
  | eq =>
      rw [rankOrder_def] at order
      exact absurd (Std.LawfulEqOrd.compare_eq_iff_eq.mp (Ordering.then_eq_eq.mp order).2) distinct

instance : Std.Total ranksNotAfter where
  total := by
    intro left right
    rw [ranksNotAfter_iff, ranksNotAfter_iff, rankOrder_swap left right]
    cases rankOrder left right <;> decide

instance : IsTrans Validator ranksNotAfter where
  trans := by
    intro first second third earlier later
    rw [ranksNotAfter_iff] at *
    exact Std.TransCmp.isLE_trans earlier later

/-- Enough stake, and neither jailed nor tombstoned. -/
def Eligible (config : RegistryConfig) (validator : Validator) : Prop :=
  config.minimumSelfBond ≤ validator.bondedStake ∧ validator.status ≠ .jailed ∧ validator.status ≠ .tombstoned

end Validator

namespace ValidatorRegistry

variable {registry : ValidatorRegistry}

theorem rankByStake_ordered (registry : ValidatorRegistry) :
    registry.rankByStake.Pairwise Validator.ranksNotAfter :=
  List.pairwise_insertionSort Validator.ranksNotAfter _

/-! ## One record -/

/-- The record of a rank after the reset and a release from jail. -/
def released (newEpoch : UInt64) (ranked : Validator) : Validator :=
  let v := { ranked with blocksSignedThisEpoch := 0, blocksMissedThisEpoch := 0 }
  if v.status = .jailed ∧ v.jailedUntilEpoch ≤ newEpoch then { v with status := .standby, jailedUntilEpoch := 0 } else v

theorem selectOne_eq (config : RegistryConfig) (newEpoch : UInt64) (index : Nat) (ranked : Validator) :
    selectOne config newEpoch index ranked =
      if (released newEpoch ranked).status = .tombstoned then released newEpoch ranked
      else if index < config.activeValidatorCount.toNat ∧
          config.minimumSelfBond ≤ (released newEpoch ranked).bondedStake ∧
            (released newEpoch ranked).status ≠ .jailed then
        { released newEpoch ranked with status := .active }
      else if (released newEpoch ranked).status = .active then { released newEpoch ranked with status := .standby }
      else released newEpoch ranked := rfl

/-- Whoever is active has a rank within the limit and enough stake. -/
theorem selectOne_active {config : RegistryConfig} {newEpoch : UInt64} {index : Nat} {ranked : Validator}
    (active : (selectOne config newEpoch index ranked).status = .active) :
    index < config.activeValidatorCount.toNat ∧
      config.minimumSelfBond ≤ (selectOne config newEpoch index ranked).bondedStake := by
  rw [selectOne_eq] at active ⊢
  split at active
  · rename_i tombstoned
    rw [tombstoned] at active
    cases active
  · rename_i living
    split at active
    · rename_i chosen
      rw [if_neg living, if_pos chosen]
      exact ⟨chosen.1, chosen.2.1⟩
    · split at active
      · cases active
      · rename_i inactive
        exact absurd active inactive

/-- Whoever is eligible and not active has a rank beyond the limit. -/
theorem selectOne_passed {config : RegistryConfig} {newEpoch : UInt64} {index : Nat} {ranked : Validator}
    (eligible : (selectOne config newEpoch index ranked).Eligible config)
    (inactive : (selectOne config newEpoch index ranked).status ≠ .active) :
    config.activeValidatorCount.toNat ≤ index := by
  unfold Validator.Eligible at eligible
  rw [selectOne_eq] at eligible inactive
  apply Nat.le_of_not_lt
  intro ranks
  split at eligible
  · rename_i tombstoned
    exact eligible.2.2 tombstoned
  · rename_i living
    rw [if_neg living] at inactive
    split at eligible
    · rename_i chosen
      rw [if_pos chosen] at inactive
      exact inactive rfl
    · rename_i passed
      apply passed
      split at eligible
      · rename_i wasActive
        refine ⟨ranks, eligible.1, ?_⟩
        rw [wasActive]
        decide
      · exact ⟨ranks, eligible.1, eligible.2.1⟩

theorem selectOne_counters (config : RegistryConfig) (newEpoch : UInt64) (index : Nat) (ranked : Validator) :
    (selectOne config newEpoch index ranked).blocksSignedThisEpoch = 0 ∧
      (selectOne config newEpoch index ranked).blocksMissedThisEpoch = 0 := by
  unfold selectOne
  simp only []
  split <;> split <;> first | exact ⟨rfl, rfl⟩ | (split <;> first | exact ⟨rfl, rfl⟩ | (split <;> exact ⟨rfl, rfl⟩))

/-! ## The whole set -/

/-- The record of a rank is selected from the ranked record. -/
theorem exists_ranked {newEpoch totalBlocks : UInt64} {index : Nat} {validator : Validator}
    (found : (registry.selectedFor newEpoch totalBlocks)[index]? = some validator) :
    ∃ ranked, (registry.checkedFor newEpoch totalBlocks).rankByStake[index]? = some ranked ∧
      selectOne registry.config newEpoch index ranked = validator := by
  unfold selectedFor at found
  rw [List.getElem?_mapIdx, (registry.checkedFor_frame newEpoch totalBlocks).1] at found
  exact Option.map_eq_some_iff.mp found

theorem ranksNotAfter_selectOne (config : RegistryConfig) (epoch : UInt64) (first second : Nat)
    (left right : Validator) :
    Validator.ranksNotAfter (selectOne config epoch first left) (selectOne config epoch second right) <->
      Validator.ranksNotAfter left right := by
  unfold Validator.ranksNotAfter Validator.ranksBefore
  rw [selectOne_stake, selectOne_stake, selectOne_id, selectOne_id]

variable {newEpoch totalBlocks : UInt64}

/-- Of two ranks the smaller one ranks strictly before. -/
theorem RegistryOk.ranksBefore_of_lt (ok : RegistryOk registry) {first second : Nat} {left right : Validator}
    (leftFound : (registry.selectedFor newEpoch totalBlocks)[first]? = some left)
    (rightFound : (registry.selectedFor newEpoch totalBlocks)[second]? = some right) (earlier : first < second) :
    left.ranksBefore right = true := by
  rcases exists_ranked leftFound with ⟨leftRanked, leftRank, rfl⟩
  rcases exists_ranked rightFound with ⟨rightRanked, rightRank, rfl⟩
  apply Validator.ranksBefore_of_ranksNotAfter
  · rw [ranksNotAfter_selectOne]
    have ordered := List.pairwise_iff_getElem.mp (registry.checkedFor newEpoch totalBlocks).rankByStake_ordered
    rcases List.getElem?_eq_some_iff.mp leftRank with ⟨leftBound, rfl⟩
    rcases List.getElem?_eq_some_iff.mp rightRank with ⟨rightBound, rfl⟩
    exact ordered first second leftBound rightBound earlier
  · have distinct := List.pairwise_iff_getElem.mp (ok.selectedFor_distinct newEpoch totalBlocks)
    rcases List.getElem?_eq_some_iff.mp leftFound with ⟨leftBound, leftEntry⟩
    rcases List.getElem?_eq_some_iff.mp rightFound with ⟨rightBound, rightEntry⟩
    have unequal := distinct first second (by rw [List.length_map]; exact leftBound)
      (by rw [List.length_map]; exact rightBound) earlier
    rw [List.getElem_map, List.getElem_map, leftEntry, rightEntry] at unequal
    exact unequal

theorem RegistryOk.selectedFor_ordered (ok : RegistryOk registry) :
    (registry.selectedFor newEpoch totalBlocks).Pairwise fun left right => left.ranksBefore right = true := by
  apply List.pairwise_iff_getElem.mpr
  intro first second leftBound rightBound earlier
  exact ok.ranksBefore_of_lt (List.getElem?_eq_getElem leftBound) (List.getElem?_eq_getElem rightBound) earlier

/-- Elements that stand before an index are no more than the index. -/
theorem length_filter_le_of_index {Item : Type} {items : List Item} {test : Item -> Bool} {limit : Nat}
    (before : forall index item, items[index]? = some item -> test item = true -> index < limit) :
    (items.filter test).length ≤ limit := by
  have late : (items.drop limit).filter test = [] := by
    apply List.filter_eq_nil_iff.mpr
    intro item member passes
    rcases List.mem_iff_getElem?.mp member with ⟨index, found⟩
    rw [List.getElem?_drop] at found
    exact Nat.not_lt.mpr (Nat.le_add_right limit index) (before _ item found passes)
  have split : items.filter test = (items.take limit).filter test ++ (items.drop limit).filter test := by
    rw [← List.filter_append, List.take_append_drop]
  rw [split, late, List.append_nil]
  exact Nat.le_trans (List.length_filter_le _ _) (List.length_take_le _ _)

theorem active_index {index : Nat} {validator : Validator}
    (found : (registry.selectedFor newEpoch totalBlocks)[index]? = some validator)
    (active : validator.status = .active) :
    index < registry.config.activeValidatorCount.toNat ∧ registry.config.minimumSelfBond ≤ validator.bondedStake := by
  rcases exists_ranked found with ⟨ranked, _, rfl⟩
  exact selectOne_active active

theorem passed_index {index : Nat} {validator : Validator}
    (found : (registry.selectedFor newEpoch totalBlocks)[index]? = some validator)
    (eligible : validator.Eligible registry.config) (inactive : validator.status ≠ .active) :
    registry.config.activeValidatorCount.toNat ≤ index := by
  rcases exists_ranked found with ⟨ranked, _, rfl⟩
  exact selectOne_passed eligible inactive

/-- The active stake of the selected set is part of the bonded stake. -/
theorem activeStake_selectedSet_le (prim : Primitives) :
    (registry.selectedSet prim newEpoch totalBlocks).activeStake ≤ registry.totalBonded := by
  have part : (registry.selectedSet prim newEpoch totalBlocks).activeStake ≤
      ((registry.selectedFor newEpoch totalBlocks).map fun v => v.bondedStake.toNat).sum :=
    (List.filter_sublist.map _).sum_le_sum (fun _ _ => Nat.zero_le _)
  rw [registry.sum_selectedFor newEpoch totalBlocks] at part
  have less := registry.totalBonded_checkedFor newEpoch totalBlocks
  omega

/-- What a transition is to select: `set` is what it returns, `after` the registry it
leaves. -/
structure SelectsSoundly (prim : Primitives) (registry : ValidatorRegistry) (set : ValidatorSet)
    (after : ValidatorRegistry) : Prop where
  stored : after.currentSet = set
  eligible : forall validator, validator ∈ set.validators -> validator.status = .active ->
    validator.Eligible registry.config
  limited : set.getActiveValidators.length ≤ registry.config.activeValidatorCount.toNat
  first : forall chosen, chosen ∈ set.validators -> chosen.status = .active ->
    forall passed, passed ∈ set.validators -> passed.Eligible registry.config -> passed.status ≠ .active ->
      chosen.ranksBefore passed = true
  total : set.totalStake.toNat = set.activeStake
  ordered : set.validators.Pairwise fun left right => left.ranksBefore right = true
  complete : (set.validators.map Validator.id).Perm registry.validators.keys
  agrees : forall id validator, after.validators[id]? = some validator <->
    validator ∈ set.validators ∧ validator.id = id
  reset : forall validator, validator ∈ set.validators ->
    validator.blocksSignedThisEpoch = 0 ∧ validator.blocksMissedThisEpoch = 0
  rooted : set.merkleRoot = set.computeRoot prim

/-- The ids of a transition are those of the registry before it. -/
theorem keys_checkedFor (registry : ValidatorRegistry) (newEpoch totalBlocks : UInt64) :
    (registry.checkedFor newEpoch totalBlocks).validators.keys = registry.validators.keys := by
  unfold checkedFor checkDowntime
  split
  · split
    · rfl
    · exact Std.ExtTreeMap.keys_map
  · rfl

/-- Every active record comes before every eligible record that was passed over. -/
theorem RegistryOk.active_ranksBefore_passed (ok : RegistryOk registry) {chosen passed : Validator}
    (listed : chosen ∈ registry.selectedFor newEpoch totalBlocks) (active : chosen.status = .active)
    (other : passed ∈ registry.selectedFor newEpoch totalBlocks) (eligible : passed.Eligible registry.config)
    (inactive : passed.status ≠ .active) : chosen.ranksBefore passed = true := by
  rcases List.mem_iff_getElem?.mp listed with ⟨first, chosenFound⟩
  rcases List.mem_iff_getElem?.mp other with ⟨second, passedFound⟩
  have within := (active_index chosenFound active).1
  have beyond := passed_index passedFound eligible inactive
  exact ok.ranksBefore_of_lt chosenFound passedFound (Nat.lt_of_lt_of_le within beyond)

/-- The transition selects soundly from every registry that keeps its records under
their ids and whose stakes sum up to less than `2^64`. -/
theorem transitionEpoch_selectsSoundly (prim : Primitives) (registry : ValidatorRegistry) (ok : RegistryOk registry)
    (below : registry.totalBonded < 2 ^ 64) (newEpoch totalBlocks : UInt64) :
    SelectsSoundly prim registry (registry.transitionEpoch prim newEpoch totalBlocks).1
      (registry.transitionEpoch prim newEpoch totalBlocks).2 := by
  have agrees := ok.transitionEpoch_getElem prim newEpoch totalBlocks
  rw [transitionEpoch_eq] at agrees ⊢
  constructor
  case stored => rfl
  case eligible =>
    intro validator listed active
    rcases List.mem_iff_getElem?.mp listed with ⟨index, found⟩
    refine ⟨(active_index found active).2, ?_, ?_⟩
    · rw [active]
      decide
    · rw [active]
      decide
  case limited =>
    apply length_filter_le_of_index
    intro index validator found active
    exact (active_index found (of_decide_eq_true active)).1
  case first =>
    intro chosen listed active passed other eligible inactive
    exact ok.active_ranksBefore_passed listed active other eligible inactive
  case total =>
    have fits : (registry.selectedSet prim newEpoch totalBlocks).activeStake < 2 ^ 64 :=
      Nat.lt_of_le_of_lt (activeStake_selectedSet_le prim) below
    exact (toNat_sumActive _).trans (Nat.mod_eq_of_lt fits)
  case ordered => exact ok.selectedFor_ordered
  case complete =>
    have ids := ok.selectedFor_ids newEpoch totalBlocks
    rw [keys_checkedFor] at ids
    exact ids
  case agrees => exact agrees
  case reset =>
    intro validator listed
    rcases List.mem_iff_getElem?.mp listed with ⟨index, found⟩
    rcases exists_ranked found with ⟨ranked, _, rfl⟩
    exact selectOne_counters registry.config newEpoch index ranked
  case rooted => rfl

/-- Four validators for two places. -/
def crowded : List RegistryCall := [newcomer 1 7, newcomer 2 20, newcomer 3 10, newcomer 4 10]

theorem transitionEpoch_selectsSoundly_crowded :
    let registry := run (ValidatorRegistry.call Transparent.primitives) (create smallConfig) crowded
    SelectsSoundly Transparent.primitives registry (registry.transitionEpoch Transparent.primitives 1 0).1
        (registry.transitionEpoch Transparent.primitives 1 0).2 ∧
      (registry.transitionEpoch Transparent.primitives 1 0).1.getActiveValidators.map Validator.id =
        [numbered 2, numbered 3] :=
  ⟨transitionEpoch_selectsSoundly Transparent.primitives _ (registryOk_run _ _ _) (by decide +kernel) 1 0,
    by decide +kernel⟩

end ValidatorRegistry
end Consensus
end Sarafu

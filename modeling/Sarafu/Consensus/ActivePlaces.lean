import Sarafu.Consensus.EpochSelection
import Sarafu.Consensus.StakeFlow
import Sarafu.Library.RankedPlaces

namespace Sarafu
namespace Consensus

open Crypto State Library.Runs Library.RankedPlaces

/-!
# Who gets the places of an epoch

An epoch transition walks through all records by stake and activates the eligible ones
among the first `active_validator_count` of them.  A jailed, tombstoned or too small
record keeps the place of its rank empty, even when an eligible record stands beyond
the limit.

The downtime check of the same call jails a first offender until the new epoch, and puts
later offenders on standby.  Release from jail and selection follow at once, so every
offender takes part in the selection like anybody else.
-/

instance (config : RegistryConfig) (validator : Validator) : Decidable (validator.Eligible config) :=
  inferInstanceAs (Decidable (_ ∧ _ ∧ _))

namespace ValidatorRegistry

/-- The records in the order in which the transition walks through them. -/
def ranking (registry : ValidatorRegistry) (newEpoch totalBlocks : UInt64) : List Validator :=
  (registry.checkedFor newEpoch totalBlocks).rankByStake

/-- The records that are eligible after the release from jail. -/
def eligibleFor (registry : ValidatorRegistry) (newEpoch totalBlocks : UInt64) : List Validator :=
  ((registry.ranking newEpoch totalBlocks).map (released newEpoch)).filter fun v => decide (v.Eligible registry.config)

/-- No ineligible record ranks within the limit, or no eligible one beyond it. -/
def PlacesFree (registry : ValidatorRegistry) (newEpoch totalBlocks : UInt64) : Prop :=
  (forall ranked, ranked ∈ (registry.ranking newEpoch totalBlocks).take registry.config.activeValidatorCount.toNat ->
    (released newEpoch ranked).Eligible registry.config) ∨
  forall ranked, ranked ∈ (registry.ranking newEpoch totalBlocks).drop registry.config.activeValidatorCount.toNat ->
    ¬ (released newEpoch ranked).Eligible registry.config

variable {registry : ValidatorRegistry}

/-- A record is activated exactly if its rank is within the limit and it is eligible. -/
theorem selectOne_active_iff (config : RegistryConfig) (newEpoch : UInt64) (index : Nat) (ranked : Validator) :
    (selectOne config newEpoch index ranked).status = .active <->
      index < config.activeValidatorCount.toNat ∧ (released newEpoch ranked).Eligible config := by
  rw [selectOne_eq]
  unfold Validator.Eligible
  split
  · rename_i tombstoned
    rw [tombstoned]
    constructor
    · exact nofun
    · exact fun ⟨_, _, _, living⟩ => absurd rfl living
  · rename_i living
    split
    · rename_i chosen
      exact ⟨fun _ => ⟨chosen.1, chosen.2.1, chosen.2.2, living⟩, fun _ => rfl⟩
    · rename_i passed
      have absent : ¬ (index < config.activeValidatorCount.toNat ∧
          config.minimumSelfBond ≤ (released newEpoch ranked).bondedStake ∧
          (released newEpoch ranked).status ≠ .jailed ∧ (released newEpoch ranked).status ≠ .tombstoned) :=
        fun ⟨within, stake, free, _⟩ => passed ⟨within, stake, free⟩
      split
      · exact ⟨nofun, fun eligible => absurd eligible absent⟩
      · rename_i inactive
        exact ⟨fun active => absurd active inactive, fun eligible => absurd eligible absent⟩

/-- The active validators of the new set are the eligible records within the limit. -/
theorem length_active_selectedSet (prim : Primitives) (registry : ValidatorRegistry) (newEpoch totalBlocks : UInt64) :
    (registry.selectedSet prim newEpoch totalBlocks).getActiveValidators.length =
      (((registry.ranking newEpoch totalBlocks).take registry.config.activeValidatorCount.toNat).filter fun ranked =>
        decide ((released newEpoch ranked).Eligible registry.config)).length := by
  change ((registry.selectedFor newEpoch totalBlocks).filter Validator.isActive).length = _
  unfold selectedFor
  apply length_filter_mapIdx
  intro index ranked
  rw [(registry.checkedFor_frame newEpoch totalBlocks).1, ← Bool.decide_and]
  apply decide_eq_decide.mpr
  exact selectOne_active_iff registry.config newEpoch index ranked

/-- The places of an epoch are filled from every registry exactly if no ineligible
record stands before an eligible one that gets none. -/
theorem transitionEpoch_fills_iff (prim : Primitives) (registry : ValidatorRegistry) (newEpoch totalBlocks : UInt64) :
    (registry.transitionEpoch prim newEpoch totalBlocks).1.getActiveValidators.length =
        min registry.config.activeValidatorCount.toNat (registry.eligibleFor newEpoch totalBlocks).length <->
      PlacesFree registry newEpoch totalBlocks := by
  have filled := length_filter_take_eq_min_iff
    (fun ranked => decide ((released newEpoch ranked).Eligible registry.config))
    (registry.ranking newEpoch totalBlocks) registry.config.activeValidatorCount.toNat
  have eligible : (registry.eligibleFor newEpoch totalBlocks).length =
      ((registry.ranking newEpoch totalBlocks).filter fun ranked =>
        decide ((released newEpoch ranked).Eligible registry.config)).length := by
    rw [eligibleFor, List.filter_map, List.length_map]
    rfl
  rw [← length_active_selectedSet prim registry newEpoch totalBlocks, ← eligible] at filled
  simp only [decide_eq_true_eq, decide_eq_false_iff_not] at filled
  exact filled

/-- The first of three validators is tombstoned. -/
def buriedFirst : List RegistryCall :=
  [newcomer 1 30, newcomer 2 20, newcomer 3 10, .updateValidator (numbered 1) none none (some .tombstoned)]

/-- The tombstone keeps one of two places empty, and the third validator stays on
standby. -/
theorem tombstone_keeps_place :
    ((run (ValidatorRegistry.call Transparent.primitives) (create smallConfig) buriedFirst).transitionEpoch
      Transparent.primitives 1 0).1.getActiveValidators.length = 1 ∧
    min smallConfig.activeValidatorCount.toNat
      ((run (ValidatorRegistry.call Transparent.primitives) (create smallConfig) buriedFirst).eligibleFor 1 0).length =
        2 := by
  refine ⟨by decide +kernel, by decide +kernel⟩

/-! ## Downtime offenders -/

/-- The rank of an id, counted from zero. -/
def rankOf (registry : ValidatorRegistry) (newEpoch totalBlocks : UInt64) (id : ValidatorID) : Nat :=
  ((registry.ranking newEpoch totalBlocks).map Validator.id).idxOf id

/-- An id is not active in a set. -/
def KeptOut (set : ValidatorSet) (id : ValidatorID) : Prop :=
  forall entry, entry ∈ set.validators -> entry.id = id -> entry.status ≠ .active

/-- A penalized record is on standby, or in jail until the next epoch. -/
theorem penalize_status (epoch : UInt64) (v : Validator) :
    (penalize epoch v).status = .standby ∨
      ((penalize epoch v).status = .jailed ∧ (penalize epoch v).jailedUntilEpoch = epoch + 1) := by
  unfold penalize
  simp only []
  split
  · rename_i already
    exact Or.inr already.2
  · split
    · exact Or.inr ⟨rfl, rfl⟩
    · split
      · exact Or.inl rfl
      · exact Or.inl rfl

/-- The release from jail in the next epoch leaves every offender on standby. -/
theorem released_penalize (epoch : UInt64) (v : Validator) :
    (released (epoch + 1) (penalize epoch v)).status = .standby := by
  unfold released
  rcases penalize_status epoch v with standby | ⟨jailed, term⟩
  · simp only [standby, reduceCtorEq, false_and, if_false]
  · simp only [jailed, term, UInt64.le_refl, and_self, if_true]

theorem released_stake (newEpoch : UInt64) (v : Validator) : (released newEpoch v).bondedStake = v.bondedStake := by
  unfold released
  simp only []
  split
  · rfl
  · rfl

/-- A reported id has a record, which the check penalizes. -/
theorem RegistryOk.exists_penalized (ok : RegistryOk registry) {epoch totalBlocks : UInt64} {id : ValidatorID}
    (reported : id ∈ (registry.checkDowntime epoch totalBlocks).1) :
    ∃ before, registry.validators[id]? = some before ∧
      (registry.checkDowntime epoch totalBlocks).2.validators[id]? = some (penalize epoch before) := by
  by_cases noBlocks : totalBlocks = 0
  · simp [ValidatorRegistry.checkDowntime, noBlocks] at reported
  · rcases (ok.reported_iff noBlocks id).mp reported with ⟨before, found, violating⟩
    refine ⟨before, found, ?_⟩
    rw [checkDowntime_validators noBlocks, found, Option.map_some, checkOne_violating violating]

/-- The record of an id is ranked at the rank of the id, and nowhere else. -/
theorem RegistryOk.ranking_iff (ok : RegistryOk registry) {newEpoch totalBlocks : UInt64} {validator : Validator}
    (found : (registry.checkedFor newEpoch totalBlocks).validators[validator.id]? = some validator) (index : Nat) :
    ((registry.ranking newEpoch totalBlocks).map Validator.id)[index]? = some validator.id <->
      index = registry.rankOf newEpoch totalBlocks validator.id := by
  have distinct : ((registry.ranking newEpoch totalBlocks).map Validator.id).Nodup :=
    (ok.checkedFor newEpoch totalBlocks).1.rankByStake_ids.nodup_iff.mpr Std.ExtTreeMap.nodup_keys
  have member : validator.id ∈ (registry.ranking newEpoch totalBlocks).map Validator.id :=
    List.mem_map_of_mem (((ok.checkedFor newEpoch totalBlocks).1.mem_rankByStake_iff validator).mpr found)
  constructor
  · intro ranked
    rcases List.getElem?_eq_some_iff.mp ranked with ⟨bound, entry⟩
    rw [rankOf, ← entry]
    exact (distinct.idxOf_getElem index bound).symm
  · intro rank
    rw [rank, rankOf]
    exact List.getElem?_idxOf member

/-- Whether an id is active in the new set depends on its rank and on its record. -/
theorem RegistryOk.keptOut_iff (prim : Primitives) (ok : RegistryOk registry) {newEpoch totalBlocks : UInt64}
    {validator : Validator}
    (found : (registry.checkedFor newEpoch totalBlocks).validators[validator.id]? = some validator) :
    KeptOut (registry.selectedSet prim newEpoch totalBlocks) validator.id <->
      ¬ (registry.rankOf newEpoch totalBlocks validator.id < registry.config.activeValidatorCount.toNat ∧
        (released newEpoch validator).Eligible registry.config) := by
  have ranked : (registry.ranking newEpoch totalBlocks)[registry.rankOf newEpoch totalBlocks validator.id]? =
      some validator := by
    have id := (ok.ranking_iff found _).mpr rfl
    rw [List.getElem?_map] at id
    rcases Option.map_eq_some_iff.mp id with ⟨entry, stands, own⟩
    have member := List.mem_of_getElem? stands
    have record := ((ok.checkedFor newEpoch totalBlocks).1.mem_rankByStake_iff entry).mp member
    rw [own, found] at record
    rw [stands, Option.some.inj record]
  have selected : (registry.selectedFor newEpoch totalBlocks)[registry.rankOf newEpoch totalBlocks validator.id]? =
      some (selectOne registry.config newEpoch (registry.rankOf newEpoch totalBlocks validator.id) validator) := by
    unfold selectedFor
    rw [List.getElem?_mapIdx, (registry.checkedFor_frame newEpoch totalBlocks).1]
    exact congrArg (Option.map _) ranked
  rw [← selectOne_active_iff]
  constructor
  · intro out active
    exact out _ (List.mem_of_getElem? selected) (selectOne_id _ _ _ _) active
  · intro inactive entry listed own active
    rcases List.mem_iff_getElem?.mp listed with ⟨index, entryFound⟩
    rcases exists_ranked entryFound with ⟨before, beforeRanked, same⟩
    have ids : ((registry.ranking newEpoch totalBlocks).map Validator.id)[index]? = some validator.id := by
      rw [List.getElem?_map]
      change ((registry.checkedFor newEpoch totalBlocks).rankByStake[index]?).map Validator.id = _
      rw [beforeRanked, Option.map_some, ← own, ← same, selectOne_id]
    rw [(ok.ranking_iff found index).mp ids] at entryFound
    rw [Option.some.inj (entryFound.symm.trans selected)] at active
    exact inactive active

theorem config_run (prim : Primitives) (config : RegistryConfig) (calls : List RegistryCall) :
    (run (ValidatorRegistry.call prim) (create config) calls).config = config :=
  invariant_run (fun registry : ValidatorRegistry => registry.config = config)
    (fun registry call same _ => (config_call prim registry call).trans same) rfl (along_true _ calls)

/-- In every reachable registry, a validator that the downtime check of an epoch
transition reports is kept out of the new set exactly if it ranks beyond the limit or
its stake after the penalty is too small. -/
theorem reported_keptOut_iff (prim : Primitives) (config : RegistryConfig) (calls : List RegistryCall)
    (newEpoch totalBlocks : UInt64) (later : 1 < newEpoch) (id : ValidatorID)
    (reported : id ∈ ((run (ValidatorRegistry.call prim) (create config) calls).checkDowntime (newEpoch - 1)
      totalBlocks).1) :
    KeptOut ((run (ValidatorRegistry.call prim) (create config) calls).transitionEpoch prim newEpoch
        totalBlocks).1 id <->
      config.activeValidatorCount.toNat ≤
          (run (ValidatorRegistry.call prim) (create config) calls).rankOf newEpoch totalBlocks id ∨
        ((run (ValidatorRegistry.call prim) (create config) calls).checkedFor newEpoch totalBlocks).stakeOf id <
          config.minimumSelfBond.toNat := by
  have ok := registryOk_run prim config calls
  have sameConfig := config_run prim config calls
  generalize run (ValidatorRegistry.call prim) (create config) calls = registry at ok reported sameConfig ⊢
  subst sameConfig
  rcases ok.exists_penalized reported with ⟨before, _, penalized⟩
  have checked : (registry.checkedFor newEpoch totalBlocks).validators[id]? =
      some (penalize (newEpoch - 1) before) := by
    unfold checkedFor
    rw [if_pos later]
    exact penalized
  have own := (ok.checkedFor newEpoch totalBlocks).1.keyed id _ checked
  have standby := released_penalize (newEpoch - 1) before
  rw [UInt64.sub_add_cancel] at standby
  have kept := ok.keptOut_iff prim (own.symm ▸ checked)
  rw [own] at kept
  rw [transitionEpoch_eq, stakeOf_of_found checked]
  change KeptOut (registry.selectedSet prim newEpoch totalBlocks) id <-> _
  rw [kept, Validator.Eligible, standby, released_stake, UInt64.le_iff_toNat_le]
  constructor
  · intro out
    by_contra inside
    rw [not_or, Nat.not_le, Nat.not_lt] at inside
    exact out ⟨inside.1, inside.2, by decide, by decide⟩
  · rintro (beyond | small) ⟨within, enough, _⟩
    · exact Nat.not_lt.mpr beyond within
    · exact Nat.not_lt.mpr enough small

/-- Three validators for two places; in the first epoch only the second one signs. -/
def idleCalls : List RegistryCall :=
  [newcomer 1 30, newcomer 2 20, newcomer 3 10, .transitionEpoch 1 0, .recordSignature (numbered 2) 1]

theorem reported_keptOut_iff_idle :
    KeptOut ((run (ValidatorRegistry.call Transparent.primitives) (create smallConfig) idleCalls).transitionEpoch
        Transparent.primitives 2 1).1 (numbered 1) <->
      smallConfig.activeValidatorCount.toNat ≤
          (run (ValidatorRegistry.call Transparent.primitives) (create smallConfig) idleCalls).rankOf 2 1 (numbered 1) ∨
        ((run (ValidatorRegistry.call Transparent.primitives) (create smallConfig) idleCalls).checkedFor 2 1).stakeOf
            (numbered 1) < smallConfig.minimumSelfBond.toNat :=
  reported_keptOut_iff Transparent.primitives smallConfig idleCalls 2 1 (by decide) (numbered 1) (by decide +kernel)

/-- The first validator signs nothing in epoch one, is reported and jailed at the
transition to epoch two, and is active in epoch two. -/
theorem offender_active_at_once :
    numbered 1 ∈ ((run (ValidatorRegistry.call Transparent.primitives) (create smallConfig) idleCalls).checkDowntime
      1 1).1 ∧
    ¬ KeptOut ((run (ValidatorRegistry.call Transparent.primitives) (create smallConfig) idleCalls).transitionEpoch
      Transparent.primitives 2 1).1 (numbered 1) := by
  unfold KeptOut
  refine ⟨by decide +kernel, by decide +kernel⟩

end ValidatorRegistry
end Consensus
end Sarafu

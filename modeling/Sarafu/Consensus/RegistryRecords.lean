import Sarafu.Consensus.RegistryWrites
import Sarafu.Library.KeyedMaps
import Sarafu.Library.Runs

namespace Sarafu
namespace Consensus

open Crypto State Library.Runs Library.KeyedMaps

/-!
# The records of the registry

Every record stands under its own id, and the ids of the current set are
distinct and registered.  No operation removes a record.  An epoch transition
rebuilds the set from all records, so the ids of the set never shrink either:
an id that was listed once stays listed under every later set.
-/

namespace ValidatorRegistry

variable {registry after : ValidatorRegistry}

/-- The ids listed in the current set. -/
def listedIds (registry : ValidatorRegistry) : List ValidatorID := registry.currentSet.validators.map Validator.id

structure RegistryOk (registry : ValidatorRegistry) : Prop where
  keyed : forall (id : ValidatorID) (validator : Validator), registry.validators[id]? = some validator ->
    validator.id = id
  distinct : registry.currentSet.DistinctIds
  registered : forall id, id ∈ registry.listedIds -> ∃ validator, registry.validators[id]? = some validator

/-- No record and no listed id is lost. -/
structure Carries (registry after : ValidatorRegistry) : Prop where
  records : forall (id : ValidatorID) (validator : Validator), registry.validators[id]? = some validator ->
    ∃ kept, after.validators[id]? = some kept
  listed : forall id, id ∈ registry.listedIds -> id ∈ after.listedIds

theorem Carries.refl (registry : ValidatorRegistry) : Carries registry registry :=
  ⟨fun _ validator found => ⟨validator, found⟩, fun _ listed => listed⟩

theorem Carries.trans {last : ValidatorRegistry} (first : Carries registry after) (second : Carries after last) :
    Carries registry last where
  records := by
    intro id validator found
    rcases first.records id validator found with ⟨kept, keptFound⟩
    exact second.records id kept keptFound
  listed := fun id listed => second.listed id (first.listed id listed)

/-! ## Operations on one record -/

theorem map_id_changeFirst (id : ValidatorID) (change : Validator -> Validator)
    (keepsId : forall validator, (change validator).id = validator.id) (validators : List Validator) :
    (changeFirst id change validators).map Validator.id = validators.map Validator.id := by
  induction validators with
  | nil => rfl
  | cons validator rest inductionHypothesis =>
      unfold changeFirst
      split
      · rw [List.map_cons, List.map_cons, keepsId]
      · rw [List.map_cons, List.map_cons, inductionHypothesis]

/-- Writing one record under its own id, with the listed ids as they were. -/
theorem RegistryOk.written (ok : RegistryOk registry) {id : ValidatorID} (entry : Validator) (own : entry.id = id)
    (validators : after.validators = registry.validators.insert id entry)
    (ids : after.listedIds = registry.listedIds) : RegistryOk after ∧ Carries registry after := by
  have kept : forall (other : ValidatorID) (validator : Validator), registry.validators[other]? = some validator ->
      ∃ found, after.validators[other]? = some found := by
    intro other validator found
    rw [validators, OrderedMap.find_insert]
    split
    · exact ⟨entry, rfl⟩
    · exact ⟨validator, found⟩
  refine ⟨⟨?_, ?_, ?_⟩, kept, ?_⟩
  · intro other validator found
    rw [validators, OrderedMap.find_insert] at found
    split at found
    · rename_i same
      rw [← Option.some.inj found, own, same]
    · exact ok.keyed other validator found
  · unfold ValidatorSet.DistinctIds
    change after.listedIds.Nodup
    rw [ids]
    exact ok.distinct
  · intro other listed
    rw [ids] at listed
    rcases ok.registered other listed with ⟨validator, found⟩
    exact kept other validator found
  · intro other listed
    rw [ids]
    exact listed

theorem RegistryOk.addValidator (ok : RegistryOk registry) (id : ValidatorID) (consensusKey : BLS12381PublicKey)
    (withdrawalKey : Ed25519PublicKey) (initialStake : UInt64) :
    RegistryOk (registry.addValidator id consensusKey withdrawalKey initialStake).2 ∧
      Carries registry (registry.addValidator id consensusKey withdrawalKey initialStake).2 := by
  unfold ValidatorRegistry.addValidator
  split
  · exact ⟨ok, Carries.refl registry⟩
  · exact ok.written (Validator.make id consensusKey withdrawalKey initialStake) rfl rfl rfl

/-- An operation on one record that keeps the ids. -/
theorem RegistryOk.of_performs (ok : RegistryOk registry) {id : ValidatorID} {write : Write}
    {result : Bool × ValidatorRegistry} (performs : Performs registry id write result)
    (keepsId : forall validator, (write.record validator).id = validator.id)
    (keepsListed : forall found listed, (write.entry found listed).id = listed.id) :
    RegistryOk result.2 ∧ Carries registry result.2 := by
  rcases performs with refused | ⟨validator, wrote⟩
  · rw [refused]
    exact ⟨ok, Carries.refl registry⟩
  · refine ok.written (write.record validator) ?_ wrote.stored ?_
    · rw [keepsId]
      exact ok.keyed id validator wrote.found
    · unfold listedIds
      rw [wrote.set.validators]
      exact map_id_changeFirst id (write.entry validator) (keepsListed validator) _

theorem RegistryOk.updateValidator (ok : RegistryOk registry) (id : ValidatorID)
    (consensusKey : Option BLS12381PublicKey) (withdrawalKey : Option Ed25519PublicKey)
    (newStatus : Option ValidatorStatus) :
    RegistryOk (registry.updateValidator id consensusKey withdrawalKey newStatus).2 ∧
      Carries registry (registry.updateValidator id consensusKey withdrawalKey newStatus).2 :=
  ok.of_performs (registry.updateValidator_performs id consensusKey withdrawalKey newStatus) (fun _ => rfl)
    (fun _ _ => rfl)

theorem RegistryOk.bondStake (ok : RegistryOk registry) (id : ValidatorID) (amount : UInt64) :
    RegistryOk (registry.bondStake id amount).2 ∧ Carries registry (registry.bondStake id amount).2 :=
  ok.of_performs (registry.bondStake_performs id amount) (fun _ => rfl) (fun _ _ => rfl)

theorem RegistryOk.slashValidator (ok : RegistryOk registry) (id : ValidatorID) (amount : UInt64)
    (reason : SlashReason) : RegistryOk (registry.slashValidator id amount reason).2 ∧
      Carries registry (registry.slashValidator id amount reason).2 :=
  ok.of_performs (registry.slashValidator_performs id amount reason) (fun _ => rfl) (fun _ _ => rfl)

theorem RegistryOk.unbondStake (ok : RegistryOk registry) (id : ValidatorID) (amount currentHeight : UInt64) :
    RegistryOk (registry.unbondStake id amount currentHeight).2 ∧
      Carries registry (registry.unbondStake id amount currentHeight).2 :=
  ok.of_performs (registry.unbondStake_performs id amount currentHeight) (fun _ => rfl) (fun _ _ => rfl)

theorem RegistryOk.recordSignature (ok : RegistryOk registry) (id : ValidatorID) (blockHeight : UInt64) :
    RegistryOk (registry.recordSignature id blockHeight).2 ∧
      Carries registry (registry.recordSignature id blockHeight).2 :=
  ok.of_performs (registry.recordSignature_performs id blockHeight) (fun _ => rfl) (fun _ _ => rfl)

/-! ## The epoch transition -/

theorem penalize_id (epoch : UInt64) (validator : Validator) : (penalize epoch validator).id = validator.id := by
  unfold penalize
  simp only []
  split
  · rfl
  · split
    · rfl
    · split
      · rfl
      · rfl

theorem checkOne_id (registry : ValidatorRegistry) (epoch totalBlocks : UInt64) (validator : Validator) :
    (checkOne registry epoch totalBlocks validator).id = validator.id := by
  unfold checkOne
  split
  · split
    · exact penalize_id epoch validator
    · rfl
  · rfl

theorem selectOne_id (config : RegistryConfig) (newEpoch : UInt64) (index : Nat) (ranked : Validator) :
    (selectOne config newEpoch index ranked).id = ranked.id := by
  unfold selectOne
  simp only []
  split <;> split <;> first | rfl | (split <;> first | rfl | (split <;> rfl))

theorem checkOne_violating {epoch totalBlocks : UInt64} {validator : Validator}
    (violating : violates registry totalBlocks validator = true) :
    checkOne registry epoch totalBlocks validator = penalize epoch validator := by
  rw [violates, Bool.and_eq_true] at violating
  rw [checkOne, if_pos violating.1, if_pos violating.2]

/-- A downtime check changes every record on its own. -/
theorem checkDowntime_validators {epoch totalBlocks : UInt64} (someBlocks : totalBlocks ≠ 0) (id : ValidatorID) :
    (registry.checkDowntime epoch totalBlocks).2.validators[id]? =
      (registry.validators[id]?).map (checkOne registry epoch totalBlocks) := by
  rw [checkDowntime, if_neg someBlocks]
  exact Std.ExtTreeMap.getElem?_map

/-- The reported ids are those whose record violates the threshold. -/
theorem RegistryOk.reported_iff (ok : RegistryOk registry) {epoch totalBlocks : UInt64} (someBlocks : totalBlocks ≠ 0)
    (id : ValidatorID) : id ∈ (registry.checkDowntime epoch totalBlocks).1 <->
      ∃ validator, registry.validators[id]? = some validator ∧ violates registry totalBlocks validator = true := by
  rw [ValidatorRegistry.checkDowntime, if_neg someBlocks]
  simp only [List.mem_map, List.mem_filter, Prod.exists]
  constructor
  · rintro ⟨key, validator, ⟨listed, violating⟩, own⟩
    have found : registry.validators[key]? = some validator :=
      Std.ExtTreeMap.mem_toList_iff_getElem?_eq_some.mp listed
    have same : key = id := (ok.keyed key validator found).symm.trans own
    exact ⟨validator, same ▸ found, violating⟩
  · rintro ⟨validator, found, violating⟩
    have listed := Std.ExtTreeMap.mem_toList_iff_getElem?_eq_some.mpr found
    exact ⟨id, validator, ⟨listed, violating⟩, ok.keyed id validator found⟩

theorem RegistryOk.checkDowntime (ok : RegistryOk registry) (epoch totalBlocks : UInt64) :
    RegistryOk (registry.checkDowntime epoch totalBlocks).2 ∧
      Carries registry (registry.checkDowntime epoch totalBlocks).2 := by
  by_cases noBlocks : totalBlocks = 0
  · rw [ValidatorRegistry.checkDowntime, if_pos noBlocks]
    exact ⟨ok, Carries.refl registry⟩
  · have kept : forall (id : ValidatorID) (validator : Validator), registry.validators[id]? = some validator ->
        (registry.checkDowntime epoch totalBlocks).2.validators[id]? =
          some (checkOne registry epoch totalBlocks validator) := by
      intro id validator found
      rw [checkDowntime_validators noBlocks, found]
      rfl
    have set : (registry.checkDowntime epoch totalBlocks).2.currentSet = registry.currentSet := by
      rw [ValidatorRegistry.checkDowntime, if_neg noBlocks]
    refine ⟨⟨?_, set ▸ ok.distinct, ?_⟩, ?_, fun _ listed => by rwa [listedIds, set]⟩
    · intro id validator found
      rw [checkDowntime_validators noBlocks] at found
      rcases Option.map_eq_some_iff.mp found with ⟨before, stored, rfl⟩
      rw [checkOne_id]
      exact ok.keyed id before stored
    · intro id listed
      rw [listedIds, set] at listed
      rcases ok.registered id listed with ⟨validator, found⟩
      exact ⟨_, kept id validator found⟩
    · intro id validator found
      exact ⟨_, kept id validator found⟩

/-- The ranked records carry exactly the registered ids. -/
theorem RegistryOk.rankByStake_ids (ok : RegistryOk registry) :
    (registry.rankByStake.map Validator.id).Perm registry.validators.keys := by
  have sorted : (registry.rankByStake.map Validator.id).Perm
      ((registry.validators.toList.map Prod.snd).map Validator.id) :=
    (List.perm_insertionSort _ _).map Validator.id
  have own : (registry.validators.toList.map Prod.snd).map Validator.id = registry.validators.toList.map Prod.fst := by
    rw [List.map_map]
    apply List.map_congr_left
    intro entry member
    have found : registry.validators[entry.1]? = some entry.2 :=
      Std.ExtTreeMap.mem_toList_iff_getElem?_eq_some.mp member
    exact ok.keyed entry.1 entry.2 found
  rw [own, Std.ExtTreeMap.map_fst_toList_eq_keys] at sorted
  exact sorted

/-- The ranked records are the records of the registry. -/
theorem RegistryOk.mem_rankByStake_iff (ok : RegistryOk registry) (validator : Validator) :
    validator ∈ registry.rankByStake <-> registry.validators[validator.id]? = some validator := by
  unfold rankByStake
  rw [(List.perm_insertionSort _ _).mem_iff, List.mem_map]
  constructor
  · rintro ⟨⟨id, stored⟩, listed, rfl⟩
    have found : registry.validators[id]? = some stored := Std.ExtTreeMap.mem_toList_iff_getElem?_eq_some.mp listed
    rw [ok.keyed id stored found]
    exact found
  · intro found
    exact ⟨(validator.id, validator), Std.ExtTreeMap.mem_toList_iff_getElem?_eq_some.mpr found, rfl⟩

theorem map_id_mapIdx (config : RegistryConfig) (newEpoch : UInt64) (ranked : List Validator) :
    (ranked.mapIdx (selectOne config newEpoch)).map Validator.id = ranked.map Validator.id := by
  apply List.ext_getElem
  · simp only [List.length_map, List.length_mapIdx]
  · intro index _ _
    simp only [List.getElem_map, List.getElem_mapIdx, selectOne_id]

/-- The registry after the downtime check that an epoch transition starts with. -/
def checkedFor (registry : ValidatorRegistry) (newEpoch totalBlocks : UInt64) : ValidatorRegistry :=
  if 1 < newEpoch then (registry.checkDowntime (newEpoch - 1) totalBlocks).2 else registry

/-- The ranked records with their new statuses and counters. -/
def selectedFor (registry : ValidatorRegistry) (newEpoch totalBlocks : UInt64) : List Validator :=
  (registry.checkedFor newEpoch totalBlocks).rankByStake.mapIdx
    (selectOne (registry.checkedFor newEpoch totalBlocks).config newEpoch)

/-- The set that an epoch transition returns and stores. -/
def selectedSet (prim : Primitives) (registry : ValidatorRegistry) (newEpoch totalBlocks : UInt64) : ValidatorSet :=
  let unrooted : ValidatorSet := ⟨newEpoch, registry.selectedFor newEpoch totalBlocks,
    sumActive (registry.selectedFor newEpoch totalBlocks), Blake3Hash.zero⟩
  { unrooted with merkleRoot := unrooted.computeRoot prim }

theorem transitionEpoch_eq (prim : Primitives) (registry : ValidatorRegistry) (newEpoch totalBlocks : UInt64) :
    registry.transitionEpoch prim newEpoch totalBlocks =
      (registry.selectedSet prim newEpoch totalBlocks, { registry.checkedFor newEpoch totalBlocks with
        validators := storeAll Validator.id (registry.selectedFor newEpoch totalBlocks)
          (registry.checkedFor newEpoch totalBlocks).validators
        currentSet := registry.selectedSet prim newEpoch totalBlocks }) := rfl

/-- A downtime check touches records only. -/
theorem checkDowntime_frame (registry : ValidatorRegistry) (epoch totalBlocks : UInt64) :
    (registry.checkDowntime epoch totalBlocks).2.config = registry.config ∧
      (registry.checkDowntime epoch totalBlocks).2.unbondingRequests = registry.unbondingRequests := by
  unfold checkDowntime
  split
  · exact ⟨rfl, rfl⟩
  · exact ⟨rfl, rfl⟩

theorem checkedFor_frame (registry : ValidatorRegistry) (newEpoch totalBlocks : UInt64) :
    (registry.checkedFor newEpoch totalBlocks).config = registry.config ∧
      (registry.checkedFor newEpoch totalBlocks).unbondingRequests = registry.unbondingRequests := by
  unfold checkedFor
  split
  · exact registry.checkDowntime_frame (newEpoch - 1) totalBlocks
  · exact ⟨rfl, rfl⟩

theorem RegistryOk.checkedFor (ok : RegistryOk registry) (newEpoch totalBlocks : UInt64) :
    RegistryOk (registry.checkedFor newEpoch totalBlocks) ∧
      Carries registry (registry.checkedFor newEpoch totalBlocks) := by
  unfold ValidatorRegistry.checkedFor
  split
  · exact ok.checkDowntime (newEpoch - 1) totalBlocks
  · exact ⟨ok, Carries.refl registry⟩

/-- Every selected record comes from the checked record of its id. -/
theorem RegistryOk.exists_of_mem_selectedFor (ok : RegistryOk registry) {newEpoch totalBlocks : UInt64}
    {validator : Validator} (member : validator ∈ registry.selectedFor newEpoch totalBlocks) :
    ∃ index before, (registry.checkedFor newEpoch totalBlocks).validators[validator.id]? = some before ∧
      validator = selectOne (registry.checkedFor newEpoch totalBlocks).config newEpoch index before := by
  rcases List.mem_mapIdx.mp member with ⟨index, bound, selected⟩
  refine ⟨index, _, ?_, selected.symm⟩
  rw [← selected, selectOne_id]
  exact ((ok.checkedFor newEpoch totalBlocks).1.mem_rankByStake_iff _).mp (List.getElem_mem bound)

/-- The selected records carry exactly the registered ids. -/
theorem RegistryOk.selectedFor_ids (ok : RegistryOk registry) (newEpoch totalBlocks : UInt64) :
    ((registry.selectedFor newEpoch totalBlocks).map Validator.id).Perm
      (registry.checkedFor newEpoch totalBlocks).validators.keys := by
  unfold selectedFor
  rw [map_id_mapIdx]
  exact (ok.checkedFor newEpoch totalBlocks).1.rankByStake_ids

theorem RegistryOk.selectedFor_distinct (ok : RegistryOk registry) (newEpoch totalBlocks : UInt64) :
    ((registry.selectedFor newEpoch totalBlocks).map Validator.id).Nodup :=
  (ok.selectedFor_ids newEpoch totalBlocks).nodup_iff.mpr Std.ExtTreeMap.nodup_keys

theorem RegistryOk.selectedFor_covers (ok : RegistryOk registry) (newEpoch totalBlocks : UInt64) (id : ValidatorID)
    (validator : Validator) (found : (registry.checkedFor newEpoch totalBlocks).validators[id]? = some validator) :
    id ∈ (registry.selectedFor newEpoch totalBlocks).map Validator.id := by
  rw [(ok.selectedFor_ids newEpoch totalBlocks).mem_iff, Std.ExtTreeMap.mem_keys,
    Std.ExtTreeMap.mem_iff_isSome_getElem?, found]
  rfl

/-- After a transition the registry holds the selected records, and no others. -/
theorem RegistryOk.transitionEpoch_getElem (prim : Primitives) (ok : RegistryOk registry)
    (newEpoch totalBlocks : UInt64) (id : ValidatorID) (validator : Validator) :
    (registry.transitionEpoch prim newEpoch totalBlocks).2.validators[id]? = some validator <->
      validator ∈ registry.selectedFor newEpoch totalBlocks ∧ validator.id = id := by
  rw [transitionEpoch_eq]
  exact getElem?_storeAll_iff _ (ok.selectedFor_distinct newEpoch totalBlocks)
    (ok.selectedFor_covers newEpoch totalBlocks)

theorem RegistryOk.transitionEpoch (prim : Primitives) (ok : RegistryOk registry) (newEpoch totalBlocks : UInt64) :
    RegistryOk (registry.transitionEpoch prim newEpoch totalBlocks).2 ∧
      Carries registry (registry.transitionEpoch prim newEpoch totalBlocks).2 := by
  have stored := ok.transitionEpoch_getElem prim newEpoch totalBlocks
  have carried := (ok.checkedFor newEpoch totalBlocks).2
  have listed : forall id validator, registry.validators[id]? = some validator ->
      id ∈ (registry.selectedFor newEpoch totalBlocks).map Validator.id := by
    intro id validator found
    rcases carried.records id validator found with ⟨checked, checkedFound⟩
    exact ok.selectedFor_covers newEpoch totalBlocks id checked checkedFound
  have recorded : forall id, id ∈ (registry.selectedFor newEpoch totalBlocks).map Validator.id ->
      ∃ validator, (registry.transitionEpoch prim newEpoch totalBlocks).2.validators[id]? = some validator := by
    intro id member
    rcases List.mem_map.mp member with ⟨validator, selected, own⟩
    exact ⟨validator, (stored id validator).mpr ⟨selected, own⟩⟩
  refine ⟨⟨?_, ok.selectedFor_distinct newEpoch totalBlocks, recorded⟩, ?_, ?_⟩
  · intro id validator found
    exact ((stored id validator).mp found).2
  · intro id validator found
    exact recorded id (listed id validator found)
  · intro id member
    rcases ok.registered id member with ⟨validator, found⟩
    exact listed id validator found

/-! ## Every operation -/

theorem RegistryOk.call (prim : Primitives) (ok : RegistryOk registry) (step : RegistryCall) :
    RegistryOk (registry.call prim step) ∧ Carries registry (registry.call prim step) := by
  cases step with
  | addValidator id consensusKey withdrawalKey initialStake =>
      exact ok.addValidator id consensusKey withdrawalKey initialStake
  | bondStake id amount => exact ok.bondStake id amount
  | unbondStake id amount currentHeight => exact ok.unbondStake id amount currentHeight
  | processUnbonding currentHeight =>
      exact ⟨⟨ok.keyed, ok.distinct, ok.registered⟩, fun _ validator found => ⟨validator, found⟩,
        fun _ listed => listed⟩
  | slashValidator id amount reason => exact ok.slashValidator id amount reason
  | updateValidator id consensusKey withdrawalKey newStatus =>
      exact ok.updateValidator id consensusKey withdrawalKey newStatus
  | recordSignature id blockHeight => exact ok.recordSignature id blockHeight
  | checkDowntime epoch totalBlocks => exact ok.checkDowntime epoch totalBlocks
  | transitionEpoch newEpoch totalBlocks => exact ok.transitionEpoch prim newEpoch totalBlocks

theorem registryOk_create (config : RegistryConfig) : RegistryOk (create config) where
  keyed := by
    intro id validator found
    simp only [create, Std.ExtTreeMap.getElem?_empty] at found
    cases found
  distinct := List.nodup_nil
  registered := nofun

/-- Every registry that its own operations produce. -/
theorem registryOk_run (prim : Primitives) (config : RegistryConfig) (steps : List RegistryCall) :
    RegistryOk (run (ValidatorRegistry.call prim) (create config) steps) :=
  invariant_run RegistryOk (fun _ step ok _ => (ok.call prim step).1) (registryOk_create config)
    (along_true _ steps)

/-- A small network: two active validators at most, and a self bond of five. -/
def smallConfig : RegistryConfig := { activeValidatorCount := 2, minimumSelfBond := 5, unbondingPeriodBlocks := 10 }

/-- The id of a numbered validator. -/
def numbered (number : Nat) : ValidatorID := FixedBytes.ofNat 32 number

/-- Register a numbered validator with a stake. -/
def newcomer (number : Nat) (stake : UInt64) : RegistryCall :=
  .addValidator (numbered number) (FixedBytes.ofNat 48 number) (FixedBytes.zero 32) stake

end ValidatorRegistry
end Consensus
end Sarafu

import Sarafu.Consensus.ActivePlaces

namespace Sarafu
namespace Consensus

open Crypto State Library.Runs

/-!
# The downtime check made twice

A second check of the same epoch reports the same validators, since a penalty touches
neither the signatures nor the current set.  Whether it changes a record depends on the
record before the first check.  The mark of a penalty is a jail term until the next epoch,
which only a first violation leaves behind; a validator with earlier violations is put on
standby and penalized again.
-/

namespace ValidatorRegistry

/-- The mark that the source looks for. -/
def AlreadyPenalized (epoch : UInt64) (validator : Validator) : Prop :=
  0 < validator.consecutiveDowntimeEpochs ∧ validator.status = .jailed ∧ validator.jailedUntilEpoch = epoch + 1

/-- A second check reports the same ids and leaves every record as the first check left it. -/
def PenalizedOnce (registry : ValidatorRegistry) (epoch totalBlocks : UInt64) : Prop :=
  let once := registry.checkDowntime epoch totalBlocks
  let again := once.2.checkDowntime epoch totalBlocks
  again.1 = once.1 ∧ forall id : ValidatorID, again.2.validators[id]? = once.2.validators[id]?

/-- The violators of the epoch are at their first violation, or have the mark. -/
def OnlyFirstViolations (registry : ValidatorRegistry) (epoch totalBlocks : UInt64) : Prop :=
  forall (id : ValidatorID) (validator : Validator), registry.validators[id]? = some validator ->
    violates registry totalBlocks validator = true ->
      validator.consecutiveDowntimeEpochs = 0 ∨ AlreadyPenalized epoch validator

variable {registry : ValidatorRegistry} {epoch totalBlocks : UInt64} {validator : Validator}

/-! ## One record -/

theorem penalize_marked (marked : AlreadyPenalized epoch validator) : penalize epoch validator = validator :=
  if_pos marked

theorem marked_penalize_of_first (first : validator.consecutiveDowntimeEpochs = 0) :
    AlreadyPenalized epoch (penalize epoch validator) := by
  simp [penalize, AlreadyPenalized, first]

/-- A later violation is counted, and leaves the record on standby. -/
theorem penalize_later (later : validator.consecutiveDowntimeEpochs ≠ 0)
    (unmarked : ¬AlreadyPenalized epoch validator) :
    (penalize epoch validator).status = .standby ∧
      (penalize epoch validator).consecutiveDowntimeEpochs = validator.consecutiveDowntimeEpochs + 1 := by
  rw [AlreadyPenalized] at unmarked
  unfold penalize
  simp only []
  rw [if_neg unmarked, if_neg later]
  split
  · rename_i second
    exact ⟨rfl, by rw [second]; rfl⟩
  · exact ⟨rfl, rfl⟩

/-- A penalty without the mark changes the counter. -/
theorem penalize_ne (unmarked : ¬AlreadyPenalized epoch validator) : penalize epoch validator ≠ validator := by
  intro same
  by_cases first : validator.consecutiveDowntimeEpochs = 0
  · exact unmarked (same ▸ marked_penalize_of_first first)
  · have counted := (penalize_later first unmarked).2
    rw [same] at counted
    exact absurd counted (by simp)

theorem penalize_penalize_iff (epoch : UInt64) (validator : Validator) :
    penalize epoch (penalize epoch validator) = penalize epoch validator <->
      validator.consecutiveDowntimeEpochs = 0 ∨ AlreadyPenalized epoch validator := by
  by_cases marked : AlreadyPenalized epoch validator
  · rw [penalize_marked marked]
    exact iff_of_true (penalize_marked marked) (Or.inr marked)
  · by_cases first : validator.consecutiveDowntimeEpochs = 0
    · exact iff_of_true (penalize_marked (marked_penalize_of_first first)) (Or.inl first)
    · refine iff_of_false (penalize_ne ?_) (by simp [first, marked])
      rintro ⟨_, jailed, _⟩
      rw [(penalize_later first marked).1] at jailed
      cases jailed

/-- A penalty keeps what the check reads of a record to find the violators. -/
theorem violates_checkOne (registry : ValidatorRegistry) (epoch totalBlocks : UInt64) (validator : Validator) :
    violates registry totalBlocks (checkOne registry epoch totalBlocks validator) =
      violates registry totalBlocks validator := by
  have signatures : (checkOne registry epoch totalBlocks validator).blocksSignedThisEpoch =
      validator.blocksSignedThisEpoch := by
    unfold checkOne penalize
    simp only []
    split_ifs
    all_goals rfl
  rw [violates, checkOne_id, signatures, violates]

/-- Who signs enough has the counter reset, and who was not active keeps the record. -/
theorem checkOne_idempotent (signing : violates registry totalBlocks validator = false) :
    checkOne registry epoch totalBlocks (checkOne registry epoch totalBlocks validator) =
      checkOne registry epoch totalBlocks validator := by
  rw [violates] at signing
  by_cases active : (registry.currentSet.getActiveValidators.any fun active => active.id == validator.id) = true
  · rw [active, Bool.true_and] at signing
    simp [checkOne, active, signing]
  · simp [checkOne, active]

theorem checkOne_checkOne_iff (registry : ValidatorRegistry) (epoch totalBlocks : UInt64) (validator : Validator) :
    checkOne registry epoch totalBlocks (checkOne registry epoch totalBlocks validator) =
        checkOne registry epoch totalBlocks validator <->
      (violates registry totalBlocks validator = true ->
        validator.consecutiveDowntimeEpochs = 0 ∨ AlreadyPenalized epoch validator) := by
  cases violating : violates registry totalBlocks validator with
  | false => exact iff_of_true (checkOne_idempotent violating) (by simp)
  | true =>
      have again := violates_checkOne registry epoch totalBlocks validator
      rw [violating] at again
      rw [checkOne_violating again, checkOne_violating violating, penalize_penalize_iff]
      simp only [forall_true_left]

/-! ## All records -/

/-- The ids of the violators, over a list of entries that the check has changed. -/
theorem violators_map (registry : ValidatorRegistry) (epoch totalBlocks : UInt64)
    (entries : List (ValidatorID × Validator)) :
    (((entries.map fun entry => (entry.1, checkOne registry epoch totalBlocks entry.2)).filter
        fun entry => violates registry totalBlocks entry.2).map fun entry => entry.2.id) =
      (entries.filter fun entry => violates registry totalBlocks entry.2).map fun entry => entry.2.id := by
  rw [List.filter_map, List.map_map]
  simp only [Function.comp_def, violates_checkOne, checkOne_id]

/-- A second check reports the same violators. -/
theorem checkDowntime_again (registry : ValidatorRegistry) (epoch totalBlocks : UInt64) :
    ((registry.checkDowntime epoch totalBlocks).2.checkDowntime epoch totalBlocks).1 =
      (registry.checkDowntime epoch totalBlocks).1 := by
  by_cases noBlocks : totalBlocks = 0
  · simp [checkDowntime, noBlocks]
  · simp only [checkDowntime, if_neg noBlocks, Std.ExtTreeMap.toList_map]
    exact violators_map registry epoch totalBlocks registry.validators.toList

/-- A second check of an epoch changes nothing if and only if no violator had earlier
violations, except those that have the mark already. -/
theorem penalizedOnce_iff (registry : ValidatorRegistry) (epoch totalBlocks : UInt64) :
    PenalizedOnce registry epoch totalBlocks <->
      totalBlocks = 0 ∨ OnlyFirstViolations registry epoch totalBlocks := by
  rw [PenalizedOnce, and_iff_right (checkDowntime_again registry epoch totalBlocks)]
  by_cases noBlocks : totalBlocks = 0
  · exact iff_of_true (fun id => by simp [checkDowntime, noBlocks]) (Or.inl noBlocks)
  · rw [or_iff_right noBlocks]
    apply forall_congr'
    intro id
    have same : checkOne (registry.checkDowntime epoch totalBlocks).2 epoch totalBlocks =
        checkOne registry epoch totalBlocks := by
      funext validator
      rw [checkDowntime, if_neg noBlocks]
      rfl
    rw [checkDowntime_validators noBlocks, checkDowntime_validators noBlocks, same]
    cases registry.validators[id]? with
    | none => simp
    | some validator => simpa using checkOne_checkOne_iff registry epoch totalBlocks validator

/-- A validator that signs nothing in two epochs. -/
def idleTwice : List RegistryCall :=
  [newcomer 1 200000, .transitionEpoch 1 0, .transitionEpoch 2 100]

/-- The stake and the counter of the validator. -/
def standing (registry : ValidatorRegistry) : Option (UInt64 × UInt64) :=
  (registry.validators[numbered 1]?).map fun validator => (validator.bondedStake, validator.consecutiveDowntimeEpochs)

/-- The check of the second epoch takes one half of a percent, and once more one percent. -/
theorem penalizedOnce_fails_second :
    let registry := run (ValidatorRegistry.call Transparent.primitives) (create {}) idleTwice
    standing (registry.checkDowntime 2 100).2 = some (199000, 2) ∧
      standing ((registry.checkDowntime 2 100).2.checkDowntime 2 100).2 = some (197010, 3) ∧
      ¬PenalizedOnce registry 2 100 := by
  have once : standing ((run (ValidatorRegistry.call Transparent.primitives) (create {}) idleTwice).checkDowntime
      2 100).2 = some (199000, 2) := by decide +kernel
  have again : standing (((run (ValidatorRegistry.call Transparent.primitives) (create {}) idleTwice).checkDowntime
      2 100).2.checkDowntime 2 100).2 = some (197010, 3) := by decide +kernel
  refine ⟨once, again, fun same => ?_⟩
  rw [standing, same.2 (numbered 1), ← standing, once] at again
  exact absurd again (by decide)

end ValidatorRegistry
end Consensus
end Sarafu

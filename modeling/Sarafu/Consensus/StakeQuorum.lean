import Sarafu.Consensus.VoteAggregator
import Sarafu.Library.WeightedQuorum

namespace Sarafu
namespace Consensus

open Crypto State Library.WeightedQuorum

/-!
# Validator sets as weighted electorates

The electorate of a validator set is the finite set of its active ids, weighted
by bonded stake.  With distinct ids the first-match lookups of the source agree
with membership, and the sum of the active stakes is the weight of the
electorate.  The wrapping threshold is the exact two-thirds rule as long as
doubling the total does not overflow.
-/

namespace ValidatorSet

variable {set : ValidatorSet}

theorem findValidator_mem {id : ValidatorID} {validator : Validator}
    (found : set.findValidator id = some validator) : validator ∈ set.validators ∧ validator.id = id := by
  refine ⟨List.mem_of_find?_eq_some found, ?_⟩
  have matched := List.find?_some found
  exact beq_iff_eq.mp matched

theorem findValidator_isSome_iff (id : ValidatorID) :
    (set.findValidator id).isSome = true <-> id ∈ set.validators.map Validator.id := by
  rw [findValidator, List.find?_isSome, List.mem_map]
  constructor
  · rintro ⟨validator, listed, same⟩
    exact ⟨validator, listed, beq_iff_eq.mp same⟩
  · rintro ⟨validator, listed, same⟩
    exact ⟨validator, listed, beq_iff_eq.mpr same⟩

/-- With distinct ids a listed validator is the one its id finds. -/
theorem findValidator_of_mem (distinct : set.DistinctIds) {validator : Validator}
    (listed : validator ∈ set.validators) : set.findValidator validator.id = some validator := by
  cases found : set.findValidator validator.id with
  | none =>
      have absent := List.find?_eq_none.mp found validator listed
      exact absurd (beq_self_eq_true validator.id) absent
  | some other =>
      rcases findValidator_mem found with ⟨otherListed, sameId⟩
      rw [List.inj_on_of_nodup_map distinct otherListed listed sameId]

/-- The ids of the active validators. -/
def electorate (set : ValidatorSet) : Finset ValidatorID :=
  (set.getActiveValidators.map Validator.id).toFinset

theorem isActiveValidator_iff (id : ValidatorID) :
    VoteAggregator.isActiveValidator set id = true <->
      ∃ validator ∈ set.validators, validator.id = id ∧ validator.isActive = true := by
  simp only [VoteAggregator.isActiveValidator, List.any_eq_true, Bool.and_eq_true, beq_iff_eq]

theorem mem_electorate (id : ValidatorID) :
    id ∈ set.electorate <-> VoteAggregator.isActiveValidator set id = true := by
  rw [isActiveValidator_iff]
  simp only [electorate, getActiveValidators, List.mem_toFinset, List.mem_map, List.mem_filter]
  constructor
  · rintro ⟨validator, ⟨listed, active⟩, same⟩
    exact ⟨validator, listed, same, active⟩
  · rintro ⟨validator, listed, same, active⟩
    exact ⟨validator, ⟨listed, active⟩, same⟩

/-- The lookup of an active id, when ids are distinct. -/
theorem findValidator_of_active (distinct : set.DistinctIds) {id : ValidatorID}
    (active : VoteAggregator.isActiveValidator set id = true) :
    ∃ validator, set.findValidator id = some validator ∧ validator.isActive = true := by
  rcases (isActiveValidator_iff id).mp active with ⟨validator, listed, rfl, isActive⟩
  exact ⟨validator, findValidator_of_mem distinct listed, isActive⟩

/-- The aggregator's any-match test and the set's first-match test agree. -/
theorem isActive_eq_isActiveValidator (distinct : set.DistinctIds) (id : ValidatorID) :
    set.isActive id = VoteAggregator.isActiveValidator set id := by
  apply Bool.eq_iff_iff.mpr
  constructor
  · intro active
    unfold isActive at active
    cases found : set.findValidator id with
    | none => rw [found] at active; cases active
    | some validator =>
        rw [found] at active
        rcases findValidator_mem found with ⟨listed, same⟩
        exact (isActiveValidator_iff id).mpr ⟨validator, listed, same, active⟩
  · intro active
    rcases findValidator_of_active distinct active with ⟨validator, found, isActive⟩
    rw [ValidatorSet.isActive, found]
    exact isActive

theorem getValidatorStake_toNat (distinct : set.DistinctIds) {id : ValidatorID}
    (active : VoteAggregator.isActiveValidator set id = true) :
    (VoteAggregator.getValidatorStake set id).toNat = set.activeStakeOf id := by
  rcases findValidator_of_active distinct active with ⟨validator, found, isActive⟩
  rw [VoteAggregator.getValidatorStake, activeStakeOf, found]
  simp only [isActive, if_true]

/-- The weight of the electorate is the sum of the active stakes. -/
theorem weightOf_electorate (distinct : set.DistinctIds) :
    weightOf set.activeStakeOf set.electorate = set.activeStake := by
  have activeIds : (set.getActiveValidators.map Validator.id).Nodup :=
    (List.filter_sublist.map Validator.id).nodup distinct
  rw [weightOf, electorate, List.sum_toFinset _ activeIds, activeStake, List.map_map]
  apply congrArg List.sum
  apply List.map_congr_left
  intro validator member
  rcases List.mem_filter.mp member with ⟨listed, active⟩
  simp only [Function.comp_apply, activeStakeOf, findValidator_of_mem distinct listed, active, if_true]

/-- Distinct active ids together hold at most the active stake. -/
theorem sum_activeStakeOf_le (distinct : set.DistinctIds) {ids : List ValidatorID} (nodup : ids.Nodup)
    (active : forall id, id ∈ ids -> VoteAggregator.isActiveValidator set id = true) :
    (ids.map set.activeStakeOf).sum ≤ set.activeStake := by
  rw [← List.sum_toFinset _ nodup, ← weightOf_electorate distinct]
  apply weightOf_mono
  intro id member
  exact (mem_electorate id).mpr (active id (List.mem_toFinset.mp member))

/-- A list of distinct active ids with two thirds of the active stake is a
quorum of the electorate. -/
theorem quorum_of_list (wellFormed : set.WellFormed) {ids : List ValidatorID} (nodup : ids.Nodup)
    (active : forall id, id ∈ ids -> VoteAggregator.isActiveValidator set id = true)
    (twoThirds : 2 * set.totalStake.toNat ≤ 3 * (ids.map set.activeStakeOf).sum) :
    Quorum set.activeStakeOf set.electorate ids.toFinset where
  subset := by
    intro id member
    exact (mem_electorate id).mpr (active id (List.mem_toFinset.mp member))
  twoThirds := by
    rw [weightOf_electorate wellFormed.distinct, ← wellFormed.total, weightOf, List.sum_toFinset _ nodup]
    exact twoThirds

/-- The threshold of the source is the exact two-thirds rule unless twice the
total overflows. -/
theorem requiredStake_le_iff {total stake : UInt64} (fits : 2 * total.toNat + 2 < 2 ^ 64) :
    requiredStake total ≤ stake <-> 2 * total.toNat ≤ 3 * stake.toNat := by
  rw [UInt64.le_iff_toNat_le, requiredStake, UInt64.toNat_div, UInt64.toNat_add, UInt64.toNat_mul]
  simp only [UInt64.reduceToNat]
  omega

/-- The stake of the distinct active validators named in a list. -/
def distinctStake (set : ValidatorSet) (signers : List ValidatorID) : Nat :=
  weightOf set.activeStakeOf signers.toFinset

end ValidatorSet
end Consensus
end Sarafu

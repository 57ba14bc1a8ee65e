import Sarafu.Consensus.StakeTotals
import Sarafu.Crypto.Transparent

namespace Sarafu
namespace Consensus

open Crypto State Library.Runs Library.KeyedMaps

/-!
# Slashing a validator that is unbonding

Stake that is leaving waits in the unbonding requests, so that it can still be
slashed.  `slash_validator` takes from the record of the validator only: it leaves
every request as it is, and what the record does not cover is not taken.
-/

namespace ValidatorRegistry

/-- The stake of a validator that waits in the unbonding requests. -/
def pendingOf (registry : ValidatorRegistry) (id : ValidatorID) : Nat :=
  ((registry.unbondingRequests.filter fun request => decide (request.validatorId = id)).map
    fun request => request.amount.toNat).sum

/-- The stake that a violation puts at risk: bonded or still unbonding. -/
def exposedStake (registry : ValidatorRegistry) (id : ValidatorID) : Nat := registry.stakeOf id + registry.pendingOf id

/-- The slash takes the amount from the exposed stake, or all of it. -/
def SlashReaches (registry : ValidatorRegistry) (id : ValidatorID) (amount : UInt64) (reason : SlashReason) : Prop :=
  (registry.slashValidator id amount reason).2.exposedStake id + min amount.toNat (registry.exposedStake id) =
    registry.exposedStake id

variable (registry : ValidatorRegistry) (id : ValidatorID) (amount : UInt64) (reason : SlashReason)

/-- No request is touched. -/
theorem pendingOf_slashValidator :
    (registry.slashValidator id amount reason).2.pendingOf id = registry.pendingOf id := by
  unfold pendingOf
  rcases registry.slashValidator_performs id amount reason with refused | ⟨validator, wrote⟩
  · rw [refused]
  · rw [wrote.queued]
    exact congrArg (fun requests : List UnbondingRequest =>
      ((requests.filter fun request => decide (request.validatorId = id)).map fun request => request.amount.toNat).sum)
      (List.append_nil registry.unbondingRequests)

/-- The bonded stake covers what is taken. -/
theorem stakeOf_slashValidator : (registry.slashValidator id amount reason).2.stakeOf id +
    min amount.toNat (registry.stakeOf id) = registry.stakeOf id := by
  rcases registry.slashValidator_cases id amount reason with ⟨absent, refused⟩ | ⟨validator, wrote⟩
  · have nothing : registry.stakeOf id = 0 := by
      rw [stakeOf, weightAt, absent]
      rfl
    rw [refused, nothing, Nat.min_zero]
  · have taken := toNat_actualSlash validator.bondedStake amount
    have left : (registry.slashValidator id amount reason).2.stakeOf id =
        (validator.bondedStake - actualSlash validator.bondedStake amount).toNat := wrote.stakeOf
    rw [UInt64.toNat_sub_of_le _ _ (actualSlash_le _ _), taken] at left
    rw [left, stakeOf_of_found wrote.found]
    omega

/-- A slash reaches the exposed stake if and only if the bonded stake covers it or
nothing is unbonding. -/
theorem slashReaches_iff :
    SlashReaches registry id amount reason <-> amount.toNat ≤ registry.stakeOf id ∨ registry.pendingOf id = 0 := by
  have pending := registry.pendingOf_slashValidator id amount reason
  have bonded := registry.stakeOf_slashValidator id amount reason
  unfold SlashReaches exposedStake
  rw [pending]
  constructor
  · intro reaches
    by_contra missed
    rw [not_or] at missed
    omega
  · intro covered
    omega

/-- Validator one has twenty tokens and unbonds fifteen of them.  A slash of ten then
takes the five that are left. -/
theorem unbonding_stake_not_slashed :
    (run (ValidatorRegistry.call Transparent.primitives) (create smallConfig)
      [newcomer 1 20, .unbondStake (numbered 1) 15 3]).exposedStake (numbered 1) = 20 ∧
    ((run (ValidatorRegistry.call Transparent.primitives) (create smallConfig)
      [newcomer 1 20, .unbondStake (numbered 1) 15 3]).slashValidator (numbered 1) 10 .doubleSign).2.exposedStake
        (numbered 1) = 15 ∧
    ¬ SlashReaches (run (ValidatorRegistry.call Transparent.primitives) (create smallConfig)
      [newcomer 1 20, .unbondStake (numbered 1) 15 3]) (numbered 1) 10 .doubleSign := by
  unfold SlashReaches
  refine ⟨by decide +kernel, by decide +kernel, by decide +kernel⟩

end ValidatorRegistry
end Consensus
end Sarafu

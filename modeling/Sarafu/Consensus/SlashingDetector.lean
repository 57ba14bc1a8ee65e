import Sarafu.Consensus.RegistryRecords

namespace Sarafu
namespace Consensus

open Crypto State Library.Runs

/-!
# Detecting violations and applying a slashing event

Two signatures of a validator at one height are a double sign; two of its votes at one
height or in one view, for different blocks, are a surround vote.

Half of a penalty is burned and the rest is bonded to the other active
validators in proportion to their stakes, before the penalty itself is taken
from the slashed validator.  The active validators are copied first, so the
shares do not depend on the bonds made on the way.  A safety violation ends with
the tombstone.

Everything is written through `bond_stake`, `slash_validator` and
`update_validator`, so an invariant of these three is one of the whole operation.
-/

structure SlashingEvent where
  validatorId : ValidatorID
  blockHeight : UInt64
  reason : SlashReason
  penaltyAmount : UInt64
  coViolators : List ValidatorID

/-- The reasons that end with the tombstone. -/
def SlashReason.isSafetyViolation : SlashReason -> Bool
  | .doubleSign => true
  | .surroundVote => true
  | .downtime => false

structure SignatureRecord where
  validatorId : ValidatorID
  blockHeight : UInt64
  blockHash : Blake3Hash
  signature : BLS12381Signature
  timestamp : UInt64

namespace SlashingDetector

/-! ## Detection -/

/-- Two signatures of one validator at one height.  The penalty is calculated
elsewhere. -/
def detectDoubleSign (sig1 sig2 : SignatureRecord) : Option SlashingEvent :=
  if sig1.validatorId ≠ sig2.validatorId then none
  else if sig1.blockHeight ≠ sig2.blockHeight then none
  else if sig1.blockHash = sig2.blockHash then none
  else some ⟨sig1.validatorId, sig1.blockHeight, .doubleSign, 0, []⟩

/-- Two votes of one validator at one height, or in one view, for different blocks. -/
def detectSurroundVote (vote1 vote2 : Vote) : Option SlashingEvent :=
  if vote1.validatorId ≠ vote2.validatorId then none
  else if vote1.blockHeight = vote2.blockHeight ∧ vote1.blockHash ≠ vote2.blockHash then
    some ⟨vote1.validatorId, vote1.blockHeight, .surroundVote, 0, []⟩
  else if vote1.viewNumber = vote2.viewNumber ∧ vote1.blockHeight ≠ vote2.blockHeight ∧
      vote1.blockHash ≠ vote2.blockHash then
    some ⟨vote1.validatorId, max vote1.blockHeight vote2.blockHeight, .surroundVote, 0, []⟩
  else none

/-! ## Punishment -/

/-- `total_stake_excluding_slashed`. -/
def stakeExcluding (slashed : ValidatorID) (active : List Validator) : UInt64 :=
  active.foldl (fun total v => if v.id ≠ slashed then total + v.bondedStake else total) 0

/-- The variables of the distribution loop. -/
structure Distribution where
  registry : ValidatorRegistry
  distributed : UInt64
  count : Nat

/-- The share of a validator.  The product is taken in 128 bits, and the last
validator gets what is left. -/
def rewardOf (distributeAmount totalStake : UInt64) (totalCount : Nat) (loop : Distribution) (v : Validator) : UInt64 :=
  if loop.count + 1 = totalCount then distributeAmount - loop.distributed
  else UInt64.ofNat (v.bondedStake.toNat * distributeAmount.toNat / totalStake.toNat)

/-- Bond a reward that is not zero, and count the validator. -/
def bondReward (loop : Distribution) (id : ValidatorID) (reward : UInt64) : Distribution :=
  if 0 < reward then ⟨(loop.registry.bondStake id reward).2, loop.distributed + reward, loop.count + 1⟩
  else ⟨loop.registry, loop.distributed, loop.count + 1⟩

/-- One iteration. -/
def distributeTo (slashed : ValidatorID) (distributeAmount totalStake : UInt64) (totalCount : Nat)
    (loop : Distribution) (v : Validator) : Distribution :=
  if v.id = slashed then loop
  else bondReward loop v.id (rewardOf distributeAmount totalStake totalCount loop v)

/-- The rewards of all active validators but the slashed one. -/
def distribute (registry : ValidatorRegistry) (slashed : ValidatorID) (distributeAmount : UInt64) : ValidatorRegistry :=
  let active := registry.currentSet.getActiveValidators
  let totalStake := stakeExcluding slashed active
  if 0 < totalStake ∧ 0 < distributeAmount then
    let totalCount := (active.filter fun v => decide (v.id ≠ slashed)).length
    (active.foldl (distributeTo slashed distributeAmount totalStake totalCount) ⟨registry, 0, 0⟩).registry
  else registry

/-- The distribution and then the slash, for a penalty that the stake covers. -/
def punish (registry : ValidatorRegistry) (event : SlashingEvent) (penalty : UInt64) : Bool × ValidatorRegistry :=
  (distribute registry event.validatorId (penalty - penalty / 2)).slashValidator event.validatorId penalty event.reason

/-- The answer, the registry, and `total_supply` as the call leaves it. -/
def applySlashing (registry : ValidatorRegistry) (event : SlashingEvent) (totalSupply : UInt64) :
    Bool × ValidatorRegistry × UInt64 :=
  match registry.getValidator event.validatorId with
  | none => (false, registry, totalSupply)
  | some validator =>
      if event.penaltyAmount = 0 then (false, registry, totalSupply)
      else
        let penalty := ValidatorRegistry.actualSlash validator.bondedStake event.penaltyAmount
        let slashed := punish registry event penalty
        if slashed.1 = false then (false, slashed.2, totalSupply)
        else
          let supply := ValidatorRegistry.deductClamped totalSupply (penalty / 2)
          if event.reason.isSafetyViolation then
            (true, (slashed.2.updateValidator event.validatorId none none (some .tombstoned)).2, supply)
          else (true, slashed.2, supply)

/-! ## Invariants of the operations it is made of -/

section Invariants

variable {Invariant : ValidatorRegistry -> Prop}
  (bonded : forall registry id amount, Invariant registry -> Invariant (registry.bondStake id amount).2)
  (slashed : forall registry id amount reason, Invariant registry ->
    Invariant (registry.slashValidator id amount reason).2)
  {registry : ValidatorRegistry} (initial : Invariant registry)

include bonded initial

theorem distribute_invariant (slashed : ValidatorID) (distributeAmount : UInt64) :
    Invariant (distribute registry slashed distributeAmount) := by
  have looped : forall (totalStake : UInt64) (totalCount : Nat) (active : List Validator) (loop : Distribution),
      Invariant loop.registry ->
        Invariant (active.foldl (distributeTo slashed distributeAmount totalStake totalCount) loop).registry := by
    intro totalStake totalCount active
    induction active with
    | nil => exact fun _ kept => kept
    | cons v rest inductionHypothesis =>
        intro loop kept
        apply inductionHypothesis
        unfold distributeTo bondReward
        split
        · exact kept
        · split
          · exact bonded _ _ _ kept
          · exact kept
  unfold distribute
  simp only []
  split
  · exact looped _ _ _ _ initial
  · exact initial

include slashed

theorem punish_invariant (event : SlashingEvent) (penalty : UInt64) : Invariant (punish registry event penalty).2 :=
  slashed _ _ _ _ (distribute_invariant bonded initial event.validatorId (penalty - penalty / 2))

/-- An invariant of the three operations is one of `apply_slashing`. -/
theorem applySlashing_invariant
    (tombstoned : forall registry id, Invariant registry ->
      Invariant (registry.updateValidator id none none (some .tombstoned)).2)
    (event : SlashingEvent) (totalSupply : UInt64) : Invariant (applySlashing registry event totalSupply).2.1 := by
  unfold applySlashing
  split
  · exact initial
  · rename_i validator _
    have punished := punish_invariant bonded slashed initial event
      (ValidatorRegistry.actualSlash validator.bondedStake event.penaltyAmount)
    simp only []
    split
    · exact initial
    · split
      · exact punished
      · split
        · exact tombstoned _ _ punished
        · exact punished

/-- A safety violation that is applied is one of a known validator and ends with the
update to the tombstone, on a registry that has the invariants of bonding and
slashing. -/
theorem exists_tombstoned {event : SlashingEvent} {totalSupply : UInt64}
    (violation : event.reason.isSafetyViolation = true)
    (applied : (applySlashing registry event totalSupply).1 = true) :
    (∃ validator, registry.getValidator event.validatorId = some validator) ∧
    ∃ punished, Invariant punished ∧ (applySlashing registry event totalSupply).2.1 =
      (ValidatorRegistry.updateValidator punished event.validatorId none none (some .tombstoned)).2 := by
  unfold applySlashing at applied ⊢
  cases found : registry.getValidator event.validatorId with
  | none =>
      rw [found] at applied
      cases applied
  | some validator =>
      rw [found] at applied
      simp only [] at applied ⊢
      split at applied
      · cases applied
      · rename_i nonzero
        split at applied
        · cases applied
        · rename_i known
          refine ⟨⟨validator, rfl⟩, _, punish_invariant bonded slashed initial event
            (ValidatorRegistry.actualSlash validator.bondedStake event.penaltyAmount), ?_⟩
          rw [if_neg nonzero, if_neg known, if_pos violation]

end Invariants

end SlashingDetector
end Consensus
end Sarafu

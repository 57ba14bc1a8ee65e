import Sarafu.Consensus.RegistryRecords

namespace Sarafu
namespace Consensus

open Crypto State Library.KeyedMaps

/-!
# The bonded stake of the whole registry

Each operation moves the sum of all bonded stakes by an amount that can be read off
the call and the state before it.  A downtime penalty is five thousandths of the
stake, the product being taken modulo `2^64`, or one hundredth; it never exceeds the
stake.  An epoch transition writes every record anew and changes no stake apart from
the penalties of the downtime check it starts with.
-/

namespace ValidatorRegistry

variable {registry : ValidatorRegistry} {id : ValidatorID}

/-- The sum of all bonded stakes. -/
def totalBonded (registry : ValidatorRegistry) : Nat := total (fun v => v.bondedStake.toNat) registry.validators

/-- Writing the record of a known validator moves the sum by the difference. -/
theorem totalBonded_written {after : ValidatorRegistry} {validator entry : Validator}
    (found : registry.validators[id]? = some validator)
    (stored : after.validators = registry.validators.insert id entry) :
    after.totalBonded + validator.bondedStake.toNat = registry.totalBonded + entry.bondedStake.toNat := by
  have moved := total_insert (fun v : Validator => v.bondedStake.toNat) registry.validators id entry
  rw [weightAt, found, ← stored] at moved
  exact moved

theorem bondedStake_le_totalBonded {validator : Validator} (found : registry.validators[id]? = some validator) :
    validator.bondedStake.toNat ≤ registry.totalBonded := by
  have smaller := weightAt_le_total (fun v : Validator => v.bondedStake.toNat) registry.validators id
  rw [weightAt, found] at smaller
  exact smaller

/-- The bonded stake of a validator, or zero. -/
def stakeOf (registry : ValidatorRegistry) (id : ValidatorID) : Nat :=
  weightAt (fun v => v.bondedStake.toNat) registry.validators id

theorem stakeOf_of_found {validator : Validator} (found : registry.validators[id]? = some validator) :
    registry.stakeOf id = validator.bondedStake.toNat := by
  rw [stakeOf, weightAt, found]
  rfl

/-! ## Downtime penalties -/

/-- What `penalize` takes from a record. -/
def downtimePenalty (epoch : UInt64) (v : Validator) : Nat :=
  if 0 < v.consecutiveDowntimeEpochs ∧ v.status = .jailed ∧ v.jailedUntilEpoch = epoch + 1 then 0
  else if v.consecutiveDowntimeEpochs = 0 then 0
  else if v.consecutiveDowntimeEpochs = 1 then v.bondedStake.toNat * 5 % 2 ^ 64 / 1000
  else v.bondedStake.toNat / 100

theorem penalize_stake (epoch : UInt64) (v : Validator) :
    (penalize epoch v).bondedStake.toNat + downtimePenalty epoch v = v.bondedStake.toNat := by
  unfold penalize downtimePenalty
  simp only []
  split
  · rfl
  · split
    · rfl
    · split
      · have taken : (v.bondedStake * 5 / 1000).toNat = v.bondedStake.toNat * 5 % 2 ^ 64 / 1000 := by
          rw [UInt64.toNat_div, UInt64.toNat_mul]
          rfl
        have covered : v.bondedStake * 5 / 1000 ≤ v.bondedStake := by
          have wrapped := Nat.mod_le (v.bondedStake.toNat * 5) (2 ^ 64)
          rw [UInt64.le_iff_toNat_le, taken]
          omega
        rw [UInt64.toNat_sub_of_le _ _ covered, taken]
        rw [UInt64.le_iff_toNat_le, taken] at covered
        omega
      · have taken : (v.bondedStake / 100).toNat = v.bondedStake.toNat / 100 := UInt64.toNat_div _ _
        have covered : v.bondedStake / 100 ≤ v.bondedStake := by
          rw [UInt64.le_iff_toNat_le, taken]
          omega
        rw [UInt64.toNat_sub_of_le _ _ covered, taken]
        omega

/-- What the downtime check takes from a record. -/
def checkPenalty (registry : ValidatorRegistry) (epoch totalBlocks : UInt64) (v : Validator) : Nat :=
  if violates registry totalBlocks v then downtimePenalty epoch v else 0

/-- What a downtime check takes from all records. -/
def downtimePenalties (registry : ValidatorRegistry) (epoch totalBlocks : UInt64) : Nat :=
  if totalBlocks = 0 then 0 else total (checkPenalty registry epoch totalBlocks) registry.validators

theorem checkOne_stake (registry : ValidatorRegistry) (epoch totalBlocks : UInt64) (v : Validator) :
    (checkOne registry epoch totalBlocks v).bondedStake.toNat + checkPenalty registry epoch totalBlocks v =
      v.bondedStake.toNat := by
  unfold checkOne checkPenalty violates
  split
  · rename_i active
    rw [active, Bool.true_and]
    split
    · exact penalize_stake epoch v
    · rfl
  · rename_i inactive
    rw [Bool.eq_false_iff.mpr inactive, Bool.false_and]
    rfl

theorem totalBonded_checkDowntime (registry : ValidatorRegistry) (epoch totalBlocks : UInt64) :
    (registry.checkDowntime epoch totalBlocks).2.totalBonded + registry.downtimePenalties epoch totalBlocks =
      registry.totalBonded := by
  unfold checkDowntime downtimePenalties
  split
  · rfl
  · exact total_map (fun v => v.bondedStake.toNat) (checkPenalty registry epoch totalBlocks)
      (checkOne registry epoch totalBlocks) registry.validators (checkOne_stake registry epoch totalBlocks)

/-! ## Epoch transitions -/

/-- What the downtime check of an epoch transition takes. -/
def transitionPenalties (registry : ValidatorRegistry) (newEpoch totalBlocks : UInt64) : Nat :=
  if 1 < newEpoch then registry.downtimePenalties (newEpoch - 1) totalBlocks else 0

theorem totalBonded_checkedFor (registry : ValidatorRegistry) (newEpoch totalBlocks : UInt64) :
    (registry.checkedFor newEpoch totalBlocks).totalBonded + registry.transitionPenalties newEpoch totalBlocks =
      registry.totalBonded := by
  unfold checkedFor transitionPenalties
  split
  · exact registry.totalBonded_checkDowntime (newEpoch - 1) totalBlocks
  · rfl

theorem selectOne_stake (config : RegistryConfig) (newEpoch : UInt64) (index : Nat) (ranked : Validator) :
    (selectOne config newEpoch index ranked).bondedStake = ranked.bondedStake := by
  unfold selectOne
  simp only []
  split <;> split <;> first | rfl | (split <;> first | rfl | (split <;> rfl))

/-- The selected records hold the stake of the checked registry. -/
theorem sum_selectedFor (registry : ValidatorRegistry) (newEpoch totalBlocks : UInt64) :
    ((registry.selectedFor newEpoch totalBlocks).map fun v => v.bondedStake.toNat).sum =
      (registry.checkedFor newEpoch totalBlocks).totalBonded := by
  have stakes : (registry.selectedFor newEpoch totalBlocks).map (fun v => v.bondedStake.toNat) =
      (registry.checkedFor newEpoch totalBlocks).rankByStake.map fun v => v.bondedStake.toNat := by
    unfold selectedFor
    apply List.ext_getElem
    · simp only [List.length_map, List.length_mapIdx]
    · intro index _ _
      simp only [List.getElem_map, List.getElem_mapIdx, selectOne_stake]
  rw [stakes]
  unfold rankByStake totalBonded total
  rw [((List.perm_insertionSort _ _).map _).sum_eq, List.map_map]
  rfl

theorem RegistryOk.totalBonded_transitionEpoch (prim : Primitives) (ok : RegistryOk registry)
    (newEpoch totalBlocks : UInt64) :
    (registry.transitionEpoch prim newEpoch totalBlocks).2.totalBonded +
        registry.transitionPenalties newEpoch totalBlocks = registry.totalBonded := by
  have stored : (registry.transitionEpoch prim newEpoch totalBlocks).2.totalBonded =
      ((registry.selectedFor newEpoch totalBlocks).map fun v => v.bondedStake.toNat).sum :=
    total_storeAll (fun v : Validator => v.bondedStake.toNat) _ (ok.selectedFor_distinct newEpoch totalBlocks)
      (ok.selectedFor_covers newEpoch totalBlocks)
  rw [stored, registry.sum_selectedFor newEpoch totalBlocks]
  exact registry.totalBonded_checkedFor newEpoch totalBlocks

/-! ## Operations on one record -/

theorem Wrote.totalBonded {write : Write} {validator : Validator} {result : Bool × ValidatorRegistry}
    (wrote : Wrote registry id write validator result) :
    result.2.totalBonded + validator.bondedStake.toNat =
      registry.totalBonded + (write.record validator).bondedStake.toNat :=
  totalBonded_written wrote.found wrote.stored

theorem Wrote.stakeOf {write : Write} {validator : Validator} {result : Bool × ValidatorRegistry}
    (wrote : Wrote registry id write validator result) :
    result.2.stakeOf id = (write.record validator).bondedStake.toNat := by
  apply stakeOf_of_found
  rw [wrote.stored, OrderedMap.find_insert, if_pos rfl]

/-- An operation that keeps the stake of its record. -/
theorem totalBonded_of_performs {write : Write} {result : Bool × ValidatorRegistry}
    (performs : Performs registry id write result)
    (keeps : forall validator, (write.record validator).bondedStake = validator.bondedStake) :
    result.2.totalBonded = registry.totalBonded := by
  rcases performs with refused | ⟨validator, wrote⟩
  · rw [refused]
  · have moved := wrote.totalBonded
    rw [keeps] at moved
    exact Nat.add_right_cancel moved

/-! ## Every operation -/

/-- What a call deposits: the initial stake of a new validator, or an accepted bond. -/
def depositBy (registry : ValidatorRegistry) : RegistryCall -> Nat
  | .addValidator id consensusKey withdrawalKey initialStake =>
      if (registry.addValidator id consensusKey withdrawalKey initialStake).1 then initialStake.toNat else 0
  | .bondStake id amount => if (registry.bondStake id amount).1 then amount.toNat else 0
  | _ => 0

/-- What a call moves from the bonded stake to the unbonding requests. -/
def unbondedBy (registry : ValidatorRegistry) : RegistryCall -> Nat
  | .unbondStake id amount currentHeight =>
      if (registry.unbondStake id amount currentHeight).1 then amount.toNat else 0
  | _ => 0

/-- What a call slashes: no more than a known validator has bonded. -/
def slashBy (registry : ValidatorRegistry) : RegistryCall -> Nat
  | .slashValidator id amount _ =>
      match registry.validators[id]? with
      | some validator => min amount.toNat validator.bondedStake.toNat
      | none => 0
  | _ => 0

/-- What a call takes for downtime. -/
def penaltyBy (registry : ValidatorRegistry) : RegistryCall -> Nat
  | .checkDowntime epoch totalBlocks => registry.downtimePenalties epoch totalBlocks
  | .transitionEpoch newEpoch totalBlocks => registry.transitionPenalties newEpoch totalBlocks
  | _ => 0

theorem totalBonded_addValidator (registry : ValidatorRegistry) (id : ValidatorID) (consensusKey : BLS12381PublicKey)
    (withdrawalKey : Ed25519PublicKey) (initialStake : UInt64) :
    (registry.addValidator id consensusKey withdrawalKey initialStake).2.totalBonded =
      registry.totalBonded + registry.depositBy (.addValidator id consensusKey withdrawalKey initialStake) := by
  unfold depositBy addValidator
  simp only []
  split
  · rfl
  · rename_i absent
    have moved := total_insert (fun v : Validator => v.bondedStake.toNat) registry.validators id
      (Validator.make id consensusKey withdrawalKey initialStake)
    rw [weightAt, absent] at moved
    exact moved

/-- A bond adds its amount, unless the stake wraps around. -/
theorem totalBonded_bondStake (registry : ValidatorRegistry) (id : ValidatorID) (amount : UInt64)
    (fits : registry.totalBonded + registry.depositBy (.bondStake id amount) < 2 ^ 64) :
    (registry.bondStake id amount).2.totalBonded =
      registry.totalBonded + registry.depositBy (.bondStake id amount) := by
  rcases registry.bondStake_performs id amount with refused | ⟨validator, wrote⟩
  · rw [depositBy, refused]
    rfl
  · rw [depositBy, if_pos wrote.accepted] at fits ⊢
    have moved := wrote.totalBonded
    have smaller := bondedStake_le_totalBonded wrote.found
    rw [bondWrite, UInt64.toNat_add, Nat.mod_eq_of_lt (by omega)] at moved
    omega

theorem totalBonded_unbondStake (registry : ValidatorRegistry) (id : ValidatorID) (amount currentHeight : UInt64) :
    (registry.unbondStake id amount currentHeight).2.totalBonded +
      registry.unbondedBy (.unbondStake id amount currentHeight) = registry.totalBonded := by
  rcases registry.unbondStake_cases id amount currentHeight with
    refused | ⟨validator, enough, wrote⟩
  · rw [unbondedBy, refused]
    rfl
  · have moved := wrote.totalBonded
    rw [unbondWrite, UInt64.toNat_sub_of_le _ _ enough] at moved
    rw [UInt64.le_iff_toNat_le] at enough
    rw [unbondedBy, if_pos wrote.accepted]
    omega

theorem totalBonded_slashValidator (registry : ValidatorRegistry) (id : ValidatorID) (amount : UInt64)
    (reason : SlashReason) : (registry.slashValidator id amount reason).2.totalBonded +
      registry.slashBy (.slashValidator id amount reason) = registry.totalBonded := by
  rcases registry.slashValidator_cases id amount reason with ⟨absent, refused⟩ | ⟨validator, wrote⟩
  · rw [refused]
    simp only [slashBy, absent]
    rfl
  · have moved := wrote.totalBonded
    have part := toNat_actualSlash validator.bondedStake amount
    rw [slashWrite, UInt64.toNat_sub_of_le _ _ (actualSlash_le _ _), part] at moved
    simp only [slashBy, wrote.found]
    omega

/-- A call moves the bonded stake by what it deposits, unbonds, slashes and takes for
downtime, as long as the deposit does not wrap around. -/
theorem RegistryOk.totalBonded_call (prim : Primitives) (ok : RegistryOk registry) (call : RegistryCall)
    (fits : registry.totalBonded + registry.depositBy call < 2 ^ 64) :
    (registry.call prim call).totalBonded + registry.unbondedBy call + registry.slashBy call + registry.penaltyBy call =
      registry.totalBonded + registry.depositBy call := by
  cases call with
  | addValidator id consensusKey withdrawalKey initialStake =>
      exact registry.totalBonded_addValidator id consensusKey withdrawalKey initialStake
  | bondStake id amount => exact registry.totalBonded_bondStake id amount fits
  | unbondStake id amount currentHeight => exact registry.totalBonded_unbondStake id amount currentHeight
  | processUnbonding currentHeight => rfl
  | slashValidator id amount reason =>
      have moved := registry.totalBonded_slashValidator id amount reason
      simp only [ValidatorRegistry.call, unbondedBy, penaltyBy, depositBy]
      omega
  | updateValidator id consensusKey withdrawalKey newStatus =>
      exact totalBonded_of_performs (registry.updateValidator_performs id consensusKey withdrawalKey newStatus)
        (fun _ => rfl)
  | recordSignature id blockHeight =>
      exact totalBonded_of_performs (registry.recordSignature_performs id blockHeight) (fun _ => rfl)
  | checkDowntime epoch totalBlocks =>
      have moved := registry.totalBonded_checkDowntime epoch totalBlocks
      simp only [ValidatorRegistry.call, unbondedBy, slashBy, penaltyBy, depositBy]
      omega
  | transitionEpoch newEpoch totalBlocks =>
      have moved := ok.totalBonded_transitionEpoch prim newEpoch totalBlocks
      simp only [ValidatorRegistry.call, unbondedBy, slashBy, penaltyBy, depositBy]
      omega

end ValidatorRegistry
end Consensus
end Sarafu

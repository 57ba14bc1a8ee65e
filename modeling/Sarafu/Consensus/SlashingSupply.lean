import Sarafu.Consensus.SlashingDetector
import Sarafu.Consensus.StakeTotals
import Sarafu.Crypto.Transparent
import Sarafu.Library.ProportionalShares
import Sarafu.Library.WordSums

namespace Sarafu
namespace Consensus

open Crypto State Library.Runs Library.KeyedMaps Library.ProportionalShares Library.WordSums

/-!
# Slashing and the supply

One half of a penalty leaves the supply and the other half goes to the other active
validators.  Every one of them gets its share rounded down and the last one what is
left, so that the shares add up to the half that is distributed.  The loop does not
run when no other active validator has any stake: the penalty is then taken as a whole
and only one half of it leaves the supply.
-/

namespace SlashingDetector

/-- The bonded stake of all other validators. -/
def othersBonded (registry : ValidatorRegistry) (id : ValidatorID) : Nat :=
  total (fun v => v.bondedStake.toNat) (registry.validators.erase id)

/-- The ids of the current set are distinct, and every entry has the stake of its
record. -/
structure Agrees (registry : ValidatorRegistry) : Prop where
  distinct : registry.currentSet.DistinctIds
  listed : forall entry, entry ∈ registry.currentSet.validators ->
    ∃ record, registry.validators[entry.id]? = some record ∧ record.bondedStake = entry.bondedStake

/-- The penalty of an event: no more than the validator has bonded. -/
def penaltyOf (registry : ValidatorRegistry) (event : SlashingEvent) : Nat :=
  min event.penaltyAmount.toNat (registry.stakeOf event.validatorId)

/-- One half of the penalty leaves the bonded stake and the supply, and the other half
is in the stake of the others. -/
structure Conserves (registry : ValidatorRegistry) (event : SlashingEvent) (totalSupply : UInt64) : Prop where
  bonded : (applySlashing registry event totalSupply).2.1.totalBonded + penaltyOf registry event / 2 =
    registry.totalBonded
  supply : (applySlashing registry event totalSupply).2.2.toNat + penaltyOf registry event / 2 = totalSupply.toNat
  others : othersBonded (applySlashing registry event totalSupply).2.1 event.validatorId =
    othersBonded registry event.validatorId + (penaltyOf registry event - penaltyOf registry event / 2)

/-- The validator has nothing to lose, or another active validator has some stake. -/
def Distributable (registry : ValidatorRegistry) (id : ValidatorID) : Prop :=
  registry.stakeOf id = 0 ∨
    ∃ entry, entry ∈ registry.currentSet.getActiveValidators ∧ entry.id ≠ id ∧ 0 < entry.bondedStake

variable {registry : ValidatorRegistry} {slashed : ValidatorID}

theorem totalBonded_eq (registry : ValidatorRegistry) (id : ValidatorID) :
    registry.totalBonded = registry.stakeOf id + othersBonded registry id :=
  total_erase _ registry.validators id

/-- Two validators hold no more than everything that is bonded. -/
theorem stakeOf_add_le (registry : ValidatorRegistry) {first second : ValidatorID} (distinct : first ≠ second) :
    registry.stakeOf first + registry.stakeOf second ≤ registry.totalBonded := by
  have pair := sum_weightAt_le_total (fun v : Validator => v.bondedStake.toNat) registry.validators
    (List.nodup_cons.mpr ⟨fun member => distinct (List.mem_singleton.mp member), List.nodup_singleton second⟩)
  simp only [List.map_cons, List.map_nil, List.sum_cons, List.sum_nil, Nat.add_zero] at pair
  exact pair

/-! ## The distribution loop -/

/-- The active validators that share a penalty. -/
def receivers (registry : ValidatorRegistry) (slashed : ValidatorID) : List Validator :=
  registry.currentSet.getActiveValidators.filter fun v => decide (v.id ≠ slashed)

/-- What the loop has done: it has left the slashed record alone, and bonded what it has
distributed. -/
structure Shared (registry : ValidatorRegistry) (slashed : ValidatorID) (loop : Distribution) : Prop where
  own : loop.registry.validators[slashed]? = registry.validators[slashed]?
  bonded : loop.registry.totalBonded = registry.totalBonded + loop.distributed.toNat
  known : forall (id : ValidatorID) (record : Validator), registry.validators[id]? = some record ->
    ∃ kept, loop.registry.validators[id]? = some kept

/-- A reward fits into the record of its receiver, because the slashed validator holds
at least what is distributed. -/
theorem Shared.bondReward {loop : Distribution} (shared : Shared registry slashed loop)
    (below : registry.totalBonded < 2 ^ 64) {id : ValidatorID} (other : id ≠ slashed) {record : Validator}
    (found : registry.validators[id]? = some record) (reward : UInt64)
    (covered : loop.distributed.toNat + reward.toNat ≤ registry.stakeOf slashed) :
    Shared registry slashed (bondReward loop id reward) ∧
      (bondReward loop id reward).distributed.toNat = loop.distributed.toNat + reward.toNat ∧
      (bondReward loop id reward).count = loop.count + 1 := by
  unfold SlashingDetector.bondReward
  split
  · rename_i positive
    have own : loop.registry.stakeOf slashed = registry.stakeOf slashed := by
      unfold ValidatorRegistry.stakeOf weightAt
      rw [shared.own]
    rcases shared.known id record found with ⟨kept, keptFound⟩
    have both := stakeOf_add_le loop.registry other.symm
    have bonded := shared.bonded
    rw [ValidatorRegistry.stakeOf_of_found keptFound] at both
    have whole := totalBonded_eq registry slashed
    have wrote := loop.registry.bondStake_of_found id reward keptFound
    have moved := wrote.totalBonded
    have added : (loop.distributed + reward).toNat = loop.distributed.toNat + reward.toNat := by
      rw [UInt64.toNat_add]
      omega
    rw [ValidatorRegistry.bondWrite, UInt64.toNat_add, Nat.mod_eq_of_lt (by omega)] at moved
    refine ⟨⟨?_, ?_, ?_⟩, added, rfl⟩
    · have same := wrote.lookup slashed
      simp only [if_neg other, Option.map_id'] at same
      exact same.trans shared.own
    · change (loop.registry.bondStake id reward).2.totalBonded = _ + (loop.distributed + reward).toNat
      rw [added]
      omega
    · intro receiver before beforeFound
      rcases shared.known receiver before beforeFound with ⟨now, nowFound⟩
      rw [wrote.lookup, nowFound]
      exact ⟨_, rfl⟩
  · rename_i none
    have zero : reward.toNat = 0 := by
      rw [UInt64.lt_iff_toNat_lt] at none
      exact Nat.eq_zero_of_not_pos none
    refine ⟨⟨shared.own, shared.bonded, shared.known⟩, ?_, rfl⟩
    rw [zero]
    rfl

/-- One iteration for a receiver. -/
def rewardTo (distributeAmount totalStake : UInt64) (totalCount : Nat) (loop : Distribution) (v : Validator) :
    Distribution :=
  SlashingDetector.bondReward loop v.id (rewardOf distributeAmount totalStake totalCount loop v)

theorem foldl_distributeTo (slashed : ValidatorID) (distributeAmount totalStake : UInt64) (totalCount : Nat)
    (active : List Validator) (loop : Distribution) :
    active.foldl (distributeTo slashed distributeAmount totalStake totalCount) loop =
      (active.filter fun v => decide (v.id ≠ slashed)).foldl
        (rewardTo distributeAmount totalStake totalCount) loop := by
  rw [List.foldl_filter]
  apply congrArg fun step => active.foldl step loop
  funext current v
  by_cases own : v.id = slashed
  · rw [distributeTo, if_pos own, if_neg (Bool.eq_false_iff.mp (decide_eq_false (not_not.mpr own)))]
  · rw [distributeTo, if_neg own, if_pos (decide_eq_true own)]
    rfl

/-- The loop distributes the whole amount: the receivers before the last one take their
shares, and the last one what is left. -/
theorem Shared.foldl_rewardTo (below : registry.totalBonded < 2 ^ 64) {distributeAmount totalStake : UInt64}
    (covered : distributeAmount.toNat ≤ registry.stakeOf slashed) (positive : 0 < totalStake.toNat) {totalCount : Nat}
    {rest : List Validator} (nonempty : rest ≠ []) {loop : Distribution} (shared : Shared registry slashed loop)
    (others : forall v, v ∈ rest -> v.id ≠ slashed ∧ ∃ record, registry.validators[v.id]? = some record)
    (leaves : LeavesRoom distributeAmount totalStake totalCount loop.distributed loop.count
      (rest.map Validator.bondedStake)) :
    Shared registry slashed (rest.foldl (rewardTo distributeAmount totalStake totalCount) loop) ∧
      (rest.foldl (rewardTo distributeAmount totalStake totalCount) loop).distributed = distributeAmount := by
  induction rest generalizing loop with
  | nil => exact absurd rfl nonempty
  | cons v rest inductionHypothesis =>
      rcases others v List.mem_cons_self with ⟨other, record, found⟩
      rw [List.foldl_cons]
      cases rest with
      | nil =>
          have last := leaves.reward_last positive
          have step := shared.bondReward below other found
            (reward distributeAmount totalStake totalCount loop.distributed loop.count v.bondedStake) (by omega)
          refine ⟨step.1, ?_⟩
          rw [← UInt64.toNat_inj]
          exact step.2.1.trans last.1
      | cons next later =>
          have more : (next :: later).map Validator.bondedStake ≠ [] := List.cons_ne_nil _ _
          have share := (leaves.share positive).1
          have inner := leaves.reward_of_rest positive more
          have step := shared.bondReward below other found
            (reward distributeAmount totalStake totalCount loop.distributed loop.count v.bondedStake) (by omega)
          have size := distributeAmount.toNat_lt
          have sum : (SlashingDetector.bondReward loop v.id (reward distributeAmount totalStake totalCount
              loop.distributed loop.count v.bondedStake)).distributed =
                loop.distributed + reward distributeAmount totalStake totalCount loop.distributed loop.count
                  v.bondedStake := by
            rw [← UInt64.toNat_inj, UInt64.toNat_add, Nat.mod_eq_of_lt (by omega)]
            exact step.2.1
          apply inductionHypothesis (List.cons_ne_nil _ _) step.1
          · intro receiver member
            exact others receiver (List.mem_cons_of_mem v member)
          · rw [sum, step.2.2]
            exact leaves.next positive more

theorem Agrees.stakes_receivers (agrees : Agrees registry) (slashed : ValidatorID) :
    ((receivers registry slashed).map fun v => v.bondedStake.toNat).sum ≤ registry.totalBonded := by
  have stakes : (receivers registry slashed).map (fun v => v.bondedStake.toNat) =
      ((receivers registry slashed).map Validator.id).map
        (weightAt (fun v => v.bondedStake.toNat) registry.validators) := by
    rw [List.map_map]
    apply List.map_congr_left
    intro v member
    rcases agrees.listed v (List.mem_of_mem_filter (List.mem_of_mem_filter member)) with ⟨record, found, same⟩
    change _ = registry.stakeOf v.id
    rw [ValidatorRegistry.stakeOf_of_found found, same]
  rw [stakes]
  apply sum_weightAt_le_total
  exact agrees.distinct.sublist ((List.filter_sublist.trans List.filter_sublist).map Validator.id)

/-- `total_stake_excluding_slashed` is the stake of the receivers, if that fits into a word. -/
theorem toNat_stakeExcluding (registry : ValidatorRegistry) (slashed : ValidatorID)
    (fits : ((receivers registry slashed).map fun v => v.bondedStake.toNat).sum < 2 ^ 64) :
    (stakeExcluding slashed registry.currentSet.getActiveValidators).toNat =
      ((receivers registry slashed).map fun v => v.bondedStake.toNat).sum := by
  have filtered : stakeExcluding slashed registry.currentSet.getActiveValidators =
      (receivers registry slashed).foldl (fun total v => total + v.bondedStake) 0 := by
    rw [receivers, List.foldl_filter]
    simp only [decide_eq_true_eq]
    rfl
  rw [filtered, toNat_sum]
  exact Nat.mod_eq_of_lt fits

/-- There is no overflow if everything that is bonded fits into a word. -/
theorem Agrees.stakeExcluding_toNat (agrees : Agrees registry) (below : registry.totalBonded < 2 ^ 64)
    (slashed : ValidatorID) : (stakeExcluding slashed registry.currentSet.getActiveValidators).toNat =
      ((receivers registry slashed).map fun v => v.bondedStake.toNat).sum :=
  toNat_stakeExcluding registry slashed (Nat.lt_of_le_of_lt (agrees.stakes_receivers slashed) below)

/-- Another active validator has some stake. -/
theorem exists_receiver_iff (registry : ValidatorRegistry) (slashed : ValidatorID) :
    0 < ((receivers registry slashed).map fun v => v.bondedStake.toNat).sum <->
      ∃ entry, entry ∈ registry.currentSet.getActiveValidators ∧ entry.id ≠ slashed ∧ 0 < entry.bondedStake := by
  rw [Nat.pos_iff_ne_zero, Ne, List.sum_eq_zero_iff]
  constructor
  · intro some
    push Not at some
    rcases some with ⟨weight, member, positive⟩
    rcases List.mem_map.mp member with ⟨entry, received, rfl⟩
    rcases List.mem_filter.mp received with ⟨active, other⟩
    exact ⟨entry, active, of_decide_eq_true other, UInt64.lt_iff_toNat_lt.mpr (Nat.pos_of_ne_zero positive)⟩
  · rintro ⟨entry, active, other, positive⟩ zero
    have received : entry ∈ receivers registry slashed := List.mem_filter.mpr ⟨active, decide_eq_true other⟩
    have nothing := zero _ (List.mem_map_of_mem received)
    rw [UInt64.lt_iff_toNat_lt, nothing] at positive
    exact Nat.lt_irrefl _ positive

/-- The distribution as a whole: the slashed record stays, and the amount is bonded if
there is a receiver. -/
theorem Agrees.distributed (agrees : Agrees registry) (below : registry.totalBonded < 2 ^ 64) (slashed : ValidatorID)
    (distributeAmount : UInt64) (covered : distributeAmount.toNat ≤ registry.stakeOf slashed) :
    (distribute registry slashed distributeAmount).validators[slashed]? = registry.validators[slashed]? ∧
    (distribute registry slashed distributeAmount).totalBonded = registry.totalBonded +
      if ∃ entry, entry ∈ registry.currentSet.getActiveValidators ∧ entry.id ≠ slashed ∧ 0 < entry.bondedStake
      then distributeAmount.toNat else 0 := by
  have sum := agrees.stakeExcluding_toNat below slashed
  have receiver := exists_receiver_iff registry slashed
  rw [← sum] at receiver
  unfold distribute
  simp only []
  split
  · rename_i runs
    have positive := UInt64.lt_iff_toNat_lt.mp runs.1
    rw [if_pos (receiver.mp positive), foldl_distributeTo]
    have nonempty : receivers registry slashed ≠ [] := by
      intro empty
      rw [sum, empty] at positive
      exact Nat.lt_irrefl _ positive
    have others : forall v, v ∈ receivers registry slashed ->
        v.id ≠ slashed ∧ ∃ record, registry.validators[v.id]? = some record := by
      intro v member
      rcases List.mem_filter.mp member with ⟨active, other⟩
      rcases agrees.listed v (List.mem_of_mem_filter active) with ⟨record, found, _⟩
      exact ⟨of_decide_eq_true other, record, found⟩
    have start : Shared registry slashed ⟨registry, 0, 0⟩ :=
      ⟨rfl, rfl, fun _ record found => ⟨record, found⟩⟩
    have leaves := leavesRoom_start distributeAmount ((receivers registry slashed).map Validator.bondedStake)
      (sum.trans (by rw [List.map_map]; rfl))
    rw [List.length_map] at leaves
    have looped := start.foldl_rewardTo below covered positive nonempty others leaves
    refine ⟨looped.1.own, ?_⟩
    have bonded := looped.1.bonded
    rw [looped.2] at bonded
    exact bonded
  · rename_i skipped
    refine ⟨rfl, ?_⟩
    split
    · rename_i some
      have nothing : distributeAmount.toNat = 0 := by
        by_contra positive
        exact skipped ⟨UInt64.lt_iff_toNat_lt.mpr (receiver.mpr some),
          UInt64.lt_iff_toNat_lt.mpr (Nat.pos_of_ne_zero positive)⟩
      rw [nothing]
      rfl
    · rfl

/-! ## The whole operation -/

/-- The registry of a slashing that was applied, and the supply. -/
structure Applied (registry : ValidatorRegistry) (event : SlashingEvent) (totalSupply : UInt64)
    (validator : Validator) (penalty : UInt64) : Prop where
  found : registry.validators[event.validatorId]? = some validator
  nonzero : event.penaltyAmount ≠ 0
  amount : penalty = ValidatorRegistry.actualSlash validator.bondedStake event.penaltyAmount
  bonded : (applySlashing registry event totalSupply).2.1.totalBonded = (punish registry event penalty).2.totalBonded
  own : (applySlashing registry event totalSupply).2.1.stakeOf event.validatorId =
    (punish registry event penalty).2.stakeOf event.validatorId
  supply : (applySlashing registry event totalSupply).2.2 = ValidatorRegistry.deductClamped totalSupply (penalty / 2)

/-- The tombstone changes no stake. -/
theorem stakeOf_tombstoned (registry : ValidatorRegistry) (id : ValidatorID) :
    (registry.updateValidator id none none (some .tombstoned)).2.stakeOf id = registry.stakeOf id := by
  rcases registry.updateValidator_performs id none none (some .tombstoned) with refused | ⟨validator, wrote⟩
  · rw [refused]
  · rw [wrote.stakeOf, ValidatorRegistry.stakeOf_of_found wrote.found]
    rfl

theorem applied_cases {event : SlashingEvent} {totalSupply : UInt64}
    (applied : (applySlashing registry event totalSupply).1 = true) :
    ∃ validator penalty, Applied registry event totalSupply validator penalty := by
  cases found : registry.getValidator event.validatorId with
  | none =>
      unfold applySlashing at applied
      rw [found] at applied
      cases applied
  | some validator =>
      by_cases zero : event.penaltyAmount = 0
      · unfold applySlashing at applied
        rw [found] at applied
        simp only [zero, if_true] at applied
        cases applied
      · refine ⟨validator, ValidatorRegistry.actualSlash validator.bondedStake event.penaltyAmount, ?_⟩
        have known : (punish registry event
            (ValidatorRegistry.actualSlash validator.bondedStake event.penaltyAmount)).1 ≠ false := by
          intro unknown
          unfold applySlashing at applied
          rw [found] at applied
          simp only [zero, if_false, unknown, if_true] at applied
          cases applied
        have result : applySlashing registry event totalSupply = (true,
            (if event.reason.isSafetyViolation then ((punish registry event (ValidatorRegistry.actualSlash
                validator.bondedStake event.penaltyAmount)).2.updateValidator event.validatorId none none
                  (some .tombstoned)).2
              else (punish registry event (ValidatorRegistry.actualSlash validator.bondedStake
                event.penaltyAmount)).2),
            ValidatorRegistry.deductClamped totalSupply
              (ValidatorRegistry.actualSlash validator.bondedStake event.penaltyAmount / 2)) := by
          unfold applySlashing
          rw [found]
          simp only []
          rw [if_neg zero, if_neg known]
          split
          · rfl
          · rfl
        refine ⟨found, zero, rfl, ?_, ?_, ?_⟩
        · rw [result]
          dsimp only
          split
          · exact ValidatorRegistry.totalBonded_of_performs
              (ValidatorRegistry.updateValidator_performs _ _ none none (some .tombstoned)) (fun _ => rfl)
          · rfl
        · rw [result]
          dsimp only
          split
          · exact stakeOf_tombstoned _ _
          · rfl
        · rw [result]

/-- The half of a penalty that is distributed. -/
theorem toNat_distributed (penalty : UInt64) :
    (penalty / 2).toNat = penalty.toNat / 2 ∧ (penalty - penalty / 2).toNat = penalty.toNat - penalty.toNat / 2 := by
  have half : (penalty / 2).toNat = penalty.toNat / 2 := UInt64.toNat_div _ _
  refine ⟨half, ?_⟩
  rw [UInt64.toNat_sub_of_le, half]
  rw [UInt64.le_iff_toNat_le, half]
  exact Nat.div_le_self _ _

/-- The stakes after the distribution and the slash. -/
theorem Agrees.punished (agrees : Agrees registry) (below : registry.totalBonded < 2 ^ 64) (event : SlashingEvent)
    {penalty : UInt64} {validator : Validator} (found : registry.validators[event.validatorId]? = some validator)
    (covered : penalty ≤ validator.bondedStake) :
    (punish registry event penalty).2.stakeOf event.validatorId + penalty.toNat = registry.stakeOf event.validatorId ∧
    (punish registry event penalty).2.totalBonded + penalty.toNat = registry.totalBonded +
      if ∃ entry, entry ∈ registry.currentSet.getActiveValidators ∧ entry.id ≠ event.validatorId ∧ 0 < entry.bondedStake
      then penalty.toNat - penalty.toNat / 2 else 0 := by
  have stake := ValidatorRegistry.stakeOf_of_found found
  have enough := UInt64.le_iff_toNat_le.mp covered
  have rest := (toNat_distributed penalty).2
  have distributed := agrees.distributed below event.validatorId (penalty - penalty / 2) (by omega)
  rw [rest] at distributed
  unfold punish
  rcases ValidatorRegistry.slashValidator_cases
      (distribute registry event.validatorId (penalty - penalty / 2)) event.validatorId penalty event.reason with
    ⟨absent, _⟩ | ⟨record, wrote⟩
  · rw [distributed.1, found] at absent
    cases absent
  · have same := wrote.found
    rw [distributed.1, found] at same
    cases Option.some.inj same
    have taken : ValidatorRegistry.actualSlash validator.bondedStake penalty = penalty :=
      if_neg (UInt64.not_lt.mpr covered)
    have left : ((ValidatorRegistry.slashWrite penalty).record validator).bondedStake.toNat =
        validator.bondedStake.toNat - penalty.toNat := by
      change (validator.bondedStake - ValidatorRegistry.actualSlash validator.bondedStake penalty).toNat = _
      rw [taken, UInt64.toNat_sub_of_le _ _ covered]
    constructor
    · rw [wrote.stakeOf, left]
      omega
    · have moved := wrote.totalBonded
      rw [left, distributed.2] at moved
      omega

/-- What a slashing that was applied does to the stakes and to the supply. -/
theorem Agrees.applied (agrees : Agrees registry) (below : registry.totalBonded < 2 ^ 64)
    {event : SlashingEvent} {totalSupply : UInt64} (backed : registry.totalBonded ≤ totalSupply.toNat)
    (applied : (applySlashing registry event totalSupply).1 = true) :
    0 < event.penaltyAmount.toNat ∧
    (applySlashing registry event totalSupply).2.2.toNat + penaltyOf registry event / 2 = totalSupply.toNat ∧
    (applySlashing registry event totalSupply).2.1.stakeOf event.validatorId + penaltyOf registry event =
      registry.stakeOf event.validatorId ∧
    (applySlashing registry event totalSupply).2.1.totalBonded + penaltyOf registry event = registry.totalBonded +
      if ∃ entry, entry ∈ registry.currentSet.getActiveValidators ∧ entry.id ≠ event.validatorId ∧ 0 < entry.bondedStake
      then penaltyOf registry event - penaltyOf registry event / 2 else 0 := by
  rcases applied_cases applied with ⟨validator, penalty, result⟩
  have stake := ValidatorRegistry.stakeOf_of_found result.found
  have penaltyNat : penalty.toNat = penaltyOf registry event := by
    rw [result.amount, ValidatorRegistry.toNat_actualSlash, penaltyOf, stake]
  have covered : penalty ≤ validator.bondedStake := by
    rw [result.amount]
    exact ValidatorRegistry.actualSlash_le _ _
  have half := (toNat_distributed penalty).1
  have punished := agrees.punished below event result.found covered
  rw [penaltyNat] at half punished
  rw [result.own, result.bonded, result.supply]
  refine ⟨?_, ?_, punished.1, punished.2⟩
  · exact Nat.pos_of_ne_zero fun zero => result.nonzero (UInt64.toNat_inj.mp zero)
  · have most : penaltyOf registry event ≤ registry.stakeOf event.validatorId := Nat.min_le_right _ _
    have whole := totalBonded_eq registry event.validatorId
    have room : penalty / 2 ≤ totalSupply := by
      rw [UInt64.le_iff_toNat_le, half]
      omega
    rw [ValidatorRegistry.deductClamped, if_pos room, UInt64.toNat_sub_of_le _ _ room, half]
    omega

/-- Slashing conserves the supply exactly if there is nothing to take or someone to
give the other half to. -/
theorem applySlashing_conserves_iff (registry : ValidatorRegistry) (agrees : Agrees registry)
    (below : registry.totalBonded < 2 ^ 64) (event : SlashingEvent) (totalSupply : UInt64)
    (backed : registry.totalBonded ≤ totalSupply.toNat)
    (applied : (applySlashing registry event totalSupply).1 = true) :
    Conserves registry event totalSupply <-> Distributable registry event.validatorId := by
  rcases agrees.applied below backed applied with ⟨nonzero, supply, own, bonded⟩
  have before := totalBonded_eq registry event.validatorId
  have after := totalBonded_eq (applySlashing registry event totalSupply).2.1 event.validatorId
  have penalty : penaltyOf registry event = min event.penaltyAmount.toNat (registry.stakeOf event.validatorId) := rfl
  constructor
  · intro conserves
    by_cases receiver : ∃ entry, entry ∈ registry.currentSet.getActiveValidators ∧ entry.id ≠ event.validatorId ∧
        0 < entry.bondedStake
    · exact Or.inr receiver
    · -- nothing was distributed, so the half that left the bonded stake is the whole penalty
      rw [if_neg receiver] at bonded
      have half := conserves.bonded
      left
      omega
  · intro distributable
    have halves : (applySlashing registry event totalSupply).2.1.totalBonded + penaltyOf registry event / 2 =
        registry.totalBonded := by
      rcases distributable with nothing | receiver
      · split at bonded
        · omega
        · omega
      · rw [if_pos receiver] at bonded
        omega
    refine ⟨halves, supply, ?_⟩
    omega

/-- The registry and the current set agree after every epoch transition. -/
theorem agrees_transitionEpoch (prim : Primitives) (ok : registry.RegistryOk) (newEpoch totalBlocks : UInt64) :
    Agrees (registry.transitionEpoch prim newEpoch totalBlocks).2 where
  distinct := ok.selectedFor_distinct newEpoch totalBlocks
  listed := fun entry member =>
    ⟨entry, (ok.transitionEpoch_getElem prim newEpoch totalBlocks entry.id entry).mpr ⟨member, rfl⟩, rfl⟩

/-- The first epoch of a network with the given newcomers. -/
def firstEpoch (calls : List RegistryCall) : ValidatorRegistry :=
  ((run (ValidatorRegistry.call Transparent.primitives) (ValidatorRegistry.create ValidatorRegistry.smallConfig)
    calls).transitionEpoch Transparent.primitives 1 0).2

theorem agrees_firstEpoch (calls : List RegistryCall) : Agrees (firstEpoch calls) :=
  agrees_transitionEpoch Transparent.primitives
    (ValidatorRegistry.registryOk_run Transparent.primitives ValidatorRegistry.smallConfig calls) 1 0

/-- A double sign of the first validator that costs five. -/
def fiveTaken : SlashingEvent := ⟨ValidatorRegistry.numbered 1, 1, .doubleSign, 5, []⟩

theorem applySlashing_conserves_iff_pair :
    (applySlashing (firstEpoch [ValidatorRegistry.newcomer 1 20, ValidatorRegistry.newcomer 2 10]) fiveTaken 30).1 =
      true ∧
    (Conserves (firstEpoch [ValidatorRegistry.newcomer 1 20, ValidatorRegistry.newcomer 2 10]) fiveTaken 30 <->
      Distributable (firstEpoch [ValidatorRegistry.newcomer 1 20, ValidatorRegistry.newcomer 2 10])
        (ValidatorRegistry.numbered 1)) := by
  refine ⟨by decide +kernel, ?_⟩
  apply applySlashing_conserves_iff _ (agrees_firstEpoch _)
  · decide +kernel
  · decide +kernel
  · decide +kernel

/-- The only validator loses five, and the supply loses two. -/
theorem lone_validator_half_vanishes :
    Agrees (firstEpoch [ValidatorRegistry.newcomer 1 20]) ∧
    (firstEpoch [ValidatorRegistry.newcomer 1 20]).totalBonded = 20 ∧
    (applySlashing (firstEpoch [ValidatorRegistry.newcomer 1 20]) fiveTaken 20).1 = true ∧
    (applySlashing (firstEpoch [ValidatorRegistry.newcomer 1 20]) fiveTaken 20).2.1.totalBonded = 15 ∧
    (applySlashing (firstEpoch [ValidatorRegistry.newcomer 1 20]) fiveTaken 20).2.2 = 18 ∧
    ¬ Conserves (firstEpoch [ValidatorRegistry.newcomer 1 20]) fiveTaken 20 := by
  have before : (firstEpoch [ValidatorRegistry.newcomer 1 20]).totalBonded = 20 := by decide +kernel
  have after : (applySlashing (firstEpoch [ValidatorRegistry.newcomer 1 20]) fiveTaken 20).2.1.totalBonded = 15 := by
    decide +kernel
  have penalty : penaltyOf (firstEpoch [ValidatorRegistry.newcomer 1 20]) fiveTaken = 5 := by decide +kernel
  refine ⟨agrees_firstEpoch _, before, by decide +kernel, after, by decide +kernel, ?_⟩
  intro conserves
  have bonded := conserves.bonded
  rw [before, after, penalty] at bonded
  omega

end SlashingDetector
end Consensus
end Sarafu

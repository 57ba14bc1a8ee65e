import Sarafu.Consensus.GenesisBuilder

namespace Sarafu
namespace Consensus

/-!
# The release of a vesting schedule

The released amount grows linearly with the elapsed time, up to the total.  It is computed
from the time that has passed since the start, and the end of the release is compared with
the sum of start and duration.  That sum is taken modulo `2^64`.
-/

/-- A linear release over the natural numbers. -/
def released (total duration elapsed : Nat) : Nat :=
  if duration ≤ elapsed then total else total * elapsed / duration

theorem released_le (total duration elapsed : Nat) : released total duration elapsed ≤ total := by
  unfold released
  split
  · exact Nat.le_refl total
  · rename_i early
    apply Nat.div_le_of_le_mul
    rw [Nat.mul_comm]
    exact Nat.mul_le_mul_right total (Nat.le_of_not_le early)

theorem released_mono (total duration : Nat) {elapsed later : Nat} (order : elapsed ≤ later) :
    released total duration elapsed ≤ released total duration later := by
  by_cases ended : duration ≤ later
  · have all : released total duration later = total := if_pos ended
    rw [all]
    exact released_le total duration elapsed
  · have early : ¬duration ≤ elapsed := fun reached => ended (Nat.le_trans reached order)
    rw [released, released, if_neg early, if_neg ended]
    exact Nat.div_le_div_right (Nat.mul_le_mul_left total order)

namespace VestingSchedule

/-- The product has 128 bits. -/
def calculateVestedAmount (schedule : VestingSchedule) (currentTimestamp : UInt64) : UInt64 :=
  if currentTimestamp < schedule.startTimestamp then 0
  else
    let elapsed := currentTimestamp - schedule.startTimestamp
    if schedule.durationSeconds ≤ elapsed then schedule.totalAmount
    else
      let vested := schedule.totalAmount.toNat * elapsed.toNat % 2 ^ 128 / schedule.durationSeconds.toNat
      UInt64.ofNat vested

def isFullyVested (schedule : VestingSchedule) (currentTimestamp : UInt64) : Bool :=
  decide (schedule.startTimestamp + schedule.durationSeconds ≤ currentTimestamp)

/-- The final phase: the duration has passed since the start. -/
def Matured (schedule : VestingSchedule) (timestamp : UInt64) : Prop :=
  schedule.startTimestamp ≤ timestamp ∧
    schedule.durationSeconds.toNat ≤ timestamp.toNat - schedule.startTimestamp.toNat

/-- What a schedule promises at a time and at a later one. -/
structure Lawful (schedule : VestingSchedule) (timestamp later : UInt64) : Prop where
  grows : schedule.calculateVestedAmount timestamp ≤ schedule.calculateVestedAmount later
  bounded : schedule.calculateVestedAmount later ≤ schedule.totalAmount
  final : schedule.isFullyVested timestamp = true <-> schedule.Matured timestamp
  complete : schedule.isFullyVested timestamp = true -> schedule.calculateVestedAmount timestamp = schedule.totalAmount

/-- The end of the schedule wraps around to a time that has been reached. -/
def WrapsBefore (schedule : VestingSchedule) (timestamp : UInt64) : Prop :=
  2 ^ 64 ≤ schedule.startTimestamp.toNat + schedule.durationSeconds.toNat ∧
    schedule.startTimestamp.toNat + schedule.durationSeconds.toNat - 2 ^ 64 ≤ timestamp.toNat

variable {schedule : VestingSchedule} {timestamp later : UInt64}

/-- From the start on, the amount is the linear release. -/
theorem toNat_calculateVestedAmount (started : schedule.startTimestamp ≤ timestamp) :
    (schedule.calculateVestedAmount timestamp).toNat =
      released schedule.totalAmount.toNat schedule.durationSeconds.toNat
        (timestamp.toNat - schedule.startTimestamp.toNat) := by
  have elapsed := UInt64.toNat_sub_of_le timestamp schedule.startTimestamp started
  unfold calculateVestedAmount released
  rw [if_neg (UInt64.not_lt.mpr started)]
  simp only [UInt64.le_iff_toNat_le, elapsed]
  split
  · rfl
  · rename_i early
    have total := schedule.totalAmount.toNat_lt
    have product : schedule.totalAmount.toNat * (timestamp.toNat - schedule.startTimestamp.toNat) < 2 ^ 128 := by
      have passed : timestamp.toNat - schedule.startTimestamp.toNat < 2 ^ 64 :=
        Nat.lt_of_le_of_lt (Nat.sub_le _ _) timestamp.toNat_lt
      calc schedule.totalAmount.toNat * (timestamp.toNat - schedule.startTimestamp.toNat)
        _ < 2 ^ 64 * 2 ^ 64 := Nat.mul_lt_mul'' total passed
        _ = 2 ^ 128 := by decide
    have part := released_le schedule.totalAmount.toNat schedule.durationSeconds.toNat
      (timestamp.toNat - schedule.startTimestamp.toNat)
    rw [released, if_neg early] at part
    rw [Nat.mod_eq_of_lt product, UInt64.toNat_ofNat_of_lt' (Nat.lt_of_le_of_lt part total)]

theorem calculateVestedAmount_le (schedule : VestingSchedule) (timestamp : UInt64) :
    schedule.calculateVestedAmount timestamp ≤ schedule.totalAmount := by
  by_cases started : schedule.startTimestamp ≤ timestamp
  · rw [UInt64.le_iff_toNat_le, toNat_calculateVestedAmount started]
    exact released_le _ _ _
  · rw [calculateVestedAmount, if_pos (UInt64.not_le.mp started)]
    exact UInt64.zero_le

theorem calculateVestedAmount_mono (schedule : VestingSchedule) (order : timestamp ≤ later) :
    schedule.calculateVestedAmount timestamp ≤ schedule.calculateVestedAmount later := by
  by_cases started : schedule.startTimestamp ≤ timestamp
  · rw [UInt64.le_iff_toNat_le, toNat_calculateVestedAmount started,
      toNat_calculateVestedAmount (UInt64.le_trans started order)]
    exact released_mono _ _ (Nat.sub_le_sub_right (UInt64.le_iff_toNat_le.mp order) _)
  · rw [calculateVestedAmount, if_pos (UInt64.not_le.mp started)]
    exact UInt64.zero_le

theorem calculateVestedAmount_of_matured (matured : schedule.Matured timestamp) :
    schedule.calculateVestedAmount timestamp = schedule.totalAmount := by
  rw [← UInt64.toNat_inj, toNat_calculateVestedAmount matured.1, released, if_pos matured.2]

/-- The flag and the final phase differ exactly if the end wraps around. -/
theorem isFullyVested_iff_matured_iff (schedule : VestingSchedule) (timestamp : UInt64) :
    (schedule.isFullyVested timestamp = true <-> schedule.Matured timestamp) <-> ¬schedule.WrapsBefore timestamp := by
  have start := schedule.startTimestamp.toNat_lt
  have duration := schedule.durationSeconds.toNat_lt
  have now := timestamp.toNat_lt
  rw [isFullyVested, decide_eq_true_iff, Matured, WrapsBefore, UInt64.le_iff_toNat_le, UInt64.le_iff_toNat_le,
    UInt64.toNat_add]
  omega

/-- The law holds unless the end of the schedule wraps around to a time that has been
reached. -/
theorem lawful_iff (schedule : VestingSchedule) (timestamp later : UInt64) (order : timestamp ≤ later) :
    schedule.Lawful timestamp later <-> ¬schedule.WrapsBefore timestamp := by
  rw [← isFullyVested_iff_matured_iff]
  constructor
  · exact fun lawful => lawful.final
  · intro final
    constructor
    case grows => exact schedule.calculateVestedAmount_mono order
    case bounded => exact schedule.calculateVestedAmount_le later
    case final => exact final
    case complete => exact fun vested => calculateVestedAmount_of_matured (final.mp vested)

/-- A schedule of four years. -/
theorem lawful_iff_fourYears : (VestingSchedule.make 1000 1700000000 126144000).Lawful 1750000000 1800000000 := by
  apply (lawful_iff (VestingSchedule.make 1000 1700000000 126144000) 1750000000 1800000000 (by decide)).mpr
  unfold WrapsBefore
  decide

/-- A schedule of the longest duration counts as fully vested before it has released anything. -/
theorem isFullyVested_before_matured :
    let schedule := VestingSchedule.make 1000 1700000000 (2 ^ 64 - 1)
    schedule.isFullyVested 1750000000 = true ∧ schedule.calculateVestedAmount 1750000000 = 0 ∧
      ¬schedule.Matured 1750000000 ∧ ¬schedule.Lawful 1750000000 1800000000 := by
  intro schedule
  have vested : schedule.isFullyVested 1750000000 = true := by decide +kernel
  have nothing : schedule.calculateVestedAmount 1750000000 = 0 := by decide +kernel
  have early : ¬schedule.Matured 1750000000 := by
    unfold Matured
    decide +kernel
  exact ⟨vested, nothing, early, fun lawful => early (lawful.final.mp vested)⟩

end VestingSchedule
end Consensus
end Sarafu

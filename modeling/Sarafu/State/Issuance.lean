import Sarafu.Library.RelativeErrors
import Sarafu.Library.RunSums
import Sarafu.State.MonetaryPolicyEngine

namespace Sarafu
namespace State

open Consensus Library.Runs Library.RelativeErrors Library.RunSums

/-!
# Issuance over whole runs

The issuance of a block is computed from a rate and the supply, and the supply cancels: what is
issued is the coefficient times the bonded stake over the blocks of a year, up to six roundings of a
`double` and one to an integer.  A coefficient that is a number never leaves its bounds, so the
stake bounds what any run can issue.  One that is no number passes both comparisons with the
bounds; from then on no issuance can be converted to an integer, until a number is set.
-/

/-- `std::to_string` of a `double` that is not negative. -/
def toFixed (value : Rat) : String :=
  let millionths := (roundHalfEven (value * 1000000)).toNat
  let places := toString (millionths % 1000000)
  toString (millionths / 1000000) ++ "." ++ String.ofList (List.replicate (6 - places.length) '0') ++ places

/-- A `double` that a caller passes. -/
inductive DoubleValue
  | number (value : Rat)
  | infinity (positive : Bool)
  | notANumber
deriving DecidableEq

/-- The engine with another coefficient and the rate that it gives. -/
def MonetaryPolicyEngine.withCoefficient (engine : MonetaryPolicyEngine) (newK : Rat) : MonetaryPolicyEngine :=
  let changed : MonetaryPolicyEngine := { engine with params := { engine.params with k := newK } }
  { changed with state := { changed.state with issuanceRate := changed.calculateIssuanceRate toDouble } }

/-- The calls that change the engine. -/
inductive MonetaryCall
  | updateSupply (feesBurned blocksPerYear : UInt64)
  | setIssuanceCoefficient (newK : DoubleValue)
  | updateBondedStake (newBondedStake : UInt64)
  | resetEpochCounters
deriving DecidableEq

/-- An engine, and whether its coefficient is a number.  If it is none, neither is the issuance
rate, and the engine still shows the last ones that were. -/
structure Issuer where
  engine : MonetaryPolicyEngine
  numeric : Bool

namespace Issuer

def create (initialSupply initialBondedStake : UInt64) : Issuer :=
  ⟨.create toDouble initialSupply initialBondedStake, true⟩

def refusal (issuer : Issuer) : String :=
  "Issuance coefficient must be between " ++ toFixed issuer.engine.params.minK ++ " and " ++
    toFixed issuer.engine.params.maxK

/-- The error, if there is one, and the engine after the call. -/
def setIssuanceCoefficient (issuer : Issuer) : DoubleValue -> Option String × Issuer
  | .number newK =>
      if newK < issuer.engine.params.minK ∨ issuer.engine.params.maxK < newK then (some issuer.refusal, issuer)
      else (none, ⟨issuer.engine.withCoefficient newK, true⟩)
  | .infinity _ => (some issuer.refusal, issuer)
  -- every comparison with it is false
  | .notANumber => (none, { issuer with numeric := false })

/-- Without a number there is nothing to convert. -/
def updateSupply (issuer : Issuer) (feesBurned blocksPerYear : UInt64) : Option Issuer :=
  if issuer.numeric then
    (issuer.engine.updateSupply toDouble feesBurned blocksPerYear).map fun next => { issuer with engine := next }
  else none

def updateBondedStake (issuer : Issuer) (newBondedStake : UInt64) : Issuer where
  engine := MonetaryPolicyEngine.recalculated toDouble
    { issuer.engine with state := { issuer.engine.state with totalBondedStake := newBondedStake } }
  numeric := issuer.numeric

def resetEpochCounters (issuer : Issuer) : Issuer := { issuer with engine := issuer.engine.resetEpochCounters }

/-- The engine after a call, for calls whose result the language defines. -/
def call (issuer : Issuer) : MonetaryCall -> Issuer
  | .updateSupply feesBurned blocksPerYear => (issuer.updateSupply feesBurned blocksPerYear).getD issuer
  | .setIssuanceCoefficient newK => (issuer.setIssuanceCoefficient newK).2
  | .updateBondedStake newBondedStake => issuer.updateBondedStake newBondedStake
  | .resetEpochCounters => issuer.resetEpochCounters

/-- The language defines the result of the call. -/
def Defined (issuer : Issuer) : MonetaryCall -> Prop
  | .updateSupply feesBurned blocksPerYear => (issuer.updateSupply feesBurned blocksPerYear).isSome = true
  | _ => True

instance (issuer : Issuer) : forall step, Decidable (issuer.Defined step)
  | .updateSupply feesBurned blocksPerYear =>
      inferInstanceAs (Decidable ((issuer.updateSupply feesBurned blocksPerYear).isSome = true))
  | .setIssuanceCoefficient _ => isTrue trivial
  | .updateBondedStake _ => isTrue trivial
  | .resetEpochCounters => isTrue trivial

end Issuer

namespace MonetaryPolicyEngine

/-- The issuance of one block before it is rounded to an integer. -/
def perBlockIssuance (engine : MonetaryPolicyEngine) (blocksPerYear : UInt64) : Rat :=
  toDouble (toDouble (engine.calculateIssuanceRate toDouble * toDouble engine.state.totalSupply.toNat) /
    toDouble blocksPerYear.toNat)

/-- The issuance without rounding: the supply does not matter, except that nothing is issued
without any. -/
def dueIssuance (engine : MonetaryPolicyEngine) (blocksPerYear : UInt64) : Rat :=
  if engine.state.totalSupply = 0 then 0
  else engine.params.k * engine.state.totalBondedStake.toNat / blocksPerYear.toNat

/-! ## One block -/

theorem toDouble_zero : toDouble 0 = 0 := if_pos (le_refl 0)

/-- One rounding of a `double`. -/
theorem toDouble_within {value : Rat} (nonneg : 0 ≤ value) : Within (1 + 1 / 2 ^ 52) (toDouble value) value := by
  rcases nonneg.eq_or_lt with rfl | positive
  · rw [toDouble_zero]
    exact Within.refl (by norm_num) (le_refl 0)
  · have error := abs_le.mp (toDouble_error positive)
    constructor
    · linarith [error.2]
    · linarith [error.1]

theorem toDouble_nonneg {value : Rat} (nonneg : 0 ≤ value) : 0 ≤ toDouble value := by
  rcases nonneg.eq_or_lt with rfl | positive
  · exact toDouble_zero.ge
  · exact (toDouble_pos positive).le

theorem roundHalfAway_error {value : Rat} (nonneg : 0 ≤ value) : |(roundHalfAway value : Rat) - value| ≤ 1 / 2 := by
  have below := Int.floor_le (value + 1 / 2)
  have above := Int.lt_floor_add_one (value + 1 / 2)
  have floor : (value + 1 / 2).floor = ⌊value + 1 / 2⌋ := rfl
  rw [roundHalfAway, if_pos nonneg, floor, abs_le]
  constructor <;> linarith

theorem roundHalfAway_nonneg {value : Rat} (nonneg : 0 ≤ value) : 0 ≤ roundHalfAway value := by
  have floor : (value + 1 / 2).floor = ⌊value + 1 / 2⌋ := rfl
  rw [roundHalfAway, if_pos nonneg, floor]
  exact Int.floor_nonneg.mpr (by linarith)

/-- A number that is near is as near after one more rounding, up to a factor. -/
theorem toDouble_within_of_within {factor left right : Rat} (factorNonneg : 0 ≤ factor) (nonneg : 0 ≤ left)
    (near : Within factor left right) : Within ((1 + 1 / 2 ^ 52) * factor) (toDouble left) right :=
  (toDouble_within nonneg).trans (by norm_num) factorNonneg near

/-- Six roundings: of the stake, the ratio, the rate, its product with the supply, the blocks of a year
and the quotient.  The rounded supply is multiplied with what it has divided. -/
theorem perBlockIssuance_within (engine : MonetaryPolicyEngine) (coefficient : 0 ≤ engine.params.k)
    {blocksPerYear : UInt64} (blocks : blocksPerYear ≠ 0) :
    Within ((1 + 1 / 2 ^ 52) ^ 6) (engine.perBlockIssuance blocksPerYear) (engine.dueIssuance blocksPerYear) ∧
      0 ≤ engine.perBlockIssuance blocksPerYear ∧ 0 ≤ engine.dueIssuance blocksPerYear := by
  unfold perBlockIssuance dueIssuance calculateIssuanceRate calculateStakingRatio
  by_cases none : engine.state.totalSupply = 0
  · simp only [if_pos none, mul_zero, toDouble_zero, zero_mul, zero_div]
    exact ⟨Within.refl (by norm_num) (le_refl 0), le_refl 0, le_refl 0⟩
  · simp only [if_neg none]
    have supplyPos : (0 : Rat) < engine.state.totalSupply.toNat := by
      exact_mod_cast Nat.pos_of_ne_zero fun zero => none (UInt64.toNat_inj.mp zero)
    have blocksPos : (0 : Rat) < blocksPerYear.toNat := by
      exact_mod_cast Nat.pos_of_ne_zero fun zero => blocks (UInt64.toNat_inj.mp zero)
    have stakeNonneg : (0 : Rat) ≤ engine.state.totalBondedStake.toNat := Nat.cast_nonneg _
    have divisorPos := toDouble_pos supplyPos
    have yearPos := toDouble_pos blocksPos
    generalize (engine.state.totalSupply.toNat : Rat) = supply at supplyPos divisorPos ⊢
    generalize (engine.state.totalBondedStake.toNat : Rat) = stake at stakeNonneg ⊢
    generalize (blocksPerYear.toNat : Rat) = year at blocksPos yearPos ⊢
    generalize engine.params.k = k at coefficient ⊢
    have stakeRounded := (toDouble_within stakeNonneg).scale (inv_pos.mpr divisorPos).le
    have stakeDouble := toDouble_nonneg stakeNonneg
    have ratioNonneg : 0 ≤ toDouble stake * (toDouble supply)⁻¹ := mul_nonneg stakeDouble (inv_pos.mpr divisorPos).le
    have ratio := (toDouble_within_of_within (by norm_num) ratioNonneg stakeRounded).scale coefficient
    have rateNonneg := mul_nonneg (toDouble_nonneg ratioNonneg) coefficient
    have rate := (toDouble_within_of_within (by norm_num) rateNonneg ratio).scale divisorPos.le
    have productNonneg := mul_nonneg (toDouble_nonneg rateNonneg) divisorPos.le
    have product := toDouble_within_of_within (by norm_num) productNonneg rate
    have quotient := Within.div (by norm_num) (toDouble_nonneg productNonneg)
      (mul_nonneg (mul_nonneg (mul_nonneg stakeNonneg (inv_pos.mpr divisorPos).le) coefficient) divisorPos.le)
      yearPos blocksPos product (toDouble_within blocksPos.le)
    have quotientNonneg := div_nonneg (toDouble_nonneg productNonneg) yearPos.le
    have issuance := toDouble_within_of_within (by norm_num) quotientNonneg quotient
    have cancelled : stake * (toDouble supply)⁻¹ * k * toDouble supply / year = k * stake / year := by
      field_simp
    rw [cancelled] at issuance
    rw [div_eq_mul_inv (toDouble stake), mul_comm k]
    refine ⟨?_, toDouble_nonneg quotientNonneg, by positivity⟩
    have powers : ((1 + 1 / 2 ^ 52 : Rat)) ^ 6 = (1 + 1 / 2 ^ 52) * ((1 + 1 / 2 ^ 52) * ((1 + 1 / 2 ^ 52) *
        ((1 + 1 / 2 ^ 52) * (1 + 1 / 2 ^ 52))) * (1 + 1 / 2 ^ 52)) := by ring
    rw [powers]
    exact issuance

/-- What a block issues is the due issuance up to the rounding to an integer and to
less than one part in `2^49`. -/
theorem issuance_error (engine : MonetaryPolicyEngine) (coefficient : 0 ≤ engine.params.k)
    {blocksPerYear : UInt64} (blocks : blocksPerYear ≠ 0) :
    |(((roundHalfAway (engine.perBlockIssuance blocksPerYear)).toNat : Nat) : Rat) - engine.dueIssuance blocksPerYear| ≤
      1 / 2 + engine.dueIssuance blocksPerYear / 2 ^ 49 := by
  rcases engine.perBlockIssuance_within coefficient blocks with ⟨within, nonneg, dueNonneg⟩
  have integer : (((roundHalfAway (engine.perBlockIssuance blocksPerYear)).toNat : Nat) : Rat) =
      roundHalfAway (engine.perBlockIssuance blocksPerYear) := by
    exact_mod_cast Int.toNat_of_nonneg (roundHalfAway_nonneg nonneg)
  have rounding := roundHalfAway_error nonneg
  have computing := within.abs_sub_le (by norm_num) dueNonneg
  have factor : (1 + 1 / 2 ^ 52 : Rat) ^ 6 - 1 ≤ 1 / 2 ^ 49 := by norm_num
  have relative := mul_le_mul_of_nonneg_right factor dueNonneg
  rw [integer]
  calc |(roundHalfAway (engine.perBlockIssuance blocksPerYear) : Rat) - engine.dueIssuance blocksPerYear|
      ≤ |(roundHalfAway (engine.perBlockIssuance blocksPerYear) : Rat) - engine.perBlockIssuance blocksPerYear| +
          |engine.perBlockIssuance blocksPerYear - engine.dueIssuance blocksPerYear| := abs_sub_le _ _ _
    _ ≤ 1 / 2 + engine.dueIssuance blocksPerYear / 2 ^ 49 := by linarith

/-! ## Runs -/

/-- The parameters and the cached rates of an engine in use. -/
structure Sound (engine : MonetaryPolicyEngine) : Prop where
  least : engine.params.minK = toDouble (5 / 100)
  most : engine.params.maxK = toDouble (2 / 10)
  atLeast : engine.params.minK ≤ engine.params.k
  atMost : engine.params.k ≤ engine.params.maxK
  ratio : engine.state.stakingRatio = engine.calculateStakingRatio toDouble
  rate : engine.state.issuanceRate = engine.calculateIssuanceRate toDouble

theorem Sound.coefficient_nonneg {engine : MonetaryPolicyEngine} (sound : engine.Sound) : 0 ≤ engine.params.k := by
  have low := sound.atLeast
  rw [sound.least] at low
  exact (toDouble_pos (by norm_num)).le.trans low

theorem sound_create (initialSupply initialBondedStake : UInt64) :
    (create toDouble initialSupply initialBondedStake).Sound where
  least := rfl
  most := rfl
  atLeast := toDouble_mono (by norm_num) (by norm_num)
  atMost := toDouble_mono (by norm_num) (by norm_num)
  ratio := rfl
  rate := rfl

/-- An update that is defined, field by field. -/
theorem updateSupply_eq_some {engine next : MonetaryPolicyEngine} {feesBurned blocksPerYear : UInt64}
    (updated : engine.updateSupply toDouble feesBurned blocksPerYear = some next) :
    blocksPerYear ≠ 0 ∧ roundHalfAway (engine.perBlockIssuance blocksPerYear) < 2 ^ 64 ∧
      next.params = engine.params ∧
      next.state.totalSupply = engine.state.totalSupply +
        UInt64.ofNat (roundHalfAway (engine.perBlockIssuance blocksPerYear)).toNat - feesBurned ∧
      next.state.stakingRatio = next.calculateStakingRatio toDouble ∧
      next.state.issuanceRate = next.calculateIssuanceRate toDouble := by
  unfold updateSupply at updated
  simp only [] at updated
  split at updated
  · cases updated
  · rename_i defined
    rw [not_or, not_or] at defined
    rw [← Option.some.inj updated]
    exact ⟨defined.1, not_le.mp defined.2.2, rfl, rfl, rfl, rfl⟩

end MonetaryPolicyEngine

/-- The calls that issue tokens. -/
def MonetaryCall.updates : MonetaryCall -> Bool
  | .updateSupply _ _ => true
  | _ => false

namespace Issuer

/-- The tokens that a call issues. -/
def issuedBy (issuer : Issuer) : MonetaryCall -> Nat
  | .updateSupply _ blocksPerYear => (roundHalfAway (issuer.engine.perBlockIssuance blocksPerYear)).toNat
  | _ => 0

def burnedBy (_ : Issuer) : MonetaryCall -> Nat
  | .updateSupply feesBurned _ => feesBurned.toNat
  | _ => 0

def dueBy (issuer : Issuer) : MonetaryCall -> Rat
  | .updateSupply _ blocksPerYear => issuer.engine.dueIssuance blocksPerYear
  | _ => 0

variable {issuer : Issuer} {step : MonetaryCall}

/-- An update with a defined result is one of the engine. -/
theorem updateSupply_eq_some {next : Issuer} {feesBurned blocksPerYear : UInt64}
    (updated : issuer.updateSupply feesBurned blocksPerYear = some next) :
    issuer.engine.updateSupply toDouble feesBurned blocksPerYear = some next.engine ∧ next.numeric = true := by
  unfold updateSupply at updated
  split at updated
  · rename_i numeric
    rcases Option.map_eq_some_iff.mp updated with ⟨engine, found, rfl⟩
    exact ⟨found, numeric⟩
  · cases updated

/-- A coefficient is refused, or it is a number within the bounds and becomes the new one, or it is
no number. -/
theorem setIssuanceCoefficient_cases (issuer : Issuer) (newK : DoubleValue) :
    (issuer.setIssuanceCoefficient newK).2 = issuer ∨
      (∃ value, newK = .number value ∧ issuer.engine.params.minK ≤ value ∧ value ≤ issuer.engine.params.maxK ∧
        (issuer.setIssuanceCoefficient newK).2 = ⟨issuer.engine.withCoefficient value, true⟩) ∨
      (newK = .notANumber ∧ (issuer.setIssuanceCoefficient newK).2 = { issuer with numeric := false }) := by
  cases newK with
  | number value =>
      by_cases outside : value < issuer.engine.params.minK ∨ issuer.engine.params.maxK < value
      · exact Or.inl (congrArg Prod.snd (if_pos outside))
      · have inside := outside
        rw [not_or, not_lt, not_lt] at inside
        exact Or.inr (Or.inl ⟨value, rfl, inside.1, inside.2, congrArg Prod.snd (if_neg outside)⟩)
  | infinity positive => exact Or.inl rfl
  | notANumber => exact Or.inr (Or.inr ⟨rfl, rfl⟩)

theorem sound_call (sound : issuer.engine.Sound) (step : MonetaryCall) : (issuer.call step).engine.Sound := by
  cases step with
  | updateSupply feesBurned blocksPerYear =>
      change ((issuer.updateSupply feesBurned blocksPerYear).getD issuer).engine.Sound
      cases updated : issuer.updateSupply feesBurned blocksPerYear with
      | none => exact sound
      | some next =>
          rcases MonetaryPolicyEngine.updateSupply_eq_some (updateSupply_eq_some updated).1 with
            ⟨_, _, same, _, ratio, rate⟩
          exact ⟨same ▸ sound.least, same ▸ sound.most, same ▸ sound.atLeast, same ▸ sound.atMost, ratio, rate⟩
  | setIssuanceCoefficient newK =>
      change (issuer.setIssuanceCoefficient newK).2.engine.Sound
      rcases issuer.setIssuanceCoefficient_cases newK with same | ⟨value, _, low, high, changed⟩ | ⟨_, lost⟩
      · rw [same]
        exact sound
      · rw [changed]
        exact ⟨sound.least, sound.most, low, high, sound.ratio, rfl⟩
      · rw [lost]
        exact sound
  | updateBondedStake newBondedStake => exact ⟨sound.least, sound.most, sound.atLeast, sound.atMost, rfl, rfl⟩
  | resetEpochCounters =>
      exact ⟨sound.least, sound.most, sound.atLeast, sound.atMost, sound.ratio, sound.rate⟩

/-- The coefficient stays a number unless it is set to none. -/
theorem numeric_call (numeric : issuer.numeric = true) (given : step ≠ .setIssuanceCoefficient .notANumber) :
    (issuer.call step).numeric = true := by
  cases step with
  | updateSupply feesBurned blocksPerYear =>
      change ((issuer.updateSupply feesBurned blocksPerYear).getD issuer).numeric = true
      cases updated : issuer.updateSupply feesBurned blocksPerYear with
      | none => exact numeric
      | some next => exact (updateSupply_eq_some updated).2
  | setIssuanceCoefficient newK =>
      change (issuer.setIssuanceCoefficient newK).2.numeric = true
      rcases issuer.setIssuanceCoefficient_cases newK with same | ⟨_, _, _, _, changed⟩ | ⟨rfl, _⟩
      · rw [same]
        exact numeric
      · rw [changed]
      · exact absurd rfl given
  | updateBondedStake newBondedStake => exact numeric
  | resetEpochCounters => exact numeric

/-- What a defined call does to the supply. -/
theorem supply_call (defined : issuer.Defined step) :
    (issuer.call step).engine.state.totalSupply.toNat + issuer.burnedBy step ≡
      issuer.engine.state.totalSupply.toNat + issuer.issuedBy step [MOD 2 ^ 64] := by
  cases step with
  | updateSupply feesBurned blocksPerYear =>
      rcases Option.isSome_iff_exists.mp defined with ⟨next, updated⟩
      have after : issuer.call (.updateSupply feesBurned blocksPerYear) = next := by
        rw [call, updated, Option.getD_some]
      rcases MonetaryPolicyEngine.updateSupply_eq_some (updateSupply_eq_some updated).1 with ⟨_, fits, _, supply, _⟩
      have words : next.engine.state.totalSupply + feesBurned = issuer.engine.state.totalSupply +
          UInt64.ofNat (roundHalfAway (issuer.engine.perBlockIssuance blocksPerYear)).toNat := by
        rw [supply, UInt64.sub_add_cancel]
      have word : (roundHalfAway (issuer.engine.perBlockIssuance blocksPerYear)).toNat < 2 ^ 64 := by omega
      have numbers := congrArg UInt64.toNat words
      rw [UInt64.toNat_add, UInt64.toNat_add, UInt64.toNat_ofNat_of_lt' word] at numbers
      rw [after]
      exact numbers
  | setIssuanceCoefficient newK =>
      change (issuer.setIssuanceCoefficient newK).2.engine.state.totalSupply.toNat + 0 ≡ _ [MOD 2 ^ 64]
      rcases issuer.setIssuanceCoefficient_cases newK with same | ⟨_, _, _, _, changed⟩ | ⟨_, lost⟩
      · rw [same]
        exact Nat.ModEq.refl _
      · rw [changed]
        exact Nat.ModEq.refl _
      · rw [lost]
        exact Nat.ModEq.refl _
  | updateBondedStake newBondedStake => exact Nat.ModEq.refl _
  | resetEpochCounters => exact Nat.ModEq.refl _

/-- What a defined call issues is what is due, up to half a token and one part in `2^49`. -/
theorem issuedBy_error (sound : issuer.engine.Sound) (defined : issuer.Defined step) :
    |(issuer.issuedBy step : Rat) - issuer.dueBy step| ≤
      (if step.updates = true then 1 / 2 else 0) + issuer.dueBy step * (1 / 2 ^ 49) := by
  cases step with
  | updateSupply feesBurned blocksPerYear =>
      rcases Option.isSome_iff_exists.mp defined with ⟨next, updated⟩
      have blocks := (MonetaryPolicyEngine.updateSupply_eq_some (updateSupply_eq_some updated).1).1
      have error := issuer.engine.issuance_error sound.coefficient_nonneg blocks
      rw [div_eq_mul_one_div (issuer.engine.dueIssuance blocksPerYear)] at error
      exact error
  | setIssuanceCoefficient newK => simp [issuedBy, dueBy, MonetaryCall.updates]
  | updateBondedStake newBondedStake => simp [issuedBy, dueBy, MonetaryCall.updates]
  | resetEpochCounters => simp [issuedBy, dueBy, MonetaryCall.updates]

/-- The stake is at most a cap, and a year has a given number of blocks. -/
def Capped (cap : Nat) (year : UInt64) (issuer : Issuer) : MonetaryCall -> Prop
  | .updateSupply _ blocksPerYear => issuer.engine.state.totalBondedStake.toNat ≤ cap ∧ blocksPerYear = year
  | _ => True

theorem dueBy_le (sound : issuer.engine.Sound) {cap : Nat} {year : UInt64} (capped : issuer.Capped cap year step) :
    issuer.dueBy step ≤ if step.updates = true then toDouble (2 / 10) * cap / year.toNat else 0 := by
  cases step with
  | updateSupply feesBurned blocksPerYear =>
      rcases capped with ⟨stake, rfl⟩
      have stakeRat : (issuer.engine.state.totalBondedStake.toNat : Rat) ≤ cap := by exact_mod_cast stake
      have coefficient := sound.atMost
      rw [sound.most] at coefficient
      have highest : 0 ≤ toDouble (2 / 10) := sound.coefficient_nonneg.trans coefficient
      change issuer.engine.dueIssuance blocksPerYear ≤ toDouble (2 / 10) * cap / blocksPerYear.toNat
      unfold MonetaryPolicyEngine.dueIssuance
      split
      · positivity
      · gcongr
  | setIssuanceCoefficient newK => exact le_refl 0
  | updateBondedStake newBondedStake => exact le_refl 0
  | resetEpochCounters => exact le_refl 0

/-- In every run of a new engine whose results are defined: the coefficient is a number unless it is
set to none, and while it is one it stays within its bounds and the cached rates are current; the
supply is the first one plus what was issued minus what was burned, modulo `2^64`; what was issued
is what was due, up to half a token for each block and one part in `2^49`; so a cap on the stake
caps what any number of blocks can issue, whatever the supply. -/
theorem issuance_follows_stake (initialSupply initialBondedStake : UInt64) {calls : List MonetaryCall}
    (defined : Along call Defined (create initialSupply initialBondedStake) calls) :
    let start := create initialSupply initialBondedStake
    let after := run call start calls
    let blocks := calls.countP MonetaryCall.updates
    let issued := sumOver call issuedBy start calls
    let due := sumOver call dueBy start calls
    ((forall step, step ∈ calls -> step ≠ .setIssuanceCoefficient .notANumber) -> after.numeric = true) ∧
    (after.numeric = true -> after.engine.Sound) ∧
    after.engine.state.totalSupply.toNat + sumOver call burnedBy start calls ≡ initialSupply.toNat + issued
      [MOD 2 ^ 64] ∧
    |(issued : Rat) - due| ≤ blocks / 2 + due / 2 ^ 49 ∧
    forall cap year, Along call (Capped cap year) start calls ->
      (issued : Rat) ≤ blocks * (toDouble (2 / 10) * cap / year.toNat * (1 + 1 / 2 ^ 49) + 1 / 2) := by
  intro start after blocks issued due
  have sound : start.engine.Sound := MonetaryPolicyEngine.sound_create initialSupply initialBondedStake
  have guarded : Along call (fun issuer step => issuer.engine.Sound ∧ issuer.Defined step) start calls :=
    along_of_invariant (fun issuer => issuer.engine.Sound) (fun _ step valid _ => sound_call valid step)
      (fun _ _ valid guard => ⟨valid, guard⟩) sound defined
  have close : |(issued : Rat) - due| ≤ blocks / 2 + due / 2 ^ 49 := by
    have errors := abs_sumOver_sub_le (fun issuer step guard => issuedBy_error guard.1 guard.2) guarded
    have count : (issued : Rat) = sumOver call (fun issuer step => (issuer.issuedBy step : Rat)) start calls :=
      map_sumOver (Nat.castAddMonoidHom Rat) issuedBy start calls
    have scaled : due * (1 / 2 ^ 49) = sumOver call (fun issuer step => issuer.dueBy step * (1 / 2 ^ 49)) start calls :=
      map_sumOver (AddMonoidHom.mulRight (1 / 2 ^ 49)) dueBy start calls
    rw [sumOver_add, sumOver_counted, ← scaled, ← count, nsmul_eq_mul] at errors
    refine errors.trans (le_of_eq ?_)
    ring
  refine ⟨?_, ?_, ?_, close, ?_⟩
  · intro given
    have numbers : Along call (fun _ step => step ≠ .setIssuanceCoefficient .notANumber) start calls :=
      along_of_forall start given
    exact invariant_run (fun issuer => issuer.numeric = true) (fun _ _ numeric number => numeric_call numeric number)
      rfl numbers
  · intro _
    exact invariant_run (fun issuer => issuer.engine.Sound) (fun _ step valid _ => sound_call valid step) sound defined
  · exact modEq_run (fun issuer => issuer.engine.state.totalSupply.toNat) (fun _ _ => supply_call) defined
  · intro cap year capped
    have limits := sumOver_le_sumOver (fun issuer step guard => dueBy_le guard.1.1 guard.2) (along_and guarded capped)
    rw [sumOver_counted, nsmul_eq_mul] at limits
    have difference := (abs_le.mp close).2
    have share := mul_le_mul_of_nonneg_right limits (show (0 : Rat) ≤ 1 + 1 / 2 ^ 49 by norm_num)
    linarith

/-- Two blocks with a change of the coefficient and of the stake between them, a coefficient that is
refused and one that is no number. -/
def twoBlocks : List MonetaryCall :=
  [.updateSupply 3 1000, .setIssuanceCoefficient .notANumber, .setIssuanceCoefficient (.number (toDouble (15 / 100))),
    .updateBondedStake 700000, .updateSupply 1 1000, .setIssuanceCoefficient (.number (toDouble (3 / 10))),
    .resetEpochCounters]

theorem issuance_follows_stake_twoBlocks :
    let start := create 1000000 500000
    (run call start twoBlocks).engine.Sound ∧ sumOver call issuedBy start twoBlocks = 155 ∧
      (run call start twoBlocks).engine.state.totalSupply.toNat + 4 ≡ 1000000 + 155 [MOD 2 ^ 64] := by
  have defined : Along call Defined (create 1000000 500000) twoBlocks := by decide +kernel
  have issued : sumOver call issuedBy (create 1000000 500000) twoBlocks = 155 := by decide +kernel
  have burned : sumOver call burnedBy (create 1000000 500000) twoBlocks = 4 := by decide +kernel
  rcases issuance_follows_stake 1000000 500000 defined with ⟨_, sound, supply, _⟩
  rw [issued, burned] at supply
  exact ⟨sound (by decide +kernel), issued, supply⟩

example : ((create 1000000 500000).setIssuanceCoefficient (.number (3 / 10))).1 =
    some "Issuance coefficient must be between 0.050000 and 0.200000" := by decide +kernel

end Issuer
end State
end Sarafu

import Sarafu.Consensus.Doubles
import Sarafu.State.FeeMarket

namespace Sarafu
namespace State

open Consensus

/-!
# The adjustment of the base fee

The new base fee is computed in `double` arithmetic from a signed difference of two amounts
of gas.  A signed difference that overflows and a conversion that is out of range have no
defined result.  From twice the target on the adjustment is the largest one, an eighth; for
the base fees one, two and three it is rounded away again.
-/

/-! ## Signed arithmetic -/

/-- `static_cast<int64_t>`. -/
def toSigned (value : UInt64) : Int := if value.toNat < 2 ^ 63 then value.toNat else value.toNat - 2 ^ 64

/-- The nearest `double` to a number of either sign. -/
def toSignedDouble (value : Rat) : Rat := if value < 0 then -toDouble (-value) else toDouble value

namespace FeeMarket

def maxAdjustmentFactor : Rat := 1125 / 1000

def minAdjustmentFactor : Rat := 875 / 1000

/-- The multiplier of the base fee after clamping. -/
def multiplier (market : FeeMarket) (gasDelta : Int) : Rat :=
  let adjustmentRatio :=
    toSignedDouble (toSignedDouble gasDelta / toSignedDouble market.state.targetGasPerBlock.toNat)
  let adjustmentFactor := toSignedDouble (adjustmentRatio * market.state.adjustmentCoefficient)
  max minAdjustmentFactor (min maxAdjustmentFactor (toSignedDouble (1 + adjustmentFactor)))

/-- `none` where the language gives no result. -/
def calculateNextBaseFee (market : FeeMarket) (gasUsed : UInt64) : Option UInt64 :=
  if market.state.targetGasPerBlock = 0 then some market.state.baseFee
  else
    let gasDelta := toSigned gasUsed - toSigned market.state.targetGasPerBlock
    if gasDelta < -2 ^ 63 ∨ 2 ^ 63 ≤ gasDelta then none
    else
      let newBaseFeeDouble := toSignedDouble (toSignedDouble market.state.baseFee.toNat * market.multiplier gasDelta)
      let rounded := roundHalfAway newBaseFeeDouble
      if rounded < 0 ∨ 2 ^ 64 ≤ rounded then none
      else
        let newBaseFee := UInt64.ofNat rounded.toNat
        some (if 1 < newBaseFee then newBaseFee else 1)

def updateBaseFee (market : FeeMarket) (gasUsed : UInt64) : Option (UInt64 × FeeMarket) :=
  (market.calculateNextBaseFee gasUsed).map fun newBaseFee =>
    (newBaseFee, ⟨{ market.state with baseFee := newBaseFee }⟩)

/-! ## Rounding -/

theorem toSignedDouble_of_pos {value : Rat} (positive : 0 < value) : toSignedDouble value = toDouble value :=
  if_neg (not_lt.mpr positive.le)

theorem toSignedDouble_nonpos {value : Rat} (notPositive : value ≤ 0) : toSignedDouble value ≤ 0 := by
  unfold toSignedDouble
  split
  · rename_i negative
    exact neg_nonpos.mpr (toDouble_pos (neg_pos.mpr negative)).le
  · rw [toDouble, if_pos notPositive]
    exact notPositive

theorem toSignedDouble_le_one {value : Rat} (atMost : value ≤ 1) : toSignedDouble value ≤ 1 := by
  rcases le_or_gt value 0 with notPositive | positive
  · exact (toSignedDouble_nonpos notPositive).trans (by norm_num)
  · rw [toSignedDouble_of_pos positive]
    exact (toDouble_mono positive atMost).trans_eq (by decide +kernel)

theorem roundHalfAway_eighths (value : Nat) : roundHalfAway ((value : Rat) / 8) = ((value + 4) / 8 : Nat) := by
  have general := roundHalfAway_div value (show 0 < 8 by decide)
  rw [show (2 * value + 8) / (2 * 8) = (value + 4) / 8 by omega] at general
  exact general

/-! ## The markets of a run -/

/-- The markets that the constructor and the calls lead to. -/
inductive Reachable : FeeMarket -> Prop
  | create (initialBaseFee maxGasPerBlock : UInt64) : Reachable (FeeMarket.create initialBaseFee maxGasPerBlock)
  | updateBaseFee {market next : FeeMarket} {gasUsed newBaseFee : UInt64} (reachable : Reachable market)
      (updated : market.updateBaseFee gasUsed = some (newBaseFee, next)) : Reachable next
  | setMaxGasPerBlock {market : FeeMarket} (reachable : Reachable market) (maxGas : UInt64) :
      Reachable (market.setMaxGasPerBlock maxGas)

/-- Each of them is as newly created. -/
theorem Reachable.created {market : FeeMarket} (reachable : Reachable market) :
    ∃ baseFee maxGas, market = FeeMarket.create baseFee maxGas := by
  induction reachable with
  | create baseFee maxGas => exact ⟨baseFee, maxGas, rfl⟩
  | setMaxGasPerBlock _ maxGas inductionHypothesis =>
      rcases inductionHypothesis with ⟨baseFee, _, rfl⟩
      exact ⟨baseFee, maxGas, rfl⟩
  | updateBaseFee _ updated inductionHypothesis =>
      rcases inductionHypothesis with ⟨_, maxGas, rfl⟩
      rcases Option.map_eq_some_iff.mp updated with ⟨newBaseFee, _, same⟩
      rw [← (Prod.mk.inj same).2]
      exact ⟨newBaseFee, maxGas, rfl⟩

/-! ## The multiplier -/

variable {baseFee maxGas gasUsed : UInt64} {target : Nat} {gasDelta : Int}

/-- The multiplier of a created market, whose coefficient is one eighth. -/
theorem multiplier_create (baseFee maxGas : UInt64) (gasDelta : Int) :
    (create baseFee maxGas).multiplier gasDelta =
      max minAdjustmentFactor (min maxAdjustmentFactor (toSignedDouble (1 + toSignedDouble
        (toSignedDouble (toSignedDouble gasDelta / toSignedDouble (maxGas / 2).toNat) * (125 / 1000))))) := rfl

/-- Twice the target or more gives the largest multiplier. -/
theorem multiplier_of_target_le (positive : 0 < (maxGas / 2).toNat)
    (congested : ((maxGas / 2).toNat : Int) ≤ gasDelta) :
    (create baseFee maxGas).multiplier gasDelta = 9 / 8 := by
  rw [multiplier_create]
  generalize (maxGas / 2).toNat = target at positive congested
  have targetPos : (0 : Rat) < target := by exact_mod_cast positive
  have least : (target : Rat) ≤ gasDelta := by exact_mod_cast congested
  have deltaPos : (0 : Rat) < gasDelta := targetPos.trans_le least
  rw [toSignedDouble_of_pos targetPos, toSignedDouble_of_pos deltaPos]
  have ratio : 1 ≤ toDouble gasDelta / toDouble target := by
    rw [one_le_div (toDouble_pos targetPos)]
    exact toDouble_mono targetPos least
  have ratioPos := one_pos.trans_le ratio
  have rounded : 1 ≤ toDouble (toDouble gasDelta / toDouble target) :=
    (show (1 : Rat) ≤ toDouble 1 by decide +kernel).trans (toDouble_mono one_pos ratio)
  rw [toSignedDouble_of_pos ratioPos]
  generalize toDouble (toDouble gasDelta / toDouble target) = adjustmentRatio at rounded
  have factor : 1 / 8 ≤ toDouble (adjustmentRatio * (125 / 1000)) :=
    (show (1 : Rat) / 8 ≤ toDouble (1 / 8) by decide +kernel).trans
      (toDouble_mono (by norm_num) (by linarith))
  rw [toSignedDouble_of_pos (mul_pos (one_pos.trans_le rounded) (by norm_num))]
  generalize toDouble (adjustmentRatio * (125 / 1000)) = adjustmentFactor at factor
  have sum : 9 / 8 ≤ toDouble (1 + adjustmentFactor) :=
    (show (9 : Rat) / 8 ≤ toDouble (9 / 8) by decide +kernel).trans
      (toDouble_mono (by norm_num) (by linarith))
  have highest : maxAdjustmentFactor = 9 / 8 := by
    unfold maxAdjustmentFactor
    norm_num
  have lowest : minAdjustmentFactor ≤ 9 / 8 := by
    unfold minAdjustmentFactor
    norm_num
  rw [toSignedDouble_of_pos (by linarith), highest, min_eq_left sum, max_eq_right lowest]

/-- Below the target the multiplier is at most one. -/
theorem multiplier_of_neg (positive : 0 < (maxGas / 2).toNat) (below : gasDelta < 0) :
    7 / 8 ≤ (create baseFee maxGas).multiplier gasDelta ∧ (create baseFee maxGas).multiplier gasDelta ≤ 1 := by
  rw [multiplier_create]
  generalize (maxGas / 2).toNat = target at positive
  have targetPos : (0 : Rat) < target := by exact_mod_cast positive
  have difference : toSignedDouble (gasDelta : Rat) ≤ 0 := toSignedDouble_nonpos (by exact_mod_cast below.le)
  have ratio : toSignedDouble gasDelta / toSignedDouble (target : Rat) ≤ 0 := by
    rw [toSignedDouble_of_pos targetPos]
    exact div_nonpos_of_nonpos_of_nonneg difference (toDouble_pos targetPos).le
  have factor := toSignedDouble_nonpos
    (mul_nonpos_of_nonpos_of_nonneg (toSignedDouble_nonpos ratio) (show (0 : Rat) ≤ 125 / 1000 by norm_num))
  have sum := toSignedDouble_le_one (add_le_of_nonpos_right factor : (1 : Rat) + _ ≤ 1)
  have lowest : minAdjustmentFactor = 7 / 8 := by
    unfold minAdjustmentFactor
    norm_num
  constructor
  · rw [lowest]
    exact le_max_left _ _
  · refine max_le (by rw [lowest]; norm_num) ?_
    exact (min_le_right _ _).trans sum

/-! ## The congested base fee -/

/-- The new base fee after a congested block, for a base fee below `2^50`.  From `2^53` on the
product with nine is rounded to an even integer. -/
def congestedFee (baseFee : Nat) : Nat :=
  if 9 * baseFee < 2 ^ 53 then (9 * baseFee + 4) / 8
  else ((9 * baseFee + 9 * baseFee / 2 % 2) / 2 + 2) / 4

/-- The second rounding changes the result exactly where the first one makes a half of three
eighths. -/
theorem rounded_twice_eq_iff (product : Nat) :
    ((product + product / 2 % 2) / 2 + 2) / 4 = (product + 4) / 8 <-> product % 8 ≠ 3 := by
  omega

theorem congestedFee_eq_iff (baseFee : Nat) :
    congestedFee baseFee = (9 * baseFee + 4) / 8 <-> ¬(2 ^ 53 ≤ 9 * baseFee ∧ baseFee % 8 = 3) := by
  unfold congestedFee
  split
  · omega
  · rename_i wide
    have residue : 9 * baseFee % 8 = baseFee % 8 := by omega
    rw [rounded_twice_eq_iff, residue, and_iff_right (Nat.not_lt.mp wide)]

theorem congestedFee_bounds {baseFee : Nat} (base : 1 ≤ baseFee) (small : baseFee < 2 ^ 50) :
    1 ≤ congestedFee baseFee ∧ congestedFee baseFee < 2 ^ 64 := by
  unfold congestedFee
  split
  · omega
  · omega

/-- An eighth of three or less is rounded away. -/
theorem lt_congestedFee_iff {baseFee : Nat} : baseFee < congestedFee baseFee <-> 4 ≤ baseFee := by
  unfold congestedFee
  split
  · omega
  · omega

theorem roundHalfAway_congested {value : UInt64} (positive : 1 ≤ value.toNat) (small : value.toNat < 2 ^ 50) :
    roundHalfAway (toSignedDouble (toSignedDouble value.toNat * (9 / 8))) = congestedFee value.toNat := by
  generalize value.toNat = base at positive small
  have basePos : (0 : Rat) < base := by exact_mod_cast positive
  have nines : (base : Rat) * (9 / 8) = ((9 * base : Nat) : Rat) * 2 ^ (-3 : Int) := by
    push_cast
    norm_num
    ring
  have ninesPos : (0 : Rat) < ((9 * base : Nat) : Rat) := by exact_mod_cast Nat.mul_pos (by decide) positive
  rw [toSignedDouble_of_pos basePos, toDouble_natCast (by omega), toSignedDouble_of_pos (by positivity), nines,
    toDouble_mul_zpow ninesPos, toDouble_natCast_wide (Nat.mul_pos (by decide) positive) (by omega), congestedFee]
  have eighth : forall numerator : Rat, numerator * 2 ^ (-3 : Int) = numerator / 8 := by
    intro numerator
    norm_num
    ring
  rw [eighth]
  split
  · exact roundHalfAway_eighths _
  · rw [roundHalfAway_eighths]
    congr 1
    omega

theorem toSigned_of_lt {value : UInt64} (small : value.toNat < 2 ^ 63) : toSigned value = value.toNat := if_pos small

/-- Half of the maximum is not negative as a signed number. -/
theorem toSigned_target (maxGas : UInt64) : toSigned (maxGas / 2) = (maxGas / 2).toNat := by
  apply toSigned_of_lt
  have bounded := maxGas.toNat_lt
  have half : (maxGas / 2).toNat = maxGas.toNat / 2 := UInt64.toNat_div maxGas 2
  omega

theorem target_ne_zero (positive : 0 < (maxGas / 2).toNat) : ¬(create baseFee maxGas).state.targetGasPerBlock = 0 := by
  intro zero
  rw [show maxGas / 2 = 0 from zero] at positive
  exact absurd positive (by decide)

/-- With gas below `2^63` the multiplier is the largest one. -/
theorem calculateNextBaseFee_congested (base : 1 ≤ baseFee.toNat) (small : baseFee.toNat < 2 ^ 50)
    (positive : 0 < (maxGas / 2).toNat) (congested : 2 * (maxGas / 2).toNat ≤ gasUsed.toNat)
    (representable : gasUsed.toNat < 2 ^ 63) :
    (create baseFee maxGas).calculateNextBaseFee gasUsed = some (UInt64.ofNat (congestedFee baseFee.toNat)) := by
  have difference : toSigned gasUsed - toSigned (create baseFee maxGas).state.targetGasPerBlock =
      gasUsed.toNat - (maxGas / 2).toNat := by
    rw [toSigned_of_lt representable]
    exact congrArg _ (toSigned_target maxGas)
  have inRange : ¬((gasUsed.toNat : Int) - (maxGas / 2).toNat < -2 ^ 63 ∨
      2 ^ 63 ≤ (gasUsed.toNat : Int) - (maxGas / 2).toNat) := by omega
  have highest : (create baseFee maxGas).multiplier (gasUsed.toNat - (maxGas / 2).toNat) = 9 / 8 :=
    multiplier_of_target_le positive (by omega)
  have rounded : roundHalfAway (toSignedDouble
      (toSignedDouble (create baseFee maxGas).state.baseFee.toNat * (9 / 8))) = congestedFee baseFee.toNat :=
    roundHalfAway_congested base small
  have size := congestedFee_bounds base small
  unfold calculateNextBaseFee
  simp only [difference, highest, rounded]
  rw [if_neg (target_ne_zero positive), if_neg inRange, if_neg (by omega), Int.toNat_natCast]
  split
  · rfl
  · rename_i atMost
    rw [UInt64.lt_iff_toNat_lt, UInt64.toNat_ofNat_of_lt' size.2] at atMost
    rw [show congestedFee baseFee.toNat = 1 from Nat.le_antisymm (Nat.not_lt.mp atMost) size.1]
    rfl

/-- With gas from `2^63` on the difference overflows or is negative, and the base fee does not
rise. -/
theorem calculateNextBaseFee_le (base : 1 ≤ baseFee.toNat) (small : baseFee.toNat < 2 ^ 50)
    (positive : 0 < (maxGas / 2).toNat) (large : 2 ^ 63 ≤ gasUsed.toNat) {next : UInt64}
    (computed : (create baseFee maxGas).calculateNextBaseFee gasUsed = some next) : next ≤ baseFee := by
  have difference : toSigned gasUsed - toSigned (create baseFee maxGas).state.targetGasPerBlock =
      gasUsed.toNat - 2 ^ 64 - (maxGas / 2).toNat := by
    rw [toSigned, if_neg (Nat.not_lt.mpr large)]
    exact congrArg _ (toSigned_target maxGas)
  have gas := gasUsed.toNat_lt
  have bounds : 7 / 8 ≤ (create baseFee maxGas).multiplier (gasUsed.toNat - 2 ^ 64 - (maxGas / 2).toNat) ∧
      (create baseFee maxGas).multiplier (gasUsed.toNat - 2 ^ 64 - (maxGas / 2).toNat) ≤ 1 :=
    multiplier_of_neg positive (by omega)
  unfold calculateNextBaseFee at computed
  simp only [difference] at computed
  rw [if_neg (target_ne_zero positive)] at computed
  generalize (create baseFee maxGas).multiplier (gasUsed.toNat - 2 ^ 64 - (maxGas / 2).toNat) = multiplier
    at bounds computed
  have basePos : (0 : Rat) < baseFee.toNat := by exact_mod_cast base
  have productPos : 0 < (baseFee.toNat : Rat) * multiplier := mul_pos basePos (by linarith)
  have product : (baseFee.toNat : Rat) * multiplier ≤ baseFee.toNat := mul_le_of_le_one_right basePos.le bounds.2
  have bounded := toDouble_mono productPos product
  have nonneg := (toDouble_pos productPos).le
  rw [toDouble_natCast (by omega)] at bounded
  have value :
      roundHalfAway (toSignedDouble (toSignedDouble (create baseFee maxGas).state.baseFee.toNat * multiplier)) ≤
        baseFee.toNat := by
    change roundHalfAway (toSignedDouble (toSignedDouble baseFee.toNat * multiplier)) ≤ _
    rw [toSignedDouble_of_pos basePos, toDouble_natCast (by omega), toSignedDouble_of_pos productPos, roundHalfAway,
      if_pos nonneg]
    have floor : (toDouble (baseFee.toNat * multiplier) + 1 / 2).floor =
        ⌊toDouble (baseFee.toNat * multiplier) + 1 / 2⌋ := rfl
    rw [floor, ← Int.lt_add_one_iff, Int.floor_lt]
    push_cast
    linarith
  split at computed
  · cases computed
  · split at computed
    · cases computed
    · rw [← Option.some.inj computed, UInt64.le_iff_toNat_le]
      split
      · rw [UInt64.toNat_ofNat']
        exact (Nat.mod_le _ _).trans (by omega)
      · exact base

/-- The call has a result, and it is larger than the base fee. -/
def Rises (market : FeeMarket) (gasUsed : UInt64) : Prop :=
  ∃ next, market.calculateNextBaseFee gasUsed = some next ∧ market.currentBaseFee < next

/-- The call has a result, and it is nine eighths of the base fee, rounded once. -/
def AddsAnEighth (market : FeeMarket) (gasUsed : UInt64) : Prop :=
  market.calculateNextBaseFee gasUsed =
    some (UInt64.ofNat (roundHalfAway ((9 * market.currentBaseFee.toNat : Nat) / 8)).toNat)

/-- After a congested block the base fee rises if and only if it is at least four and the gas
is below `2^63`.  In that range it rises by an eighth, unless a product with nine of more than 53 bits
is rounded up to a half. -/
theorem rises_iff (market : FeeMarket) (reachable : Reachable market) (gasUsed : UInt64)
    (base : 1 ≤ market.currentBaseFee.toNat) (small : market.currentBaseFee.toNat < 2 ^ 50)
    (positive : 0 < market.state.targetGasPerBlock.toNat)
    (congested : 2 * market.state.targetGasPerBlock.toNat ≤ gasUsed.toNat) :
    (market.Rises gasUsed <-> 4 ≤ market.currentBaseFee.toNat ∧ gasUsed.toNat < 2 ^ 63) ∧
      (gasUsed.toNat < 2 ^ 63 -> (market.AddsAnEighth gasUsed <->
        ¬(2 ^ 53 ≤ 9 * market.currentBaseFee.toNat ∧ market.currentBaseFee.toNat % 8 = 3))) := by
  rcases reachable.created with ⟨baseFee, maxGas, rfl⟩
  change 1 ≤ baseFee.toNat at base
  change baseFee.toNat < 2 ^ 50 at small
  change 0 < (maxGas / 2).toNat at positive
  change 2 * (maxGas / 2).toNat ≤ gasUsed.toNat at congested
  have size := (congestedFee_bounds base small).2
  constructor
  · constructor
    · rintro ⟨next, computed, more⟩
      have representable : gasUsed.toNat < 2 ^ 63 := by
        by_contra large
        exact UInt64.not_lt.mpr (calculateNextBaseFee_le base small positive (Nat.not_lt.mp large) computed) more
      refine ⟨?_, representable⟩
      rw [calculateNextBaseFee_congested base small positive congested representable] at computed
      rw [← Option.some.inj computed, UInt64.lt_iff_toNat_lt, UInt64.toNat_ofNat_of_lt' size] at more
      exact lt_congestedFee_iff.mp more
    · rintro ⟨four, representable⟩
      refine ⟨_, calculateNextBaseFee_congested base small positive congested representable, ?_⟩
      rw [UInt64.lt_iff_toNat_lt, UInt64.toNat_ofNat_of_lt' size]
      exact lt_congestedFee_iff.mpr four
  · intro representable
    rw [AddsAnEighth, calculateNextBaseFee_congested base small positive congested representable, roundHalfAway_eighths,
      Option.some.injEq, ← UInt64.toNat_inj, UInt64.toNat_ofNat_of_lt' size, Int.toNat_natCast]
    change _ = (UInt64.ofNat ((9 * baseFee.toNat + 4) / 8)).toNat <->
      ¬(2 ^ 53 ≤ 9 * baseFee.toNat ∧ baseFee.toNat % 8 = 3)
    have eighth : (9 * baseFee.toNat + 4) / 8 < 2 ^ 64 := by omega
    rw [UInt64.toNat_ofNat_of_lt' eighth]
    exact congestedFee_eq_iff baseFee.toNat

/-- The default market after a full block. -/
theorem rises_iff_default :
    FeeMarket.create.Rises 10000000 ∧ FeeMarket.create.AddsAnEighth 10000000 := by
  have exactly := rises_iff FeeMarket.create (Reachable.create 1000 10000000) 10000000 (by decide) (by decide)
    (by decide) (by decide)
  exact ⟨exactly.1.mpr (by decide), (exactly.2 (by decide)).mpr (by decide)⟩

/-- At a base fee of three, full blocks leave it at three. -/
theorem three_never_rises :
    (FeeMarket.create 3).calculateNextBaseFee 10000000 = some 3 ∧ ¬(FeeMarket.create 3).Rises 10000000 := by
  have same : (FeeMarket.create 3).calculateNextBaseFee 10000000 = some 3 := by decide +kernel
  refine ⟨same, ?_⟩
  rintro ⟨next, computed, more⟩
  rw [same] at computed
  rw [← Option.some.inj computed] at more
  exact absurd more (by decide)

end FeeMarket
end State
end Sarafu

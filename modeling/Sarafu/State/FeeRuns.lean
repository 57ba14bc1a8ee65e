import Sarafu.Library.GeometricRuns
import Sarafu.State.BaseFee

namespace Sarafu
namespace State

open Consensus Library.Runs Library.GeometricRuns

/-!
# The base fee over many blocks

One block changes the base fee by at most an eighth, rounded to the nearest integer.  An eighth of
one, two or three is rounded away in both directions, and from four on the fee is never rounded
below four.  So the fees up to three are frozen for good, and the others move geometrically.
-/

/-- The calls that change a fee market. -/
inductive FeeCall
  | updateBaseFee (gasUsed : UInt64)
  | setMaxGasPerBlock (maxGas : UInt64)

def FeeCall.updates : FeeCall -> Bool
  | .updateBaseFee _ => true
  | .setMaxGasPerBlock _ => false

namespace FeeMarket

/-- The market after a call, for calls whose result the language defines. -/
def call (market : FeeMarket) : FeeCall -> FeeMarket
  | .updateBaseFee gasUsed => (market.updateBaseFee gasUsed).elim market Prod.snd
  | .setMaxGasPerBlock maxGas => market.setMaxGasPerBlock maxGas

/-- The language defines the result of the call. -/
def Defined (market : FeeMarket) : FeeCall -> Prop
  | .updateBaseFee gasUsed => (market.updateBaseFee gasUsed).isSome = true
  | .setMaxGasPerBlock _ => True

instance (market : FeeMarket) : forall step, Decidable (market.Defined step)
  | .updateBaseFee gasUsed => inferInstanceAs (Decidable ((market.updateBaseFee gasUsed).isSome = true))
  | .setMaxGasPerBlock _ => isTrue trivial

/-- The block has used twice the target or more. -/
def Congested (market : FeeMarket) : FeeCall -> Prop
  | .updateBaseFee gasUsed =>
      0 < market.state.targetGasPerBlock.toNat ∧ 2 * market.state.targetGasPerBlock.toNat ≤ gasUsed.toNat ∧
        gasUsed.toNat < 2 ^ 63
  | .setMaxGasPerBlock _ => True

/-! ## One adjustment -/

/-- A base fee times a multiplier, as it is rounded. -/
def adjusted (baseFee : Nat) (multiplier : Rat) : Int :=
  roundHalfAway (toSignedDouble (toSignedDouble baseFee * multiplier))

theorem roundHalfAway_mono {left right : Rat} (nonneg : 0 ≤ left) (ordered : left ≤ right) :
    roundHalfAway left ≤ roundHalfAway right := by
  rw [roundHalfAway, roundHalfAway, if_pos nonneg, if_pos (nonneg.trans ordered)]
  exact Int.floor_mono (add_le_add_left ordered _)

/-- A larger fee and a larger multiplier do not give less. -/
theorem adjusted_mono {lower higher : Nat} {least most : Rat} (base : 0 < lower) (ordered : lower ≤ higher)
    (positive : 0 < least) (atMost : least ≤ most) : adjusted lower least ≤ adjusted higher most := by
  have lowerPos : (0 : Rat) < lower := by exact_mod_cast base
  have fees : (lower : Rat) ≤ higher := by exact_mod_cast ordered
  have doubles := toDouble_mono lowerPos fees
  have lowerDouble := toDouble_pos lowerPos
  have products : toDouble lower * least ≤ toDouble higher * most :=
    mul_le_mul doubles atMost positive.le (lowerDouble.le.trans doubles)
  have product := mul_pos lowerDouble positive
  rw [adjusted, adjusted, toSignedDouble_of_pos lowerPos, toSignedDouble_of_pos (lowerPos.trans_le fees),
    toSignedDouble_of_pos product, toSignedDouble_of_pos (product.trans_le products)]
  exact roundHalfAway_mono (toDouble_pos product).le (toDouble_mono product products)

/-- Eighths of a small fee are rounded once. -/
theorem adjusted_eighths (eighths : Nat) {baseFee : Nat} (base : 0 < baseFee) (some : 0 < eighths)
    (fits : baseFee < 2 ^ 53)
    (small : eighths * baseFee < 2 ^ 53) : adjusted baseFee (eighths / 8) = ((eighths * baseFee + 4) / 8 : Nat) := by
  have basePos : (0 : Rat) < baseFee := by exact_mod_cast base
  have productPos : (0 : Rat) < ((eighths * baseFee : Nat) : Rat) := by exact_mod_cast Nat.mul_pos some base
  have scaled : (baseFee : Rat) * (eighths / 8) = ((eighths * baseFee : Nat) : Rat) * 2 ^ (-3 : Int) := by
    push_cast
    norm_num
    ring
  have eighth : ((eighths * baseFee : Nat) : Rat) * 2 ^ (-3 : Int) = ((eighths * baseFee : Nat) : Rat) / 8 := by
    norm_num
    ring
  rw [adjusted, toSignedDouble_of_pos basePos, toDouble_natCast fits, scaled,
    toSignedDouble_of_pos (mul_pos productPos (zpow_pos (by norm_num) _)), toDouble_mul_zpow productPos,
    toDouble_natCast small, eighth, roundHalfAway_eighths]

theorem multiplier_bounds (market : FeeMarket) (gasDelta : Int) :
    7 / 8 ≤ market.multiplier gasDelta ∧ market.multiplier gasDelta ≤ 9 / 8 := by
  have lowest : minAdjustmentFactor = 7 / 8 := by
    unfold minAdjustmentFactor
    norm_num
  have highest : maxAdjustmentFactor = 9 / 8 := by
    unfold maxAdjustmentFactor
    norm_num
  rw [multiplier, lowest, highest]
  constructor
  · exact le_max_left _ _
  · exact max_le (by norm_num) (min_le_left _ _)

/-- A result in the range of the type is raised to one. -/
theorem toNat_atLeastOne {rounded : Int} (inRange : ¬(rounded < 0 ∨ 2 ^ 64 ≤ rounded)) :
    ((if 1 < UInt64.ofNat rounded.toNat then UInt64.ofNat rounded.toNat else 1).toNat : Int) = max 1 rounded := by
  have fits : rounded.toNat < 2 ^ 64 := by omega
  have value : (UInt64.ofNat rounded.toNat).toNat = rounded.toNat := UInt64.toNat_ofNat_of_lt' fits
  split
  · rename_i more
    rw [UInt64.lt_iff_toNat_lt, value, UInt64.toNat_one] at more
    rw [value]
    omega
  · rename_i atMost
    rw [UInt64.lt_iff_toNat_lt, value, UInt64.toNat_one] at atMost
    rw [UInt64.toNat_one]
    omega

/-- What one block can do to the base fee: nothing, or an adjustment by at most an eighth. -/
theorem calculateNextBaseFee_cases {market : FeeMarket} {gasUsed next : UInt64}
    (computed : market.calculateNextBaseFee gasUsed = some next) :
    next = market.currentBaseFee ∨ ∃ multiplier : Rat, 7 / 8 ≤ multiplier ∧ multiplier ≤ 9 / 8 ∧
      (next.toNat : Int) = max 1 (adjusted market.currentBaseFee.toNat multiplier) := by
  unfold calculateNextBaseFee at computed
  split at computed
  · exact Or.inl (Option.some.inj computed).symm
  · simp only [] at computed
    split at computed
    · cases computed
    · split at computed
      · cases computed
      · rename_i inRange
        have bounds := market.multiplier_bounds (toSigned gasUsed - toSigned market.state.targetGasPerBlock)
        rw [← Option.some.inj computed]
        exact Or.inr ⟨_, bounds.1, bounds.2, toNat_atLeastOne inRange⟩

/-- The base fees that one call leads to. -/
theorem currentBaseFee_call {market : FeeMarket} {step : FeeCall} (defined : market.Defined step) :
    (market.call step).currentBaseFee = market.currentBaseFee ∨
      (step.updates = true ∧ ∃ multiplier : Rat, 7 / 8 ≤ multiplier ∧ multiplier ≤ 9 / 8 ∧
        ((market.call step).currentBaseFee.toNat : Int) = max 1 (adjusted market.currentBaseFee.toNat multiplier)) := by
  cases step with
  | setMaxGasPerBlock maxGas => exact Or.inl rfl
  | updateBaseFee gasUsed =>
      change (market.updateBaseFee gasUsed).isSome = true at defined
      cases computed : market.calculateNextBaseFee gasUsed with
      | none =>
          rw [updateBaseFee, computed] at defined
          cases defined
      | some next =>
          have after : (market.call (.updateBaseFee gasUsed)).currentBaseFee = next := by
            rw [call, updateBaseFee, computed]
            rfl
          rw [after]
          exact (calculateNextBaseFee_cases computed).imp_right fun adjustment => ⟨rfl, adjustment⟩

/-! ## The frozen fees -/

theorem call_frozen {market : FeeMarket} {step : FeeCall} (defined : market.Defined step)
    (base : 1 ≤ market.currentBaseFee.toNat) (low : market.currentBaseFee.toNat ≤ 3) :
    (market.call step).currentBaseFee = market.currentBaseFee := by
  rcases currentBaseFee_call defined with same | ⟨_, multiplier, least, most, value⟩
  · exact same
  · generalize market.currentBaseFee = fee at base low value ⊢
    have lower := adjusted_mono base (le_refl fee.toNat) (by norm_num) least
    have upper := adjusted_mono base (le_refl fee.toNat) (by linarith) most
    have down := adjusted_eighths 7 base (by decide) (by omega) (by omega)
    have up := adjusted_eighths 9 base (by decide) (by omega) (by omega)
    push_cast at down up
    rw [down] at lower
    rw [up] at upper
    apply UInt64.toNat_inj.mp
    omega

theorem call_four_le {market : FeeMarket} {step : FeeCall} (defined : market.Defined step)
    (four : 4 ≤ market.currentBaseFee.toNat) : 4 ≤ (market.call step).currentBaseFee.toNat := by
  rcases currentBaseFee_call defined with same | ⟨_, multiplier, least, _, value⟩
  · rw [same]
    exact four
  · have lower := adjusted_mono (by decide) four (by norm_num) least
    have down := adjusted_eighths 7 (show 0 < 4 by decide) (by decide) (by decide) (by decide)
    push_cast at down
    rw [down] at lower
    omega

/-! ## Geometric bounds -/

/-- The bounds on one adjustment, away from the fees whose ninefold is not a `double`. -/
theorem call_bounds {market : FeeMarket} {step : FeeCall} (defined : market.Defined step)
    (base : 1 ≤ market.currentBaseFee.toNat) (small : market.currentBaseFee.toNat < 2 ^ 49) :
    rateOf (7 / 8) FeeCall.updates step * ((market.currentBaseFee.toNat : Rat) + 3) ≤
        (market.call step).currentBaseFee.toNat + 3 ∧
      ((market.call step).currentBaseFee.toNat : Rat) + 4 ≤
        rateOf (9 / 8) FeeCall.updates step * (market.currentBaseFee.toNat + 4) := by
  have nonneg : (0 : Rat) ≤ market.currentBaseFee.toNat := Nat.cast_nonneg _
  rcases currentBaseFee_call defined with same | ⟨updates, multiplier, least, most, value⟩
  · rw [same]
    unfold rateOf
    split
    · constructor <;> linarith
    · constructor <;> linarith
  · rw [rateOf, rateOf, if_pos updates, if_pos updates]
    have lower := adjusted_mono base (le_refl _) (by norm_num) least
    have upper := adjusted_mono base (le_refl _) (by linarith) most
    have down := adjusted_eighths 7 base (by decide) (by omega) (by omega)
    have up := adjusted_eighths 9 base (by decide) (by omega) (by omega)
    push_cast at down up
    rw [down] at lower
    rw [up] at upper
    have below : 7 * market.currentBaseFee.toNat ≤ 8 * (market.call step).currentBaseFee.toNat + 3 := by omega
    have above : 8 * (market.call step).currentBaseFee.toNat ≤ 9 * market.currentBaseFee.toNat + 4 := by omega
    have belowRat : (7 : Rat) * market.currentBaseFee.toNat ≤ 8 * (market.call step).currentBaseFee.toNat + 3 := by
      exact_mod_cast below
    have aboveRat : (8 : Rat) * (market.call step).currentBaseFee.toNat ≤ 9 * market.currentBaseFee.toNat + 4 := by
      exact_mod_cast above
    constructor <;> linarith

/-- A congested block adds an eighth. -/
theorem call_congested {market : FeeMarket} (reachable : Reachable market) {step : FeeCall}
    (updates : step.updates = true) (congested : market.Congested step) (base : 1 ≤ market.currentBaseFee.toNat)
    (small : market.currentBaseFee.toNat < 2 ^ 49) :
    (market.call step).currentBaseFee.toNat = (9 * market.currentBaseFee.toNat + 4) / 8 := by
  cases step with
  | setMaxGasPerBlock maxGas => cases updates
  | updateBaseFee gasUsed =>
      rcases reachable.created with ⟨baseFee, maxGas, rfl⟩
      change 1 ≤ baseFee.toNat at base
      change baseFee.toNat < 2 ^ 49 at small
      rcases congested with ⟨positive, enough, representable⟩
      have next := calculateNextBaseFee_congested base (by omega) positive enough representable
      have after : ((create baseFee maxGas).call (.updateBaseFee gasUsed)).currentBaseFee =
          UInt64.ofNat (congestedFee baseFee.toNat) := by
        rw [call, updateBaseFee, next]
        rfl
      rw [after, UInt64.toNat_ofNat_of_lt' (congestedFee_bounds base (by omega)).2, congestedFee, if_pos (by omega)]
      rfl

/-- Above three, congested blocks raise the fee geometrically. -/
theorem call_grows {market : FeeMarket} (reachable : Reachable market) {step : FeeCall} (defined : market.Defined step)
    (congested : market.Congested step) (base : 1 ≤ market.currentBaseFee.toNat)
    (small : market.currentBaseFee.toNat < 2 ^ 49) :
    rateOf (9 / 8) FeeCall.updates step * ((market.currentBaseFee.toNat : Rat) - 3) ≤
      (market.call step).currentBaseFee.toNat - 3 := by
  cases updates : step.updates with
  | true =>
      have value := call_congested reachable updates congested base small
      have atLeast : 9 * market.currentBaseFee.toNat ≤ 8 * (market.call step).currentBaseFee.toNat + 3 := by omega
      have atLeastRat : (9 : Rat) * market.currentBaseFee.toNat ≤ 8 * (market.call step).currentBaseFee.toNat + 3 := by
        exact_mod_cast atLeast
      rw [rateOf, if_pos updates]
      linarith
  | false =>
      rcases currentBaseFee_call defined with same | ⟨impossible, _⟩
      · rw [same, rateOf, updates, if_neg nofun, one_mul]
      · rw [updates] at impossible
        cases impossible

/-! ## Runs -/

theorem Reachable.call {market : FeeMarket} (reachable : Reachable market) (step : FeeCall) :
    Reachable (market.call step) := by
  cases step with
  | setMaxGasPerBlock maxGas => exact reachable.setMaxGasPerBlock maxGas
  | updateBaseFee gasUsed =>
      cases updated : market.updateBaseFee gasUsed with
      | none =>
          rw [FeeMarket.call, updated]
          exact reachable
      | some result =>
          rw [FeeMarket.call, updated]
          exact reachable.updateBaseFee updated

/-- A fee is never zero again. -/
theorem call_one_le {market : FeeMarket} {step : FeeCall} (defined : market.Defined step)
    (base : 1 ≤ market.currentBaseFee.toNat) : 1 ≤ (market.call step).currentBaseFee.toNat := by
  rcases Nat.lt_or_ge market.currentBaseFee.toNat 4 with low | high
  · rw [call_frozen defined base (Nat.lt_succ_iff.mp low)]
    exact base
  · exact le_trans (by decide) (call_four_le defined high)

/-- The fee is far from those that a `double` cannot hold. -/
def Moderate (market : FeeMarket) (_ : FeeCall) : Prop := market.currentBaseFee.toNat < 2 ^ 49

/-- In every run of a fee market whose results are defined: a base fee of one, two or three never changes
again; one of four or more never falls below four; while the fee is moderate, `n` blocks bring it
down by no more than `(7/8)^n` and up by no more than `(9/8)^n`, and `n` congested blocks raise what
it has above three by at least `(9/8)^n`. -/
theorem baseFee_run {market : FeeMarket} (reachable : Reachable market) {calls : List FeeCall}
    (defined : Along call Defined market calls) :
    let fee := market.currentBaseFee.toNat
    let after := (run call market calls).currentBaseFee.toNat
    let blocks := calls.countP FeeCall.updates
    (1 ≤ fee -> fee ≤ 3 -> after = fee) ∧
    (4 ≤ fee -> 4 ≤ after) ∧
    (1 ≤ fee -> Along call Moderate market calls ->
      (7 / 8 : Rat) ^ blocks * (fee + 3) ≤ after + 3 ∧ (after : Rat) + 4 ≤ (9 / 8) ^ blocks * (fee + 4)) ∧
    (1 ≤ fee -> Along call Moderate market calls -> Along call Congested market calls ->
      (9 / 8 : Rat) ^ blocks * (fee - 3) ≤ after - 3) := by
  intro fee after blocks
  refine ⟨?_, ?_, ?_, ?_⟩
  · intro base low
    refine invariant_run (fun later : FeeMarket => later.currentBaseFee.toNat = fee) ?_ rfl defined
    intro later step same definedStep
    have frozen := call_frozen definedStep (same.symm ▸ base) (same.symm ▸ low)
    rw [frozen, same]
  · intro four
    exact invariant_run (fun later : FeeMarket => 4 ≤ later.currentBaseFee.toNat)
      (fun later step high definedStep => call_four_le definedStep high) four defined
  · intro base moderate
    have guarded := along_of_invariant (fun later : FeeMarket => 1 ≤ later.currentBaseFee.toNat)
      (fun later step positive guard => call_one_le guard.1 positive)
      (fun later step positive guard => call_bounds guard.1 positive guard.2) base (along_and defined moderate)
    constructor
    · exact pow_mul_le_run (fun later : FeeMarket => (later.currentBaseFee.toNat : Rat) + 3) (by norm_num)
        (fun _ _ bounds => bounds.1) guarded
    · exact run_le_pow_mul (fun later : FeeMarket => (later.currentBaseFee.toNat : Rat) + 4) (by norm_num)
        (fun _ _ bounds => bounds.2) guarded
  · intro base moderate congested
    have guarded := along_of_invariant
      (fun later : FeeMarket => Reachable later ∧ 1 ≤ later.currentBaseFee.toNat)
      (fun later step valid guard => ⟨valid.1.call step, call_one_le guard.1.1 valid.2⟩)
      (fun later step valid guard => call_grows valid.1 guard.1.1 guard.2 valid.2 guard.1.2) ⟨reachable, base⟩
      (along_and (along_and defined moderate) congested)
    exact pow_mul_le_run (fun later : FeeMarket => (later.currentBaseFee.toNat : Rat) - 3) (by norm_num)
      (fun _ _ grows => grows) guarded

/-- A full block, a larger maximum, an empty block. -/
def fullThenEmpty : List FeeCall := [.updateBaseFee 10000000, .setMaxGasPerBlock 30000000, .updateBaseFee 0]

theorem baseFee_run_fullThenEmpty :
    (run call (create 3) fullThenEmpty).currentBaseFee.toNat = 3 ∧
      (7 / 8 : Rat) ^ 2 * (1000 + 3) ≤ (run call (create 1000) fullThenEmpty).currentBaseFee.toNat + 3 ∧
      (9 / 8 : Rat) ^ 1 * (1000 - 3) ≤ (run call (create 1000) (fullThenEmpty.take 2)).currentBaseFee.toNat - 3 := by
  have moderate : Along call Moderate (create 1000) fullThenEmpty := by
    unfold Moderate
    decide +kernel
  have congested : Along call Congested (create 1000) (fullThenEmpty.take 2) :=
    ⟨⟨by decide, by decide, by decide⟩, trivial, trivial⟩
  refine ⟨?_, ?_, ?_⟩
  · exact (baseFee_run (.create 3 10000000) (by decide +kernel)).1 (by decide) (by decide)
  · exact ((baseFee_run (.create 1000 10000000) (by decide +kernel)).2.2.1 (by decide) moderate).1
  · exact (baseFee_run (.create 1000 10000000) (by decide +kernel)).2.2.2 (by decide)
      ⟨moderate.1, moderate.2.1, trivial⟩ congested

end FeeMarket
end State
end Sarafu

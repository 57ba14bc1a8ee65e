import Sarafu.Consensus.ValidatorRegistry

namespace Sarafu
namespace Consensus

/-!
# Rounding to double precision

A number in the normal range changes by at most one part in `2^53` when it is rounded.  A
quotient of two integers that differs from a fraction differs from it by at least one over
the product of the denominators.  So a rounded comparison of the two is exact as long as the
cross products stay below `2^53` together.  Rounding also keeps the order and commutes with
powers of two, and a percentage of an integer below `2^51` is exact after truncation.
-/

/-- The nearest integer is at most one half away. -/
theorem roundHalfEven_error (value : Rat) : |(roundHalfEven value : Rat) - value| ≤ 1 / 2 := by
  have below := Int.floor_le value
  have above := Int.lt_floor_add_one value
  have floor : value.floor = ⌊value⌋ := rfl
  rw [abs_le]
  unfold roundHalfEven
  simp only [floor]
  split
  · constructor <;> linarith
  · split
    · push_cast
      constructor <;> linarith
    · split
      · constructor <;> linarith
      · push_cast
        constructor <;> linarith

/-- An integer is its own nearest integer. -/
theorem roundHalfEven_intCast (value : Int) : roundHalfEven value = value := by
  simp [roundHalfEven, Rat.floor_intCast]

/-- The unit in the last place of a number. -/
def lastPlace (value : Rat) : Rat := 2 ^ (Int.log 2 value - 52)

theorem toDouble_eq {value : Rat} (positive : 0 < value) :
    toDouble value = roundHalfEven (value / lastPlace value) * lastPlace value := by
  rw [toDouble, if_neg (not_le.mpr positive)]
  rfl

theorem lastPlace_pos (value : Rat) : 0 < lastPlace value := zpow_pos (by norm_num) _

/-- Rounding changes a number by at most one part in `2^53`. -/
theorem toDouble_error {value : Rat} (positive : 0 < value) : |toDouble value - value| ≤ value / 2 ^ 53 := by
  have unit := lastPlace_pos value
  have leading : (2 : Rat) ^ Int.log 2 value ≤ value := by exact_mod_cast Int.zpow_log_le_self (by norm_num) positive
  have place : lastPlace value * 2 ^ 52 = 2 ^ Int.log 2 value := by
    rw [lastPlace, ← zpow_natCast, ← zpow_add₀ (by norm_num)]
    norm_num
  have difference : toDouble value - value =
      (roundHalfEven (value / lastPlace value) - value / lastPlace value) * lastPlace value := by
    rw [toDouble_eq positive, sub_mul, div_mul_cancel₀ _ unit.ne']
  calc |toDouble value - value|
      = |(roundHalfEven (value / lastPlace value) : Rat) - value / lastPlace value| * lastPlace value := by
        rw [difference, abs_mul, abs_of_pos unit]
    _ ≤ 1 / 2 * lastPlace value := mul_le_mul_of_nonneg_right (roundHalfEven_error _) unit.le
    _ ≤ value / 2 ^ 53 := by
        rw [le_div_iff₀ (by norm_num)]
        linarith

/-- Small integers are doubles. -/
theorem toDouble_natCast {value : Nat} (small : value < 2 ^ 53) : toDouble value = value := by
  rcases Nat.eq_zero_or_pos value with rfl | positive
  · simp [toDouble]
  · have place : Int.log 2 (value : Rat) ≤ 52 := by
      rw [Int.log_natCast]
      exact_mod_cast Nat.lt_succ_iff.mp (Nat.log_lt_of_lt_pow positive.ne' small)
    obtain ⟨shift, same⟩ : ∃ shift : Nat, 52 - Int.log 2 (value : Rat) = shift := Int.eq_ofNat_of_zero_le (by omega)
    have unit : lastPlace (value : Rat) = ((2 : Rat) ^ shift)⁻¹ := by
      rw [lastPlace, ← zpow_natCast, ← same, ← zpow_neg]
      congr 1
      ring
    have scaled : (value : Rat) / lastPlace (value : Rat) = ((value * 2 ^ shift : Nat) : Int) := by
      rw [unit, div_inv_eq_mul]
      push_cast
      rfl
    rw [toDouble_eq (by exact_mod_cast positive), scaled, roundHalfEven_intCast, ← scaled,
      div_mul_cancel₀ _ (lastPlace_pos _).ne']

/-- Numbers that are far enough apart are rounded in the same order. -/
theorem toDouble_lt_of_apart {left right : Rat} (nonneg : 0 ≤ left) (positive : 0 < right)
    (apart : left + (left + right) / 2 ^ 53 < right) : toDouble left < toDouble right := by
  have upper := abs_le.mp (toDouble_error positive)
  rcases nonneg.eq_or_lt with rfl | above
  · have zero : toDouble 0 = 0 := by simp [toDouble]
    rw [zero]
    linarith [upper.1]
  · have lower := abs_le.mp (toDouble_error above)
    linarith [lower.2, upper.1]

/-- Different fractions differ by at least one over the product of their denominators. -/
theorem fraction_gap {numerator denominator above below : Nat} (defined : 0 < denominator) (fraction : 0 < below)
    (less : numerator * below < above * denominator) :
    (numerator : Rat) / denominator + 1 / (denominator * below) ≤ above / below := by
  have denominatorPos : (0 : Rat) < denominator := by exact_mod_cast defined
  have belowPos : (0 : Rat) < below := by exact_mod_cast fraction
  have step : (numerator : Rat) * below + 1 ≤ above * denominator := by exact_mod_cast less
  calc (numerator : Rat) / denominator + 1 / (denominator * below)
      = (numerator * below + 1) / (denominator * below) := by field_simp
    _ ≤ above * denominator / (denominator * below) := by gcongr
    _ = above / below := by field_simp

/-- Two fractions with small cross products are much closer to zero than their distance is
large. -/
theorem rounding_lt_gap {numerator denominator above below : Nat} (defined : 0 < denominator) (fraction : 0 < below)
    (small : numerator * below + above * denominator < 2 ^ 53) :
    ((numerator : Rat) / denominator + above / below) / 2 ^ 53 < 1 / (denominator * below) := by
  have denominatorPos : (0 : Rat) < denominator := by exact_mod_cast defined
  have belowPos : (0 : Rat) < below := by exact_mod_cast fraction
  have products : (numerator : Rat) * below + above * denominator < 2 ^ 53 := by exact_mod_cast small
  have sum : (numerator : Rat) / denominator + above / below =
      (numerator * below + above * denominator) / (denominator * below) := by field_simp
  rw [sum, div_div, mul_comm _ ((2 : Rat) ^ 53), ← div_div]
  gcongr
  rwa [div_lt_one (by norm_num)]

/-- The comparison of a quotient with a fraction is exact if the cross products are small. -/
theorem toDouble_div_lt_iff {numerator denominator above below : Nat} (defined : 0 < denominator)
    (nonzero : 0 < above) (fraction : 0 < below) (small : numerator * below + above * denominator < 2 ^ 53) :
    toDouble (toDouble numerator / toDouble denominator) < toDouble ((above : Rat) / below) <->
      numerator * below < above * denominator := by
  have numeratorSmall : numerator ≤ numerator * below := Nat.le_mul_of_pos_right numerator fraction
  have denominatorSmall : denominator ≤ above * denominator := Nat.le_mul_of_pos_left denominator nonzero
  rw [toDouble_natCast (by omega), toDouble_natCast (by omega)]
  have denominatorPos : (0 : Rat) < denominator := by exact_mod_cast defined
  have belowPos : (0 : Rat) < below := by exact_mod_cast fraction
  have rounding := rounding_lt_gap defined fraction small
  rcases lt_trichotomy (numerator * below) (above * denominator) with less | same | more
  · refine iff_of_true ?_ less
    apply toDouble_lt_of_apart (by positivity) (by positivity)
    have gap := fraction_gap defined fraction less
    linarith
  · refine iff_of_false ?_ same.not_lt
    have equal : (numerator : Rat) / denominator = above / below := by
      rw [div_eq_div_iff denominatorPos.ne' belowPos.ne']
      exact_mod_cast same
    rw [equal]
    exact lt_irrefl _
  · refine iff_of_false ?_ more.not_gt
    have numeratorPos : 0 < numerator := Nat.pos_of_ne_zero fun zero => by simp [zero] at more
    have gap := fraction_gap fraction defined more
    rw [mul_comm (below : Rat)] at gap
    exact (toDouble_lt_of_apart (by positivity) (by positivity) (by linarith)).not_gt

/-! ## Order -/

theorem roundHalfEven_cases (value : Rat) :
    roundHalfEven value = ⌊value⌋ ∨ roundHalfEven value = ⌊value⌋ + 1 := by
  have floor : value.floor = ⌊value⌋ := rfl
  unfold roundHalfEven
  simp only [floor]
  split_ifs
  all_goals simp

/-- The nearest integers keep the order. -/
theorem roundHalfEven_mono {left right : Rat} (ordered : left ≤ right) : roundHalfEven left ≤ roundHalfEven right := by
  rcases (Int.floor_mono ordered).lt_or_eq with less | same
  · have up := roundHalfEven_cases left
    have down := roundHalfEven_cases right
    omega
  · have leftFloor : left.floor = ⌊left⌋ := rfl
    have rightFloor : right.floor = ⌊right⌋ := rfl
    have rest : left - ⌊right⌋ ≤ right - ⌊right⌋ := sub_le_sub_right ordered _
    unfold roundHalfEven
    simp only [leftFloor, rightFloor, same]
    split_ifs
    all_goals first | omega | linarith

/-- A number in the range of one exponent is rounded to a number of that range, or to its end. -/
theorem toDouble_bounds {value : Rat} (positive : 0 < value) :
    (2 : Rat) ^ Int.log 2 value ≤ toDouble value ∧ toDouble value ≤ 2 ^ (Int.log 2 value + 1) := by
  have unit := lastPlace_pos value
  have leading : (2 : Rat) ^ Int.log 2 value ≤ value := by exact_mod_cast Int.zpow_log_le_self (by norm_num) positive
  have next : value ≤ (2 : Rat) ^ (Int.log 2 value + 1) := by
    exact_mod_cast (Int.lt_zpow_succ_log_self (by norm_num) value).le
  have place : (2 : Rat) ^ Int.log 2 value = ((2 ^ 52 : Int) : Rat) * lastPlace value := by
    rw [lastPlace, Int.cast_pow, Int.cast_ofNat, ← zpow_natCast, ← zpow_add₀ (by norm_num)]
    congr 1
    norm_num
  have double : (2 : Rat) ^ (Int.log 2 value + 1) = ((2 ^ 53 : Int) : Rat) * lastPlace value := by
    rw [zpow_add_one₀ (by norm_num), place]
    push_cast
    ring
  rw [place] at leading ⊢
  rw [double] at next ⊢
  rw [toDouble_eq positive]
  constructor
  · apply mul_le_mul_of_nonneg_right _ unit.le
    have rounded := roundHalfEven_mono ((le_div_iff₀ unit).mpr leading)
    rw [roundHalfEven_intCast] at rounded
    exact_mod_cast rounded
  · apply mul_le_mul_of_nonneg_right _ unit.le
    have rounded := roundHalfEven_mono ((div_le_iff₀ unit).mpr next)
    rw [roundHalfEven_intCast] at rounded
    exact_mod_cast rounded

theorem toDouble_pos {value : Rat} (positive : 0 < value) : 0 < toDouble value :=
  (zpow_pos (by norm_num) _).trans_le (toDouble_bounds positive).1

/-- Rounding keeps the order. -/
theorem toDouble_mono {left right : Rat} (positive : 0 < left) (ordered : left ≤ right) :
    toDouble left ≤ toDouble right := by
  have positiveRight := positive.trans_le ordered
  rcases (Int.log_mono_right positive ordered : Int.log 2 left ≤ Int.log 2 right).lt_or_eq with less | same
  · calc toDouble left
        ≤ 2 ^ (Int.log 2 left + 1) := (toDouble_bounds positive).2
      _ ≤ 2 ^ Int.log 2 right := zpow_le_zpow_right₀ (by norm_num) (by omega)
      _ ≤ toDouble right := (toDouble_bounds positiveRight).1
  · have place : lastPlace left = lastPlace right := by rw [lastPlace, same, lastPlace]
    have unit := lastPlace_pos right
    rw [toDouble_eq positive, toDouble_eq positiveRight, place]
    apply mul_le_mul_of_nonneg_right _ unit.le
    exact_mod_cast roundHalfEven_mono (div_le_div_of_nonneg_right ordered unit.le)

/-- The rounded product with a fraction that is not rounded down has the exact floor. -/
theorem floor_toDouble_mul {value below : Nat} (small : value < 2 ^ 51) (fraction : 0 < below)
    (atLeast : (1 : Rat) / below ≤ toDouble (1 / below)) :
    ⌊toDouble (toDouble value * toDouble (1 / below))⌋ = (value / below : Nat) := by
  rcases Nat.eq_zero_or_pos value with rfl | positive
  · simp [toDouble]
  have belowPos : (0 : Rat) < below := by exact_mod_cast fraction
  have valuePos : (0 : Rat) < value := by exact_mod_cast positive
  have bound : (value : Rat) ≤ 2 ^ 51 := by exact_mod_cast small.le
  have unit : (0 : Rat) < 1 / below := by positivity
  have constant := (abs_le.mp (toDouble_error unit)).2
  rw [toDouble_natCast (by omega)]
  have productPos : (0 : Rat) < value * toDouble (1 / below) := mul_pos valuePos (unit.trans_le atLeast)
  have product := (abs_le.mp (toDouble_error productPos)).2
  rw [Int.floor_eq_iff]
  have division : below * (value / below) + value % below = value := Nat.div_add_mod value below
  have rest : value % below < below := Nat.mod_lt value fraction
  constructor
  · rcases Nat.eq_zero_or_pos (value / below) with none | some
    · rw [none]
      exact_mod_cast (zpow_pos (by norm_num) _).le.trans (toDouble_bounds productPos).1
    · have exactly : (value / below : Nat) ≤ (value : Rat) * toDouble (1 / below) := by
        calc ((value / below : Nat) : Rat) ≤ (value : Rat) / below := Nat.cast_div_le
          _ = value * (1 / below) := by ring
          _ ≤ value * toDouble (1 / below) := mul_le_mul_of_nonneg_left atLeast valuePos.le
      have quotientSmall : value / below < 2 ^ 53 := by
        have := Nat.div_le_self value below
        omega
      have rounded := toDouble_mono (by exact_mod_cast some) exactly
      rw [toDouble_natCast quotientSmall] at rounded
      exact_mod_cast rounded
  · have step : (value : Rat) + 1 ≤ below * ((value / below : Nat) + 1) := by
      have whole : value + 1 ≤ below * (value / below + 1) := by
        rw [Nat.mul_add]
        omega
      exact_mod_cast whole
    have twice : (value : Rat) * (1 + 1 / 2 ^ 53) ^ 2 < value + 1 := by
      have excess := mul_le_mul_of_nonneg_right bound (show (0 : Rat) ≤ 2 / 2 ^ 53 + 1 / 2 ^ 106 by norm_num)
      norm_num at excess ⊢
      linarith
    have factor : (value : Rat) * toDouble (1 / below) ≤ value * ((1 + 1 / 2 ^ 53) / below) := by
      apply mul_le_mul_of_nonneg_left _ valuePos.le
      rw [add_div]
      linarith [div_right_comm (1 : Rat) below (2 ^ 53)]
    calc toDouble (value * toDouble (1 / below))
        ≤ value * toDouble (1 / below) * (1 + 1 / 2 ^ 53) := by linarith
      _ ≤ value * ((1 + 1 / 2 ^ 53) / below) * (1 + 1 / 2 ^ 53) := mul_le_mul_of_nonneg_right factor (by norm_num)
      _ = value * (1 + 1 / 2 ^ 53) ^ 2 / below := by ring
      _ < (value + 1) / below := div_lt_div_of_pos_right twice belowPos
      _ ≤ (value / below : Nat) + 1 := by
        rw [div_le_iff₀ belowPos, mul_comm]
        exact_mod_cast step

/-! ## Scale -/

/-- A power of two moves the exponent and nothing else. -/
theorem log_mul_zpow {value : Rat} (positive : 0 < value) (shift : Int) :
    Int.log 2 (value * 2 ^ shift) = Int.log 2 value + shift := by
  have power : (0 : Rat) < 2 ^ shift := zpow_pos (by norm_num) shift
  have scaled : 0 < value * 2 ^ shift := mul_pos positive power
  have leading : ((2 : Nat) : Rat) ^ Int.log 2 value ≤ value := Int.zpow_log_le_self (by norm_num) positive
  have next : value < ((2 : Nat) : Rat) ^ (Int.log 2 value + 1) := Int.lt_zpow_succ_log_self (by norm_num) value
  push_cast at leading next
  apply le_antisymm
  · have above : value * 2 ^ shift < ((2 : Nat) : Rat) ^ (Int.log 2 value + shift + 1) := by
      push_cast
      rw [add_right_comm, zpow_add₀ (by norm_num)]
      exact mul_lt_mul_of_pos_right next power
    exact Int.lt_add_one_iff.mp ((Int.lt_zpow_iff_log_lt (by norm_num) scaled).mp above)
  · apply (Int.zpow_le_iff_le_log (by norm_num) scaled).mp
    push_cast
    rw [zpow_add₀ (by norm_num)]
    exact mul_le_mul_of_nonneg_right leading power.le

/-- So rounding commutes with it. -/
theorem toDouble_mul_zpow {value : Rat} (positive : 0 < value) (shift : Int) :
    toDouble (value * 2 ^ shift) = toDouble value * 2 ^ shift := by
  have power : (0 : Rat) < 2 ^ shift := zpow_pos (by norm_num) shift
  have place : lastPlace (value * 2 ^ shift) = lastPlace value * 2 ^ shift := by
    rw [lastPlace, lastPlace, log_mul_zpow positive, ← zpow_add₀ (by norm_num)]
    congr 1
    ring
  rw [toDouble_eq (mul_pos positive power), toDouble_eq positive, place, mul_div_mul_right _ _ power.ne', mul_assoc]

/-! ## One place too many -/

/-- One half of an integer, rounded to the nearest even one. -/
theorem roundHalfEven_half (value : Nat) : roundHalfEven ((value : Rat) / 2) = ((value + value / 2 % 2) / 2 : Nat) := by
  have below : ((value : Rat) / 2).floor = ((value / 2 : Nat) : Int) := Rat.floor_intCast_div_natCast (value : Int) 2
  have split : (value : Rat) = 2 * (value / 2 : Nat) + (value % 2 : Nat) := by
    exact_mod_cast (Nat.div_add_mod value 2).symm
  have rest : (value : Rat) / 2 - ((value / 2 : Nat) : Int) = (value % 2 : Nat) / 2 := by
    rw [Int.cast_natCast]
    linarith
  unfold roundHalfEven
  simp only [below, rest]
  rcases Nat.mod_two_eq_zero_or_one value with even | odd
  · rw [even]
    norm_num
    omega
  · rw [odd]
    norm_num
    split
    · omega
    · omega

/-- An integer with one binary place too many is rounded to an even one. -/
theorem toDouble_natCast_wide {value : Nat} (positive : 0 < value) (small : value < 2 ^ 54) :
    toDouble value = if value < 2 ^ 53 then (value : Rat) else ((value + value / 2 % 2) / 2 * 2 : Nat) := by
  split
  · rename_i exactly
    exact toDouble_natCast exactly
  · rename_i wide
    have exponent : Int.log 2 (value : Rat) = 53 := by
      rw [Int.log_natCast]
      exact_mod_cast (Nat.log_eq_iff (Or.inl (by decide))).mpr ⟨Nat.not_lt.mp wide, small⟩
    have place : lastPlace (value : Rat) = 2 := by
      rw [lastPlace, exponent]
      norm_num
    rw [toDouble_eq (by exact_mod_cast positive), place, roundHalfEven_half]
    push_cast
    rfl

/-! ## `std::round` -/

/-- The nearest integer, ties away from zero. -/
def roundHalfAway (value : Rat) : Int := if 0 ≤ value then (value + 1 / 2).floor else -(-value + 1 / 2).floor

theorem roundHalfAway_div (numerator : Nat) {denominator : Nat} (positive : 0 < denominator) :
    roundHalfAway ((numerator : Rat) / denominator) = ((2 * numerator + denominator) / (2 * denominator) : Nat) := by
  have denominatorPos : (0 : Rat) < denominator := by exact_mod_cast positive
  have sum : (numerator : Rat) / denominator + 1 / 2 =
      (((2 * numerator + denominator : Nat) : Int) : Rat) / ((2 * denominator : Nat) : Rat) := by
    push_cast
    field_simp
  rw [roundHalfAway, if_pos (by positivity), sum]
  exact Rat.floor_intCast_div_natCast _ _

end Consensus
end Sarafu

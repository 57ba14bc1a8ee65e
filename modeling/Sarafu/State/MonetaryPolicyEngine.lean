import Sarafu.Consensus.Doubles
import Sarafu.Library.NearestShares
import Sarafu.Library.WordCounters
import Sarafu.Library.WordSums

namespace Sarafu
namespace State

open Crypto Consensus Library.NearestShares Library.WordCounters Library.WordSums

/-!
# Issuance and rewards of an epoch

The engine issues tokens in proportion to the staking ratio and counts them over an epoch.
At its end the issued tokens are distributed to the validators that are not jailed, each
share rounded to the nearest integer on its own.  How the `double` operations round is a
parameter; the source computes with `toDouble`.  A `std::string` is the list of its bytes.
-/

/-- The two rates are values of a `double`. -/
structure MonetaryState where
  totalSupply : UInt64
  totalBondedStake : UInt64
  stakingRatio : Rat
  issuanceRate : Rat
  feesBurnedThisEpoch : UInt64
  tokensIssuedThisEpoch : UInt64

structure IssuanceParameters where
  k : Rat
  minK : Rat
  maxK : Rat

structure MonetaryPolicyEngine where
  state : MonetaryState
  params : IssuanceParameters

namespace MonetaryPolicyEngine

variable (rounded : Rat -> Rat)

def calculateStakingRatio (engine : MonetaryPolicyEngine) : Rat :=
  if engine.state.totalSupply = 0 then 0
  else rounded (rounded engine.state.totalBondedStake.toNat / rounded engine.state.totalSupply.toNat)

def calculateIssuanceRate (engine : MonetaryPolicyEngine) : Rat :=
  let sigma := engine.calculateStakingRatio rounded
  rounded (engine.params.k * sigma)

/-- The ends of the constructor and of the updates. -/
def recalculated (engine : MonetaryPolicyEngine) : MonetaryPolicyEngine :=
  { engine with state := { engine.state with
      stakingRatio := engine.calculateStakingRatio rounded
      issuanceRate := engine.calculateIssuanceRate rounded } }

def create (initialSupply initialBondedStake : UInt64) : MonetaryPolicyEngine :=
  recalculated rounded
    ⟨⟨initialSupply, initialBondedStake, 0, 0, 0, 0⟩, ⟨rounded (1 / 10), rounded (5 / 100), rounded (2 / 10)⟩⟩

/-- The conversion to an integer has no result for a division by zero or out of range. -/
def updateSupply (engine : MonetaryPolicyEngine) (feesBurned blocksPerYear : UInt64) : Option MonetaryPolicyEngine :=
  let annualRate := engine.calculateIssuanceRate rounded
  let perBlockIssuance :=
    rounded (rounded (annualRate * rounded engine.state.totalSupply.toNat) / rounded blocksPerYear.toNat)
  let issued := roundHalfAway perBlockIssuance
  if blocksPerYear = 0 ∨ issued < 0 ∨ 2 ^ 64 ≤ issued then none
  else
    let tokensIssued := UInt64.ofNat issued.toNat
    some (recalculated rounded { engine with state := { engine.state with
      totalSupply := engine.state.totalSupply + tokensIssued - feesBurned
      feesBurnedThisEpoch := engine.state.feesBurnedThisEpoch + feesBurned
      tokensIssuedThisEpoch := engine.state.tokensIssuedThisEpoch + tokensIssued } })

def resetEpochCounters (engine : MonetaryPolicyEngine) : MonetaryPolicyEngine :=
  { engine with state := { engine.state with feesBurnedThisEpoch := 0, tokensIssuedThisEpoch := 0 } }

/-! ## Rewards -/

/-- The arguments of `distribute_rewards`; only membership is asked of the jailed set. -/
structure Distribution where
  validatorStakes : OrderedMap (List UInt8) UInt64
  jailedValidators : List (List UInt8)
  withdrawalAddresses : OrderedMap (List UInt8) (List UInt8)

namespace Distribution

def isJailed (distribution : Distribution) (validatorId : List UInt8) : Bool :=
  distribution.jailedValidators.contains validatorId

def eligibleStake (distribution : Distribution) : UInt64 :=
  distribution.validatorStakes.toList.foldl
    (fun total entry => if distribution.isJailed entry.1 then total else total + entry.2) 0

end Distribution

/-- The share of one validator, rounded to the nearest integer. -/
def proportionalReward (stake eligibleStake totalRewards : UInt64) : UInt64 :=
  let proportion := rounded (rounded stake.toNat / rounded eligibleStake.toNat)
  UInt64.ofNat (roundHalfAway (rounded (proportion * rounded totalRewards.toNat))).toNat

/-- One iteration of the second loop. -/
def rewardOne (distribution : Distribution) (totalRewards : UInt64) (rewards : OrderedMap (List UInt8) UInt64)
    (entry : List UInt8 × UInt64) : OrderedMap (List UInt8) UInt64 :=
  if distribution.isJailed entry.1 then rewards
  else
    let reward := proportionalReward rounded entry.2 distribution.eligibleStake totalRewards
    match distribution.withdrawalAddresses[entry.1]? with
    | none => rewards
    | some withdrawalAddr => rewards.insert withdrawalAddr ((rewards[withdrawalAddr]?).getD 0 + reward)

def distributeRewards (engine : MonetaryPolicyEngine) (distribution : Distribution) :
    OrderedMap (List UInt8) UInt64 :=
  if distribution.eligibleStake = 0 then ∅
  else
    distribution.validatorStakes.toList.foldl
      (rewardOne rounded distribution engine.state.tokensIssuedThisEpoch) ∅

/-- What is issued and what is burned in an epoch accounts for the supply. -/
theorem updateSupply_accounted {engine next : MonetaryPolicyEngine} {feesBurned blocksPerYear : UInt64}
    (updated : engine.updateSupply rounded feesBurned blocksPerYear = some next) :
    next.state.totalSupply + next.state.feesBurnedThisEpoch - next.state.tokensIssuedThisEpoch =
      engine.state.totalSupply + engine.state.feesBurnedThisEpoch - engine.state.tokensIssuedThisEpoch := by
  unfold updateSupply at updated
  dsimp only at updated
  split at updated
  · cases updated
  · rw [← Option.some.inj updated]
    simp only [recalculated]
    generalize UInt64.ofNat _ = tokensIssued
    grind

namespace Distribution

/-- The stakes of the validators that are not jailed. -/
def eligible (distribution : Distribution) : List (List UInt8 × UInt64) :=
  distribution.validatorStakes.toList.filter fun entry => !distribution.isJailed entry.1

/-- The eligible stake as a natural number. -/
def totalEligible (distribution : Distribution) : Nat := (distribution.eligible.map fun entry => entry.2.toNat).sum

/-- The eligible stakes with a withdrawal address. -/
def paid (distribution : Distribution) : List (List UInt8 × UInt64) :=
  distribution.eligible.filterMap fun entry =>
    (distribution.withdrawalAddresses[entry.1]?).map fun address => (address, entry.2)

/-- The eligible stakes without one. -/
def unpaid (distribution : Distribution) : List Nat :=
  (distribution.eligible.filter fun entry => (distribution.withdrawalAddresses[entry.1]?).isNone).map
    fun entry => entry.2.toNat

def paidStakes (distribution : Distribution) : List Nat := distribution.paid.map fun entry => entry.2.toNat

/-- The stakes that are paid to an address. -/
def stakesOf (distribution : Distribution) (address : List UInt8) : List Nat :=
  (distribution.paid.filter fun entry => entry.1 = address).map fun entry => entry.2.toNat

/-- What rounding adds to the rewards is at most what the validators without an address leave,
both in parts of the eligible stake. -/
def Balanced (distribution : Distribution) (issued : UInt64) : Prop :=
  excessOf issued.toNat distribution.totalEligible distribution.paidStakes ≤ distribution.unpaid.sum * issued.toNat

/-- The rewards of one address reach `2^64`. -/
def WrapsAt (distribution : Distribution) (issued : UInt64) (address : List UInt8) : Prop :=
  (2 ^ 64 * distribution.totalEligible : Int) ≤ (distribution.stakesOf address).sum * issued.toNat +
    excessOf issued.toNat distribution.totalEligible (distribution.stakesOf address)

theorem paidStakes_add_unpaid (distribution : Distribution) :
    distribution.paidStakes.sum + distribution.unpaid.sum = distribution.totalEligible := by
  unfold paidStakes unpaid totalEligible paid
  induction distribution.eligible with
  | nil => rfl
  | cons entry rest inductionHypothesis =>
      cases found : distribution.withdrawalAddresses[entry.1]? with
      | none =>
          simp only [List.filterMap_cons, found, Option.map_none, List.filter_cons, Option.isNone_none, if_true,
            List.map_cons, List.sum_cons]
          omega
      | some address =>
          simp only [List.filterMap_cons, found, Option.map_some, List.filter_cons, Option.isNone_some,
            Bool.false_eq_true, if_false, List.map_cons, List.sum_cons]
          omega

theorem toNat_eligibleStake {distribution : Distribution} (fits : distribution.totalEligible < 2 ^ 64) :
    distribution.eligibleStake.toNat = distribution.totalEligible := by
  have loop : distribution.eligibleStake = distribution.eligible.foldl (fun total entry => total + entry.2) 0 := by
    unfold eligibleStake eligible
    rw [List.foldl_filter]
    congr 1
    funext total entry
    cases distribution.isJailed entry.1 with
    | true => rfl
    | false => rfl
  rw [loop, toNat_sum fun entry : List UInt8 × UInt64 => entry.2]
  exact Nat.mod_eq_of_lt fits

end Distribution

/-! ## The exact shares -/

/-- Without rounding of the operations the reward is the nearest integer to the share. -/
theorem proportionalReward_exact (stake eligibleStake totalRewards : UInt64) (positive : 0 < eligibleStake.toNat) :
    proportionalReward id stake eligibleStake totalRewards =
      UInt64.ofNat (nearest (stake.toNat * totalRewards.toNat) eligibleStake.toNat) := by
  have share : (stake.toNat : Rat) / eligibleStake.toNat * totalRewards.toNat =
      ((stake.toNat * totalRewards.toNat : Nat) : Rat) / eligibleStake.toNat := by
    push_cast
    ring
  simp only [proportionalReward, id_eq]
  rw [share, roundHalfAway_div _ positive, Int.toNat_natCast]
  rfl

variable {engine : MonetaryPolicyEngine} {distribution : Distribution}

/-- The second loop credits the rewards of the validators that are paid. -/
theorem distributeRewards_eq (rounded : Rat -> Rat) (engine : MonetaryPolicyEngine)
    (positive : distribution.eligibleStake ≠ 0) :
    engine.distributeRewards rounded distribution =
      creditAll (distribution.paid.map fun entry => (entry.1,
        proportionalReward rounded entry.2 distribution.eligibleStake engine.state.tokensIssuedThisEpoch)) := by
  rw [distributeRewards, if_neg positive, creditAll, Distribution.paid, Distribution.eligible]
  generalize (∅ : OrderedMap (List UInt8) UInt64) = rewards
  induction distribution.validatorStakes.toList generalizing rewards with
  | nil => rfl
  | cons entry rest inductionHypothesis =>
      rw [List.foldl_cons, inductionHypothesis, List.filter_cons, rewardOne]
      cases distribution.isJailed entry.1 with
      | true => rfl
      | false =>
          cases found : distribution.withdrawalAddresses[entry.1]? with
          | none => simp [found]
          | some address => simp [found, credit]

/-- The rewards of a list of stakes, as words. -/
theorem credits_rewards {total : Nat} (issued eligibleStake : UInt64) (exact : eligibleStake.toNat = total)
    (positive : 0 < total) (entries : List (List UInt8 × UInt64)) (part : forall entry, entry ∈ entries ->
      entry.2.toNat ≤ total) :
    credits (entries.map fun entry => (entry.1, proportionalReward id entry.2 eligibleStake issued)) =
      (shares issued.toNat total (entries.map fun entry => entry.2.toNat)).sum := by
  subst exact
  unfold credits shares
  rw [List.map_map, List.map_map]
  congr 1
  apply List.map_congr_left
  intro entry member
  have most : entry.2.toNat * issued.toNat ≤ issued.toNat * eligibleStake.toNat := by
    rw [Nat.mul_comm]
    exact Nat.mul_le_mul_left _ (part entry member)
  have small : nearest (entry.2.toNat * issued.toNat) eligibleStake.toNat < 2 ^ 64 :=
    Nat.lt_of_le_of_lt (nearest_le positive most) issued.toNat_lt
  simp only [Function.comp_apply]
  rw [proportionalReward_exact _ _ _ positive, UInt64.toNat_ofNat_of_lt' small]

/-- A paid stake is a part of the eligible stake. -/
theorem Distribution.paid_le (distribution : Distribution) {entry : List UInt8 × UInt64}
    (member : entry ∈ distribution.paid) : entry.2.toNat ≤ distribution.totalEligible := by
  have sum := distribution.paidStakes_add_unpaid
  have one : entry.2.toNat ≤ distribution.paidStakes.sum :=
    List.single_le_sum (fun _ _ => Nat.zero_le _) _ (List.mem_map_of_mem member)
  omega

namespace Distribution

/-- In whole tokens: the rewards of an address reach `2^64`. -/
theorem wrapsAt_iff (distribution : Distribution) (issued : UInt64) (address : List UInt8)
    (positive : 0 < distribution.totalEligible) : distribution.WrapsAt issued address <->
      2 ^ 64 ≤ (shares issued.toNat distribution.totalEligible (distribution.stakesOf address)).sum := by
  have totalPos : (0 : Int) < distribution.totalEligible := by exact_mod_cast positive
  unfold WrapsAt
  rw [← sum_shares_mul issued.toNat positive, mul_le_mul_iff_left₀ totalPos]
  exact_mod_cast Iff.rfl

/-- In whole tokens: the rewards are at most the issuance. -/
theorem balanced_iff (distribution : Distribution) (issued : UInt64) (positive : 0 < distribution.totalEligible) :
    distribution.Balanced issued <->
      (shares issued.toNat distribution.totalEligible distribution.paidStakes).sum ≤ issued.toNat := by
  have totalPos : (0 : Int) < distribution.totalEligible := by exact_mod_cast positive
  have sum := sum_shares_mul issued.toNat positive distribution.paidStakes
  have split : (distribution.totalEligible : Int) = distribution.paidStakes.sum + distribution.unpaid.sum := by
    exact_mod_cast distribution.paidStakes_add_unpaid.symm
  have scaled : (shares issued.toNat distribution.totalEligible distribution.paidStakes).sum ≤ issued.toNat <->
      ((shares issued.toNat distribution.totalEligible distribution.paidStakes).sum : Int) *
        distribution.totalEligible ≤ issued.toNat * distribution.totalEligible := by
    rw [mul_le_mul_iff_left₀ totalPos]
    exact_mod_cast Iff.rfl
  rw [scaled, sum, Balanced, split, mul_add, mul_comm (issued.toNat : Int), mul_comm (issued.toNat : Int)]
  exact (add_le_add_iff_left _).symm

/-- What rounding adds is less than one token for each token of the eligible stake. -/
theorem sum_shares_paid_le (distribution : Distribution) (issued : UInt64) (positive : 0 < distribution.totalEligible) :
    (shares issued.toNat distribution.totalEligible distribution.paidStakes).sum ≤
      issued.toNat + distribution.totalEligible := by
  have totalPos : (0 : Int) < distribution.totalEligible := by exact_mod_cast positive
  have sum := sum_shares_mul issued.toNat positive distribution.paidStakes
  have added := excessOf_le issued.toNat distribution.totalEligible distribution.paidStakes
  have part : (distribution.paidStakes.sum : Int) ≤ distribution.totalEligible := by
    exact_mod_cast Nat.le.intro distribution.paidStakes_add_unpaid
  have issuedNonneg : (0 : Int) ≤ issued.toNat := Int.natCast_nonneg _
  have scaled : ((shares issued.toNat distribution.totalEligible distribution.paidStakes).sum : Int) *
      distribution.totalEligible ≤ (issued.toNat + distribution.totalEligible) * distribution.totalEligible := by
    nlinarith
  exact_mod_cast le_of_mul_le_mul_right scaled totalPos

end Distribution

/-- The credits of the exact rewards, to all addresses and to one. -/
theorem creditsTo_rewards (distribution : Distribution) (issued : UInt64) (fits : distribution.totalEligible < 2 ^ 64)
    (positive : 0 < distribution.totalEligible) :
    let entries := distribution.paid.map fun entry =>
      (entry.1, proportionalReward id entry.2 distribution.eligibleStake issued)
    credits entries = (shares issued.toNat distribution.totalEligible distribution.paidStakes).sum ∧
      forall address, creditsTo address entries =
        (shares issued.toNat distribution.totalEligible (distribution.stakesOf address)).sum := by
  have word := Distribution.toNat_eligibleStake fits
  constructor
  · exact credits_rewards issued _ word positive _ fun _ member => distribution.paid_le member
  · intro address
    rw [creditsTo, List.filter_map]
    refine credits_rewards issued _ word positive _ fun _ member => ?_
    exact distribution.paid_le (List.mem_of_mem_filter member)

/-- Without eligible stake nothing is distributed. -/
theorem distributeRewards_none (rounded : Rat -> Rat) (engine : MonetaryPolicyEngine)
    (none : distribution.totalEligible = 0) : engine.distributeRewards rounded distribution = ∅ := by
  have fits : distribution.totalEligible < 2 ^ 64 := by
    rw [none]
    decide
  rw [distributeRewards, if_pos]
  rw [← UInt64.toNat_inj, Distribution.toNat_eligibleStake fits, none]
  rfl

theorem eligibleStake_ne_zero (fits : distribution.totalEligible < 2 ^ 64) (positive : 0 < distribution.totalEligible) :
    distribution.eligibleStake ≠ 0 := by
  intro zero
  have word := Distribution.toNat_eligibleStake fits
  rw [zero] at word
  exact positive.ne word

theorem distributeRewards_credits (engine : MonetaryPolicyEngine) (distribution : Distribution)
    (fits : distribution.totalEligible < 2 ^ 64) (positive : 0 < distribution.totalEligible) :
    ∃ entries, engine.distributeRewards id distribution = creditAll entries ∧
      credits entries = (shares engine.state.tokensIssuedThisEpoch.toNat distribution.totalEligible
        distribution.paidStakes).sum ∧
      forall address, creditsTo address entries = (shares engine.state.tokensIssuedThisEpoch.toNat
        distribution.totalEligible (distribution.stakesOf address)).sum :=
  ⟨_, distributeRewards_eq id engine (eligibleStake_ne_zero fits positive),
    creditsTo_rewards distribution _ fits positive⟩

/-- Each validator that is paid gets at most half a token more than its share. -/
theorem sumOf_distributeRewards_le (engine : MonetaryPolicyEngine) (distribution : Distribution)
    (fits : distribution.totalEligible < 2 ^ 64) :
    2 * sumOf (engine.distributeRewards id distribution) ≤
      2 * engine.state.tokensIssuedThisEpoch.toNat + distribution.paid.length := by
  rcases Nat.eq_zero_or_pos distribution.totalEligible with none | positive
  · rw [distributeRewards_none id engine none]
    exact Nat.zero_le _
  · rcases distributeRewards_credits engine distribution fits positive with ⟨entries, paid, total, _⟩
    rw [paid]
    have credited : sumOf (creditAll entries : OrderedMap (List UInt8) UInt64) ≤ credits entries :=
      sumOf_creditAll_le entries
    have halves := sum_shares_le engine.state.tokensIssuedThisEpoch.toNat positive distribution.paidStakes
      (Nat.le.intro distribution.paidStakes_add_unpaid)
    have length : distribution.paidStakes.length = distribution.paid.length := List.length_map _
    omega

/-- The rewards are within the issuance if and only if they balance, or those of one address
wrap around. -/
theorem sumOf_distributeRewards_le_iff (engine : MonetaryPolicyEngine) (distribution : Distribution)
    (fits : distribution.totalEligible < 2 ^ 64) :
    sumOf (engine.distributeRewards id distribution) ≤ engine.state.tokensIssuedThisEpoch.toNat <->
      distribution.Balanced engine.state.tokensIssuedThisEpoch ∨
        ∃ address, distribution.WrapsAt engine.state.tokensIssuedThisEpoch address := by
  rcases Nat.eq_zero_or_pos distribution.totalEligible with none | positive
  · rw [distributeRewards_none id engine none]
    refine iff_of_true (Nat.zero_le _) (Or.inl ?_)
    have added := excessOf_le engine.state.tokensIssuedThisEpoch.toNat 0 distribution.paidStakes
    rw [Distribution.Balanced, none]
    exact added.trans (by positivity)
  · rcases distributeRewards_credits engine distribution fits positive with ⟨entries, paid, total, single⟩
    generalize engine.state.tokensIssuedThisEpoch = issued at total single ⊢
    rw [paid, distribution.balanced_iff issued positive, ← total]
    simp only [distribution.wrapsAt_iff issued _ positive, ← single]
    by_cases wraps : ∃ address, 2 ^ 64 ≤ creditsTo address entries
    · refine iff_of_true ?_ (Or.inr wraps)
      rcases wraps with ⟨address, wraps⟩
      have lost : sumOf (creditAll entries : OrderedMap (List UInt8) UInt64) + 2 ^ 64 ≤ credits entries :=
        sumOf_creditAll_of_wraps entries address wraps
      have added := distribution.sum_shares_paid_le issued positive
      rw [← total] at added
      omega
    · have small : forall address, creditsTo address entries < 2 ^ 64 := fun address =>
        Nat.not_le.mp fun reaches => wraps ⟨address, reaches⟩
      rw [sumOf_creditAll entries small]
      exact (or_iff_left wraps).symm

/-- Two validators with their own withdrawal addresses. -/
def twoValidators (first second : UInt64) : Distribution :=
  ⟨((∅ : OrderedMap (List UInt8) UInt64).insert [97] first).insert [98] second, [],
    ((∅ : OrderedMap (List UInt8) (List UInt8)).insert [97] [120]).insert [98] [121]⟩

/-- The engine after a given issuance. -/
def issuedEngine (issued : UInt64) : MonetaryPolicyEngine := ⟨⟨0, 0, 0, 0, 0, issued⟩, ⟨0, 0, 0⟩⟩

theorem sumOf_distributeRewards_le_iff_thirds :
    sumOf ((issuedEngine 100).distributeRewards id (twoValidators 500 1000)) ≤ 100 := by
  apply (sumOf_distributeRewards_le_iff (issuedEngine 100) (twoValidators 500 1000) (by decide +kernel)).mpr
  apply Or.inl
  unfold Distribution.Balanced
  decide +kernel

/-- One token is issued, and each of two equal validators gets one, also in the arithmetic of
the source. -/
theorem rewards_exceed_issuance :
    ((create toDouble 2000 1000).updateSupply toDouble 0 100).map (fun engine =>
      (engine.state.tokensIssuedThisEpoch.toNat, sumOf (engine.distributeRewards id (twoValidators 500 500)),
        sumOf (engine.distributeRewards toDouble (twoValidators 500 500)))) = some (1, 2, 2) ∧ ¬ 2 ≤ 1 := by
  decide +kernel

end MonetaryPolicyEngine
end State
end Sarafu

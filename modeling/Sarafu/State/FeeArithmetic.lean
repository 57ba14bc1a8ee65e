import Sarafu.State.FeeMarket
import Sarafu.State.LedgerRuns

namespace Sarafu
namespace State

open Crypto

/-!
# The price of the gas in three places

The market checks a fee against the product of base fee and gas limit, estimates a fee from
it, and the executor burns it.  All three take the product modulo `2^64`.  Here each is
compared with the product of the natural numbers.
-/

namespace FeeMarket

variable {market : FeeMarket} {fee gasLimit priorityFee : UInt64}

/-- The product of the source. -/
theorem toNat_minimumFee (market : FeeMarket) (gasLimit : UInt64) :
    (market.state.baseFee * gasLimit).toNat = market.price gasLimit % 2 ^ 64 := UInt64.toNat_mul _ _

theorem isFeeSufficient_iff (market : FeeMarket) (fee gasLimit : UInt64) :
    market.isFeeSufficient fee gasLimit = true <-> market.price gasLimit % 2 ^ 64 ≤ fee.toNat := by
  rw [isFeeSufficient, decide_eq_true_iff, UInt64.le_iff_toNat_le, toNat_minimumFee]

/-- A fee is misjudged exactly if it pays the remainder of the price but not the price. -/
theorem sufficiency_exact_iff (market : FeeMarket) (fee gasLimit : UInt64) :
    (market.isFeeSufficient fee gasLimit = true <-> market.price gasLimit ≤ fee.toNat) <->
      ¬(fee.toNat < market.price gasLimit ∧ market.price gasLimit % 2 ^ 64 ≤ fee.toNat) := by
  have remainder := Nat.mod_le (market.price gasLimit) (2 ^ 64)
  rw [isFeeSufficient_iff]
  omega

theorem toNat_estimateFee (market : FeeMarket) (gasLimit priorityFee : UInt64) :
    (market.estimateFee gasLimit priorityFee).toNat = (market.price gasLimit + priorityFee.toNat) % 2 ^ 64 := by
  rw [estimateFee, UInt64.toNat_add, toNat_minimumFee, Nat.mod_add_mod]

/-- An estimate is sufficient for the market and pays the price. -/
def EstimateSufficient (market : FeeMarket) (gasLimit priorityFee : UInt64) : Prop :=
  market.isFeeSufficient (market.estimateFee gasLimit priorityFee) gasLimit = true ∧
    market.price gasLimit ≤ (market.estimateFee gasLimit priorityFee).toNat

/-- An estimate is sufficient exactly if the sum fits. -/
theorem estimateSufficient_iff (market : FeeMarket) (gasLimit priorityFee : UInt64) :
    market.EstimateSufficient gasLimit priorityFee <-> market.price gasLimit + priorityFee.toNat < 2 ^ 64 := by
  have tip := priorityFee.toNat_lt
  rw [EstimateSufficient, isFeeSufficient_iff, toNat_estimateFee]
  omega

end FeeMarket

namespace TransactionExecutor

/-- The smaller one of the fee and the price of the gas limit. -/
def exactBurn (execution : Execution) : Nat :=
  min execution.tx.fee.toNat (execution.baseFee.toNat * execution.tx.gasLimit.toNat)

/-- The rest of the fee. -/
def exactTip (execution : Execution) : Nat := execution.tx.fee.toNat - exactBurn execution

variable (prim : Primitives) {executor : TransactionExecutor} {execution : Execution}

/-- The executor after the call. -/
def after (executor : TransactionExecutor) (execution : Execution) : TransactionExecutor :=
  (executor.executeTransaction prim execution.tx execution.blockHeight execution.baseFee execution.proposer).2

/-- The counters advance by the exact parts of the fee, and the proposer gets its part on top
of what the transfer does to its balance. -/
structure SettlesExactly (executor : TransactionExecutor) (execution : Execution) : Prop where
  burned : (executor.after prim execution).totalBurned = executor.totalBurned + UInt64.ofNat (exactBurn execution)
  counted : (executor.after prim execution).totalPriorityFees =
    executor.totalPriorityFees + UInt64.ofNat (exactTip execution)
  paid : (executor.after prim execution).accountManager.getBalance execution.proposer =
    executor.accountManager.getBalance execution.proposer -
      (if execution.proposer = execution.tx.fromAddr then execution.tx.amount + execution.tx.fee else 0) +
      (if execution.proposer = execution.tx.toAddr then execution.tx.amount else 0) + UInt64.ofNat (exactTip execution)

theorem toNat_burnt (execution : Execution) : (burnt execution).toNat =
    min execution.tx.fee.toNat (execution.baseFee.toNat * execution.tx.gasLimit.toNat % 2 ^ 64) := by
  unfold burnt calculateBaseFeeAmount
  simp only []
  split
  · rename_i below
    rw [UInt64.lt_iff_toNat_lt, UInt64.toNat_mul] at below
    rw [UInt64.toNat_mul]
    omega
  · rename_i notBelow
    rw [UInt64.lt_iff_toNat_lt, UInt64.toNat_mul] at notBelow
    omega

/-- The burned part is exact unless the product wraps around to less than the fee. -/
theorem burnt_exact_iff (execution : Execution) : burnt execution = UInt64.ofNat (exactBurn execution) <->
    ¬(2 ^ 64 ≤ execution.baseFee.toNat * execution.tx.gasLimit.toNat ∧
      execution.baseFee.toNat * execution.tx.gasLimit.toNat % 2 ^ 64 < execution.tx.fee.toNat) := by
  have fee := execution.tx.fee.toNat_lt
  have small : exactBurn execution < 2 ^ 64 := Nat.lt_of_le_of_lt (Nat.min_le_left _ _) fee
  rw [← UInt64.toNat_inj, UInt64.toNat_ofNat_of_lt' small, toNat_burnt, exactBurn]
  generalize execution.baseFee.toNat * execution.tx.gasLimit.toNat = price
  omega

/-- The two parts are exact together. -/
theorem tip_exact (exact : burnt execution = UInt64.ofNat (exactBurn execution)) :
    tip execution = UInt64.ofNat (exactTip execution) := by
  have fee := execution.tx.fee.toNat_lt
  have small : exactBurn execution < 2 ^ 64 := Nat.lt_of_le_of_lt (Nat.min_le_left _ _) fee
  have rest : exactTip execution < 2 ^ 64 := Nat.lt_of_le_of_lt (Nat.sub_le _ _) fee
  have parts := burnt_add_tip execution
  rw [exact, UInt64.toNat_ofNat_of_lt' small] at parts
  rw [← UInt64.toNat_inj, UInt64.toNat_ofNat_of_lt' rest, exactTip]
  omega

/-- An execution that the balance covers settles the exact parts unless the product wraps
around to less than the fee. -/
theorem settlesExactly_iff
    (covered : execution.tx.amount + execution.tx.fee ≤ executor.accountManager.getBalance execution.tx.fromAddr) :
    executor.SettlesExactly prim execution <->
      ¬(2 ^ 64 ≤ execution.baseFee.toNat * execution.tx.gasLimit.toNat ∧
        execution.baseFee.toNat * execution.tx.gasLimit.toNat % 2 ^ 64 < execution.tx.fee.toNat) := by
  have settles : executor.after prim execution = executor.settled execution :=
    congrArg Prod.snd (executeTransaction_eq_settled prim covered)
  rw [← burnt_exact_iff]
  constructor
  · intro exactly
    have burned := exactly.burned
    rw [settles] at burned
    exact (UInt64.add_right_inj _).mp burned
  · intro exact
    have tipped := tip_exact exact
    constructor
    case burned => rw [settles, settled, exact]
    case counted => rw [settles, settled, tipped]
    case paid => rw [settles, getBalance_settled, if_pos rfl, tipped]

end TransactionExecutor

/-- When the three products are exact: the check of a fee, the estimate of a fee, and the
two parts of a fee that an execution settles. -/
theorem feeArithmetic_iff (prim : Primitives) (market : FeeMarket) (fee gasLimit priorityFee : UInt64)
    (executor : TransactionExecutor) (execution : Execution)
    (covered : execution.tx.amount + execution.tx.fee ≤ executor.accountManager.getBalance execution.tx.fromAddr) :
    ((market.isFeeSufficient fee gasLimit = true <-> market.price gasLimit ≤ fee.toNat) <->
        ¬(fee.toNat < market.price gasLimit ∧ market.price gasLimit % 2 ^ 64 ≤ fee.toNat)) ∧
      (market.EstimateSufficient gasLimit priorityFee <-> market.price gasLimit + priorityFee.toNat < 2 ^ 64) ∧
      (executor.SettlesExactly prim execution <->
        ¬(2 ^ 64 ≤ execution.baseFee.toNat * execution.tx.gasLimit.toNat ∧
          execution.baseFee.toNat * execution.tx.gasLimit.toNat % 2 ^ 64 < execution.tx.fee.toNat)) :=
  ⟨market.sufficiency_exact_iff fee gasLimit, market.estimateSufficient_iff gasLimit priorityFee,
    TransactionExecutor.settlesExactly_iff prim covered⟩

/-- A transfer with the fee for a limit of 21000 at a base fee of 1000, and a tip of five. -/
def pricedTransfer : Execution :=
  ⟨Mempool.transferWith 1 0 21000005 21000, StateMachine.defaultPublicKey, 1, 1000, FixedBytes.ofNat 32 3⟩

/-- A sender with enough for it. -/
def fundedExecutor : TransactionExecutor :=
  ⟨AccountManager.empty.createAccount (FixedBytes.ofNat 32 1) 30000000, 0, 0⟩

theorem feeArithmetic_iff_priced :
    FeeMarket.create.EstimateSufficient 21000 5 ∧
      fundedExecutor.SettlesExactly Transparent.primitives pricedTransfer := by
  have exactly := feeArithmetic_iff Transparent.primitives FeeMarket.create 21000005 21000 5 fundedExecutor
    pricedTransfer (by decide +kernel)
  exact ⟨exactly.2.1.mpr (by decide +kernel), exactly.2.2.mpr (by decide +kernel)⟩

/-- A limit of `2^61` at a base fee of 1000 has a price that is a multiple of `2^64`: no fee
at all is sufficient, the estimate is the tip alone, and the whole fee goes to the proposer. -/
theorem wrapped_price_is_free :
    let market := FeeMarket.create
    let execution : Execution := { pricedTransfer with tx := Mempool.transferWith 1 0 500 (2 ^ 61) }
    market.price (2 ^ 61) = 125 * 2 ^ 64 ∧ market.isFeeSufficient 0 (2 ^ 61) = true ∧
      market.estimateFee (2 ^ 61) 5 = 5 ∧ ¬market.EstimateSufficient (2 ^ 61) 5 ∧
      (fundedExecutor.after Transparent.primitives execution).totalBurned = 0 ∧
      (fundedExecutor.after Transparent.primitives execution).accountManager.getBalance (FixedBytes.ofNat 32 3) = 500 ∧
      ¬fundedExecutor.SettlesExactly Transparent.primitives execution := by
  intro market execution
  have burned : (fundedExecutor.after Transparent.primitives execution).totalBurned = 0 := by decide +kernel
  have insufficient : ¬market.EstimateSufficient (2 ^ 61) 5 := fun sufficient => by
    exact absurd sufficient.2 (by decide +kernel)
  refine ⟨by decide +kernel, by decide +kernel, by decide +kernel, insufficient, burned, by decide +kernel, ?_⟩
  intro settles
  rw [settles.burned] at burned
  exact absurd burned (by decide +kernel)

end State
end Sarafu

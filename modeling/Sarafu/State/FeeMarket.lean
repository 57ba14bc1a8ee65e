import Sarafu.State.BlockSelection

namespace Sarafu
namespace State

open Crypto Library.Runs Library.BudgetedWalk

/-!
# The fee market and the fees of a block

The base fee of the market is a price of one unit of gas, and a sufficient fee pays it for
the whole gas limit.  The selection of the mempool compares the base fee with the fee of the
whole transaction.  The two rules differ for a fee between the price of one unit and the price
of the gas limit.
-/

/-- The adjustment coefficient is the value of a `double`. -/
structure FeeMarketState where
  baseFee : UInt64
  targetGasPerBlock : UInt64
  maxGasPerBlock : UInt64
  adjustmentCoefficient : Rat

/-- The constructor: the target is one half of the maximum. -/
def FeeMarketState.make (initialBaseFee maxGas : UInt64) : FeeMarketState :=
  ⟨initialBaseFee, maxGas / 2, maxGas, 125 / 1000⟩

structure FeeMarket where
  state : FeeMarketState

namespace FeeMarket

def create (initialBaseFee : UInt64 := 1000) (maxGasPerBlock : UInt64 := 10000000) : FeeMarket :=
  ⟨FeeMarketState.make initialBaseFee maxGasPerBlock⟩

def currentBaseFee (market : FeeMarket) : UInt64 := market.state.baseFee

def estimateFee (market : FeeMarket) (gasLimit : UInt64) (priorityFee : UInt64 := 0) : UInt64 :=
  let baseFeeAmount := market.state.baseFee * gasLimit
  baseFeeAmount + priorityFee

/-- The product is taken modulo `2^64`. -/
def isFeeSufficient (market : FeeMarket) (transactionFee gasLimit : UInt64) : Bool :=
  let minimumFee := market.state.baseFee * gasLimit
  decide (minimumFee ≤ transactionFee)

def setMaxGasPerBlock (market : FeeMarket) (maxGas : UInt64) : FeeMarket :=
  ⟨{ market.state with maxGasPerBlock := maxGas, targetGasPerBlock := maxGas / 2 }⟩

/-- The price of the whole gas limit, as a natural number. -/
def price (market : FeeMarket) (gasLimit : UInt64) : Nat := market.currentBaseFee.toNat * gasLimit.toNat

/-- Whatever the mempool selects for the base fee of the market is sufficient for the market,
and pays the price of its gas. -/
def AgreesWith (market : FeeMarket) (mempool : Mempool) : Prop :=
  forall accountManager maxGas tx,
    tx ∈ mempool.getTransactionsForBlock accountManager maxGas market.currentBaseFee ->
      market.isFeeSufficient tx.fee tx.gasLimit = true ∧ market.price tx.gasLimit ≤ tx.fee.toNat

/-- The fee is at least the base fee, but less than the price of the gas limit. -/
def Underpriced (market : FeeMarket) (tx : Transaction) : Prop :=
  market.currentBaseFee ≤ tx.fee ∧ tx.fee.toNat < market.price tx.gasLimit

variable {prim : Primitives} {market : FeeMarket} {mempool : Mempool}

/-- A fee that pays the price is sufficient, since a product that wraps is even smaller. -/
theorem isFeeSufficient_of_price {fee gasLimit : UInt64} (pays : market.price gasLimit ≤ fee.toNat) :
    market.isFeeSufficient fee gasLimit = true := by
  apply decide_eq_true
  rw [UInt64.le_iff_toNat_le, UInt64.toNat_mul]
  exact Nat.le_trans (Nat.mod_le _ _) pays

/-- With the largest gas and no account manager, every transaction with the base fee is
selected. -/
theorem unlimited_block (mempool : Mempool) (minBaseFee : UInt64) :
    mempool.getTransactionsForBlock none (2 ^ 64 - 1) minBaseFee =
      mempool.byFee.filter fun tx => decide (minBaseFee ≤ tx.fee) := by
  rw [Mempool.getTransactionsForBlock_eq]
  apply Rules.taken_of_unlimited
  case eligible =>
    intro nonces tx
    simp [Mempool.selectionRules]
  case unlimited =>
    intro used cost
    have largest : (2 ^ 64 - 1 : UInt64).toNat = 2 ^ 64 - 1 := by decide +kernel
    simp only [Mempool.selectionRules, Rules.addModulo, largest]
    omega

/-- The rules agree on a mempool if and only if nothing that is pending is underpriced. -/
theorem agreesWith_iff (market : FeeMarket) (prim : Primitives) (config : MempoolConfig) (calls : List MempoolCall) :
    market.AgreesWith (run (Mempool.call prim) (Mempool.empty config) calls) <->
      forall (hash : Blake3Hash) (pending : MempoolTransaction),
        (run (Mempool.call prim) (Mempool.empty config) calls).transactions[hash]? = some pending ->
          ¬market.Underpriced pending.tx := by
  have listed := Mempool.listed_run prim config calls
  generalize run (Mempool.call prim) (Mempool.empty config) calls = mempool at listed ⊢
  constructor
  · rintro agrees hash pending found ⟨enough, less⟩
    have selected : pending.tx ∈ mempool.getTransactionsForBlock none (2 ^ 64 - 1) market.currentBaseFee := by
      rw [unlimited_block, List.mem_filter]
      rw [← listed.stored hash pending found] at found
      exact ⟨listed.mem_byFee.mpr ⟨pending, found, rfl⟩, decide_eq_true enough⟩
    exact Nat.not_le.mpr less (agrees none _ pending.tx selected).2
  · intro priced accountManager maxGas tx member
    have enough := Mempool.pays_of_mem_block member
    rcases listed.mem_byFee.mp ((Mempool.sublist_byFee mempool accountManager maxGas _).subset member) with
      ⟨pending, found, rfl⟩
    have pays : market.price pending.tx.gasLimit ≤ pending.tx.fee.toNat :=
      Nat.not_lt.mp fun less => priced _ pending found ⟨enough, less⟩
    exact ⟨isFeeSufficient_of_price pays, pays⟩

/-- A transfer that pays the base fee for one unit of its gas is selected, although the market
wants twenty-one million. -/
theorem selected_fee_insufficient :
    let market := FeeMarket.create
    let tx := Mempool.transferWith 1 0 1000 21000
    let mempool := run (Mempool.call Transparent.primitives) (Mempool.empty {})
      [.addTransaction (some (AccountManager.empty.createAccount tx.fromAddr 5000)) 0 tx]
    mempool.getTransactionsForBlock (some (AccountManager.empty.createAccount tx.fromAddr 5000)) 10000000
        market.currentBaseFee = [tx] ∧
      market.isFeeSufficient tx.fee tx.gasLimit = false ∧ market.price tx.gasLimit = 21000000 ∧
      ¬market.AgreesWith mempool := by
  intro market tx mempool
  have selected : mempool.getTransactionsForBlock (some (AccountManager.empty.createAccount tx.fromAddr 5000)) 10000000
      market.currentBaseFee = [tx] := by
    decide +kernel
  have insufficient : market.isFeeSufficient tx.fee tx.gasLimit = false := by decide
  refine ⟨selected, insufficient, by decide, ?_⟩
  intro agrees
  have sufficient := (agrees _ _ tx (by rw [selected]; exact List.mem_singleton_self tx)).1
  rw [insufficient] at sufficient
  cases sufficient

end FeeMarket
end State
end Sarafu

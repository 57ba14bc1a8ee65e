import Sarafu.Consensus.Doubles
import Sarafu.Consensus.GenesisSupply

namespace Sarafu
namespace Consensus

open Crypto State Library.Runs

/-!
# The cap and the vesting of genesis allocations

The cap of one twentieth of the supply is for a single allocation: an address may have
several.  An allocation above one fiftieth needs a vesting schedule, and the builder starts
every schedule at genesis and for the full amount.  Its duration is chosen by the caller of
`addVestingAllocation`, and no check looks at it.
-/

namespace GenesisBuilder

variable {share : UInt64 -> Rat -> UInt64} {prim : Primitives} {builder : GenesisBuilder}

/-! ## What one call appends -/

instance Admits.decidable (share : UInt64 -> Rat -> UInt64) (builder : GenesisBuilder) (amount : UInt64) :
    Decidable (Admits share builder amount) :=
  inferInstanceAs (Decidable (_ ∧ _))

/-- The allocation that a call appends. -/
def allocated (share : UInt64 -> Rat -> UInt64) (builder : GenesisBuilder) : BuilderCall -> Option GenesisAllocation
  | .addAllocation address amount category =>
      if Admits share builder amount then
        some ⟨address, amount, category,
          if builder.requiresVesting share amount then
            some (VestingSchedule.make amount builder.config.genesisTimestamp 31536000)
          else none⟩
      else none
  | .addVestingAllocation address amount category duration =>
      if Admits share builder amount then
        some ⟨address, amount, category, some (VestingSchedule.make amount builder.config.genesisTimestamp duration)⟩
      else none
  | .createGenesisValidatorSet _ => none

theorem allocations_addVestingAllocation (address : Address) (amount : UInt64) (category : List UInt8)
    (duration : UInt64) : (builder.addVestingAllocation share address amount category duration).2.allocations =
      builder.allocations ++
        (builder.allocated share (.addVestingAllocation address amount category duration)).toList := by
  unfold addVestingAllocation
  split
  · rename_i exceeds
    simp [allocated, not_admits_of_exceeds exceeds]
  · rename_i within
    split
    · rename_i more
      simp [allocated, not_admits_of_lt more]
    · rename_i fits
      have admitted : Admits share builder amount := ⟨Bool.not_eq_true _ ▸ within, UInt64.not_lt.mp fits⟩
      simp [allocated, admitted]

theorem allocations_call (share : UInt64 -> Rat -> UInt64) (prim : Primitives) (builder : GenesisBuilder)
    (step : BuilderCall) : (builder.call share prim step).allocations =
      builder.allocations ++ (builder.allocated share step).toList := by
  cases step with
  | addVestingAllocation address amount category duration =>
      exact allocations_addVestingAllocation address amount category duration
  | addAllocation address amount category =>
      simp only [call, addAllocation]
      split
      · rename_i exceeds
        simp [allocated, not_admits_of_exceeds exceeds]
      · rename_i within
        split
        · rename_i more
          simp [allocated, not_admits_of_lt more]
        · rename_i fits
          have admitted : Admits share builder amount := ⟨Bool.not_eq_true _ ▸ within, UInt64.not_lt.mp fits⟩
          split
          · rename_i vests
            rw [allocations_addVestingAllocation]
            simp [allocated, admitted, vests]
          · rename_i free
            simp [allocated, admitted, free]
  | createGenesisValidatorSet validators =>
      simp only [call, createGenesisValidatorSet, allocated, Option.toList_none, List.append_nil]
      split
      · rfl
      · split
        · rfl
        · rfl

theorem config_run (config : GenesisConfig) (calls : List BuilderCall) :
    (run (call share prim) (create config) calls).config = config := (accounted_calls config calls).config

/-! ## The percentages -/

/-- A fraction of a supply below `2^51` is exact, if its constant is not rounded down. -/
theorem toNat_shareOfSupply {totalSupply : UInt64} (small : totalSupply.toNat < 2 ^ 51) {below : Nat}
    (fraction : 0 < below) (atLeast : (1 : Rat) / below ≤ toDouble (1 / below)) :
    (shareOfSupply totalSupply (1 / below)).toNat = totalSupply.toNat / below := by
  have floor : (toDouble (toDouble totalSupply.toNat * toDouble (1 / below))).floor =
      ⌊toDouble (toDouble totalSupply.toNat * toDouble (1 / below))⌋ := rfl
  rw [shareOfSupply, floor, floor_toDouble_mul small fraction atLeast, Int.toNat_natCast]
  apply UInt64.toNat_ofNat_of_lt'
  exact Nat.lt_of_le_of_lt (Nat.div_le_self _ _) totalSupply.toNat_lt

/-- The cap and the threshold of a supply below `2^51` are its exact parts. -/
theorem shareOfSupply_exact {totalSupply : UInt64} (small : totalSupply.toNat < 2 ^ 51) :
    shareOfSupply totalSupply (5 / 100) = totalSupply / 20 ∧
      shareOfSupply totalSupply (2 / 100) = totalSupply / 50 := by
  have twentieth : (5 : Rat) / 100 = 1 / (20 : Nat) := by norm_num
  have fiftieth : (2 : Rat) / 100 = 1 / (50 : Nat) := by norm_num
  rw [← UInt64.toNat_inj, ← UInt64.toNat_inj, UInt64.toNat_div, UInt64.toNat_div, twentieth, fiftieth]
  exact ⟨toNat_shareOfSupply small (by decide) (by decide +kernel),
    toNat_shareOfSupply small (by decide) (by decide +kernel)⟩

/-! ## The cap -/

/-- The allocations to an address. -/
def allocationsTo (builder : GenesisBuilder) (address : Address) : List GenesisAllocation :=
  builder.allocations.filter fun allocation => decide (allocation.address = address)

/-- What an address receives in total. -/
def receivedBy (builder : GenesisBuilder) (address : Address) : Nat := sumOfAmounts (builder.allocationsTo address)

theorem validate_of_build {genesis : Block} (built : builder.build share prim = .ok genesis) :
    builder.validate share = true := by
  unfold build at built
  split at built
  · cases built
  · rename_i valid
    exact Bool.not_eq_false _ ▸ valid

theorem le_cap_of_validate (valid : builder.validate share = true) {allocation : GenesisAllocation}
    (member : allocation ∈ builder.allocations) : allocation.amount ≤ builder.calculateAllocationCap share := by
  simp only [validate, Bool.and_eq_true, List.all_eq_true] at valid
  have checked := (valid.2 allocation member).1
  simpa [exceedsAllocationCap, UInt64.not_lt] using checked

theorem sumOfAmounts_le {allocations : List GenesisAllocation} {cap : Nat}
    (capped : forall allocation, allocation ∈ allocations -> allocation.amount.toNat ≤ cap) :
    sumOfAmounts allocations ≤ allocations.length * cap := by
  have bound := List.sum_le_card_nsmul (allocations.map fun allocation => allocation.amount.toNat) cap
    (by simpa using capped)
  rwa [List.length_map, smul_eq_mul] at bound

/-- Every single allocation is within the cap, and an address has at most the cap for each of
its allocations. -/
theorem receivedBy_le (share : UInt64 -> Rat -> UInt64) (prim : Primitives) (config : GenesisConfig)
    (capped : share config.totalSupply (5 / 100) = config.totalSupply / 20) (calls : List BuilderCall) (genesis : Block)
    (built : (run (call share prim) (create config) calls).build share prim = .ok genesis) :
    (forall allocation, allocation ∈ (run (call share prim) (create config) calls).allocations ->
      allocation.amount.toNat ≤ config.totalSupply.toNat / 20) ∧
    forall address, (run (call share prim) (create config) calls).receivedBy address ≤
      ((run (call share prim) (create config) calls).allocationsTo address).length *
        (config.totalSupply.toNat / 20) := by
  have single : forall allocation, allocation ∈ (run (call share prim) (create config) calls).allocations ->
      allocation.amount.toNat ≤ config.totalSupply.toNat / 20 := by
    intro allocation member
    have below := le_cap_of_validate (validate_of_build built) member
    rw [calculateAllocationCap, config_run, capped, UInt64.le_iff_toNat_le, UInt64.toNat_div] at below
    exact below
  refine ⟨single, fun address => ?_⟩
  apply sumOfAmounts_le
  intro allocation member
  exact single allocation (List.mem_of_mem_filter member)

/-- An address receives the whole cap through each of the two calls. -/
def cappedTwice : List BuilderCall :=
  [.addAllocation (FixedBytes.ofNat 32 1) 50 [], .addVestingAllocation (FixedBytes.ofNat 32 1) 50 [] 31536000,
    .createGenesisValidatorSet [Validator.make (FixedBytes.ofNat 32 1) (FixedBytes.zero 48) (FixedBytes.zero 32) 5]]

theorem receivedBy_le_cappedTwice :
    let builder := run (call shareOfSupply Transparent.primitives) (create smallGenesis) cappedTwice
    builder.receivedBy (FixedBytes.ofNat 32 1) ≤
      (builder.allocationsTo (FixedBytes.ofNat 32 1)).length * (smallGenesis.totalSupply.toNat / 20) :=
  (receivedBy_le shareOfSupply Transparent.primitives smallGenesis (shareOfSupply_exact (by decide)).1 cappedTwice
    (builtBlock (run (call shareOfSupply Transparent.primitives) (create smallGenesis) cappedTwice))
    (by decide +kernel)).2 (FixedBytes.ofNat 32 1)

/-- The build succeeds, and the address has more than one twentieth of the supply. -/
theorem receivedBy_exceeds_cap :
    let builder := run (call shareOfSupply Transparent.primitives) (create smallGenesis) cappedTwice
    builder.build shareOfSupply Transparent.primitives = .ok (builtBlock builder) ∧
      smallGenesis.totalSupply.toNat / 20 < builder.receivedBy (FixedBytes.ofNat 32 1) := by
  decide +kernel

/-! ## The vesting -/

/-- The full amount vests from genesis, for twelve months or longer. -/
def VestsInFull (config : GenesisConfig) (allocation : GenesisAllocation) : Prop :=
  ∃ schedule, allocation.vestingSchedule = some schedule ∧ schedule.totalAmount = allocation.amount ∧
    schedule.startTimestamp = config.genesisTimestamp ∧ 31536000 ≤ schedule.durationSeconds

/-- Every allocation above one fiftieth of the supply vests. -/
def LargeVest (builder : GenesisBuilder) : Prop :=
  forall allocation, allocation ∈ builder.allocations ->
    builder.config.totalSupply.toNat / 50 < allocation.amount.toNat -> VestsInFull builder.config allocation

/-- The condition on a call: a large amount that is admitted is recognized by the threshold,
and has twelve months if the caller gives the duration. -/
def GivesTwelveMonths (share : UInt64 -> Rat -> UInt64) (builder : GenesisBuilder) : BuilderCall -> Prop
  | .addAllocation _ amount _ => Admits share builder amount ->
      builder.config.totalSupply.toNat / 50 < amount.toNat -> builder.requiresVesting share amount = true
  | .addVestingAllocation _ amount _ duration => Admits share builder amount ->
      builder.config.totalSupply.toNat / 50 < amount.toNat -> 31536000 ≤ duration
  | .createGenesisValidatorSet _ => True

theorem vestsInFull_make_iff (config : GenesisConfig) (address : Address) (amount : UInt64) (category : List UInt8)
    (duration : UInt64) :
    VestsInFull config ⟨address, amount, category,
        some (VestingSchedule.make amount config.genesisTimestamp duration)⟩ <->
      31536000 ≤ duration := by
  simp [VestsInFull, VestingSchedule.make]

theorem not_vestsInFull_none (config : GenesisConfig) (address : Address) (amount : UInt64) (category : List UInt8) :
    ¬VestsInFull config ⟨address, amount, category, none⟩ := by
  simp [VestsInFull]

/-- The condition says when the appended allocation vests as it should. -/
theorem givesTwelveMonths_iff (share : UInt64 -> Rat -> UInt64) (builder : GenesisBuilder) (step : BuilderCall) :
    GivesTwelveMonths share builder step <->
      forall allocation, builder.allocated share step = some allocation ->
        builder.config.totalSupply.toNat / 50 < allocation.amount.toNat -> VestsInFull builder.config allocation := by
  cases step with
  | addAllocation address amount category =>
      by_cases admitted : Admits share builder amount
      · by_cases vests : builder.requiresVesting share amount = true
        · simp [GivesTwelveMonths, allocated, admitted, vests, vestsInFull_make_iff]
        · simp [GivesTwelveMonths, allocated, admitted, vests, not_vestsInFull_none]
      · simp [GivesTwelveMonths, allocated, admitted]
  | addVestingAllocation address amount category duration =>
      by_cases admitted : Admits share builder amount
      · simp [GivesTwelveMonths, allocated, admitted, vestsInFull_make_iff]
      · simp [GivesTwelveMonths, allocated, admitted]
  | createGenesisValidatorSet validators => simp [GivesTwelveMonths, allocated]

/-- With an exact threshold, `addAllocation` always meets the condition. -/
theorem givesTwelveMonths_addAllocation
    (exactly : share builder.config.totalSupply (2 / 100) = builder.config.totalSupply / 50) (address : Address)
    (amount : UInt64) (category : List UInt8) :
    GivesTwelveMonths share builder (.addAllocation address amount category) := by
  intro _ large
  apply decide_eq_true
  rw [calculateVestingThreshold, exactly, UInt64.lt_iff_toNat_lt, UInt64.toNat_div]
  exact large

/-- One call keeps the vesting exactly if it meets the condition. -/
theorem largeVest_call (share : UInt64 -> Rat -> UInt64) (prim : Primitives) (builder : GenesisBuilder)
    (step : BuilderCall) :
    LargeVest (builder.call share prim step) <-> LargeVest builder ∧ GivesTwelveMonths share builder step := by
  rw [LargeVest, allocations_call, (extends_call share prim builder step).config, givesTwelveMonths_iff, LargeVest]
  simp only [List.mem_append, Option.mem_toList, or_imp, forall_and]

theorem largeVest_run (share : UInt64 -> Rat -> UInt64) (prim : Primitives) (builder : GenesisBuilder)
    (calls : List BuilderCall) :
    LargeVest (run (call share prim) builder calls) <->
      LargeVest builder ∧ Along (call share prim) (GivesTwelveMonths share) builder calls := by
  induction calls generalizing builder with
  | nil => exact (and_iff_left trivial).symm
  | cons step rest inductionHypothesis => rw [run_cons, inductionHypothesis, largeVest_call, and_assoc, Along]

/-- All large allocations vest for twelve months if and only if no call gives one of them a
shorter duration, or escapes the threshold. -/
theorem largeVest_iff (share : UInt64 -> Rat -> UInt64) (prim : Primitives) (config : GenesisConfig)
    (calls : List BuilderCall) :
    LargeVest (run (call share prim) (create config) calls) <->
      Along (call share prim) (GivesTwelveMonths share) (create config) calls := by
  apply (largeVest_run share prim (create config) calls).trans
  apply and_iff_right
  intro allocation member
  cases member

/-- The largest allocation, vesting for one second. -/
def vestsForOneSecond : List BuilderCall :=
  [.addVestingAllocation (FixedBytes.ofNat 32 1) 50 [] 1,
    .createGenesisValidatorSet [Validator.make (FixedBytes.ofNat 32 1) (FixedBytes.zero 48) (FixedBytes.zero 32) 5]]

/-- The build succeeds, and the allocation does not vest for twelve months. -/
theorem largeVest_fails_oneSecond :
    let builder := run (call shareOfSupply Transparent.primitives) (create smallGenesis) vestsForOneSecond
    builder.build shareOfSupply Transparent.primitives = .ok (builtBlock builder) ∧ ¬LargeVest builder := by
  refine ⟨by decide +kernel, fun vests => ?_⟩
  rcases vests ⟨FixedBytes.ofNat 32 1, 50, [], some (VestingSchedule.make 50 7 1)⟩ (by decide +kernel)
    (by decide +kernel) with ⟨schedule, oneSecond, _, _, long⟩
  cases Option.some.inj oneSecond
  exact absurd long (by decide)

end GenesisBuilder
end Consensus
end Sarafu

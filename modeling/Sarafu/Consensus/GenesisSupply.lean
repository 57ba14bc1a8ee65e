import Sarafu.Consensus.GenesisAgreement
import Sarafu.Library.Histories

namespace Sarafu
namespace Consensus

open Crypto State Library.Runs

/-!
# The genesis allocations and the supply

An allocation is admitted if it is at most one twentieth of the supply and the new total, a
sum of words, is at most the supply.  Before an addition the total is at most the supply, so
the sum can only wrap if the supply and one twentieth of it do not fit into a word.  With
such a supply the builder can be filled, and one more allocation starts again from zero.
-/

/-- The amount that a call allocates. -/
def BuilderCall.amount : BuilderCall -> Option UInt64
  | .addAllocation _ amount _ => some amount
  | .addVestingAllocation _ amount _ _ => some amount
  | .createGenesisValidatorSet _ => none

namespace GenesisBuilder

variable (share : UInt64 -> Rat -> UInt64) (prim : Primitives)

/-- The two checks of an allocation. -/
def Admits (builder : GenesisBuilder) (amount : UInt64) : Prop :=
  builder.exceedsAllocationCap share amount = false ∧
    builder.totalAllocated + amount ≤ builder.config.totalSupply

/-- An admitted amount does not wrap the total. -/
def AddsWithoutWrap (builder : GenesisBuilder) (step : BuilderCall) : Prop :=
  forall amount, step.amount = some amount -> Admits share builder amount ->
    builder.totalAllocated.toNat + amount.toNat < 2 ^ 64

/-- The total is the sum of the amounts, and at most the supply. -/
def WithinSupply (builder : GenesisBuilder) : Prop :=
  sumOfAmounts builder.allocations = builder.totalAllocated.toNat ∧
    sumOfAmounts builder.allocations ≤ builder.config.totalSupply.toNat

/-- In every state of the run, the allocations are within the supply. -/
def NeverOverAllocates (config : GenesisConfig) (calls : List BuilderCall) : Prop :=
  forall before after, calls = before ++ after -> WithinSupply (run (call share prim) (create config) before)

variable {share} {prim} {builder : GenesisBuilder}

theorem sumOfAmounts_concat (allocations : List GenesisAllocation) (allocation : GenesisAllocation) :
    sumOfAmounts (allocations ++ [allocation]) = sumOfAmounts allocations + allocation.amount.toNat := by
  rw [sumOfAmounts, List.map_append, List.sum_append, List.map_singleton, List.sum_singleton, sumOfAmounts]

/-- What a call does to the amounts: it adds an admitted one, or nothing. -/
inductive Allocates (share : UInt64 -> Rat -> UInt64) (builder : GenesisBuilder) (step : BuilderCall)
    (after : GenesisBuilder) : Prop
  | added (amount : UInt64) (given : step.amount = some amount) (admitted : Admits share builder amount)
      (sum : sumOfAmounts after.allocations = sumOfAmounts builder.allocations + amount.toNat)
      (total : after.totalAllocated = builder.totalAllocated + amount)
  | nothing (refused : forall amount, step.amount = some amount -> ¬Admits share builder amount)
      (sum : sumOfAmounts after.allocations = sumOfAmounts builder.allocations)
      (total : after.totalAllocated = builder.totalAllocated)

theorem not_admits_of_exceeds {amount : UInt64} (exceeds : builder.exceedsAllocationCap share amount = true) :
    ¬Admits share builder amount := by
  rintro ⟨within, _⟩
  rw [exceeds] at within
  cases within

theorem not_admits_of_lt {amount : UInt64} (more : builder.config.totalSupply < builder.totalAllocated + amount) :
    ¬Admits share builder amount := fun admitted => UInt64.not_lt.mpr admitted.2 more

theorem allocates_addVestingAllocation (address : Address) (amount : UInt64) (category : List UInt8)
    (duration : UInt64) {step : BuilderCall} (given : step.amount = some amount) :
    Allocates share builder step (builder.addVestingAllocation share address amount category duration).2 := by
  have own : forall other, step.amount = some other -> amount = other := fun other same =>
    Option.some.inj (given.symm.trans same)
  unfold addVestingAllocation
  split
  · rename_i exceeds
    exact .nothing (fun other same => own other same ▸ not_admits_of_exceeds exceeds) rfl rfl
  · rename_i within
    split
    · rename_i more
      exact .nothing (fun other same => own other same ▸ not_admits_of_lt more) rfl rfl
    · rename_i fits
      exact .added amount given ⟨Bool.not_eq_true _ ▸ within, UInt64.not_lt.mp fits⟩ (sumOfAmounts_concat _ _) rfl

theorem allocates_call (share : UInt64 -> Rat -> UInt64) (prim : Primitives) (builder : GenesisBuilder)
    (step : BuilderCall) : Allocates share builder step (builder.call share prim step) := by
  cases step with
  | addVestingAllocation address amount category duration =>
      exact allocates_addVestingAllocation address amount category duration rfl
  | addAllocation address amount category =>
      simp only [call, addAllocation]
      split
      · rename_i exceeds
        exact .nothing (fun other same => Option.some.inj same ▸ not_admits_of_exceeds exceeds) rfl rfl
      · rename_i within
        split
        · rename_i more
          exact .nothing (fun other same => Option.some.inj same ▸ not_admits_of_lt more) rfl rfl
        · rename_i fits
          split
          · exact allocates_addVestingAllocation address amount category _ rfl
          · exact .added amount rfl ⟨Bool.not_eq_true _ ▸ within, UInt64.not_lt.mp fits⟩ (sumOfAmounts_concat _ _) rfl
  | createGenesisValidatorSet validators =>
      have silent : forall amount, (BuilderCall.createGenesisValidatorSet validators).amount = some amount ->
          ¬Admits share builder amount := by
        intro amount given
        cases given
      simp only [call, createGenesisValidatorSet]
      split
      · exact .nothing silent rfl rfl
      · split
        · exact .nothing silent rfl rfl
        · exact .nothing silent rfl rfl

/-- A call that does not wrap keeps the allocations within the supply. -/
theorem WithinSupply.call (within : WithinSupply builder) {step : BuilderCall}
    (plain : AddsWithoutWrap share builder step) : WithinSupply (builder.call share prim step) := by
  unfold WithinSupply
  rw [(extends_call share prim builder step).config]
  cases allocates_call share prim builder step with
  | added amount given admitted sum total =>
      have exact : (builder.totalAllocated + amount).toNat = builder.totalAllocated.toNat + amount.toNat := by
        rw [UInt64.toNat_add, Nat.mod_eq_of_lt (plain amount given admitted)]
      have fits := UInt64.le_iff_toNat_le.mp admitted.2
      rw [sum, total, exact, within.1]
      exact ⟨rfl, exact ▸ fits⟩
  | nothing refused sum total =>
      rw [sum, total]
      exact within

/-- A call that wraps loses the sum of the amounts. -/
theorem addsWithoutWrap_of_withinSupply {step : BuilderCall} (before : WithinSupply builder)
    (after : WithinSupply (builder.call share prim step)) : AddsWithoutWrap share builder step := by
  intro amount given admitted
  cases allocates_call share prim builder step with
  | added other same _ sum total =>
      cases Option.some.inj (given.symm.trans same)
      rw [← before.1, ← sum, after.1]
      exact UInt64.toNat_lt _
  | nothing refused _ _ => exact absurd admitted (refused amount given)

theorem neverOverAllocates_iff_along (config : GenesisConfig) (calls : List BuilderCall) :
    NeverOverAllocates share prim config calls <->
      Along (call share prim) (AddsWithoutWrap share) (create config) calls := by
  constructor
  · intro within
    rw [along_iff_forall_split]
    intro before step after split
    have next := within (before ++ [step]) after (by rw [split, List.append_assoc]; rfl)
    rw [run_append] at next
    exact addsWithoutWrap_of_withinSupply (within before (step :: after) split) next
  · rintro along before after rfl
    refine invariant_run WithinSupply (fun _ _ within plain => within.call plain) ?_ (along_append.mp along).1
    exact ⟨rfl, Nat.zero_le _⟩

/-! ## Which supplies are safe -/

theorem admits_iff (capped : share builder.config.totalSupply (5 / 100) = builder.config.totalSupply / 20)
    (amount : UInt64) : Admits share builder amount <->
      amount.toNat ≤ builder.config.totalSupply.toNat / 20 ∧
        (builder.totalAllocated.toNat + amount.toNat) % 2 ^ 64 ≤ builder.config.totalSupply.toNat := by
  rw [Admits, exceedsAllocationCap, calculateAllocationCap, capped, decide_eq_false_iff_not, UInt64.not_lt,
    UInt64.le_iff_toNat_le, UInt64.le_iff_toNat_le, UInt64.toNat_div, UInt64.toNat_add]
  rfl

/-- Within the supply, nothing that is admitted wraps. -/
theorem WithinSupply.addsWithoutWrap (within : WithinSupply builder)
    (capped : share builder.config.totalSupply (5 / 100) = builder.config.totalSupply / 20)
    (small : builder.config.totalSupply.toNat + builder.config.totalSupply.toNat / 20 < 2 ^ 64) (step : BuilderCall) :
    AddsWithoutWrap share builder step := by
  intro amount _ admitted
  have atMost := ((admits_iff capped amount).mp admitted).1
  have total := within.1 ▸ within.2
  omega

/-- Allocations of the given amounts to one address. -/
def allocate (amounts : List UInt64) : List BuilderCall :=
  amounts.map fun amount => .addAllocation (FixedBytes.ofNat 32 1) amount []

/-- Amounts below the cap that fit into the supply are all allocated. -/
theorem run_allocate (prim : Primitives) (builder : GenesisBuilder) (config : GenesisConfig)
    (capped : share config.totalSupply (5 / 100) = config.totalSupply / 20)
    (amounts : List UInt64) (below : forall amount, amount ∈ amounts -> amount.toNat ≤ config.totalSupply.toNat / 20)
    (configured : builder.config = config) (within : WithinSupply builder)
    (fits : builder.totalAllocated.toNat + (amounts.map UInt64.toNat).sum ≤ config.totalSupply.toNat) :
    (run (call share prim) builder (allocate amounts)).config = config ∧
      WithinSupply (run (call share prim) builder (allocate amounts)) ∧
      (run (call share prim) builder (allocate amounts)).totalAllocated.toNat =
        builder.totalAllocated.toNat + (amounts.map UInt64.toNat).sum := by
  induction amounts generalizing builder with
  | nil => exact ⟨configured, within, rfl⟩
  | cons amount rest inductionHypothesis =>
      subst configured
      rw [List.map_cons, List.sum_cons] at fits ⊢
      rw [List.forall_mem_cons] at below
      have size := builder.config.totalSupply.toNat_lt
      have room : builder.totalAllocated.toNat + amount.toNat < 2 ^ 64 := by omega
      have admitted : Admits share builder amount := by
        rw [admits_iff capped amount, Nat.mod_eq_of_lt room]
        exact ⟨below.1, by omega⟩
      let step : BuilderCall := .addAllocation (FixedBytes.ofNat 32 1) amount []
      have plain : AddsWithoutWrap share builder step := by
        rintro other ⟨⟩ _
        exact room
      have total : (builder.call share prim step).totalAllocated.toNat =
          builder.totalAllocated.toNat + amount.toNat := by
        cases allocates_call share prim builder step with
        | added other given _ _ total =>
            cases given
            rw [total, UInt64.toNat_add, Nat.mod_eq_of_lt room]
        | nothing refused _ _ => exact absurd admitted (refused amount rfl)
      rcases inductionHypothesis _ below.2 (extends_call share prim builder step).config (within.call plain)
        (by rw [total]; omega) with ⟨kept, still, sum⟩
      refine ⟨kept, still, sum.trans ?_⟩
      rw [total, Nat.add_assoc]

/-- Twenty allocations of the cap and one of the rest use up the supply. -/
def wholeSupply (supply : UInt64) : List UInt64 := List.replicate 20 (supply / 20) ++ [supply % 20]

theorem sum_wholeSupply (supply : UInt64) : ((wholeSupply supply).map UInt64.toNat).sum = supply.toNat := by
  rw [wholeSupply, List.map_append, List.sum_append, List.map_replicate, List.sum_replicate, smul_eq_mul,
    List.map_singleton, List.sum_singleton, UInt64.toNat_div, UInt64.toNat_mod]
  exact Nat.div_add_mod supply.toNat 20

/-- With a larger supply, one more allocation of the cap wraps. -/
theorem exists_overAllocation (prim : Primitives) (config : GenesisConfig)
    (capped : share config.totalSupply (5 / 100) = config.totalSupply / 20)
    (large : 2 ^ 64 ≤ config.totalSupply.toNat + config.totalSupply.toNat / 20) :
    ¬NeverOverAllocates share prim config (allocate (wholeSupply config.totalSupply ++ [config.totalSupply / 20])) := by
  intro never
  have cap : (config.totalSupply / 20).toNat = config.totalSupply.toNat / 20 := UInt64.toNat_div _ _
  have below : forall amount, amount ∈ wholeSupply config.totalSupply ->
      amount.toNat ≤ config.totalSupply.toNat / 20 := by
    intro amount member
    rcases List.mem_append.mp member with repeated | last
    · rw [List.eq_of_mem_replicate repeated, cap]
    · rw [List.mem_singleton.mp last, UInt64.toNat_mod]
      have rest : config.totalSupply.toNat % (20 : UInt64).toNat < 20 := Nat.mod_lt _ (by decide)
      omega
  have filled : ((wholeSupply config.totalSupply).map UInt64.toNat).sum = config.totalSupply.toNat :=
    sum_wholeSupply config.totalSupply
  rcases run_allocate prim (create config) config capped (wholeSupply config.totalSupply) below rfl
    ⟨rfl, Nat.zero_le _⟩ (by rw [filled]; exact (Nat.zero_add _).le) with ⟨kept, within, total⟩
  rw [filled] at total
  have along := (neverOverAllocates_iff_along config _).mp never
  unfold allocate at along
  rw [List.map_append] at along
  have plain := (along_append.mp along).2.1 (config.totalSupply / 20) rfl
  have admitted : Admits share (run (call share prim) (create config) (allocate (wholeSupply config.totalSupply)))
      (config.totalSupply / 20) := by
    rw [admits_iff (by rw [kept]; exact capped), kept, total, cap]
    have size := config.totalSupply.toNat_lt
    have zero : (create config).totalAllocated.toNat = 0 := rfl
    refine ⟨Nat.le_refl _, ?_⟩
    omega
  have room : (run (call share prim) (create config) (allocate (wholeSupply config.totalSupply))).totalAllocated.toNat +
      (config.totalSupply / 20).toNat < 2 ^ 64 := plain admitted
  have zero : (create config).totalAllocated.toNat = 0 := rfl
  omega

/-- A sequence of calls stays within the supply exactly if no admitted allocation wraps the
total; all sequences of allocations do exactly if the supply and its cap fit into a word. -/
theorem neverOverAllocates_iff (share : UInt64 -> Rat -> UInt64) (prim : Primitives) (config : GenesisConfig)
    (capped : share config.totalSupply (5 / 100) = config.totalSupply / 20) :
    (forall calls, NeverOverAllocates share prim config calls <->
      Along (call share prim) (AddsWithoutWrap share) (create config) calls) ∧
    ((forall calls : List BuilderCall, (forall step, step ∈ calls -> step.amount.isSome = true) ->
      NeverOverAllocates share prim config calls) <->
        config.totalSupply.toNat + config.totalSupply.toNat / 20 < 2 ^ 64) := by
  refine ⟨neverOverAllocates_iff_along config, ?_⟩
  constructor
  · intro never
    by_contra large
    refine exists_overAllocation prim config capped (Nat.not_lt.mp large) (never _ ?_)
    intro step member
    rcases List.mem_map.mp member with ⟨amount, _, rfl⟩
    rfl
  · rintro small calls _ before after rfl
    refine (invariant_run (fun builder => builder.config = config ∧ WithinSupply builder) ?_
      ⟨rfl, rfl, Nat.zero_le _⟩ (along_true (create config) before)).2
    rintro builder step ⟨rfl, within⟩ _
    exact ⟨(extends_call share prim builder step).config, within.call (within.addsWithoutWrap capped small step)⟩

theorem neverOverAllocates_iff_small :
    (forall calls, NeverOverAllocates shareOfSupply Transparent.primitives smallGenesis calls <->
      Along (call shareOfSupply Transparent.primitives) (AddsWithoutWrap shareOfSupply) (create smallGenesis) calls) ∧
    ((forall calls : List BuilderCall, (forall step, step ∈ calls -> step.amount.isSome = true) ->
      NeverOverAllocates shareOfSupply Transparent.primitives smallGenesis calls) <->
        smallGenesis.totalSupply.toNat + smallGenesis.totalSupply.toNat / 20 < 2 ^ 64) :=
  neverOverAllocates_iff shareOfSupply Transparent.primitives smallGenesis (by decide +kernel)

/-- The largest supply, with the cap computed exactly: after 22 accepted allocations the
total is less than their last one. -/
theorem neverOverAllocates_fails_largest :
    let share : UInt64 -> Rat -> UInt64 := fun supply percentage => UInt64.ofNat (supply.toNat * percentage).floor.toNat
    let config := GenesisConfig.make 18446744073709551615 7 3 1 1
    let builder := run (call share Transparent.primitives) (create config)
      (allocate (wholeSupply config.totalSupply ++ [config.totalSupply / 20]))
    share config.totalSupply (5 / 100) = config.totalSupply / 20 ∧ builder.allocations.length = 22 ∧
      builder.totalAllocated = 922337203685477579 ∧ sumOfAmounts builder.allocations = 19369081277395029195 := by
  refine ⟨by decide +kernel, by decide +kernel, by decide +kernel, by decide +kernel⟩

end GenesisBuilder
end Consensus
end Sarafu

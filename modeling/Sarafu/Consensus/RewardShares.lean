import Sarafu.Consensus.SlashingSupply

namespace Sarafu
namespace Consensus

open Crypto State Library.Runs Library.ProportionalShares

/-!
# Rewards in proportion to the stake

The registry computes a map of rewards, over all active validators by their index.  The
slashing detector has a loop of its own, which leaves out the slashed validator, counts the
others, and bonds each reward at once.  Both pay what the library's rewards are, to distinct
receivers, so the same facts hold of both.
-/

namespace ValidatorRegistry

/-! ## The rewards of the registry -/

/-- The variables of the loop. -/
structure RewardLoop where
  rewards : OrderedMap ValidatorID UInt64
  distributed : UInt64

/-- One iteration, for the validator at an index. -/
def rewardOne (totalAmount totalStake : UInt64) (activeCount : Nat) (loop : RewardLoop) (indexed : Validator × Nat) :
    RewardLoop :=
  let validator := indexed.1
  let reward :=
    if indexed.2 + 1 = activeCount then totalAmount - loop.distributed
    else UInt64.ofNat (validator.bondedStake.toNat * totalAmount.toNat / totalStake.toNat)
  if 0 < reward then ⟨loop.rewards.insert validator.id reward, loop.distributed + reward⟩ else loop

/-- The loop over some validators with their indexes. -/
def rewardLoop (totalAmount totalStake : UInt64) (activeCount : Nat) (indexed : List (Validator × Nat)) : RewardLoop :=
  indexed.foldl (rewardOne totalAmount totalStake activeCount) ⟨∅, 0⟩

def distributeRewardsProportional (registry : ValidatorRegistry) (totalAmount : UInt64) :
    OrderedMap ValidatorID UInt64 :=
  if totalAmount = 0 ∨ registry.currentSet.totalStake = 0 then ∅
  else
    let active := registry.currentSet.getActiveValidators
    if active.isEmpty then ∅
    else (rewardLoop totalAmount registry.currentSet.totalStake active.length active.zipIdx).rewards

/-- The reward of an id, zero if it has none. -/
def rewardIn (rewards : OrderedMap ValidatorID UInt64) (id : ValidatorID) : UInt64 := (rewards[id]?).getD 0

end ValidatorRegistry

open ValidatorRegistry

/-- The stakes of a list of validators. -/
def stakesOf (validators : List Validator) : List Nat := validators.map fun v => v.bondedStake.toNat

/-- The active validators are paid the amount exactly, and nobody else is paid. -/
structure PaysActive (registry : ValidatorRegistry) (amount : UInt64) : Prop where
  pays : Pays amount.toNat registry.currentSet.activeStake amount.toNat
    (stakesOf registry.currentSet.getActiveValidators) (registry.currentSet.getActiveValidators.map fun v =>
      (rewardIn (registry.distributeRewardsProportional amount) v.id).toNat)
  others : forall id, (forall v, v ∈ registry.currentSet.getActiveValidators -> v.id ≠ id) ->
    rewardIn (registry.distributeRewardsProportional amount) id = 0
  untruncated : forall v, v ∈ registry.currentSet.getActiveValidators ->
    v.bondedStake.toNat * amount.toNat / registry.currentSet.totalStake.toNat < 2 ^ 64
  noUnderflow : forall earlier v later, registry.currentSet.getActiveValidators = earlier ++ v :: later ->
    (rewardLoop amount registry.currentSet.totalStake registry.currentSet.getActiveValidators.length
      earlier.zipIdx).distributed ≤ amount

namespace SlashingDetector

/-- The loop of `apply_slashing` over some of the active validators. -/
def distributionLoop (registry : ValidatorRegistry) (slashed : ValidatorID) (amount : UInt64)
    (active : List Validator) : Distribution :=
  active.foldl (distributeTo slashed amount (stakeExcluding slashed registry.currentSet.getActiveValidators)
    (receivers registry slashed).length) ⟨registry, 0, 0⟩

/-- A record with a reward bonded to it. -/
def withReward (reward : UInt64) (validator : Validator) : Validator :=
  { validator with bondedStake := validator.bondedStake + reward }

end SlashingDetector

open SlashingDetector

/-- The other active validators are paid the amount exactly, and nobody else is paid, so the
slashed one gets nothing. -/
structure PaysOthers (registry : ValidatorRegistry) (slashed : ValidatorID) (amount : UInt64)
    (reward : ValidatorID -> UInt64) : Prop where
  pays : Pays amount.toNat (stakesOf (receivers registry slashed)).sum amount.toNat
    (stakesOf (receivers registry slashed)) ((receivers registry slashed).map fun v => (reward v.id).toNat)
  bonded : forall id : ValidatorID, (distribute registry slashed amount).validators[id]? =
    (registry.validators[id]?).map (withReward (reward id))
  others : forall id, (forall v, v ∈ receivers registry slashed -> v.id ≠ id) -> reward id = 0
  nothing : reward slashed = 0
  untruncated : forall v, v ∈ receivers registry slashed ->
    v.bondedStake.toNat * amount.toNat / (stakeExcluding slashed registry.currentSet.getActiveValidators).toNat < 2 ^ 64
  noUnderflow : forall earlier v later, registry.currentSet.getActiveValidators = earlier ++ v :: later ->
    v.id ≠ slashed -> (distributionLoop registry slashed amount earlier).distributed ≤ amount

variable {registry : ValidatorRegistry} {amount totalStake : UInt64} {totalCount : Nat}

/-- The stakes as words. -/
def wordsOf (validators : List Validator) : List UInt64 := validators.map Validator.bondedStake

theorem toNat_wordsOf (validators : List Validator) : (wordsOf validators).map UInt64.toNat = stakesOf validators := by
  simp [wordsOf, stakesOf]

/-- The payments of a loop to the validators of a list. -/
def payments (amount totalStake : UInt64) (totalCount : Nat) (distributed : UInt64) (count : Nat)
    (validators : List Validator) : List (ValidatorID × UInt64) :=
  (validators.map Validator.id).zip (rewards amount totalStake totalCount distributed count (wordsOf validators))

theorem payments_cons (distributed : UInt64) (count : Nat) (v : Validator) (rest : List Validator) :
    payments amount totalStake totalCount distributed count (v :: rest) =
      (v.id, reward amount totalStake totalCount distributed count v.bondedStake) ::
        payments amount totalStake totalCount
          (distributed + reward amount totalStake totalCount distributed count v.bondedStake) (count + 1) rest := rfl

theorem fst_payments (distributed : UInt64) (count : Nat) (validators : List Validator) :
    (payments amount totalStake totalCount distributed count validators).map Prod.fst =
      validators.map Validator.id := by
  apply List.map_fst_zip
  simp [wordsOf]

/-- A share of a stake that belongs to the total fits into a word. -/
theorem share_lt (amount : UInt64) {validators : List Validator} (sum : totalStake.toNat = (stakesOf validators).sum)
    {v : Validator} (member : v ∈ validators) : v.bondedStake.toNat * amount.toNat / totalStake.toNat < 2 ^ 64 := by
  have within : v.bondedStake.toNat ≤ totalStake.toNat := by
    rw [sum]
    exact List.le_sum_of_mem (List.mem_map_of_mem member)
  have share : v.bondedStake.toNat * amount.toNat / totalStake.toNat ≤ amount.toNat := by
    apply Nat.div_le_of_le_mul
    exact Nat.mul_le_mul_right amount.toNat within
  exact Nat.lt_of_le_of_lt share amount.toNat_lt

theorem leavesRoom_stakes (amount : UInt64) {validators : List Validator}
    (sum : totalStake.toNat = (stakesOf validators).sum) :
    LeavesRoom amount totalStake validators.length 0 0 (wordsOf validators) := by
  have start := leavesRoom_start amount (wordsOf validators) (sum.trans (by rw [toNat_wordsOf]))
  rw [wordsOf, List.length_map] at start
  exact start

/-- Before every receiver, no more than the amount has been distributed. -/
theorem distributedAfter_le (amount : UInt64) {validators earlier later : List Validator} {v : Validator}
    (split : validators = earlier ++ v :: later) (sum : totalStake.toNat = (stakesOf validators).sum)
    (positive : 0 < totalStake.toNat) :
    distributedAfter amount totalStake validators.length 0 0 (wordsOf earlier) ≤ amount := by
  have room := leavesRoom_stakes amount sum
  have words : wordsOf validators = wordsOf earlier ++ wordsOf (v :: later) := by
    rw [split, wordsOf, List.map_append, wordsOf, wordsOf]
  rw [words] at room
  rw [UInt64.le_iff_toNat_le]
  exact (room.after positive (List.cons_ne_nil _ _)).distributed_le positive

/-- Distinct receivers are paid by the library's rewards. -/
theorem pays_paidTo {validators : List Validator} (distinct : (validators.map Validator.id).Nodup)
    (amount : UInt64) (sum : totalStake.toNat = (stakesOf validators).sum) (positive : 0 < totalStake.toNat) :
    Pays amount.toNat totalStake.toNat amount.toNat (stakesOf validators) (validators.map fun v =>
      (paidTo (payments amount totalStake validators.length 0 0 validators) v.id).toNat) := by
  have nonempty : wordsOf validators ≠ [] := by
    intro empty
    rw [← toNat_wordsOf, empty] at sum
    exact positive.ne' sum
  have each : (validators.map Validator.id).map (paidTo (payments amount totalStake validators.length 0 0 validators)) =
      rewards amount totalStake validators.length 0 0 (wordsOf validators) :=
    map_paidTo_zip distinct (by simp [wordsOf])
  have paid := (leavesRoom_stakes amount sum).pays positive nonempty
  rw [toNat_wordsOf, ← each, List.map_map, List.map_map] at paid
  exact paid

/-- With nothing to pay, everybody is paid nothing. -/
theorem pays_zero (total : Nat) (validators : List Validator) :
    Pays 0 total 0 (stakesOf validators) (validators.map fun _ => 0) where
  sum := by simp
  floors := by
    simp only [stakesOf, ← List.map_dropLast, List.map_map, Nat.mul_zero, Nat.zero_div]
    rfl
  last := by
    intro stake isLast
    rw [stakesOf, List.getLast?_map] at isLast
    rcases Option.map_eq_some_iff.mp isLast with ⟨v, last, _⟩
    refine ⟨0, ?_, by simp⟩
    rw [List.getLast?_map, last]
    rfl

/-! ## The map of rewards -/

theorem rewardIn_insert (rewards : OrderedMap ValidatorID UInt64) (id other : ValidatorID) (reward : UInt64) :
    rewardIn (rewards.insert id reward) other = if other = id then reward else rewardIn rewards other := by
  rw [rewardIn, OrderedMap.find_insert]
  split
  · rfl
  · rfl

/-- An iteration adds the reward to what its validator has, and to the sum. -/
theorem rewardOne_adds (totalAmount totalStake : UInt64) (activeCount : Nat) (loop : RewardLoop) (v : Validator)
    (count : Nat) (fresh : rewardIn loop.rewards v.id = 0) :
    (forall id, rewardIn (rewardOne totalAmount totalStake activeCount loop (v, count)).rewards id =
      rewardIn loop.rewards id +
        if v.id = id then reward totalAmount totalStake activeCount loop.distributed count v.bondedStake else 0) ∧
    (rewardOne totalAmount totalStake activeCount loop (v, count)).distributed =
      loop.distributed + reward totalAmount totalStake activeCount loop.distributed count v.bondedStake := by
  have step : rewardOne totalAmount totalStake activeCount loop (v, count) =
      if 0 < reward totalAmount totalStake activeCount loop.distributed count v.bondedStake then
        ⟨loop.rewards.insert v.id (reward totalAmount totalStake activeCount loop.distributed count v.bondedStake),
          loop.distributed + reward totalAmount totalStake activeCount loop.distributed count v.bondedStake⟩
      else loop := rfl
  rw [step]
  generalize reward totalAmount totalStake activeCount loop.distributed count v.bondedStake = paid
  by_cases positive : 0 < paid
  · rw [if_pos positive]
    refine ⟨fun id => ?_, rfl⟩
    rw [rewardIn_insert]
    by_cases own : v.id = id
    · subst own
      simp [fresh]
    · simp [own, Ne.symm own]
  · have zero : paid = 0 := by simpa using positive
    subst zero
    simp

/-- Over validators that have no reward yet, the loop adds the payments. -/
theorem foldl_rewardOne (totalAmount totalStake : UInt64) (activeCount : Nat) (validators : List Validator)
    (count : Nat) (loop : RewardLoop) (distinct : (validators.map Validator.id).Nodup)
    (fresh : forall v, v ∈ validators -> rewardIn loop.rewards v.id = 0) :
    (forall id,
      rewardIn ((validators.zipIdx count).foldl (rewardOne totalAmount totalStake activeCount) loop).rewards id =
        rewardIn loop.rewards id +
          paidTo (payments totalAmount totalStake activeCount loop.distributed count validators) id) ∧
    ((validators.zipIdx count).foldl (rewardOne totalAmount totalStake activeCount) loop).distributed =
      distributedAfter totalAmount totalStake activeCount loop.distributed count (wordsOf validators) := by
  induction validators generalizing count loop with
  | nil => exact ⟨fun _ => (UInt64.add_zero _).symm, rfl⟩
  | cons v rest inductionHypothesis =>
      rw [List.map_cons, List.nodup_cons] at distinct
      rw [List.forall_mem_cons] at fresh
      rcases rewardOne_adds totalAmount totalStake activeCount loop v count fresh.1 with ⟨added, distributed⟩
      have still : forall other, other ∈ rest ->
          rewardIn (rewardOne totalAmount totalStake activeCount loop (v, count)).rewards other.id = 0 := by
        intro other member
        have differs : v.id ≠ other.id := fun same => distinct.1 (same ▸ List.mem_map_of_mem member)
        rw [added, fresh.2 other member, if_neg differs]
        rfl
      have later := inductionHypothesis (count + 1) _ distinct.2 still
      rw [distributed] at later
      rw [List.zipIdx_cons, List.foldl_cons]
      refine ⟨fun id => ?_, later.2⟩
      rw [later.1, added, payments_cons, paidTo, UInt64.add_assoc]

/-- What an id has after the loop over all active validators. -/
theorem rewardIn_rewardLoop (distinct : (registry.currentSet.getActiveValidators.map Validator.id).Nodup)
    (amount totalStake : UInt64) (id : ValidatorID) :
    rewardIn (rewardLoop amount totalStake registry.currentSet.getActiveValidators.length
        registry.currentSet.getActiveValidators.zipIdx).rewards id =
      paidTo (payments amount totalStake registry.currentSet.getActiveValidators.length 0 0
        registry.currentSet.getActiveValidators) id := by
  have looped := (foldl_rewardOne amount totalStake registry.currentSet.getActiveValidators.length
    registry.currentSet.getActiveValidators 0 ⟨∅, 0⟩ distinct (fun _ _ => rfl)).1 id
  exact looped.trans (UInt64.zero_add _)

/-- A registry with distinct ids and the right total pays its active validators exactly. -/
theorem paysActive (distinct : registry.currentSet.DistinctIds)
    (cached : registry.currentSet.totalStake.toNat = registry.currentSet.activeStake)
    (positive : 0 < registry.currentSet.totalStake) (amount : UInt64) : PaysActive registry amount := by
  have positiveNat : 0 < registry.currentSet.totalStake.toNat := UInt64.lt_iff_toNat_lt.mp positive
  have ids : (registry.currentSet.getActiveValidators.map Validator.id).Nodup :=
    distinct.sublist (List.filter_sublist.map Validator.id)
  have sum : registry.currentSet.totalStake.toNat = (stakesOf registry.currentSet.getActiveValidators).sum := cached
  have computed : forall id, rewardIn (registry.distributeRewardsProportional amount) id =
      if amount = 0 then 0 else paidTo (payments amount registry.currentSet.totalStake
        registry.currentSet.getActiveValidators.length 0 0 registry.currentSet.getActiveValidators) id := by
    intro id
    rw [distributeRewardsProportional]
    by_cases nothing : amount = 0
    · rw [if_pos (Or.inl nothing), if_pos nothing]
      rfl
    · have some : registry.currentSet.getActiveValidators.isEmpty = false := by
        rw [List.isEmpty_eq_false_iff]
        intro empty
        rw [empty] at sum
        exact positiveNat.ne' sum
      have stake : registry.currentSet.totalStake ≠ 0 := by
        intro zero
        rw [zero] at positiveNat
        exact Nat.lt_irrefl _ positiveNat
      rw [if_neg (not_or.mpr ⟨nothing, stake⟩), if_neg nothing]
      simp only [some, Bool.false_eq_true, if_false]
      exact rewardIn_rewardLoop ids amount _ id
  refine ⟨?_, ?_, fun v member => share_lt amount sum member, ?_⟩
  · simp only [computed]
    by_cases nothing : amount = 0
    · simp only [nothing, if_true, UInt64.toNat_zero]
      exact pays_zero _ _
    · simp only [if_neg nothing]
      rw [← cached]
      exact pays_paidTo ids amount sum positiveNat
  · intro id absent
    rw [computed]
    split
    · rfl
    · apply paidTo_of_not_mem
      rw [fst_payments, List.mem_map]
      rintro ⟨v, member, own⟩
      exact absent v member own
  · intro earlier v later split
    have beginning : (earlier.map Validator.id).Nodup := by
      rw [split, List.map_append] at ids
      exact (List.nodup_append.mp ids).1
    have looped := (foldl_rewardOne amount registry.currentSet.totalStake
      registry.currentSet.getActiveValidators.length earlier 0 ⟨∅, 0⟩ beginning (fun _ _ => rfl)).2
    rw [rewardLoop, looped]
    exact distributedAfter_le amount split sum positiveNat

/-! ## The loop of the slashing detector -/

theorem withReward_withReward (first second : UInt64) (validator : Validator) :
    withReward second (withReward first validator) = withReward (first + second) validator := by
  simp [withReward, UInt64.add_assoc]

theorem withReward_zero : withReward 0 = id := by
  funext validator
  simp [withReward]

/-- Bonding adds to the record of its own id only. -/
theorem validators_bondStake (registry : ValidatorRegistry) (receiver id : ValidatorID) (paid : UInt64) :
    (registry.bondStake receiver paid).2.validators[id]? =
      (registry.validators[id]?).map fun v => if receiver = id then withReward paid v else v := by
  apply (registry.bondStake_performs receiver paid).lookup
  intro validator found
  simp [bondStake, found]

theorem bondReward_adds (loop : Distribution) (receiver : ValidatorID) (paid : UInt64) :
    (forall id : ValidatorID, (bondReward loop receiver paid).registry.validators[id]? =
      (loop.registry.validators[id]?).map fun v => if receiver = id then withReward paid v else v) ∧
    (bondReward loop receiver paid).distributed = loop.distributed + paid ∧
      (bondReward loop receiver paid).count = loop.count + 1 := by
  unfold bondReward
  by_cases positive : 0 < paid
  · rw [if_pos positive]
    exact ⟨fun id => validators_bondStake loop.registry receiver id paid, rfl, rfl⟩
  · have zero : paid = 0 := by simpa using positive
    subst zero
    simp [withReward_zero]

/-- The loop adds the payments to the records. -/
theorem foldl_rewardTo (amount totalStake : UInt64) (totalCount : Nat) (validators : List Validator)
    (loop : Distribution) :
    (forall id : ValidatorID, (validators.foldl (rewardTo amount totalStake totalCount) loop).registry.validators[id]? =
      (loop.registry.validators[id]?).map
        (withReward (paidTo (payments amount totalStake totalCount loop.distributed loop.count validators) id))) ∧
    (validators.foldl (rewardTo amount totalStake totalCount) loop).distributed =
      distributedAfter amount totalStake totalCount loop.distributed loop.count (wordsOf validators) := by
  induction validators generalizing loop with
  | nil =>
      refine ⟨fun id => ?_, rfl⟩
      simp [payments, paidTo, withReward_zero]
  | cons v rest inductionHypothesis =>
      rcases bondReward_adds loop v.id (reward amount totalStake totalCount loop.distributed loop.count v.bondedStake)
        with ⟨added, distributed, counted⟩
      have later := inductionHypothesis (rewardTo amount totalStake totalCount loop v)
      have step : rewardTo amount totalStake totalCount loop v =
          bondReward loop v.id (reward amount totalStake totalCount loop.distributed loop.count v.bondedStake) := rfl
      rw [step, distributed, counted] at later
      rw [List.foldl_cons, step]
      refine ⟨fun id => ?_, later.2⟩
      rw [later.1, added, Option.map_map, payments_cons, paidTo]
      congr 1
      funext validator
      by_cases own : v.id = id
      · simp [own, withReward_withReward]
      · simp [own]

/-- What an id is paid by the loop of a slashing. -/
def slashingReward (registry : ValidatorRegistry) (slashed : ValidatorID) (amount : UInt64) (id : ValidatorID) :
    UInt64 :=
  if amount = 0 then 0
  else paidTo (payments amount (stakeExcluding slashed registry.currentSet.getActiveValidators)
    (receivers registry slashed).length 0 0 (receivers registry slashed)) id

/-- The loop of a slashing pays the other active validators exactly. -/
theorem paysOthers (distinct : registry.currentSet.DistinctIds) (slashed : ValidatorID)
    (positive : 0 < (stakesOf (receivers registry slashed)).sum)
    (fits : (stakesOf (receivers registry slashed)).sum < 2 ^ 64) (amount : UInt64) :
    PaysOthers registry slashed amount (slashingReward registry slashed amount) := by
  have sum : (stakeExcluding slashed registry.currentSet.getActiveValidators).toNat =
      (stakesOf (receivers registry slashed)).sum := toNat_stakeExcluding registry slashed fits
  have ids : ((receivers registry slashed).map Validator.id).Nodup :=
    distinct.sublist ((List.filter_sublist.trans List.filter_sublist).map Validator.id)
  have nobodyElse : forall id, (forall v, v ∈ receivers registry slashed -> v.id ≠ id) ->
      slashingReward registry slashed amount id = 0 := by
    intro id absent
    rw [slashingReward]
    split
    · rfl
    · apply paidTo_of_not_mem
      rw [fst_payments, List.mem_map]
      rintro ⟨v, member, own⟩
      exact absent v member own
  refine ⟨?_, ?_, nobodyElse, ?_, fun v member => share_lt amount sum member, ?_⟩
  · by_cases nothing : amount = 0
    · simp only [slashingReward, nothing, if_true, UInt64.toNat_zero]
      exact pays_zero _ _
    · simp only [slashingReward, if_neg nothing]
      rw [← sum] at positive ⊢
      exact pays_paidTo ids amount sum positive
  · intro id
    rw [distribute, slashingReward]
    by_cases nothing : amount = 0
    · simp [nothing, withReward_zero]
    · have runs : 0 < stakeExcluding slashed registry.currentSet.getActiveValidators ∧ 0 < amount := by
        refine ⟨?_, UInt64.pos_iff_ne_zero.mpr nothing⟩
        rw [UInt64.lt_iff_toNat_lt, sum]
        exact positive
      simp only []
      rw [if_pos runs, if_neg nothing, foldl_distributeTo]
      exact (foldl_rewardTo amount _ _ (receivers registry slashed) ⟨registry, 0, 0⟩).1 id
  · apply nobodyElse
    intro v member
    exact of_decide_eq_true (List.mem_filter.mp member).2
  · intro earlier v later split other
    have received : receivers registry slashed =
        (earlier.filter fun v => decide (v.id ≠ slashed)) ++ v :: (later.filter fun v => decide (v.id ≠ slashed)) := by
      simp [receivers, split, other]
    rw [distributionLoop, foldl_distributeTo, (foldl_rewardTo _ _ _ _ _).2]
    rw [← sum] at positive
    exact distributedAfter_le amount received sum positive

/-- In every registry that its operations produce: the rewards of the registry are exact if
the total is the sum of the active stakes and positive, and those of a slashing if the other
active validators have some stake, which fits into a word. -/
theorem payouts_exact (prim : Primitives) (config : RegistryConfig) (calls : List RegistryCall) (amount : UInt64) :
    let registry := run (ValidatorRegistry.call prim) (create config) calls
    (registry.currentSet.totalStake.toNat = registry.currentSet.activeStake -> 0 < registry.currentSet.totalStake ->
      PaysActive registry amount) ∧
    forall slashed, 0 < (stakesOf (receivers registry slashed)).sum ->
      (stakesOf (receivers registry slashed)).sum < 2 ^ 64 -> ∃ reward, PaysOthers registry slashed amount reward := by
  have distinct := (registryOk_run prim config calls).distinct
  constructor
  · intro cached positive
    exact paysActive distinct cached positive amount
  · intro slashed positive fits
    exact ⟨_, paysOthers distinct slashed positive fits amount⟩

/-- Three active validators. -/
def threeActive : List RegistryCall := [newcomer 1 200000, newcomer 2 300000, newcomer 3 500000, .transitionEpoch 1 0]

theorem payouts_exact_three :
    PaysActive (run (ValidatorRegistry.call Transparent.primitives) (create {}) threeActive) 7 ∧
      ∃ reward, PaysOthers (run (ValidatorRegistry.call Transparent.primitives) (create {}) threeActive) (numbered 3) 7
        reward :=
  ⟨(payouts_exact Transparent.primitives {} threeActive 7).1 (by decide +kernel) (by decide +kernel),
    (payouts_exact Transparent.primitives {} threeActive 7).2 (numbered 3) (by decide +kernel) (by decide +kernel)⟩

end Consensus
end Sarafu

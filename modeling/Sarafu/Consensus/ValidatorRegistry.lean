import Sarafu.Consensus.Validator

namespace Sarafu
namespace Consensus

open Crypto State

/-!
# The validator registry

The registry owns one record per validator id and, separately, the current
validator set that consensus reads.  `bond_stake`, `slash_validator` and
`update_validator` write both; `unbond_stake` and `check_downtime` write the
registry only; `transition_epoch` rebuilds the set from the registry.

The signing rate is a quotient of two `double` values.  Block counts below
`2^64` and their quotients lie in the normal range of the format, so every
conversion and the division round to 53 significant bits, ties to even.
-/

structure UnbondingRequest where
  validatorId : ValidatorID
  amount : UInt64
  completionHeight : UInt64
deriving DecidableEq

inductive SlashReason
  | doubleSign
  | surroundVote
  | downtime
deriving DecidableEq, Repr

/-- The nearest integer, ties to even. -/
def roundHalfEven (value : Rat) : Int :=
  let below := value.floor
  let rest := value - below
  if rest < 1 / 2 then below
  else if 1 / 2 < rest then below + 1
  else if below % 2 = 0 then below else below + 1

/-- The nearest `double` to a number in its normal range. -/
def toDouble (value : Rat) : Rat :=
  if value ≤ 0 then value
  else
    let unit : Rat := 2 ^ (Int.log 2 value - 52)
    roundHalfEven (value / unit) * unit

/-- The threshold is the value of a `double`. -/
structure RegistryConfig where
  activeValidatorCount : UInt64 := 100
  minimumSelfBond : UInt64 := 100000
  unbondingPeriodBlocks : UInt64 := 362880
  blocksPerEpoch : UInt64 := 10000
  downtimeThreshold : Rat := toDouble (95 / 100)

structure ValidatorRegistry where
  config : RegistryConfig
  currentSet : ValidatorSet
  validators : OrderedMap ValidatorID Validator
  unbondingRequests : List UnbondingRequest

namespace ValidatorRegistry

def create (config : RegistryConfig) : ValidatorRegistry := ⟨config, ValidatorSet.empty, ∅, []⟩

def getValidator (registry : ValidatorRegistry) (id : ValidatorID) : Option Validator :=
  registry.validators[id]?

def addValidator (registry : ValidatorRegistry) (id : ValidatorID) (consensusKey : BLS12381PublicKey)
    (withdrawalKey : Ed25519PublicKey) (initialStake : UInt64) : Bool × ValidatorRegistry :=
  match registry.validators[id]? with
  | some _ => (false, registry)
  | none =>
      (true, { registry with
        validators := registry.validators.insert id (Validator.make id consensusKey withdrawalKey initialStake) })

/-- Apply a change to the first entry with the given id; the loops over the
current set all stop at that entry. -/
def changeFirst (id : ValidatorID) (change : Validator -> Validator) : List Validator -> List Validator
  | [] => []
  | validator :: rest =>
      if validator.id = id then change validator :: rest else validator :: changeFirst id change rest

/-- The optional fields of `update_validator`, written to one record. -/
def withUpdates (consensusKey : Option BLS12381PublicKey) (withdrawalKey : Option Ed25519PublicKey)
    (newStatus : Option ValidatorStatus) (validator : Validator) : Validator :=
  { validator with
    consensusKey := consensusKey.getD validator.consensusKey
    withdrawalKey := withdrawalKey.getD validator.withdrawalKey
    status := newStatus.getD validator.status }

/-- `total -= amount`, or zero when that would underflow. -/
def deductClamped (total amount : UInt64) : UInt64 := if amount ≤ total then total - amount else 0

def updateValidator (registry : ValidatorRegistry) (id : ValidatorID)
    (consensusKey : Option BLS12381PublicKey) (withdrawalKey : Option Ed25519PublicKey)
    (newStatus : Option ValidatorStatus) : Bool × ValidatorRegistry :=
  match registry.validators[id]? with
  | none => (false, registry)
  | some validator =>
      let update := withUpdates consensusKey withdrawalKey newStatus
      let set := registry.currentSet
      -- only the transition from Active to Tombstoned adjusts the cached total
      let totalStake := match set.findValidator id with
        | none => set.totalStake
        | some listed =>
            if newStatus = some .tombstoned ∧ listed.status = .active
            then deductClamped set.totalStake listed.bondedStake else set.totalStake
      (true, { registry with
        validators := registry.validators.insert id (update validator)
        currentSet := { set with
          validators := changeFirst id update set.validators
          totalStake := totalStake } })

def bondStake (registry : ValidatorRegistry) (id : ValidatorID) (amount : UInt64) : Bool × ValidatorRegistry :=
  match registry.validators[id]? with
  | none => (false, registry)
  | some validator =>
      let bond := fun v : Validator => { v with bondedStake := v.bondedStake + amount }
      let set := registry.currentSet
      let totalStake := match set.findValidator id with
        | none => set.totalStake
        | some listed => if listed.status = .active then set.totalStake + amount else set.totalStake
      (true, { registry with
        validators := registry.validators.insert id (bond validator)
        currentSet := { set with
          validators := changeFirst id bond set.validators
          totalStake := totalStake } })

def unbondStake (registry : ValidatorRegistry) (id : ValidatorID) (amount currentHeight : UInt64) :
    Bool × ValidatorRegistry :=
  match registry.validators[id]? with
  | none => (false, registry)
  | some validator =>
      if validator.bondedStake < amount then (false, registry)
      else
        let remainingStake := validator.bondedStake - amount
        if 0 < remainingStake ∧ remainingStake < registry.config.minimumSelfBond then (false, registry)
        else
          let unbonded := { validator with
            bondedStake := remainingStake
            status := if remainingStake = 0 then .standby else validator.status }
          let request : UnbondingRequest :=
            ⟨id, amount, currentHeight + registry.config.unbondingPeriodBlocks⟩
          (true, { registry with
            validators := registry.validators.insert id unbonded
            unbondingRequests := registry.unbondingRequests ++ [request] })

/-- The completed requests, in the order of their acceptance, and the rest. -/
def processUnbonding (registry : ValidatorRegistry) (currentHeight : UInt64) :
    List UnbondingRequest × ValidatorRegistry :=
  (registry.unbondingRequests.filter fun request => decide (request.completionHeight ≤ currentHeight),
    { registry with
      unbondingRequests := registry.unbondingRequests.filter fun request =>
        decide (¬ request.completionHeight ≤ currentHeight) })

/-- The height is not read by the source. -/
def recordSignature (registry : ValidatorRegistry) (id : ValidatorID) (_blockHeight : UInt64) :
    Bool × ValidatorRegistry :=
  match registry.validators[id]? with
  | none => (false, registry)
  | some validator =>
      (true, { registry with
        validators := registry.validators.insert id
          { validator with blocksSignedThisEpoch := validator.blocksSignedThisEpoch + 1 } })

/-- The stake removed from the current set's entry: at most what it holds. -/
def actualSlash (bondedStake amount : UInt64) : UInt64 := if bondedStake < amount then bondedStake else amount

/-- The reason is not read by the source. -/
def slashValidator (registry : ValidatorRegistry) (id : ValidatorID) (amount : UInt64)
    (_reason : SlashReason) : Bool × ValidatorRegistry :=
  match registry.validators[id]? with
  | none => (false, registry)
  | some validator =>
      let slashed := actualSlash validator.bondedStake amount
      let set := registry.currentSet
      -- the set's own entry may hold less than the registry's, so it is clamped again
      let totalStake := match set.findValidator id with
        | none => set.totalStake
        | some listed =>
            if listed.status = .active then deductClamped set.totalStake (actualSlash listed.bondedStake slashed)
            else set.totalStake
      (true, { registry with
        validators := registry.validators.insert id
          { validator with bondedStake := validator.bondedStake - slashed }
        currentSet := { set with
          validators := changeFirst id
            (fun v => { v with bondedStake := v.bondedStake - actualSlash v.bondedStake slashed }) set.validators
          totalStake := totalStake } })

/-- The penalty for one validator that is below the signing threshold. -/
def penalize (epoch : UInt64) (v : Validator) : Validator :=
  let alreadyPenalized := 0 < v.consecutiveDowntimeEpochs ∧ v.status = .jailed ∧ v.jailedUntilEpoch = epoch + 1
  if alreadyPenalized then v
  else if v.consecutiveDowntimeEpochs = 0 then
    { v with status := .jailed, jailedUntilEpoch := epoch + 1, consecutiveDowntimeEpochs := 1 }
  else if v.consecutiveDowntimeEpochs = 1 then
    { v with
      bondedStake := v.bondedStake - v.bondedStake * 5 / 1000
      status := .standby
      consecutiveDowntimeEpochs := 2 }
  else
    { v with
      bondedStake := v.bondedStake - v.bondedStake / 100
      status := .standby
      consecutiveDowntimeEpochs := v.consecutiveDowntimeEpochs + 1 }

/-- `signing_rate < downtime_threshold`, the rate being a rounded quotient of
rounded counts. -/
def isDown (threshold : Rat) (blocksSigned totalBlocks : UInt64) : Bool :=
  let signingRate := toDouble (toDouble blocksSigned.toNat / toDouble totalBlocks.toNat)
  decide (signingRate < threshold)

/-- The body of the loop of `check_downtime` for one registry entry. -/
def checkOne (registry : ValidatorRegistry) (epoch totalBlocks : UInt64) (v : Validator) : Validator :=
  if registry.currentSet.getActiveValidators.any fun active => active.id == v.id then
    if isDown registry.config.downtimeThreshold v.blocksSignedThisEpoch totalBlocks then penalize epoch v
    else { v with consecutiveDowntimeEpochs := 0 }
  else v

/-- The loop of `check_downtime` reports this entry. -/
def violates (registry : ValidatorRegistry) (totalBlocks : UInt64) (v : Validator) : Bool :=
  (registry.currentSet.getActiveValidators.any fun active => active.id == v.id) &&
    isDown registry.config.downtimeThreshold v.blocksSignedThisEpoch totalBlocks

def checkDowntime (registry : ValidatorRegistry) (epoch totalBlocks : UInt64) :
    List ValidatorID × ValidatorRegistry :=
  if totalBlocks = 0 then ([], registry)
  else
    ((registry.validators.toList.filter fun entry => violates registry totalBlocks entry.2).map
        fun entry => entry.2.id,
      { registry with validators := registry.validators.map fun _ v => checkOne registry epoch totalBlocks v })

def rankByStake (registry : ValidatorRegistry) : List Validator :=
  (registry.validators.toList.map Prod.snd).insertionSort fun left right => ¬ Validator.ranksBefore right left

/-- The body of the loop of `transition_epoch` for the validator of rank `index`. -/
def selectOne (config : RegistryConfig) (newEpoch : UInt64) (index : Nat) (ranked : Validator) : Validator :=
  let v := { ranked with blocksSignedThisEpoch := 0, blocksMissedThisEpoch := 0 }
  let v := if v.status = .jailed ∧ v.jailedUntilEpoch ≤ newEpoch
    then { v with status := .standby, jailedUntilEpoch := 0 } else v
  if v.status = .tombstoned then v
  else if index < config.activeValidatorCount.toNat ∧ config.minimumSelfBond ≤ v.bondedStake ∧ v.status ≠ .jailed then
    { v with status := .active }
  else if v.status = .active then { v with status := .standby }
  else v

/-- `new_total_stake`: only the branch that activates a validator adds to it. -/
def sumActive (validators : List Validator) : UInt64 :=
  (validators.filter Validator.isActive).foldl (fun total v => total + v.bondedStake) 0

def transitionEpoch (prim : Primitives) (registry : ValidatorRegistry) (newEpoch totalBlocks : UInt64) :
    ValidatorSet × ValidatorRegistry :=
  let checked := if 1 < newEpoch then (registry.checkDowntime (newEpoch - 1) totalBlocks).2 else registry
  let newValidators := checked.rankByStake.mapIdx (selectOne checked.config newEpoch)
  let unrooted : ValidatorSet := ⟨newEpoch, newValidators, sumActive newValidators, Blake3Hash.zero⟩
  let newSet := { unrooted with merkleRoot := unrooted.computeRoot prim }
  (newSet, { checked with
    validators := newValidators.foldl (fun stored v => stored.insert v.id v) checked.validators
    currentSet := newSet })

end ValidatorRegistry

/-- The operations of the registry. -/
inductive RegistryCall
  | addValidator (id : ValidatorID) (consensusKey : BLS12381PublicKey) (withdrawalKey : Ed25519PublicKey)
      (initialStake : UInt64)
  | bondStake (id : ValidatorID) (amount : UInt64)
  | unbondStake (id : ValidatorID) (amount currentHeight : UInt64)
  | processUnbonding (currentHeight : UInt64)
  | slashValidator (id : ValidatorID) (amount : UInt64) (reason : SlashReason)
  | updateValidator (id : ValidatorID) (consensusKey : Option BLS12381PublicKey)
      (withdrawalKey : Option Ed25519PublicKey) (newStatus : Option ValidatorStatus)
  | recordSignature (id : ValidatorID) (blockHeight : UInt64)
  | checkDowntime (epoch totalBlocksInEpoch : UInt64)
  | transitionEpoch (newEpoch totalBlocksInEpoch : UInt64)

/-- The registry after an operation. -/
def ValidatorRegistry.call (prim : Primitives) (registry : ValidatorRegistry) : RegistryCall -> ValidatorRegistry
  | .addValidator id consensusKey withdrawalKey initialStake =>
      (registry.addValidator id consensusKey withdrawalKey initialStake).2
  | .bondStake id amount => (registry.bondStake id amount).2
  | .unbondStake id amount currentHeight => (registry.unbondStake id amount currentHeight).2
  | .processUnbonding currentHeight => (registry.processUnbonding currentHeight).2
  | .slashValidator id amount reason => (registry.slashValidator id amount reason).2
  | .updateValidator id consensusKey withdrawalKey newStatus =>
      (registry.updateValidator id consensusKey withdrawalKey newStatus).2
  | .recordSignature id blockHeight => (registry.recordSignature id blockHeight).2
  | .checkDowntime epoch totalBlocksInEpoch => (registry.checkDowntime epoch totalBlocksInEpoch).2
  | .transitionEpoch newEpoch totalBlocksInEpoch => (registry.transitionEpoch prim newEpoch totalBlocksInEpoch).2

end Consensus
end Sarafu

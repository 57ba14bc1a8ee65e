import Sarafu.Consensus.ValidatorRegistry
import Sarafu.State.StateMachine

namespace Sarafu
namespace Consensus

open Crypto State

/-!
# The genesis builder and the start of the state machine

The builder keeps a list of allocations and hashes one account for each of them.  The
state machine creates the accounts one after another in a map.  The cap and the vesting
threshold are products of the supply with the `double` values `0.05` and `0.02`,
truncated to an integer.  How such a product rounds is a parameter, `share`; the source
computes `shareOfSupply`.  A `std::string` is the list of its bytes.
-/

structure VestingSchedule where
  totalAmount : UInt64
  vestedAmount : UInt64
  startTimestamp : UInt64
  durationSeconds : UInt64
deriving DecidableEq

/-- The constructor. -/
def VestingSchedule.make (total startTime duration : UInt64) : VestingSchedule := ⟨total, 0, startTime, duration⟩

structure GenesisAllocation where
  address : Address
  amount : UInt64
  category : List UInt8
  vestingSchedule : Option VestingSchedule
deriving DecidableEq

structure GenesisConfig where
  totalSupply : UInt64
  genesisTimestamp : UInt64
  initialEpoch : UInt64
  validatorSetSize : UInt64
  minimumSelfBond : UInt64
  chainId : UInt32
deriving DecidableEq

/-- The constructor; the epoch is always zero. -/
def GenesisConfig.make (supply timestamp validatorSetSize minimumBond : UInt64) (chain : UInt32) : GenesisConfig :=
  ⟨supply, timestamp, 0, validatorSetSize, minimumBond, chain⟩

structure GenesisBuilder where
  config : GenesisConfig
  allocations : List GenesisAllocation
  validatorSet : ValidatorSet
  totalAllocated : UInt64
  validatorSetInitialized : Bool

namespace GenesisBuilder

def create (config : GenesisConfig) : GenesisBuilder := ⟨config, [], ValidatorSet.empty, 0, false⟩

/-- `static_cast<uint64_t>(total_supply * percentage)`, the percentage being the `double`
nearest to the given number. -/
def shareOfSupply (totalSupply : UInt64) (percentage : Rat) : UInt64 :=
  UInt64.ofNat (toDouble (toDouble totalSupply.toNat * toDouble percentage)).floor.toNat

variable (share : UInt64 -> Rat -> UInt64)

def calculateAllocationCap (builder : GenesisBuilder) : UInt64 := share builder.config.totalSupply (5 / 100)

def calculateVestingThreshold (builder : GenesisBuilder) : UInt64 := share builder.config.totalSupply (2 / 100)

def exceedsAllocationCap (builder : GenesisBuilder) (amount : UInt64) : Bool :=
  decide (builder.calculateAllocationCap share < amount)

def requiresVesting (builder : GenesisBuilder) (amount : UInt64) : Bool :=
  decide (builder.calculateVestingThreshold share < amount)

/-- The sum with the allocated total is taken modulo `2^64`. -/
def addVestingAllocation (builder : GenesisBuilder) (address : Address) (amount : UInt64) (category : List UInt8)
    (vestingDurationSeconds : UInt64 := 31536000) : Bool × GenesisBuilder :=
  if builder.exceedsAllocationCap share amount then (false, builder)
  else if builder.config.totalSupply < builder.totalAllocated + amount then (false, builder)
  else
    let vesting := VestingSchedule.make amount builder.config.genesisTimestamp vestingDurationSeconds
    (true, { builder with
      allocations := builder.allocations ++ [⟨address, amount, category, some vesting⟩]
      totalAllocated := builder.totalAllocated + amount })

def addAllocation (builder : GenesisBuilder) (address : Address) (amount : UInt64) (category : List UInt8) :
    Bool × GenesisBuilder :=
  if builder.exceedsAllocationCap share amount then (false, builder)
  else if builder.config.totalSupply < builder.totalAllocated + amount then (false, builder)
  else if builder.requiresVesting share amount then builder.addVestingAllocation share address amount category
  else
    (true, { builder with
      allocations := builder.allocations ++ [⟨address, amount, category, none⟩]
      totalAllocated := builder.totalAllocated + amount })

/-- The comparison of the sort is the one of `Validator::operator<`. -/
def sortByStake (validators : List Validator) : List Validator :=
  validators.insertionSort fun left right => ¬ Validator.ranksBefore right left

/-- The genesis record of the validator of rank `index`. -/
def genesisRecord (activeCount index : Nat) (ranked : Validator) : Validator :=
  { ranked with
    status := if index < activeCount then .active else .standby
    jailedUntilEpoch := 0
    consecutiveDowntimeEpochs := 0
    blocksSignedThisEpoch := 0
    blocksMissedThisEpoch := 0 }

/-- A validator of the first ranks with too small a bond makes the call fail, and the
builder keeps its old set. -/
def createGenesisValidatorSet (prim : Primitives) (builder : GenesisBuilder) (validators : List Validator) :
    Bool × GenesisBuilder :=
  if validators.isEmpty then (false, builder)
  else
    let sortedValidators := sortByStake validators
    let activeCount := min builder.config.validatorSetSize.toNat sortedValidators.length
    let candidates := sortedValidators.take activeCount
    if candidates.any fun v => decide (v.bondedStake < builder.config.minimumSelfBond) then (false, builder)
    else
      let allValidators := sortedValidators.mapIdx (genesisRecord activeCount)
      let totalStake := candidates.foldl (fun total v => total + v.bondedStake) 0
      (true, { builder with
        validatorSet := ⟨builder.config.initialEpoch, allValidators, totalStake,
          MerkleTree.rootOf prim (allValidators.map (Validator.hash prim))⟩
        validatorSetInitialized := true })

def validate (builder : GenesisBuilder) : Bool :=
  decide (builder.totalAllocated ≤ builder.config.totalSupply) &&
    builder.allocations.all fun allocation =>
      !builder.exceedsAllocationCap share allocation.amount &&
        !(builder.requiresVesting share allocation.amount && allocation.vestingSchedule.isNone)

/-- One account for each allocation, with its amount and nonce zero. -/
def accountOf (allocation : GenesisAllocation) : Account := Account.make allocation.address allocation.amount 0

def computeStateRoot (prim : Primitives) (builder : GenesisBuilder) : Blake3Hash :=
  let accountHashes := builder.allocations.map fun allocation => (accountOf allocation).hash prim
  if accountHashes.isEmpty then Blake3Hash.zero
  else MerkleTree.rootOf prim (accountHashes.insertionSort fun left right => StateMachine.hashLe left right)

def build (prim : Primitives) (builder : GenesisBuilder) : Except Failure Block :=
  if builder.validate share = false then .error (.runtimeError "Genesis builder validation failed")
  else if builder.validatorSetInitialized = false then .error (.runtimeError "Validator set not initialized")
  else
    .ok ⟨⟨0, builder.config.genesisTimestamp, Blake3Hash.zero, builder.computeStateRoot prim,
        MerkleTree.rootOf prim [], builder.validatorSet.merkleRoot, Address.zero, builder.config.initialEpoch⟩,
      [], QuorumCertificate.empty⟩

end GenesisBuilder
end Consensus

namespace State
namespace StateMachine

open Crypto Consensus

/-- Everything but the chain id is reset. -/
def clear (machine : StateMachine) : StateMachine := create machine.chainId

/-- `accounts_[address]` is overwritten by a later allocation to the same address. -/
def createAccounts (machine : StateMachine) (allocations : List GenesisAllocation) : StateMachine :=
  { machine with
    transactionExecutor := { machine.transactionExecutor with
      accountManager := allocations.foldl
        (fun manager allocation => manager.createAccount allocation.address allocation.amount)
        machine.accountManager } }

def initializeFromGenesis (prim : Primitives) (machine : StateMachine) (genesisBlock : Block)
    (allocations : List GenesisAllocation) : Bool × StateMachine :=
  if genesisBlock.header.height ≠ 0 ∨ genesisBlock.header.epoch ≠ 0 then (false, machine)
  else
    let funded := machine.clear.createAccounts allocations
    if funded.computeStateRoot prim ≠ genesisBlock.header.stateRoot then (false, funded.clear)
    else (true, { funded with currentHeight := 0 }.saveStateSnapshot prim 0)

end StateMachine
end State
end Sarafu

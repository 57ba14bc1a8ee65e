import Sarafu.Consensus.ValidatorRegistry

namespace Sarafu
namespace Consensus

open Crypto State

/-!
# What the operations of the registry write

Five operations act on the record of one validator.  Each refuses and leaves the
registry as it is, or it writes the record, changes the first entry of the current set
under the same id, gives the set a new total if there is such an entry, and appends
unbonding requests.  What an operation keeps can be read off this description, without
looking at the operation again.
-/

namespace ValidatorRegistry

/-- The record that an operation writes; the entry it puts into the current set and
the total it gives to the set, which may depend on the record before; and the requests
it appends. -/
structure Write where
  record : Validator -> Validator
  entry : Validator -> Validator -> Validator
  total : Validator -> UInt64 -> Validator -> UInt64
  requests : List UnbondingRequest

/-- A set after a change of the first entry under an id, with a new total for a
listed entry. -/
structure Adjusts (id : ValidatorID) (change : Validator -> Validator) (total : Validator -> UInt64)
    (set after : ValidatorSet) : Prop where
  validators : after.validators = changeFirst id change set.validators
  unlisted : set.findValidator id = none -> after.totalStake = set.totalStake
  listed : forall entry, set.findValidator id = some entry -> after.totalStake = total entry

/-- The result of an operation that found the record `validator` and wrote. -/
structure Wrote (registry : ValidatorRegistry) (id : ValidatorID) (write : Write) (validator : Validator)
    (result : Bool × ValidatorRegistry) : Prop where
  found : registry.validators[id]? = some validator
  accepted : result.1 = true
  stored : result.2.validators = registry.validators.insert id (write.record validator)
  set : Adjusts id (write.entry validator) (write.total validator registry.currentSet.totalStake)
    registry.currentSet result.2.currentSet
  sameConfig : result.2.config = registry.config
  queued : result.2.unbondingRequests = registry.unbondingRequests ++ write.requests

/-- What an operation on one record can do. -/
def Performs (registry : ValidatorRegistry) (id : ValidatorID) (write : Write)
    (result : Bool × ValidatorRegistry) : Prop :=
  result = (false, registry) ∨ ∃ validator, Wrote registry id write validator result

/-- A write changes the record of its own id and no other. -/
theorem Wrote.lookup {registry : ValidatorRegistry} {id : ValidatorID} {write : Write} {validator : Validator}
    {result : Bool × ValidatorRegistry} (wrote : Wrote registry id write validator result) (other : ValidatorID) :
    result.2.validators[other]? =
      (registry.validators[other]?).map fun v => if id = other then write.record v else v := by
  rw [wrote.stored, OrderedMap.find_insert]
  by_cases same : id = other
  · subst same
    simp [wrote.found]
  · simp [same, Ne.symm same]

/-- The records after an operation that refuses unknown ids only. -/
theorem Performs.lookup {registry : ValidatorRegistry} {id : ValidatorID} {write : Write}
    {result : Bool × ValidatorRegistry} (performs : Performs registry id write result)
    (known : forall validator, registry.validators[id]? = some validator -> result.1 = true) (other : ValidatorID) :
    result.2.validators[other]? =
      (registry.validators[other]?).map fun v => if id = other then write.record v else v := by
  rcases performs with rfl | ⟨validator, wrote⟩
  · by_cases same : id = other
    · subst same
      cases found : registry.validators[id]? with
      | none => rfl
      | some validator => cases known validator found
    · simp [same]
  · exact wrote.lookup other

theorem changeFirst_same (id : ValidatorID) (validators : List Validator) :
    changeFirst id (fun v => v) validators = validators := by
  induction validators with
  | nil => rfl
  | cons validator rest inductionHypothesis =>
      rw [changeFirst, inductionHypothesis]
      exact ite_self _

theorem Adjusts.refl (id : ValidatorID) (set : ValidatorSet) :
    Adjusts id (fun v => v) (fun _ => set.totalStake) set set :=
  ⟨(changeFirst_same id set.validators).symm, fun _ => rfl, fun _ _ => rfl⟩

/-- The new total depends on whether the set lists the id. -/
theorem adjusts_match (id : ValidatorID) (change : Validator -> Validator) (total : Validator -> UInt64)
    (set : ValidatorSet) : Adjusts id change total set { set with
      validators := changeFirst id change set.validators
      totalStake := match set.findValidator id with
        | none => set.totalStake
        | some listed => total listed } where
  validators := rfl
  unlisted := by
    intro absent
    simp only [absent]
  listed := by
    intro entry present
    simp only [present]

/-! ## The five operations -/

def bondWrite (amount : UInt64) : Write where
  record := fun v => { v with bondedStake := v.bondedStake + amount }
  entry := fun _ v => { v with bondedStake := v.bondedStake + amount }
  total := fun _ total listed => if listed.status = .active then total + amount else total
  requests := []

def unbondWrite (id : ValidatorID) (amount completionHeight : UInt64) : Write where
  record := fun v => { v with
    bondedStake := v.bondedStake - amount
    status := if v.bondedStake - amount = 0 then .standby else v.status }
  entry := fun _ v => v
  total := fun _ total _ => total
  requests := [⟨id, amount, completionHeight⟩]

def slashWrite (amount : UInt64) : Write where
  record := fun v => { v with bondedStake := v.bondedStake - actualSlash v.bondedStake amount }
  entry := fun found v => { v with
    bondedStake := v.bondedStake - actualSlash v.bondedStake (actualSlash found.bondedStake amount) }
  total := fun found total listed =>
    if listed.status = .active then
      deductClamped total (actualSlash listed.bondedStake (actualSlash found.bondedStake amount))
    else total
  requests := []

def updateWrite (consensusKey : Option BLS12381PublicKey) (withdrawalKey : Option Ed25519PublicKey)
    (newStatus : Option ValidatorStatus) : Write where
  record := withUpdates consensusKey withdrawalKey newStatus
  entry := fun _ => withUpdates consensusKey withdrawalKey newStatus
  total := fun _ total listed =>
    if newStatus = some .tombstoned ∧ listed.status = .active then deductClamped total listed.bondedStake else total
  requests := []

def signatureWrite : Write where
  record := fun v => { v with blocksSignedThisEpoch := v.blocksSignedThisEpoch + 1 }
  entry := fun _ v => v
  total := fun _ total _ => total
  requests := []

variable (registry : ValidatorRegistry) (id : ValidatorID) (amount : UInt64)

/-- Bonding to a known validator is never refused. -/
theorem bondStake_of_found {validator : Validator} (found : registry.validators[id]? = some validator) :
    Wrote registry id (bondWrite amount) validator (registry.bondStake id amount) := by
  unfold bondStake
  rw [found]
  exact ⟨found, rfl, rfl, adjusts_match id _ _ _, rfl, (List.append_nil _).symm⟩

theorem bondStake_performs : Performs registry id (bondWrite amount) (registry.bondStake id amount) := by
  cases found : registry.validators[id]? with
  | none =>
      unfold bondStake
      rw [found]
      exact Or.inl rfl
  | some validator => exact Or.inr ⟨validator, registry.bondStake_of_found id amount found⟩

/-- Unbonding writes only what the stake covers. -/
theorem unbondStake_cases (currentHeight : UInt64) :
    registry.unbondStake id amount currentHeight = (false, registry) ∨
      ∃ validator, amount ≤ validator.bondedStake ∧
        Wrote registry id (unbondWrite id amount (currentHeight + registry.config.unbondingPeriodBlocks)) validator
          (registry.unbondStake id amount currentHeight) := by
  unfold unbondStake
  split
  · exact Or.inl rfl
  · rename_i validator found
    split
    · exact Or.inl rfl
    · rename_i covered
      simp only []
      split
      · exact Or.inl rfl
      · exact Or.inr ⟨validator, UInt64.not_lt.mp covered, found, rfl, rfl, Adjusts.refl id _, rfl, rfl⟩

theorem unbondStake_performs (currentHeight : UInt64) :
    Performs registry id (unbondWrite id amount (currentHeight + registry.config.unbondingPeriodBlocks))
      (registry.unbondStake id amount currentHeight) :=
  (registry.unbondStake_cases id amount currentHeight).imp_right fun ⟨validator, _, wrote⟩ => ⟨validator, wrote⟩

/-- Slashing refuses unknown validators only. -/
theorem slashValidator_cases (reason : SlashReason) :
    (registry.validators[id]? = none ∧ registry.slashValidator id amount reason = (false, registry)) ∨
      ∃ validator, Wrote registry id (slashWrite amount) validator (registry.slashValidator id amount reason) := by
  unfold slashValidator
  split
  · rename_i absent
    exact Or.inl ⟨absent, rfl⟩
  · rename_i validator found
    exact Or.inr ⟨validator, found, rfl, rfl, adjusts_match id _ _ _, rfl, (List.append_nil _).symm⟩

theorem slashValidator_performs (reason : SlashReason) :
    Performs registry id (slashWrite amount) (registry.slashValidator id amount reason) :=
  (registry.slashValidator_cases id amount reason).imp_left And.right

theorem updateValidator_performs (consensusKey : Option BLS12381PublicKey) (withdrawalKey : Option Ed25519PublicKey)
    (newStatus : Option ValidatorStatus) :
    Performs registry id (updateWrite consensusKey withdrawalKey newStatus)
      (registry.updateValidator id consensusKey withdrawalKey newStatus) := by
  unfold updateValidator
  split
  · exact Or.inl rfl
  · rename_i validator found
    exact Or.inr ⟨validator, found, rfl, rfl, adjusts_match id _ _ _, rfl, (List.append_nil _).symm⟩

theorem recordSignature_performs (blockHeight : UInt64) :
    Performs registry id signatureWrite (registry.recordSignature id blockHeight) := by
  unfold recordSignature
  split
  · exact Or.inl rfl
  · rename_i validator found
    exact Or.inr ⟨validator, found, rfl, rfl, Adjusts.refl id _, rfl, (List.append_nil _).symm⟩

/-! ## The amount of a slash -/

theorem toNat_actualSlash (bondedStake amount : UInt64) :
    (actualSlash bondedStake amount).toNat = min amount.toNat bondedStake.toNat := by
  unfold actualSlash
  split
  · rename_i less
    rw [UInt64.lt_iff_toNat_lt] at less
    omega
  · rename_i enough
    rw [UInt64.lt_iff_toNat_lt] at enough
    omega

theorem actualSlash_le (bondedStake amount : UInt64) : actualSlash bondedStake amount ≤ bondedStake := by
  rw [UInt64.le_iff_toNat_le, toNat_actualSlash]
  exact Nat.min_le_right _ _

end ValidatorRegistry
end Consensus
end Sarafu

import Sarafu.Consensus.CachedStake

namespace Sarafu
namespace Consensus

open Crypto State Library.Runs

/-!
# The commitment of the current set

The current set carries the Merkle root of its own validators.  Only an epoch
transition computes it.  Bonding, slashing and updates rewrite an entry of the set in
place, every field of an entry goes into its leaf, and none of the three touches the
root: it follows the set as long as they change nothing.
-/

namespace ValidatorRegistry

/-- The root stored in the current set is the root of the set. -/
def Committed (prim : Primitives) (registry : ValidatorRegistry) : Prop :=
  registry.currentSet.merkleRoot = registry.currentSet.computeRoot prim

/-- A call gives no listed entry a field that it does not have already: nothing is bonded
to it or taken from it, and an update writes what it holds. -/
def KeepsEntries (registry : ValidatorRegistry) : RegistryCall -> Prop
  | .bondStake id amount => forall listed, registry.currentSet.findValidator id = some listed -> amount = 0
  | .slashValidator id amount _ => forall listed, registry.currentSet.findValidator id = some listed ->
      forall validator, registry.getValidator id = some validator ->
        amount = 0 ∨ validator.bondedStake = 0 ∨ listed.bondedStake = 0
  | .updateValidator id consensusKey withdrawalKey newStatus =>
      forall listed, registry.currentSet.findValidator id = some listed ->
        (forall key, consensusKey = some key -> listed.consensusKey = key) ∧
        (forall key, withdrawalKey = some key -> listed.withdrawalKey = key) ∧
        (forall status, newStatus = some status -> listed.status = status)
  | _ => True

variable {registry : ValidatorRegistry} {id : ValidatorID}

theorem changeFirst_of_fixed {change : Validator -> Validator} {validators : List Validator}
    (fixed : forall listed, validators.find? (fun validator => validator.id == id) = some listed ->
      change listed = listed) : changeFirst id change validators = validators := by
  induction validators with
  | nil => rfl
  | cons validator rest inductionHypothesis =>
      unfold changeFirst
      split
      · rename_i same
        have here : (validator :: rest).find? (fun validator => validator.id == id) = some validator :=
          List.find?_cons_of_pos (beq_iff_eq.mpr same)
        rw [fixed validator here]
      · rename_i other
        rw [inductionHypothesis]
        intro listed found
        apply fixed
        have elsewhere : (validator.id == id) = false := beq_eq_false_iff_ne.mpr other
        simp only [List.find?_cons, elsewhere]
        exact found

/-- Whoever keeps the validators and the root of the set keeps the commitment. -/
theorem Committed.of_same {prim : Primitives} {after : ValidatorRegistry} (committed : Committed prim registry)
    (validators : after.currentSet.validators = registry.currentSet.validators)
    (root : after.currentSet.merkleRoot = registry.currentSet.merkleRoot) : Committed prim after := by
  unfold Committed ValidatorSet.computeRoot at committed ⊢
  rw [root, validators]
  exact committed

/-- Only an epoch transition writes the root. -/
theorem merkleRoot_call (prim : Primitives) (registry : ValidatorRegistry) (call : RegistryCall)
    (inEpoch : forall newEpoch totalBlocks, call ≠ .transitionEpoch newEpoch totalBlocks) :
    (registry.call prim call).currentSet.merkleRoot = registry.currentSet.merkleRoot := by
  cases call with
  | addValidator id consensusKey withdrawalKey initialStake =>
      unfold ValidatorRegistry.call addValidator
      simp only []
      split
      · rfl
      · rfl
  | bondStake id amount =>
      unfold ValidatorRegistry.call bondStake
      simp only []
      split
      · rfl
      · rfl
  | unbondStake id amount currentHeight =>
      rcases registry.unbondStake_performs id amount currentHeight with refused | ⟨validator, wrote⟩
      · rw [ValidatorRegistry.call, refused]
      · unfold ValidatorRegistry.call unbondStake
        simp only [wrote.found]
        split
        · rfl
        · split
          · rfl
          · rfl
  | processUnbonding currentHeight => rfl
  | slashValidator id amount reason =>
      unfold ValidatorRegistry.call slashValidator
      simp only []
      split
      · rfl
      · rfl
  | updateValidator id consensusKey withdrawalKey newStatus =>
      unfold ValidatorRegistry.call updateValidator
      simp only []
      split
      · rfl
      · rfl
  | recordSignature id blockHeight =>
      unfold ValidatorRegistry.call recordSignature
      simp only []
      split
      · rfl
      · rfl
  | checkDowntime epoch totalBlocks =>
      unfold ValidatorRegistry.call checkDowntime
      simp only []
      split
      · rfl
      · rfl
  | transitionEpoch newEpoch totalBlocks => exact absurd rfl (inEpoch newEpoch totalBlocks)

/-- An operation on one record leaves the set alone if it fixes the listed entry. -/
theorem validators_of_performs {write : Write} {result : Bool × ValidatorRegistry}
    (performs : Performs registry id write result)
    (fixed : forall found listed, registry.getValidator id = some found ->
      registry.currentSet.findValidator id = some listed -> write.entry found listed = listed) :
    result.2.currentSet.validators = registry.currentSet.validators := by
  rcases performs with refused | ⟨validator, wrote⟩
  · rw [refused]
  · rw [wrote.set.validators]
    exact changeFirst_of_fixed fun listed found => fixed validator listed wrote.found found

theorem validators_slashValidator {amount : UInt64} {reason : SlashReason}
    (keeps : KeepsEntries registry (.slashValidator id amount reason)) :
    (registry.slashValidator id amount reason).2.currentSet.validators = registry.currentSet.validators := by
  apply validators_of_performs (registry.slashValidator_performs id amount reason)
  intro found listed stored entry
  have nothing : actualSlash listed.bondedStake (actualSlash found.bondedStake amount) = 0 := by
    rw [← UInt64.toNat_inj, toNat_actualSlash, toNat_actualSlash]
    rcases keeps listed entry found stored with zero | zero | zero
    · rw [zero, UInt64.toNat_zero, Nat.zero_min, Nat.zero_min]
    · rw [zero, UInt64.toNat_zero, Nat.min_zero, Nat.zero_min]
    · rw [zero, UInt64.toNat_zero, Nat.min_zero]
  change ({ listed with bondedStake := listed.bondedStake - _ } : Validator) = listed
  rw [nothing, UInt64.sub_zero]

theorem validators_updateValidator {consensusKey : Option BLS12381PublicKey} {withdrawalKey : Option Ed25519PublicKey}
    {newStatus : Option ValidatorStatus}
    (keeps : KeepsEntries registry (.updateValidator id consensusKey withdrawalKey newStatus)) :
    (registry.updateValidator id consensusKey withdrawalKey newStatus).2.currentSet.validators =
      registry.currentSet.validators := by
  apply validators_of_performs (registry.updateValidator_performs id consensusKey withdrawalKey newStatus)
  intro found listed _ entry
  rcases keeps listed entry with ⟨consensus, withdrawal, status⟩
  have consensusSame : consensusKey.getD listed.consensusKey = listed.consensusKey := by
    cases consensusKey with
    | none => rfl
    | some key => exact (consensus key rfl).symm
  have withdrawalSame : withdrawalKey.getD listed.withdrawalKey = listed.withdrawalKey := by
    cases withdrawalKey with
    | none => rfl
    | some key => exact (withdrawal key rfl).symm
  have statusSame : newStatus.getD listed.status = listed.status := by
    cases newStatus with
    | none => rfl
    | some given => exact (status given rfl).symm
  change withUpdates consensusKey withdrawalKey newStatus listed = listed
  rw [withUpdates, consensusSame, withdrawalSame, statusSame]

/-- The step lemma. -/
theorem Committed.call (prim : Primitives) (committed : Committed prim registry) {call : RegistryCall}
    (keeps : KeepsEntries registry call) : Committed prim (registry.call prim call) := by
  have root := merkleRoot_call prim registry call
  cases call with
  | addValidator id consensusKey withdrawalKey initialStake =>
      refine committed.of_same ?_ (root nofun)
      unfold ValidatorRegistry.call ValidatorRegistry.addValidator
      simp only []
      split
      · rfl
      · rfl
  | bondStake id amount =>
      refine committed.of_same (validators_of_performs (registry.bondStake_performs id amount) ?_) (root nofun)
      intro found listed _ entry
      change ({ listed with bondedStake := listed.bondedStake + amount } : Validator) = listed
      rw [keeps listed entry, UInt64.add_zero]
  | unbondStake id amount currentHeight =>
      exact committed.of_same (validators_of_performs (registry.unbondStake_performs id amount currentHeight)
        fun _ _ _ _ => rfl) (root nofun)
  | processUnbonding currentHeight => exact committed
  | slashValidator id amount reason => exact committed.of_same (validators_slashValidator keeps) (root nofun)
  | updateValidator id consensusKey withdrawalKey newStatus =>
      exact committed.of_same (validators_updateValidator keeps) (root nofun)
  | recordSignature id blockHeight =>
      exact committed.of_same (validators_of_performs (registry.recordSignature_performs id blockHeight)
        fun _ _ _ _ => rfl) (root nofun)
  | checkDowntime epoch totalBlocks =>
      refine committed.of_same ?_ (root nofun)
      unfold ValidatorRegistry.call ValidatorRegistry.checkDowntime
      simp only []
      split
      · rfl
      · rfl
  | transitionEpoch newEpoch totalBlocks => rfl

theorem committed_create (prim : Primitives) (config : RegistryConfig) : Committed prim (create config) := rfl

/-- In every run whose calls change no listed entry in place, the stored root is the
root of the current set. -/
theorem committed_of_keepsEntries (prim : Primitives) (config : RegistryConfig) (calls : List RegistryCall)
    (keeps : Along (ValidatorRegistry.call prim) KeepsEntries (create config) calls) :
    (run (ValidatorRegistry.call prim) (create config) calls).currentSet.merkleRoot =
      (run (ValidatorRegistry.call prim) (create config) calls).currentSet.computeRoot prim :=
  invariant_run (Committed prim) (fun _ _ committed keeps => committed.call prim keeps) (committed_create prim config)
    keeps

/-- Two validators are selected; the first one unbonds, and a third one that is not
listed yet registers and bonds. -/
def unlistedCalls : List RegistryCall :=
  [newcomer 1 20, newcomer 2 10, .transitionEpoch 1 0, .unbondStake (numbered 1) 5 3, newcomer 3 7,
    .bondStake (numbered 3) 6]

theorem committed_of_keepsEntries_unlisted :
    (run (ValidatorRegistry.call Transparent.primitives) (create smallConfig) unlistedCalls).currentSet.merkleRoot ≠
      Blake3Hash.zero ∧
    (run (ValidatorRegistry.call Transparent.primitives) (create smallConfig) unlistedCalls).currentSet.merkleRoot =
      (run (ValidatorRegistry.call Transparent.primitives) (create smallConfig) unlistedCalls).currentSet.computeRoot
        Transparent.primitives := by
  refine ⟨by decide +kernel, ?_⟩
  apply committed_of_keepsEntries
  refine ⟨trivial, trivial, trivial, trivial, trivial, ?_, trivial⟩
  intro listed found
  have absent : ((run (ValidatorRegistry.call Transparent.primitives) (create smallConfig)
      (unlistedCalls.take 5)).currentSet.findValidator (numbered 3)).isNone = true := by decide +kernel
  rw [Option.isNone_iff_eq_none] at absent
  cases absent.symm.trans found

/-- A bond to a listed validator leaves the root behind. -/
theorem bond_leaves_root :
    (run (ValidatorRegistry.call Transparent.primitives) (create smallConfig)
      [newcomer 1 20, newcomer 2 10, .transitionEpoch 1 0, .bondStake (numbered 2) 3]).currentSet.merkleRoot ≠
    (run (ValidatorRegistry.call Transparent.primitives) (create smallConfig)
      [newcomer 1 20, newcomer 2 10, .transitionEpoch 1 0, .bondStake (numbered 2) 3]).currentSet.computeRoot
        Transparent.primitives := by
  decide +kernel

end ValidatorRegistry
end Consensus
end Sarafu

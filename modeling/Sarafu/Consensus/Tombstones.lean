import Sarafu.Consensus.SlashingDetector
import Sarafu.Crypto.Transparent

namespace Sarafu
namespace Consensus

open Crypto State Library.Runs

/-!
# Tombstones

A safety violation puts the tombstone on the registry's record and on the entry of
the current set.  Every operation leaves a tombstone as it is, with one exception:
`unbond_stake` writes `Standby` to any record from which it takes the whole
remaining stake.  From there a new bond and an epoch transition make the validator
active again.
-/

/-- The calls of the registry and of the slashing detector. -/
inductive SlashingCall
  | registry (call : RegistryCall)
  | applySlashing (event : SlashingEvent) (totalSupply : UInt64)

/-- A direct call of `update_validator`. -/
def SlashingCall.isUpdate : SlashingCall -> Bool
  | .registry (.updateValidator _ _ _ _) => true
  | _ => false

namespace ValidatorRegistry

def slashingCall (prim : Primitives) (registry : ValidatorRegistry) : SlashingCall -> ValidatorRegistry
  | .registry call => registry.call prim call
  | .applySlashing event totalSupply => (SlashingDetector.applySlashing registry event totalSupply).2.1

variable {registry : ValidatorRegistry} {id : ValidatorID}

/-- The record of an id and every entry of the current set under it carry the
tombstone. -/
structure Buried (id : ValidatorID) (registry : ValidatorRegistry) : Prop where
  record : ∃ validator, registry.validators[id]? = some validator ∧ validator.status = .tombstoned
  listed : forall validator, validator ∈ registry.currentSet.validators -> validator.id = id ->
    validator.status = .tombstoned

/-- Whoever has the tombstone does not unbond the whole remaining stake. -/
def KeepsStake (id : ValidatorID) (registry : ValidatorRegistry) : SlashingCall -> Prop
  | .registry (.unbondStake other amount _) => other = id ->
      forall validator, registry.validators[id]? = some validator -> validator.status = .tombstoned ->
        amount ≠ validator.bondedStake
  | _ => True

theorem mem_changeFirst {change : Validator -> Validator} {validators : List Validator} {entry : Validator}
    (member : entry ∈ changeFirst id change validators) :
    entry ∈ validators ∨ ∃ before, before ∈ validators ∧ before.id = id ∧ entry = change before := by
  induction validators with
  | nil => exact Or.inl member
  | cons first rest inductionHypothesis =>
      unfold changeFirst at member
      split at member
      · rename_i same
        rcases List.mem_cons.mp member with here | later
        · exact Or.inr ⟨first, List.mem_cons_self, same, here⟩
        · exact Or.inl (List.mem_cons_of_mem first later)
      · rcases List.mem_cons.mp member with here | later
        · exact Or.inl (here ▸ List.mem_cons_self)
        · rcases inductionHypothesis later with kept | ⟨before, listed, same, changed⟩
          · exact Or.inl (List.mem_cons_of_mem first kept)
          · exact Or.inr ⟨before, List.mem_cons_of_mem first listed, same, changed⟩

/-- With distinct ids the first entry under an id is the only one. -/
theorem eq_change_of_mem_changeFirst {change : Validator -> Validator} {validators : List Validator}
    (distinct : (validators.map Validator.id).Nodup) {entry : Validator}
    (member : entry ∈ changeFirst id change validators) (own : entry.id = id) :
    ∃ before, before ∈ validators ∧ entry = change before := by
  induction validators with
  | nil => cases member
  | cons first rest inductionHypothesis =>
      rw [List.map_cons, List.nodup_cons] at distinct
      unfold changeFirst at member
      split at member
      · rename_i same
        rcases List.mem_cons.mp member with here | later
        · exact ⟨first, List.mem_cons_self, here⟩
        · exact absurd (List.mem_map.mpr ⟨entry, later, own.trans same.symm⟩) distinct.1
      · rename_i different
        rcases List.mem_cons.mp member with here | later
        · exact absurd (here ▸ own) different
        · rcases inductionHypothesis distinct.2 later with ⟨before, listed, changed⟩
          exact ⟨before, List.mem_cons_of_mem first listed, changed⟩

/-! ## Operations on one record -/

/-- Writing another status-preserving record and changing entries without taking a
tombstone away. -/
theorem Buried.written (buried : Buried id registry) {after : ValidatorRegistry} {other : ValidatorID}
    {validator entry : Validator} (found : registry.validators[other]? = some validator)
    (stored : after.validators = registry.validators.insert other entry)
    (kept : other = id -> validator.status = .tombstoned -> entry.status = .tombstoned)
    (listed : forall changed, changed ∈ after.currentSet.validators -> changed.id = id ->
      changed.status = .tombstoned) : Buried id after where
  record := by
    rcases buried.record with ⟨before, recorded, status⟩
    rw [stored, OrderedMap.find_insert]
    by_cases same : id = other
    · rw [if_pos same]
      rw [same, found] at recorded
      exact ⟨entry, rfl, kept same.symm (Option.some.inj recorded ▸ status)⟩
    · rw [if_neg same]
      exact ⟨before, recorded, status⟩
  listed := listed

/-- A change of the first entry under an id that takes no tombstone away. -/
theorem Buried.listed_changeFirst (buried : Buried id registry) {other : ValidatorID} {change : Validator -> Validator}
    (keepsId : forall validator, (change validator).id = validator.id)
    (kept : forall validator, validator.status = .tombstoned -> (change validator).status = .tombstoned) :
    forall entry, entry ∈ changeFirst other change registry.currentSet.validators -> entry.id = id ->
      entry.status = .tombstoned := by
  intro entry member own
  rcases mem_changeFirst member with same | ⟨before, listed, _, changed⟩
  · exact buried.listed entry same own
  · rw [changed]
    rw [changed, keepsId] at own
    exact kept before (buried.listed before listed own)

/-- An operation on one record that takes no tombstone away. -/
theorem Buried.of_performs (buried : Buried id registry) {other : ValidatorID} {write : Write}
    {result : Bool × ValidatorRegistry} (performs : Performs registry other write result)
    (kept : forall validator, validator.status = .tombstoned -> (write.record validator).status = .tombstoned)
    (keepsId : forall found listed, (write.entry found listed).id = listed.id)
    (keptListed : forall found listed, listed.status = .tombstoned -> (write.entry found listed).status = .tombstoned) :
    Buried id result.2 := by
  rcases performs with refused | ⟨validator, wrote⟩
  · rw [refused]
    exact buried
  · apply buried.written wrote.found wrote.stored (fun _ => kept validator)
    rw [wrote.set.validators]
    exact buried.listed_changeFirst (keepsId validator) (keptListed validator)

theorem Buried.bondStake (buried : Buried id registry) (other : ValidatorID) (amount : UInt64) :
    Buried id (registry.bondStake other amount).2 :=
  buried.of_performs (registry.bondStake_performs other amount) (fun _ status => status) (fun _ _ => rfl)
    (fun _ _ status => status)

theorem Buried.slashValidator (buried : Buried id registry) (other : ValidatorID) (amount : UInt64)
    (reason : SlashReason) : Buried id (registry.slashValidator other amount reason).2 :=
  buried.of_performs (registry.slashValidator_performs other amount reason) (fun _ status => status) (fun _ _ => rfl)
    (fun _ _ status => status)

theorem Buried.tombstone (buried : Buried id registry) (other : ValidatorID) :
    Buried id (registry.updateValidator other none none (some .tombstoned)).2 :=
  buried.of_performs (registry.updateValidator_performs other none none (some .tombstoned)) (fun _ _ => rfl)
    (fun _ _ => rfl) (fun _ _ _ => rfl)

theorem Buried.addValidator (buried : Buried id registry) (other : ValidatorID) (consensusKey : BLS12381PublicKey)
    (withdrawalKey : Ed25519PublicKey) (initialStake : UInt64) :
    Buried id (registry.addValidator other consensusKey withdrawalKey initialStake).2 := by
  unfold ValidatorRegistry.addValidator
  split
  · exact buried
  · rename_i fresh
    refine ⟨?_, buried.listed⟩
    rcases buried.record with ⟨validator, recorded, status⟩
    rw [OrderedMap.find_insert, if_neg]
    · exact ⟨validator, recorded, status⟩
    · rintro rfl
      rw [fresh] at recorded
      cases recorded

theorem Buried.recordSignature (buried : Buried id registry) (other : ValidatorID) (blockHeight : UInt64) :
    Buried id (registry.recordSignature other blockHeight).2 :=
  buried.of_performs (registry.recordSignature_performs other blockHeight) (fun _ status => status) (fun _ _ => rfl)
    (fun _ _ status => status)

/-- The one operation with a condition. -/
theorem Buried.unbondStake (buried : Buried id registry) (other : ValidatorID) (amount currentHeight : UInt64)
    (keeps : KeepsStake id registry (.registry (.unbondStake other amount currentHeight))) :
    Buried id (registry.unbondStake other amount currentHeight).2 := by
  rcases registry.unbondStake_performs other amount currentHeight with refused | ⟨validator, wrote⟩
  · rw [refused]
    exact buried
  · apply buried.written wrote.found wrote.stored
    · intro same status
      have remains : validator.bondedStake - amount ≠ 0 := fun nothing =>
        keeps same validator (same ▸ wrote.found) status (sub_eq_zero.mp nothing).symm
      simp only [unbondWrite, if_neg remains]
      exact status
    · rw [wrote.set.validators]
      exact buried.listed_changeFirst (fun _ => rfl) (fun _ status => status)

/-! ## Downtime and epochs -/

/-- A buried validator is not active, so its signatures are not checked. -/
theorem Buried.checkOne (buried : Buried id registry) (epoch totalBlocks : UInt64) {validator : Validator}
    (own : validator.id = id) : checkOne registry epoch totalBlocks validator = validator := by
  unfold ValidatorRegistry.checkOne
  rw [if_neg]
  intro active
  rcases List.any_eq_true.mp active with ⟨entry, listed, same⟩
  rcases List.mem_filter.mp listed with ⟨member, isActive⟩
  have status := buried.listed entry member ((eq_of_beq same).trans own)
  rw [Validator.isActive, status] at isActive
  cases isActive

theorem Buried.checkDowntime (buried : Buried id registry) (ok : RegistryOk registry) (epoch totalBlocks : UInt64) :
    Buried id (registry.checkDowntime epoch totalBlocks).2 := by
  by_cases noBlocks : totalBlocks = 0
  · rw [ValidatorRegistry.checkDowntime, if_pos noBlocks]
    exact buried
  · have set : (registry.checkDowntime epoch totalBlocks).2.currentSet = registry.currentSet := by
      rw [ValidatorRegistry.checkDowntime, if_neg noBlocks]
    refine ⟨?_, set ▸ buried.listed⟩
    rcases buried.record with ⟨validator, found, status⟩
    refine ⟨validator, ?_, status⟩
    rw [checkDowntime_validators noBlocks, found, Option.map_some,
      buried.checkOne epoch totalBlocks (ok.keyed id validator found)]

theorem selectOne_tombstoned (config : RegistryConfig) (newEpoch : UInt64) (index : Nat) {validator : Validator}
    (status : validator.status = .tombstoned) :
    (selectOne config newEpoch index validator).status = .tombstoned := by
  unfold selectOne
  simp only [status, reduceCtorEq, false_and, if_false, if_true]

theorem Buried.transitionEpoch (prim : Primitives) (buried : Buried id registry) (ok : RegistryOk registry)
    (newEpoch totalBlocks : UInt64) : Buried id (registry.transitionEpoch prim newEpoch totalBlocks).2 := by
  have checked : Buried id (registry.checkedFor newEpoch totalBlocks) := by
    unfold checkedFor
    split
    · exact buried.checkDowntime ok (newEpoch - 1) totalBlocks
    · exact buried
  have selected : forall validator, validator ∈ registry.selectedFor newEpoch totalBlocks -> validator.id = id ->
      validator.status = .tombstoned := by
    intro validator member own
    rcases ok.exists_of_mem_selectedFor member with ⟨index, before, found, rfl⟩
    rcases checked.record with ⟨recorded, recordedFound, status⟩
    rw [own, recordedFound] at found
    exact selectOne_tombstoned _ newEpoch index (Option.some.inj found ▸ status)
  refine ⟨?_, selected⟩
  rcases checked.record with ⟨recorded, found, _⟩
  rcases List.mem_map.mp (ok.selectedFor_covers newEpoch totalBlocks id recorded found) with ⟨validator, member, own⟩
  exact ⟨validator, (ok.transitionEpoch_getElem prim newEpoch totalBlocks id validator).mpr ⟨member, own⟩,
    selected validator member own⟩

/-! ## Runs -/

theorem RegistryOk.slashingCall (prim : Primitives) (ok : RegistryOk registry) (call : SlashingCall) :
    RegistryOk (registry.slashingCall prim call) := by
  cases call with
  | registry call => exact (ok.call prim call).1
  | applySlashing event totalSupply =>
      exact SlashingDetector.applySlashing_invariant (fun _ id amount kept => (kept.bondStake id amount).1)
        (fun _ id amount reason kept => (kept.slashValidator id amount reason).1) ok
        (fun _ id kept => (kept.updateValidator id none none (some .tombstoned)).1) event totalSupply

/-- The step lemma: a tombstone stays, unless its holder unbonds everything. -/
theorem Buried.slashingCall (prim : Primitives) (buried : Buried id registry) (ok : RegistryOk registry)
    {call : SlashingCall} (indirect : call.isUpdate = false) (keeps : KeepsStake id registry call) :
    Buried id (registry.slashingCall prim call) := by
  cases call with
  | applySlashing event totalSupply =>
      exact SlashingDetector.applySlashing_invariant (fun _ other amount kept => kept.bondStake other amount)
        (fun _ other amount reason kept => kept.slashValidator other amount reason) buried
        (fun _ other kept => kept.tombstone other) event totalSupply
  | registry call =>
      cases call with
      | addValidator other consensusKey withdrawalKey initialStake =>
          exact buried.addValidator other consensusKey withdrawalKey initialStake
      | bondStake other amount => exact buried.bondStake other amount
      | unbondStake other amount currentHeight => exact buried.unbondStake other amount currentHeight keeps
      | processUnbonding currentHeight => exact ⟨buried.record, buried.listed⟩
      | slashValidator other amount reason => exact buried.slashValidator other amount reason
      | updateValidator other consensusKey withdrawalKey newStatus => cases indirect
      | recordSignature other blockHeight => exact buried.recordSignature other blockHeight
      | checkDowntime epoch totalBlocks => exact buried.checkDowntime ok epoch totalBlocks
      | transitionEpoch newEpoch totalBlocks => exact buried.transitionEpoch prim ok newEpoch totalBlocks

/-- The run lemma. -/
theorem Buried.run (prim : Primitives) (buried : Buried id registry) (ok : RegistryOk registry)
    {calls : List SlashingCall} (indirect : forall call, call ∈ calls -> call.isUpdate = false)
    (keeps : Along (ValidatorRegistry.slashingCall prim) (KeepsStake id) registry calls) :
    Buried id (run (ValidatorRegistry.slashingCall prim) registry calls) := by
  have guarded := along_and keeps (along_of_forall registry indirect)
  refine (invariant_run (fun later => RegistryOk later ∧ Buried id later) ?_ ⟨ok, buried⟩ guarded).2
  rintro later call ⟨laterOk, laterBuried⟩ ⟨kept, notUpdate⟩
  exact ⟨laterOk.slashingCall prim call, laterBuried.slashingCall prim laterOk notUpdate kept⟩

/-- A safety violation buries the validator. -/
theorem buried_applySlashing (ok : RegistryOk registry) {event : SlashingEvent} {totalSupply : UInt64}
    (violation : event.reason.isSafetyViolation = true)
    (applied : (SlashingDetector.applySlashing registry event totalSupply).1 = true) :
    Buried event.validatorId (SlashingDetector.applySlashing registry event totalSupply).2.1 := by
  have bonded : forall later id amount, RegistryOk later ∧ Carries registry later ->
      RegistryOk (later.bondStake id amount).2 ∧ Carries registry (later.bondStake id amount).2 := by
    rintro later id amount ⟨laterOk, carried⟩
    exact ⟨(laterOk.bondStake id amount).1, carried.trans (laterOk.bondStake id amount).2⟩
  have slashed : forall later id amount reason, RegistryOk later ∧ Carries registry later ->
      RegistryOk (later.slashValidator id amount reason).2 ∧
        Carries registry (later.slashValidator id amount reason).2 := by
    rintro later id amount reason ⟨laterOk, carried⟩
    exact ⟨(laterOk.slashValidator id amount reason).1, carried.trans (laterOk.slashValidator id amount reason).2⟩
  rcases SlashingDetector.exists_tombstoned bonded slashed ⟨ok, Carries.refl registry⟩ violation applied with
    ⟨⟨known, knownFound⟩, punished, ⟨punishedOk, carried⟩, result⟩
  rcases carried.records event.validatorId known knownFound with ⟨validator, found⟩
  rw [result, ValidatorRegistry.updateValidator, found]
  constructor
  · exact ⟨_, (OrderedMap.find_insert _ _ _ _).trans (if_pos rfl), rfl⟩
  · intro entry member own
    rcases eq_change_of_mem_changeFirst punishedOk.distinct member own with ⟨before, _, changed⟩
    rw [changed]
    rfl

/-- Neither the registry nor the current set has the validator active. -/
structure NeverActive (id : ValidatorID) (registry : ValidatorRegistry) : Prop where
  record : forall validator, registry.validators[id]? = some validator -> validator.status ≠ .active
  listed : forall validator, validator ∈ registry.currentSet.validators -> validator.id = id ->
    validator.status ≠ .active

theorem Buried.neverActive (buried : Buried id registry) : NeverActive id registry where
  record := by
    intro validator found active
    rcases buried.record with ⟨recorded, recordedFound, status⟩
    rw [found] at recordedFound
    rw [← Option.some.inj recordedFound, active] at status
    cases status
  listed := by
    intro validator member own active
    rw [buried.listed validator member own] at active
    cases active

/-- Tombstones over every run from the empty registry.  After `apply_slashing` has
tombstoned a validator, it is active in no later state, as long as none of the
later `unbond_stake` calls takes the whole remaining stake from its tombstoned
record. -/
theorem tombstone_permanent_of_keepsStake (prim : Primitives) (config : RegistryConfig)
    (before after : List SlashingCall) (event : SlashingEvent) (totalSupply : UInt64)
    (violation : event.reason = .doubleSign ∨ event.reason = .surroundVote)
    (applied : (SlashingDetector.applySlashing (run (slashingCall prim) (create config) before) event totalSupply).1 =
      true)
    (indirect : forall call, call ∈ after -> call.isUpdate = false)
    (keeps : Along (slashingCall prim) (KeepsStake event.validatorId)
      (run (slashingCall prim) (create config) (before ++ [.applySlashing event totalSupply])) after) :
    NeverActive event.validatorId
      (run (slashingCall prim) (create config) (before ++ .applySlashing event totalSupply :: after)) := by
  have safety : event.reason.isSafetyViolation = true := by
    rcases violation with same | same
    · rw [same]
      rfl
    · rw [same]
      rfl
  have ok : RegistryOk (run (slashingCall prim) (create config) before) :=
    invariant_run RegistryOk (fun _ call kept _ => kept.slashingCall prim call) (registryOk_create config)
      (along_true _ before)
  have buried := buried_applySlashing ok safety applied
  rw [run_append] at keeps ⊢
  exact (buried.run prim (ok.slashingCall prim (.applySlashing event totalSupply)) indirect keeps).neverActive

/-! ## A tombstone that is lifted -/

/-- A double sign of validator one, with a penalty of four. -/
def doubleSign : SlashingEvent := ⟨numbered 1, 1, .doubleSign, 4, []⟩

/-- Two validators become active. -/
def twoActive : List SlashingCall := [newcomer 1 20, newcomer 2 10, .transitionEpoch 1 0].map .registry

theorem tombstone_permanent_of_keepsStake_partial :
    NeverActive (numbered 1) (run (slashingCall Transparent.primitives) (create smallConfig)
      (twoActive ++ .applySlashing doubleSign 100 ::
        [.registry (.unbondStake (numbered 1) 6 3), .registry (.bondStake (numbered 1) 50),
          .registry (.transitionEpoch 2 0)])) := by
  apply tombstone_permanent_of_keepsStake Transparent.primitives smallConfig twoActive _ doubleSign 100 (Or.inl rfl)
    (by decide +kernel)
  · decide
  · refine ⟨?_, trivial, trivial, trivial⟩
    intro _ validator found _ same
    have stake : (run (slashingCall Transparent.primitives) (create smallConfig)
        (twoActive ++ [.applySlashing doubleSign 100])).validators[(numbered 1)]?.map
          Validator.bondedStake = some 16 := by decide +kernel
    have sixteen : 16 = validator.bondedStake :=
      Option.some.inj (stake.symm.trans (congrArg (Option.map Validator.bondedStake) found))
    rw [← sixteen] at same
    revert same
    decide

/-- The tombstoned validator unbonds its sixteen tokens, which writes `Standby` to
its record, bonds again, and is active in the next epoch. -/
theorem unbonding_lifts_tombstone :
    (SlashingDetector.applySlashing (run (slashingCall Transparent.primitives) (create smallConfig) twoActive)
      doubleSign 100).1 = true ∧
    ¬ NeverActive (numbered 1) (run (slashingCall Transparent.primitives) (create smallConfig)
      (twoActive ++ .applySlashing doubleSign 100 ::
        [.registry (.unbondStake (numbered 1) 16 3), .registry (.bondStake (numbered 1) 50),
          .registry (.transitionEpoch 2 0)])) := by
  refine ⟨by decide +kernel, ?_⟩
  intro never
  have active : (run (slashingCall Transparent.primitives) (create smallConfig)
      (twoActive ++ .applySlashing doubleSign 100 ::
        [.registry (.unbondStake (numbered 1) 16 3), .registry (.bondStake (numbered 1) 50),
          .registry (.transitionEpoch 2 0)])).validators[(numbered 1)]?.map Validator.status =
      some .active := by decide +kernel
  rcases Option.map_eq_some_iff.mp active with ⟨validator, found, status⟩
  exact never.record validator found status

end ValidatorRegistry
end Consensus
end Sarafu

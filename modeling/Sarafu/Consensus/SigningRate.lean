import Sarafu.Consensus.ActivePlaces
import Sarafu.Consensus.Doubles

namespace Sarafu
namespace Consensus

open Crypto State Library.Runs

/-!
# What the signing rate counts

An epoch transition sets the signatures of every record to zero, and every call of
`recordSignature` adds one to the record of its id.  The height of the call is not read.
So the downtime check compares the number of calls with the threshold: a height that is
recorded twice counts twice, and can stand for one that was missed.
-/

namespace ValidatorRegistry

/-- The calls of `recordSignature` in an epoch: an id and a height. -/
abbrev Signatures := List (ValidatorID × UInt64)

/-- The registry after these calls. -/
def signed (registry : ValidatorRegistry) (signatures : Signatures) : ValidatorRegistry :=
  run (fun registry signature => (registry.recordSignature signature.1 signature.2).2) registry signatures

/-- The number of calls for an id. -/
def recordedBy (signatures : Signatures) (id : ValidatorID) : Nat :=
  signatures.countP fun signature => decide (signature.1 = id)

/-- The number of distinct heights of the epoch among the calls for an id. -/
def heightsOf (signatures : Signatures) (heights : Finset UInt64) (id : ValidatorID) : Nat :=
  (heights.filter fun height => (id, height) ∈ signatures).card

/-- The id is reported if and only if less than 95 percent of the blocks have one of the
heights. -/
def RateCountsHeights (registry : ValidatorRegistry) (epoch totalBlocks : UInt64) (id : ValidatorID)
    (distinct : Nat) : Prop :=
  id ∈ (registry.checkDowntime epoch totalBlocks).1 <-> 20 * distinct < 19 * totalBlocks.toNat

/-- The heights are too few, but the calls are enough. -/
def Masked (distinct recorded : Nat) (totalBlocks : UInt64) : Prop :=
  20 * distinct < 19 * totalBlocks.toNat ∧ 19 * totalBlocks.toNat ≤ 20 * (recorded % 2 ^ 64)

/-- The heights are enough, but the counter of the calls has started again from zero. -/
def Wrapped (distinct recorded : Nat) (totalBlocks : UInt64) : Prop :=
  20 * (recorded % 2 ^ 64) < 19 * totalBlocks.toNat ∧ 19 * totalBlocks.toNat ≤ 20 * distinct

variable {registry : ValidatorRegistry} {signatures : Signatures} {id : ValidatorID} {validator : Validator}

/-! ## The counter -/

/-- The record after a number of calls. -/
def withSignatures (recorded : Nat) (validator : Validator) : Validator :=
  { validator with blocksSignedThisEpoch := validator.blocksSignedThisEpoch + UInt64.ofNat recorded }

theorem withSignatures_zero (validator : Validator) : withSignatures 0 validator = validator := by
  simp [withSignatures]

theorem withSignatures_succ (recorded : Nat) (validator : Validator) :
    withSignatures recorded (withSignatures 1 validator) = withSignatures (recorded + 1) validator := by
  simp only [withSignatures, UInt64.ofNat_add, Validator.mk.injEq, true_and, and_true]
  rw [UInt64.add_assoc, UInt64.add_comm (UInt64.ofNat 1)]

/-- One call counts for its own id only. -/
theorem validators_recordSignature (registry : ValidatorRegistry) (signer id : ValidatorID) (height : UInt64) :
    (registry.recordSignature signer height).2.validators[id]? =
      (registry.validators[id]?).map fun v => if signer = id then withSignatures 1 v else v := by
  apply (registry.recordSignature_performs signer height).lookup
  intro validator found
  simp [recordSignature, found]

theorem validators_signed (registry : ValidatorRegistry) (signatures : Signatures) (id : ValidatorID) :
    (registry.signed signatures).validators[id]? =
      (registry.validators[id]?).map (withSignatures (recordedBy signatures id)) := by
  induction signatures generalizing registry with
  | nil =>
      cases found : registry.validators[id]? with
      | none => simp [signed, found]
      | some validator => simp [signed, recordedBy, withSignatures_zero, found]
  | cons signature rest inductionHypothesis =>
      have later := inductionHypothesis (registry.recordSignature signature.1 signature.2).2
      rw [validators_recordSignature, Option.map_map] at later
      apply later.trans
      congr 1
      funext validator
      by_cases same : signature.1 = id
      · simp [recordedBy, same, withSignatures_succ]
      · simp [recordedBy, same]

theorem signed_frame (registry : ValidatorRegistry) (signatures : Signatures) :
    (registry.signed signatures).currentSet = registry.currentSet ∧
      (registry.signed signatures).config = registry.config := by
  refine invariant_run (fun after : ValidatorRegistry =>
    after.currentSet = registry.currentSet ∧ after.config = registry.config) ?_ ⟨rfl, rfl⟩ (along_true _ signatures)
  rintro before signature kept _
  unfold recordSignature
  cases before.validators[signature.1]? with
  | none => exact kept
  | some validator => exact kept

/-- Every record starts the epoch without signatures. -/
theorem selectOne_blocksSigned (config : RegistryConfig) (newEpoch : UInt64) (index : Nat) (ranked : Validator) :
    (selectOne config newEpoch index ranked).blocksSignedThisEpoch = 0 := by
  have reset : (released newEpoch ranked).blocksSignedThisEpoch = 0 := by
    unfold released
    simp only []
    split
    · rfl
    · rfl
  rw [selectOne_eq]
  split_ifs
  all_goals exact reset

theorem RegistryOk.blocksSigned_transitionEpoch (prim : Primitives) (ok : RegistryOk registry)
    {newEpoch totalBlocks : UInt64}
    (found : (registry.transitionEpoch prim newEpoch totalBlocks).2.validators[id]? = some validator) :
    validator.blocksSignedThisEpoch = 0 := by
  have selected := ((ok.transitionEpoch_getElem prim newEpoch totalBlocks id validator).mp found).1
  rcases ok.exists_of_mem_selectedFor selected with ⟨index, before, _, rfl⟩
  exact selectOne_blocksSigned _ _ _ _

/-! ## The report -/

/-- Who is active in the current set is reported if and only if its signatures are below the
threshold. -/
theorem RegistryOk.mem_checkDowntime_iff (ok : RegistryOk registry) {epoch totalBlocks : UInt64}
    (someBlocks : totalBlocks ≠ 0) (found : registry.validators[id]? = some validator)
    (active : ∃ entry, entry ∈ registry.currentSet.getActiveValidators ∧ entry.id = id) :
    id ∈ (registry.checkDowntime epoch totalBlocks).1 <->
      isDown registry.config.downtimeThreshold validator.blocksSignedThisEpoch totalBlocks = true := by
  have expected : (registry.currentSet.getActiveValidators.any fun entry => entry.id == validator.id) = true := by
    rw [ok.keyed id validator found]
    simpa using active
  have violating : violates registry totalBlocks validator =
      isDown registry.config.downtimeThreshold validator.blocksSignedThisEpoch totalBlocks := by
    rw [violates, expected, Bool.true_and]
  rw [ok.reported_iff someBlocks, found, ← violating]
  simp

theorem RegistryOk.signed (ok : RegistryOk registry) (signatures : Signatures) :
    RegistryOk (registry.signed signatures) :=
  invariant_run RegistryOk (fun _ signature kept _ => (kept.recordSignature signature.1 signature.2).1) ok
    (along_true _ signatures)

/-- After a transition, an active validator is reported if and only if the number of its
calls is below the threshold. -/
theorem RegistryOk.reported_iff_recorded (prim : Primitives) (ok : RegistryOk registry)
    {newEpoch previousBlocks epoch totalBlocks : UInt64} (signatures : Signatures) (someBlocks : totalBlocks ≠ 0)
    (active : ∃ entry, entry ∈ (registry.transitionEpoch prim newEpoch previousBlocks).1.getActiveValidators ∧
      entry.id = id) :
    id ∈ (((registry.transitionEpoch prim newEpoch previousBlocks).2.signed signatures).checkDowntime epoch
        totalBlocks).1 <->
      isDown registry.config.downtimeThreshold (UInt64.ofNat (recordedBy signatures id)) totalBlocks = true := by
  have okAfter := (ok.transitionEpoch prim newEpoch previousBlocks).1
  have config : (registry.transitionEpoch prim newEpoch previousBlocks).2.config = registry.config :=
    config_call prim registry (.transitionEpoch newEpoch previousBlocks)
  have frame := (registry.transitionEpoch prim newEpoch previousBlocks).2.signed_frame signatures
  have listed : id ∈ (registry.transitionEpoch prim newEpoch previousBlocks).2.listedIds := by
    rcases active with ⟨entry, member, rfl⟩
    exact List.mem_map_of_mem (List.mem_of_mem_filter member)
  rcases okAfter.registered id listed with ⟨validator, found⟩
  have stored := validators_signed (registry.transitionEpoch prim newEpoch previousBlocks).2 signatures id
  rw [found, Option.map_some] at stored
  rw [(okAfter.signed signatures).mem_checkDowntime_iff someBlocks stored (by rw [frame.1]; exact active), frame.2,
    config, withSignatures, ok.blocksSigned_transitionEpoch prim found, UInt64.zero_add]

/-! ## The rate -/

/-- The default threshold is exact for counts of a realistic size. -/
theorem isDown_default {recorded totalBlocks : UInt64} (someBlocks : totalBlocks ≠ 0)
    (small : recorded.toNat * 20 + 19 * totalBlocks.toNat < 2 ^ 53) :
    isDown (toDouble (95 / 100)) recorded totalBlocks = true <-> 20 * recorded.toNat < 19 * totalBlocks.toNat := by
  have positive : 0 < totalBlocks.toNat := Nat.pos_of_ne_zero fun zero => someBlocks (UInt64.toNat_inj.mp zero)
  have threshold : (95 : Rat) / 100 = (19 : Nat) / (20 : Nat) := by norm_num
  rw [isDown, decide_eq_true_eq, threshold, toDouble_div_lt_iff positive (by decide) (by decide) small, Nat.mul_comm]

/-- No more heights are recorded than calls are made. -/
theorem heightsOf_le_recordedBy (signatures : Signatures) (heights : Finset UInt64) (id : ValidatorID) :
    heightsOf signatures heights id ≤ recordedBy signatures id := by
  have listed : (heights.filter fun height => (id, height) ∈ signatures) ⊆
      ((signatures.filter fun signature => decide (signature.1 = id)).map Prod.snd).toFinset := by
    intro height member
    simpa using (Finset.mem_filter.mp member).2
  calc heightsOf signatures heights id
      ≤ ((signatures.filter fun signature => decide (signature.1 = id)).map Prod.snd).toFinset.card :=
        Finset.card_le_card listed
    _ ≤ ((signatures.filter fun signature => decide (signature.1 = id)).map Prod.snd).length :=
        List.toFinset_card_le _
    _ = recordedBy signatures id := by rw [List.length_map, recordedBy, List.countP_eq_length_filter]

/-- With less than `2^64` calls the counter has not started again. -/
theorem not_wrapped (heights : Finset UInt64) (totalBlocks : UInt64) (fits : recordedBy signatures id < 2 ^ 64) :
    ¬Wrapped (heightsOf signatures heights id) (recordedBy signatures id) totalBlocks := by
  have fewer := heightsOf_le_recordedBy signatures heights id
  rw [Wrapped, Nat.mod_eq_of_lt fits]
  omega

/-- No height is recorded twice for the id, and only heights of the epoch are. -/
structure EachHeightOnce (signatures : Signatures) (heights : Finset UInt64) (id : ValidatorID) : Prop where
  once : forall height, signatures.count (id, height) ≤ 1
  inEpoch : forall height, (id, height) ∈ signatures -> height ∈ heights

/-- Then there are as many calls as heights. -/
theorem EachHeightOnce.recordedBy_le {heights : Finset UInt64} (each : EachHeightOnce signatures heights id) :
    recordedBy signatures id ≤ heightsOf signatures heights id := by
  have nodup : ((signatures.filter fun signature => decide (signature.1 = id)).map Prod.snd).Nodup := by
    refine List.Nodup.map_on ?_ (List.nodup_iff_count_le_one.mpr ?_)
    · intro first firstListed second secondListed same
      exact Prod.ext ((of_decide_eq_true (List.mem_filter.mp firstListed).2).trans
        (of_decide_eq_true (List.mem_filter.mp secondListed).2).symm) same
    · intro signature
      by_cases listed : signature ∈ signatures.filter fun signature => decide (signature.1 = id)
      · have own : signature = (id, signature.2) := Prod.ext (of_decide_eq_true (List.mem_filter.mp listed).2) rfl
        refine Nat.le_trans (List.filter_sublist.count_le signature) ?_
        rw [own]
        exact each.once signature.2
      · rw [List.count_eq_zero_of_not_mem listed]
        exact Nat.zero_le 1
  have counted : ((signatures.filter fun signature => decide (signature.1 = id)).map Prod.snd).toFinset ⊆
      heights.filter fun height => (id, height) ∈ signatures := by
    intro height member
    rcases List.mem_map.mp (List.mem_toFinset.mp member) with ⟨signature, listed, rfl⟩
    rcases List.mem_filter.mp listed with ⟨recorded, own⟩
    have named : (id, signature.2) ∈ signatures := by
      rw [← of_decide_eq_true own]
      exact recorded
    exact Finset.mem_filter.mpr ⟨each.inEpoch _ named, named⟩
  calc recordedBy signatures id
      = ((signatures.filter fun signature => decide (signature.1 = id)).map Prod.snd).toFinset.card := by
        rw [List.toFinset_card_of_nodup nodup, List.length_map, recordedBy, List.countP_eq_length_filter]
    _ ≤ heightsOf signatures heights id := Finset.card_le_card counted

/-- The signing rate counts heights if and only if no repeated call masks a missed height,
and the counter of the calls does not lose one.  So it does where every height is recorded
once, in less than `2^64` calls. -/
theorem rateCountsHeights_iff (prim : Primitives) (config : RegistryConfig) (calls : List RegistryCall)
    (newEpoch previousBlocks epoch totalBlocks : UInt64) (signatures : Signatures) (heights : Finset UInt64)
    (id : ValidatorID)
    (active : ∃ entry, entry ∈ ((run (ValidatorRegistry.call prim) (create config) calls).transitionEpoch prim
      newEpoch previousBlocks).1.getActiveValidators ∧ entry.id = id)
    (exactly : totalBlocks ≠ 0 ->
      (isDown config.downtimeThreshold (UInt64.ofNat (recordedBy signatures id)) totalBlocks = true <->
        20 * (UInt64.ofNat (recordedBy signatures id)).toNat < 19 * totalBlocks.toNat)) :
    (RateCountsHeights (((run (ValidatorRegistry.call prim) (create config) calls).transitionEpoch prim newEpoch
        previousBlocks).2.signed signatures) epoch totalBlocks id (heightsOf signatures heights id) <->
      ¬Masked (heightsOf signatures heights id) (recordedBy signatures id) totalBlocks ∧
        ¬Wrapped (heightsOf signatures heights id) (recordedBy signatures id) totalBlocks) ∧
    (EachHeightOnce signatures heights id -> recordedBy signatures id < 2 ^ 64 ->
      RateCountsHeights (((run (ValidatorRegistry.call prim) (create config) calls).transitionEpoch prim newEpoch
        previousBlocks).2.signed signatures) epoch totalBlocks id (heightsOf signatures heights id)) := by
  have ok := registryOk_run prim config calls
  have exact_iff : RateCountsHeights (((run (ValidatorRegistry.call prim) (create config) calls).transitionEpoch prim
        newEpoch previousBlocks).2.signed signatures) epoch totalBlocks id (heightsOf signatures heights id) <->
      ¬Masked (heightsOf signatures heights id) (recordedBy signatures id) totalBlocks ∧
        ¬Wrapped (heightsOf signatures heights id) (recordedBy signatures id) totalBlocks := by
    rw [RateCountsHeights, Masked, Wrapped]
    by_cases noBlocks : totalBlocks = 0
    · subst noBlocks
      simp [checkDowntime]
    · rw [ok.reported_iff_recorded prim signatures noBlocks active, config_run, exactly noBlocks, UInt64.toNat_ofNat']
      omega
  refine ⟨exact_iff, fun each fits => exact_iff.mpr ⟨?_, not_wrapped heights totalBlocks fits⟩⟩
  have counted := each.recordedBy_le
  rw [Masked, Nat.mod_eq_of_lt fits]
  omega

/-- The first height is recorded twice, and the second one is missed. -/
def proposedAndVoted : Signatures := [(numbered 1, 1), (numbered 1, 1)]

theorem rateCountsHeights_iff_proposedAndVoted :
    RateCountsHeights (((run (ValidatorRegistry.call Transparent.primitives) (create {})
        [newcomer 1 200000]).transitionEpoch Transparent.primitives 1 0).2.signed proposedAndVoted) 1 2 (numbered 1)
        (heightsOf proposedAndVoted {1, 2} (numbered 1)) <->
      ¬Masked (heightsOf proposedAndVoted {1, 2} (numbered 1)) (recordedBy proposedAndVoted (numbered 1)) 2 ∧
        ¬Wrapped (heightsOf proposedAndVoted {1, 2} (numbered 1)) (recordedBy proposedAndVoted (numbered 1)) 2 := by
  apply (rateCountsHeights_iff Transparent.primitives {} [newcomer 1 200000] 1 0 1 2 proposedAndVoted {1, 2}
    (numbered 1) ?_ ?_).1
  · decide +kernel
  · intro someBlocks
    exact isDown_default someBlocks (by decide)

/-- One of two heights is signed, and the validator is not reported. -/
theorem rateCountsHeights_fails_twice :
    ¬RateCountsHeights (((run (ValidatorRegistry.call Transparent.primitives) (create {})
      [newcomer 1 200000]).transitionEpoch Transparent.primitives 1 0).2.signed proposedAndVoted) 1 2 (numbered 1)
      (heightsOf proposedAndVoted {1, 2} (numbered 1)) := by
  unfold RateCountsHeights
  decide +kernel

end ValidatorRegistry
end Consensus
end Sarafu

import Sarafu.Consensus.CheckpointSoundness

namespace Sarafu
namespace Consensus

open Crypto State

/-!
# Aggregating the signatures of a checkpoint

`aggregate_signatures` reads a map of signatures in the order of the ids and keeps the
entries of set members.  The signatures, the signers and the stake all come from the kept
entries, so `verify_checkpoint` counts the same stake again and collects the keys in the
order in which the signatures were added.
-/

namespace CheckpointManager

/-- What the loop over the signatures has gathered. -/
structure Gathered where
  sigList : List BLS12381Signature
  signerList : List ValidatorID
  totalStake : UInt64
deriving DecidableEq

/-- One pass of the loop; the entry of a stranger is skipped.  The status of a member is
not read. -/
def gather (set : ValidatorSet) (gathered : Gathered) (entry : ValidatorID × BLS12381Signature) : Gathered :=
  match set.findValidator entry.1 with
  | none => gathered
  | some validator =>
      ⟨gathered.sigList ++ [entry.2], gathered.signerList ++ [entry.1], gathered.totalStake + validator.bondedStake⟩

def gatherAll (set : ValidatorSet) (signatures : OrderedMap ValidatorID BLS12381Signature) : Gathered :=
  signatures.toList.foldl (gather set) ⟨[], [], 0⟩

/-- No member at all makes `aggregate` throw, if the threshold is zero. -/
def aggregateSignatures (prim : Primitives) (checkpoint : WeakSubjectivityCheckpoint)
    (signatures : OrderedMap ValidatorID BLS12381Signature) (set : ValidatorSet) :
    Except Failure (Option WeakSubjectivityCheckpoint) :=
  let gathered := gatherAll set signatures
  if gathered.totalStake < ValidatorSet.requiredStake set.totalStake then .ok none
  else
    match BLS12381.aggregate prim gathered.sigList with
    | .error failure => .error failure
    | .ok aggregatedSig => .ok (some { checkpoint with
        aggregatedSignature := aggregatedSig
        signers := gathered.signerList
        totalStakeSigned := gathered.totalStake })

/-- Every entry of a set member is a signature on the checkpoint. -/
def EntriesValid (prim : Primitives) (checkpoint : WeakSubjectivityCheckpoint)
    (signatures : OrderedMap ValidatorID BLS12381Signature) (set : ValidatorSet) : Prop :=
  forall id signature, signatures[id]? = some signature -> forall validator, set.findValidator id = some validator ->
    BLS12381.verify prim signature (checkpoint.hash prim).serialize validator.consensusKey = true

/-- The stake of the set members among the keys of the map, over the natural numbers. -/
def memberStake (signatures : OrderedMap ValidatorID BLS12381Signature) (set : ValidatorSet) : Nat :=
  ((set.validators.filter fun validator => signatures.contains validator.id).map fun validator =>
    validator.bondedStake.toNat).sum

variable {prim : Primitives} {checkpoint : WeakSubjectivityCheckpoint} {set : ValidatorSet}
  {signatures : OrderedMap ValidatorID BLS12381Signature}

/-! ## What the loop gathers -/

/-- The entries that the loop keeps. -/
def memberEntries (set : ValidatorSet) (entries : List (ValidatorID × BLS12381Signature)) :
    List (ValidatorID × BLS12381Signature) :=
  entries.filter fun entry => (set.findValidator entry.1).isSome

theorem foldl_gather (entries : List (ValidatorID × BLS12381Signature)) (start : Gathered) :
    entries.foldl (gather set) start =
      ⟨start.sigList ++ (memberEntries set entries).map Prod.snd,
        start.signerList ++ (memberEntries set entries).map Prod.fst,
        ((memberEntries set entries).map Prod.fst).foldl (fun total signer => total + set.listedStake signer)
          start.totalStake⟩ := by
  induction entries generalizing start with
  | nil => simp only [memberEntries, List.foldl_nil, List.filter_nil, List.map_nil, List.append_nil]
  | cons entry rest inductionHypothesis =>
      rw [List.foldl_cons, inductionHypothesis]
      cases found : set.findValidator entry.1 with
      | none => simp only [gather, memberEntries, found, Option.isSome_none, Bool.false_eq_true, not_false_eq_true,
          List.filter_cons_of_neg]
      | some validator => simp only [gather, memberEntries, found, Option.isSome_some, List.filter_cons_of_pos,
          List.map_cons, List.foldl_cons, ValidatorSet.listedStake, List.append_assoc, List.singleton_append]

theorem gatherAll_eq (set : ValidatorSet) (signatures : OrderedMap ValidatorID BLS12381Signature) :
    gatherAll set signatures =
      ⟨(memberEntries set signatures.toList).map Prod.snd, (memberEntries set signatures.toList).map Prod.fst,
        set.countedStake ((memberEntries set signatures.toList).map Prod.fst)⟩ := by
  rw [gatherAll, foldl_gather, List.nil_append, List.nil_append, ValidatorSet.countedStake]

theorem mem_memberEntries {entry : ValidatorID × BLS12381Signature} :
    entry ∈ memberEntries set signatures.toList <->
      signatures[entry.1]? = some entry.2 ∧ (set.findValidator entry.1).isSome = true := by
  rw [memberEntries, List.mem_filter, Std.ExtTreeMap.mem_toList_iff_getElem?_eq_some]

/-- The signers are the members among the keys, in another order. -/
theorem signers_perm (distinct : set.DistinctIds) :
    ((memberEntries set signatures.toList).map Prod.fst).Perm
      ((set.validators.filter fun validator => signatures.contains validator.id).map Validator.id) := by
  have keys : (signatures.toList.map Prod.fst).Nodup := by
    rw [Std.ExtTreeMap.map_fst_toList_eq_keys]
    exact Std.ExtTreeMap.nodup_keys
  have signersDistinct : ((memberEntries set signatures.toList).map Prod.fst).Nodup :=
    (List.filter_sublist.map Prod.fst).nodup keys
  have idsDistinct : ((set.validators.filter fun validator => signatures.contains validator.id).map
      Validator.id).Nodup := (List.filter_sublist.map Validator.id).nodup distinct
  rw [List.perm_ext_iff_of_nodup signersDistinct idsDistinct]
  intro id
  rw [List.mem_map, List.mem_map]
  constructor
  · rintro ⟨entry, kept, rfl⟩
    rcases mem_memberEntries.mp kept with ⟨stored, known⟩
    rcases Option.isSome_iff_exists.mp known with ⟨validator, found⟩
    rcases ValidatorSet.findValidator_mem found with ⟨listed, same⟩
    refine ⟨validator, List.mem_filter.mpr ⟨listed, ?_⟩, same⟩
    rw [same, Std.ExtTreeMap.contains_eq_isSome_getElem?, stored]
    rfl
  · rintro ⟨validator, kept, rfl⟩
    rcases List.mem_filter.mp kept with ⟨listed, signed⟩
    rw [Std.ExtTreeMap.contains_eq_isSome_getElem?] at signed
    rcases Option.isSome_iff_exists.mp signed with ⟨signature, stored⟩
    refine ⟨(validator.id, signature), mem_memberEntries.mpr ⟨stored, ?_⟩, rfl⟩
    rw [ValidatorSet.findValidator_of_mem distinct listed]
    rfl

theorem sum_listedStake_signers (distinct : set.DistinctIds) :
    (((memberEntries set signatures.toList).map Prod.fst).map fun signer => (set.listedStake signer).toNat).sum =
      memberStake signatures set := by
  rw [((signers_perm distinct).map _).sum_eq, List.map_map, memberStake]
  apply congrArg List.sum
  apply List.map_congr_left
  intro validator kept
  rw [Function.comp_apply, ValidatorSet.listedStake,
    ValidatorSet.findValidator_of_mem distinct (List.mem_filter.mp kept).1]

theorem memberStake_le (signatures : OrderedMap ValidatorID BLS12381Signature) (set : ValidatorSet) :
    memberStake signatures set ≤ (set.validators.map fun validator => validator.bondedStake.toNat).sum :=
  (List.filter_sublist.map _).sum_le_sum fun _ _ => Nat.zero_le _

/-- Without overflow the gathered stake is the stake of the members. -/
theorem totalStake_gatherAll (signatures : OrderedMap ValidatorID BLS12381Signature) (distinct : set.DistinctIds)
    (bounded : (set.validators.map fun validator => validator.bondedStake.toNat).sum < 2 ^ 64) :
    (gatherAll set signatures).totalStake.toNat = memberStake signatures set := by
  rw [gatherAll_eq, ValidatorSet.countedStake_toNat, sum_listedStake_signers distinct]
  exact Nat.mod_eq_of_lt (Nat.lt_of_le_of_lt (memberStake_le signatures set) bounded)

/-! ## The verifier reads what the loop has gathered -/

/-- Valid entries aggregate, and the aggregate verifies under the keys of the signers. -/
theorem exists_aggregate_gatherAll (complete : BLS12381.AggregationComplete prim)
    (valid : EntriesValid prim checkpoint signatures set) (nonempty : (gatherAll set signatures).signerList ≠ []) :
    ∃ aggregated, BLS12381.aggregate prim (gatherAll set signatures).sigList = .ok aggregated ∧
      BLS12381.verifyAggregated prim aggregated (checkpoint.hash prim).serialize
        ((gatherAll set signatures).signerList.map set.consensusKeyOf) = .ok true := by
  rw [gatherAll_eq] at nonempty ⊢
  simp only [ne_eq, List.map_eq_nil_iff] at nonempty
  let parts := (memberEntries set signatures.toList).map fun entry => (entry.2, set.consensusKeyOf entry.1)
  have signaturesOf : (memberEntries set signatures.toList).map Prod.snd = parts.map Prod.fst := by
    rw [List.map_map]
    rfl
  have keysOf : ((memberEntries set signatures.toList).map Prod.fst).map set.consensusKeyOf = parts.map Prod.snd := by
    rw [List.map_map, List.map_map]
    rfl
  have verified : forall part, part ∈ parts ->
      BLS12381.verify prim part.1 (checkpoint.hash prim).serialize part.2 = true := by
    intro part member
    rcases List.mem_map.mp member with ⟨entry, kept, rfl⟩
    rcases mem_memberEntries.mp kept with ⟨stored, known⟩
    rcases Option.isSome_iff_exists.mp known with ⟨validator, found⟩
    rw [ValidatorSet.consensusKeyOf, found]
    exact valid entry.1 entry.2 stored validator found
  rw [signaturesOf, keysOf]
  exact complete _ parts (fun empty => nonempty (List.map_eq_nil_iff.mp empty)) verified

/-- A signed checkpoint is accepted, whatever stake it has reached the threshold with. -/
theorem verifyCheckpoint_gatherAll {aggregated : BLS12381Signature}
    (reached : ValidatorSet.requiredStake set.totalStake ≤ (gatherAll set signatures).totalStake)
    (verified : BLS12381.verifyAggregated prim aggregated (checkpoint.hash prim).serialize
      ((gatherAll set signatures).signerList.map set.consensusKeyOf) = .ok true) :
    verifyCheckpoint prim { checkpoint with
      aggregatedSignature := aggregated
      signers := (gatherAll set signatures).signerList
      totalStakeSigned := (gatherAll set signatures).totalStake } set = .ok true := by
  refine verifyCheckpoint_eq_true_iff.mpr ⟨reached, ?_, ?_, verified⟩
  · intro signer member
    rw [gatherAll_eq] at member
    rcases List.mem_map.mp member with ⟨entry, kept, rfl⟩
    exact (mem_memberEntries.mp kept).2
  · rw [gatherAll_eq]

/-- Valid signatures give a checkpoint exactly if the members among the signers hold two
thirds, and the verifier accepts it. -/
theorem aggregateSignatures_verifies (prim : Primitives) (complete : BLS12381.AggregationComplete prim)
    (checkpoint : WeakSubjectivityCheckpoint) (set : ValidatorSet) (distinct : set.DistinctIds)
    (positive : 0 < set.totalStake) (fits : 2 * set.totalStake.toNat + 2 < 2 ^ 64)
    (bounded : (set.validators.map fun validator => validator.bondedStake.toNat).sum < 2 ^ 64)
    (signatures : OrderedMap ValidatorID BLS12381Signature)
    (valid : EntriesValid prim checkpoint signatures set) :
    ∃ returned, aggregateSignatures prim checkpoint signatures set = .ok returned ∧
      (returned.isSome = true <-> 2 * set.totalStake.toNat ≤ 3 * memberStake signatures set) ∧
      forall signed, returned = some signed -> verifyCheckpoint prim signed set = .ok true := by
  have stake := totalStake_gatherAll signatures distinct bounded
  have threshold : ValidatorSet.requiredStake set.totalStake ≤ (gatherAll set signatures).totalStake <-> _ :=
    ValidatorSet.requiredStake_le_iff fits
  rw [stake] at threshold
  unfold aggregateSignatures
  by_cases short : (gatherAll set signatures).totalStake < ValidatorSet.requiredStake set.totalStake
  · refine ⟨none, if_pos short, ?_, nofun⟩
    rw [← threshold]
    exact ⟨nofun, fun reached => absurd short (UInt64.not_lt.mpr reached)⟩
  · have reached := UInt64.not_lt.mp short
    have enough := threshold.mp reached
    have nonempty : (gatherAll set signatures).signerList ≠ [] := by
      intro empty
      have total := UInt64.lt_iff_toNat_lt.mp positive
      have nobody : (memberEntries set signatures.toList).map Prod.fst = [] := by
        rw [gatherAll_eq] at empty
        exact empty
      rw [← sum_listedStake_signers distinct, nobody] at enough
      exact absurd enough (Nat.not_le.mpr (Nat.mul_pos Nat.two_pos total))
    rcases exists_aggregate_gatherAll complete valid nonempty with ⟨aggregated, formed, verified⟩
    simp only [if_neg short, formed]
    refine ⟨_, rfl, ⟨fun _ => enough, fun _ => rfl⟩, ?_⟩
    intro signed same
    rw [← Option.some.inj same]
    exact verifyCheckpoint_gatherAll reached verified

/-- Two of three validators sign, and a stranger sends an entry that is no signature. -/
def twoSignatures : OrderedMap ValidatorID BLS12381Signature :=
  let signature := BLS12381.sign Transparent.primitives (doubledCheckpoint.hash Transparent.primitives).serialize
    (FixedBytes.ofNat 32 1)
  ((∅ : OrderedMap ValidatorID BLS12381Signature).insert (FixedBytes.ofNat 32 1) signature).insert
    (FixedBytes.ofNat 32 3) signature |>.insert (FixedBytes.ofNat 32 9) (FixedBytes.zero 96)

theorem twoSignatures_valid :
    EntriesValid Transparent.primitives doubledCheckpoint twoSignatures (unitSet 3) := by
  have stranger : (unitSet 3).findValidator (FixedBytes.ofNat 32 9) = none := by decide +kernel
  have signs : Transparent.uncompress (BLS12381.sign Transparent.primitives
      (doubledCheckpoint.hash Transparent.primitives).serialize (FixedBytes.ofNat 32 1)) =
        some (doubledCheckpoint.hash Transparent.primitives).serialize := by decide +kernel
  intro id signature stored validator found
  rw [Transparent.verify_iff]
  unfold twoSignatures at stored
  rw [OrderedMap.find_insert, OrderedMap.find_insert, OrderedMap.find_insert] at stored
  split at stored
  · rename_i same
    rw [same, stranger] at found
    cases found
  · split at stored
    · rw [← Option.some.inj stored]
      exact signs
    · split at stored
      · rw [← Option.some.inj stored]
        exact signs
      · rw [Std.ExtTreeMap.getElem?_empty] at stored
        cases stored

theorem aggregateSignatures_verifies_two :
    ∃ returned,
      aggregateSignatures Transparent.primitives doubledCheckpoint twoSignatures (unitSet 3) = .ok returned ∧
      (returned.isSome = true <->
        2 * (unitSet 3).totalStake.toNat ≤ 3 * memberStake twoSignatures (unitSet 3)) ∧
      forall signed, returned = some signed ->
        verifyCheckpoint Transparent.primitives signed (unitSet 3) = .ok true :=
  aggregateSignatures_verifies Transparent.primitives Transparent.aggregationComplete doubledCheckpoint (unitSet 3)
    (by unfold ValidatorSet.DistinctIds; decide +kernel) (by decide) (by decide) (by decide +kernel) twoSignatures
    twoSignatures_valid

end CheckpointManager
end Consensus
end Sarafu

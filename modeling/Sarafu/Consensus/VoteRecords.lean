import Sarafu.Consensus.StakeQuorum

namespace Sarafu
namespace Consensus

open Crypto State

/-!
# The bookkeeping of the vote aggregator

A record keeps a vote list, a map of voters and a running sum.  The invariant
ties the three together: the voters of a record are distinct and active, the map
holds exactly them, and the sum is the sum of their stakes modulo `2^64`.  It
also remembers that a record only holds votes for its own key, which is what
makes a record evidence about one block hash.
-/

namespace VoteAggregator

/-- The ids that voted in a record, in order of arrival. -/
def voters (votes : List Vote) : List ValidatorID := votes.map Vote.validatorId

/-- The natural-number stake of a list of votes under a validator set. -/
def stakeOf (set : ValidatorSet) (votes : List Vote) : Nat := ((voters votes).map set.activeStakeOf).sum

/-- One record is consistent with the validator set it was filled under. -/
structure RecordOk (set : ValidatorSet) (key : BlockKey) (record : BlockVotes) : Prop where
  nonempty : record.votes ≠ []
  keyed : forall vote, vote ∈ record.votes -> keyOf vote = key
  distinct : (voters record.votes).Nodup
  active : forall id, id ∈ voters record.votes -> isActiveValidator set id = true
  voted : forall id, (record.voted[id]?).getD false = true <-> id ∈ voters record.votes
  stake : record.totalStake.toNat = ((voters record.votes).map fun id => (getValidatorStake set id).toNat).sum % 2 ^ 64

/-- Every record of the aggregator is consistent with its validator set. -/
def Consistent (aggregator : VoteAggregator) : Prop :=
  forall key record, aggregator.votesByBlock[key]? = some record -> RecordOk aggregator.validatorSet key record

theorem consistent_create (set : ValidatorSet) : (create set).Consistent := by
  intro key record found
  simp only [create, Std.ExtTreeMap.getElem?_empty] at found
  cases found

/-- The id of a vote has no vote recorded for the vote's block. -/
def Unrecorded (aggregator : VoteAggregator) (vote : Vote) : Prop :=
  ((aggregator.blockVotes (keyOf vote)).voted[vote.validatorId]?).getD false = false

/-- The aggregator after recording a vote. -/
def recordVote (aggregator : VoteAggregator) (vote : Vote) : VoteAggregator :=
  { aggregator with
    votesByBlock := aggregator.votesByBlock.insert (keyOf vote)
      (BlockVotes.push (aggregator.blockVotes (keyOf vote)) vote
        (getValidatorStake aggregator.validatorSet vote.validatorId)) }

/-- Everything `add_vote` can do. -/
theorem addVote_cases (aggregator : VoteAggregator) (vote : Vote) :
    (aggregator.addVote vote = (true, aggregator.recordVote vote) ∧
      isActiveValidator aggregator.validatorSet vote.validatorId = true ∧ aggregator.Unrecorded vote) ∨
    (aggregator.addVote vote = (false, aggregator) ∧
      ¬ (isActiveValidator aggregator.validatorSet vote.validatorId = true ∧ aggregator.Unrecorded vote)) := by
  unfold addVote Unrecorded
  cases active : isActiveValidator aggregator.validatorSet vote.validatorId with
  | false => exact Or.inr ⟨rfl, fun both => Bool.false_ne_true both.1⟩
  | true =>
      cases voted : ((aggregator.blockVotes (keyOf vote)).voted[vote.validatorId]?).getD false with
      | true =>
          exact Or.inr ⟨by simp only [Bool.true_eq_false, if_false, voted, if_true],
            fun both => Bool.noConfusion both.2⟩
      | false =>
          exact Or.inl ⟨by simp only [Bool.true_eq_false, if_false, voted, Bool.false_eq_true, recordVote], rfl, rfl⟩

theorem recordVote_getElem (aggregator : VoteAggregator) (vote : Vote) (key : BlockKey) :
    (aggregator.recordVote vote).votesByBlock[key]? =
      if key = keyOf vote then
        some (BlockVotes.push (aggregator.blockVotes (keyOf vote)) vote
          (getValidatorStake aggregator.validatorSet vote.validatorId))
      else aggregator.votesByBlock[key]? := by
  rw [recordVote, OrderedMap.find_insert]

/-- The votes recorded for a block, in order of arrival. -/
def votesFor (aggregator : VoteAggregator) (key : BlockKey) : List Vote := (aggregator.blockVotes key).votes

theorem votesFor_recordVote (aggregator : VoteAggregator) (vote : Vote) (key : BlockKey) :
    (aggregator.recordVote vote).votesFor key =
      if key = keyOf vote then aggregator.votesFor key ++ [vote] else aggregator.votesFor key := by
  rw [votesFor, blockVotes, recordVote_getElem]
  split
  · rename_i same
    rw [same]
    rfl
  · rfl

/-- A record read through `operator[]` is consistent or still empty. -/
theorem Consistent.blockVotes {aggregator : VoteAggregator} (consistent : aggregator.Consistent) (key : BlockKey) :
    aggregator.blockVotes key = BlockVotes.empty ∨
      RecordOk aggregator.validatorSet key (aggregator.blockVotes key) := by
  unfold VoteAggregator.blockVotes
  cases found : aggregator.votesByBlock[key]? with
  | none => exact Or.inl rfl
  | some record => exact Or.inr (consistent key record found)

/-- A pushed record is consistent when the voter is active and new. -/
theorem recordOk_push {set : ValidatorSet} {key : BlockKey} {record : BlockVotes} {vote : Vote}
    (previous : record = BlockVotes.empty ∨ RecordOk set key record) (keyed : keyOf vote = key)
    (active : isActiveValidator set vote.validatorId = true)
    (fresh : (record.voted[vote.validatorId]?).getD false = false) :
    RecordOk set key (BlockVotes.push record vote (getValidatorStake set vote.validatorId)) := by
  have old : (forall other, other ∈ record.votes -> keyOf other = key) ∧ (voters record.votes).Nodup ∧
      (forall id, id ∈ voters record.votes -> isActiveValidator set id = true) ∧
      (forall id, (record.voted[id]?).getD false = true <-> id ∈ voters record.votes) ∧
      record.totalStake.toNat =
        ((voters record.votes).map fun id => (getValidatorStake set id).toNat).sum % 2 ^ 64 := by
    rcases previous with rfl | ok
    · simp [BlockVotes.empty, voters]
    · exact ⟨ok.keyed, ok.distinct, ok.active, ok.voted, ok.stake⟩
  rcases old with ⟨oldKeyed, oldDistinct, oldActive, oldVoted, oldStake⟩
  have absent : vote.validatorId ∉ voters record.votes := by
    intro member
    have present := (oldVoted vote.validatorId).mpr member
    rw [fresh] at present
    cases present
  have appended : voters (record.votes ++ [vote]) = voters record.votes ++ [vote.validatorId] :=
    List.map_append
  refine ⟨by simp [BlockVotes.push], ?_, ?_, ?_, ?_, ?_⟩
  · intro other member
    rcases List.mem_append.mp member with earlier | last
    · exact oldKeyed other earlier
    · rw [List.mem_singleton.mp last, keyed]
  · change (voters (record.votes ++ [vote])).Nodup
    rw [appended]
    exact List.nodup_append'.mpr ⟨oldDistinct, List.nodup_singleton _,
      List.disjoint_singleton.mpr absent⟩
  · intro id member
    rw [BlockVotes.push, appended] at member
    rcases List.mem_append.mp member with earlier | last
    · exact oldActive id earlier
    · rw [List.mem_singleton.mp last]
      exact active
  · intro id
    rw [BlockVotes.push, appended, List.mem_append, List.mem_singleton, OrderedMap.find_insert]
    by_cases same : id = vote.validatorId
    · rw [if_pos same]
      exact ⟨fun _ => Or.inr same, fun _ => rfl⟩
    · rw [if_neg same, oldVoted id]
      exact ⟨Or.inl, fun either => either.resolve_right same⟩
  · rw [BlockVotes.push, appended, UInt64.toNat_add, oldStake, List.map_append, List.sum_append]
    simp only [List.map_cons, List.map_nil, List.sum_cons, List.sum_nil, Nat.add_zero, Nat.mod_add_mod]

theorem Consistent.recordVote {aggregator : VoteAggregator} (consistent : aggregator.Consistent) {vote : Vote}
    (active : isActiveValidator aggregator.validatorSet vote.validatorId = true)
    (fresh : aggregator.Unrecorded vote) : (aggregator.recordVote vote).Consistent := by
  intro key record found
  rw [recordVote_getElem] at found
  split at found
  · rename_i same
    rw [same, ← Option.some.inj found]
    exact recordOk_push (consistent.blockVotes (keyOf vote)) rfl active fresh
  · exact consistent key record found

/-- Under distinct ids and an active stake below `2^64` the running sum is exact. -/
theorem RecordOk.totalStake_toNat {set : ValidatorSet} {key : BlockKey} {record : BlockVotes}
    (ok : RecordOk set key record) (distinct : set.DistinctIds) (bounded : set.activeStake < 2 ^ 64) :
    record.totalStake.toNat = stakeOf set record.votes := by
  have stakes : ((voters record.votes).map fun id => (getValidatorStake set id).toNat) =
      (voters record.votes).map set.activeStakeOf := by
    apply List.map_congr_left
    intro id member
    exact ValidatorSet.getValidatorStake_toNat distinct (ok.active id member)
  rw [ok.stake, stakes]
  apply Nat.mod_eq_of_lt
  exact Nat.lt_of_le_of_lt (ValidatorSet.sum_activeStakeOf_le distinct ok.distinct ok.active) bounded

/-- What a returned certificate is made of. -/
theorem aggregateVotes_eq_some_iff (prim : Primitives) (aggregator : VoteAggregator) (height : UInt64)
    (hash : Blake3Hash) (view : UInt64) (qc : QuorumCertificate) :
    aggregator.aggregateVotes prim height hash view = .ok (some qc) <->
      ∃ record aggregated, aggregator.votesByBlock[(⟨height, hash⟩ : BlockKey)]? = some record ∧
        ValidatorSet.requiredStake aggregator.validatorSet.totalStake ≤ record.totalStake ∧
        BLS12381.aggregate prim (record.votes.map Vote.signature) = .ok aggregated ∧
        qc = ⟨height, hash, view, aggregated, voters record.votes, record.totalStake⟩ := by
  unfold aggregateVotes
  cases found : aggregator.votesByBlock[(⟨height, hash⟩ : BlockKey)]? with
  | none => simp
  | some record =>
      by_cases short : record.totalStake < ValidatorSet.requiredStake aggregator.validatorSet.totalStake
      · simp only [if_pos short, Option.some.injEq]
        constructor
        · intro impossible
          cases Except.ok.inj impossible
        · rintro ⟨same, aggregated, rfl, enough, _⟩
          exact absurd short (UInt64.not_lt.mpr enough)
      · simp only [if_neg short, Option.some.injEq]
        cases formed : BLS12381.aggregate prim (record.votes.map Vote.signature) with
        | error failure =>
            constructor
            · intro impossible
              cases impossible
            · rintro ⟨same, aggregated, rfl, _, other, _⟩
              rw [formed] at other
              cases other
        | ok aggregated =>
            constructor
            · intro equal
              exact ⟨record, aggregated, rfl, UInt64.not_lt.mp short, formed,
                (Option.some.inj (Except.ok.inj equal)).symm⟩
            · rintro ⟨same, other, rfl, _, same, rfl⟩
              rw [formed] at same
              rw [Except.ok.inj same]
              rfl

end VoteAggregator
end Consensus
end Sarafu

import Sarafu.Consensus.ForgedVotes

namespace Sarafu
namespace Consensus

open Crypto State Library.Runs

/-!
# The vote aggregator over its whole history

Votes are added and old heights are cleared in any order.  Seen from the calls,
the aggregator remembers for every block the first vote of each active id since
the block's height was last cleared.  The records refine that description: the
voters, the stake, the answer of `add_vote`, the supermajority test and the
contents of a certificate are all read off the remembered votes.

What the threshold alone does not decide is whether a certificate is returned.
`aggregate` throws at the first signature that is not a point of the subgroup,
and `add_vote` has let such a signature in.
-/

/-- The operations of the aggregator over a fixed set. -/
inductive AggregatorCall
  | addVote (vote : Vote)
  | clearVotesUpToHeight (height : UInt64)

namespace VoteAggregator

def call (aggregator : VoteAggregator) : AggregatorCall -> VoteAggregator
  | .addVote vote => (aggregator.addVote vote).2
  | .clearVotesUpToHeight height => aggregator.clearVotesUpToHeight height

/-- What is remembered for a block after one more call. -/
def remember (set : ValidatorSet) (key : BlockKey) (kept : List Vote) : AggregatorCall -> List Vote
  | .addVote vote => keepFirst set key kept vote
  | .clearVotesUpToHeight height => if key.height ≤ height then [] else kept

/-- The first vote of every active id for a block since its height was last
cleared, in order of arrival. -/
def remembered (set : ValidatorSet) (key : BlockKey) (calls : List AggregatorCall) : List Vote :=
  calls.foldl (remember set key) []

theorem remembered_append (set : ValidatorSet) (key : BlockKey) (calls : List AggregatorCall) (step : AggregatorCall) :
    remembered set key (calls ++ [step]) = remember set key (remembered set key calls) step := by
  unfold remembered
  rw [List.foldl_append]
  rfl

/-! ## The records refine the history -/

theorem clear_getElem (aggregator : VoteAggregator) (height : UInt64) (key : BlockKey) :
    (aggregator.clearVotesUpToHeight height).votesByBlock[key]? =
      if key.height ≤ height then none else aggregator.votesByBlock[key]? := by
  rw [clearVotesUpToHeight, OrderedMap.find_filter]
  by_cases below : key.height ≤ height
  · rw [if_pos below]
    apply Option.filter_eq_none_iff.mpr
    intro record _ above
    exact UInt64.not_le.mpr (of_decide_eq_true above) below
  · rw [if_neg below]
    cases aggregator.votesByBlock[key]? with
    | none => rfl
    | some record => exact Option.filter_some_pos (decide_eq_true (UInt64.not_le.mp below))

/-- The aggregator after a history: it works on the set, its records are
consistent, and they hold the remembered votes. -/
structure Remembers (set : ValidatorSet) (calls : List AggregatorCall) (aggregator : VoteAggregator) : Prop where
  copy : aggregator.validatorSet = set
  consistent : aggregator.Consistent
  recorded : forall key, aggregator.votesFor key = remembered set key calls

variable {set : ValidatorSet} {calls : List AggregatorCall} {aggregator : VoteAggregator}

theorem remembers_create (set : ValidatorSet) : Remembers set [] (create set) where
  copy := rfl
  consistent := consistent_create set
  recorded := by
    intro key
    simp only [votesFor, blockVotes, create, Std.ExtTreeMap.getElem?_empty]
    rfl

theorem Remembers.addVote (remembers : Remembers set calls aggregator) (vote : Vote) :
    Remembers set (calls ++ [.addVote vote]) (aggregator.addVote vote).2 := by
  have unrecorded := remembers.consistent.unrecorded_iff vote
  rw [remembers.recorded] at unrecorded
  rcases aggregator.addVote_cases vote with ⟨outcome, active, fresh⟩ | ⟨outcome, refused⟩
  · rw [outcome]
    refine ⟨remembers.copy, remembers.consistent.recordVote active fresh, ?_⟩
    intro key
    rw [votesFor_recordVote, remembered_append, remembers.recorded, remember, keepFirst]
    by_cases keyed : key = keyOf vote
    · rw [remembers.copy] at active
      rw [if_pos keyed, if_pos ⟨keyed.symm, active, keyed ▸ unrecorded.mp fresh⟩]
    · rw [if_neg keyed, if_neg fun kept => keyed kept.1.symm]
  · rw [outcome]
    refine ⟨remembers.copy, remembers.consistent, ?_⟩
    intro key
    rw [remembered_append, remembers.recorded, remember, keepFirst]
    refine (if_neg ?_).symm
    rintro ⟨rfl, active, fresh⟩
    rw [← remembers.copy] at active
    exact refused ⟨active, unrecorded.mpr fresh⟩

theorem Remembers.clear (remembers : Remembers set calls aggregator) (height : UInt64) :
    Remembers set (calls ++ [.clearVotesUpToHeight height]) (aggregator.clearVotesUpToHeight height) where
  copy := remembers.copy
  consistent := by
    intro key record found
    rw [clear_getElem] at found
    split at found
    · cases found
    · exact remembers.consistent key record found
  recorded := by
    intro key
    rw [votesFor, blockVotes, clear_getElem, remembered_append, remember]
    split
    · rfl
    · exact remembers.recorded key

/-- The run lemma: after any calls the aggregator remembers their history. -/
theorem remembers_run (set : ValidatorSet) (calls : List AggregatorCall) :
    Remembers set calls (run call (create set) calls) := by
  induction calls using List.reverseRecOn with
  | nil => exact remembers_create set
  | append_singleton earlier last inductionHypothesis =>
      rw [run_append]
      cases last with
      | addVote vote => exact inductionHypothesis.addVote vote
      | clearVotesUpToHeight height => exact inductionHypothesis.clear height

/-! ## What is read off the records -/

/-- The answers of the aggregator about one block agree with the votes. -/
structure BooksAgree (prim : Primitives) (set : ValidatorSet) (aggregator : VoteAggregator) (key : BlockKey)
    (votes : List Vote) : Prop where
  recorded : aggregator.votesFor key = votes
  distinct : (voters votes).Nodup
  active : forall id, id ∈ voters votes -> set.isActive id = true
  stake : (aggregator.getStakeForBlock key.height key.hash).toNat = stakeOf set votes
  taken : forall vote, keyOf vote = key -> ((aggregator.addVote vote).1 = true <->
    set.isActive vote.validatorId = true ∧ vote.validatorId ∉ voters votes)
  supermajority : aggregator.hasSupermajority key.height key.hash = true <->
    2 * set.totalStake.toNat ≤ 3 * stakeOf set votes
  certificate : forall view qc, aggregator.aggregateVotes prim key.height key.hash view = .ok (some qc) ->
    qc.blockHeight = key.height ∧ qc.blockHash = key.hash ∧ qc.signers = voters votes ∧
      qc.totalStakeSigned.toNat = stakeOf set votes ∧
      ((forall vote, vote ∈ votes -> ValidVote prim set vote) -> QCVerifier.verifyQc prim qc set = .ok true)

/-- A certificate is returned exactly when there is a supermajority. -/
def Certifies (prim : Primitives) (aggregator : VoteAggregator) (key : BlockKey) : Prop :=
  forall view, (∃ qc, aggregator.aggregateVotes prim key.height key.hash view = .ok (some qc)) <->
    aggregator.hasSupermajority key.height key.hash = true

/-- Votes that hold two thirds of the stake carry points of the signature group. -/
def DecodesAtQuorum (prim : Primitives) (set : ValidatorSet) (votes : List Vote) : Prop :=
  2 * set.totalStake.toNat ≤ 3 * stakeOf set votes ->
    forall vote, vote ∈ votes -> (BLS12381.decodeSignature prim vote.signature).isSome = true

/-- The record of a block, with its stake and the threshold, or no votes. -/
theorem Remembers.record_cases (remembers : Remembers set calls aggregator) (fixed : FixedSet set) (key : BlockKey) :
    (aggregator.votesByBlock[key]? = none ∧ remembered set key calls = []) ∨
    ∃ record, aggregator.votesByBlock[key]? = some record ∧ record.votes = remembered set key calls ∧
      RecordOk set key record ∧ record.totalStake.toNat = stakeOf set (remembered set key calls) ∧
      (ValidatorSet.requiredStake set.totalStake ≤ record.totalStake <->
        2 * set.totalStake.toNat ≤ 3 * stakeOf set (remembered set key calls)) := by
  have recorded := remembers.recorded key
  unfold votesFor blockVotes at recorded
  cases found : aggregator.votesByBlock[key]? with
  | none =>
      rw [found] at recorded
      exact Or.inl ⟨rfl, recorded.symm⟩
  | some record =>
      rw [found] at recorded
      have ok := remembers.consistent key record found
      rw [remembers.copy] at ok
      have stake := ok.totalStake_toNat fixed.distinct fixed.bounded
      have votes : record.votes = remembered set key calls := recorded
      rw [votes] at stake
      exact Or.inr ⟨record, rfl, votes, ok, stake, stake ▸ ValidatorSet.requiredStake_le_iff fixed.fits⟩

theorem Remembers.addVote_iff (remembers : Remembers set calls aggregator) (distinct : set.DistinctIds) (vote : Vote) :
    (aggregator.addVote vote).1 = true <->
      set.isActive vote.validatorId = true ∧ vote.validatorId ∉ voters (remembered set (keyOf vote) calls) := by
  have unrecorded := remembers.consistent.unrecorded_iff vote
  rw [remembers.recorded] at unrecorded
  rw [ValidatorSet.isActive_eq_isActiveValidator distinct, ← unrecorded, ← remembers.copy]
  rcases aggregator.addVote_cases vote with ⟨outcome, active, fresh⟩ | ⟨outcome, refused⟩
  · rw [outcome]
    exact ⟨fun _ => ⟨active, fresh⟩, fun _ => rfl⟩
  · rw [outcome]
    exact ⟨fun impossible => absurd impossible Bool.false_ne_true, fun both => absurd both refused⟩

/-- Apart from whether a certificate is returned, everything agrees. -/
theorem Remembers.booksAgree {prim : Primitives} (remembers : Remembers set calls aggregator) (fixed : FixedSet set)
    (positive : 0 < set.totalStake) (complete : BLS12381.AggregationComplete prim) (key : BlockKey) :
    BooksAgree prim set aggregator key (remembered set key calls) := by
  have totalPositive : 0 < set.totalStake.toNat := UInt64.lt_iff_toNat_lt.mp positive
  have taken : forall vote, keyOf vote = key -> ((aggregator.addVote vote).1 = true <->
      set.isActive vote.validatorId = true ∧ vote.validatorId ∉ voters (remembered set key calls)) := by
    intro vote keyed
    rw [← keyed]
    exact remembers.addVote_iff fixed.distinct vote
  rcases remembers.record_cases fixed key with ⟨missing, empty⟩ | ⟨record, found, votes, ok, stake, threshold⟩
  · rw [empty] at taken ⊢
    refine ⟨(remembers.recorded key).trans empty, List.nodup_nil, fun _ member => absurd member List.not_mem_nil,
      ?_, taken, ?_, ?_⟩
    · simp only [getStakeForBlock, missing]
      rfl
    · simp only [hasSupermajority, missing, stakeOf, voters, List.map_nil, List.sum_nil]
      constructor
      · intro impossible
        cases impossible
      · intro enough
        omega
    · intro view qc formed
      simp only [aggregateVotes, missing] at formed
      cases Except.ok.inj formed
  · refine ⟨remembers.recorded key, votes ▸ ok.distinct, ?_, ?_, taken, ?_, ?_⟩
    · intro id member
      rw [ValidatorSet.isActive_eq_isActiveValidator fixed.distinct]
      exact ok.active id (votes ▸ member)
    · simp only [getStakeForBlock, found]
      exact stake
    · simp only [hasSupermajority, found, remembers.copy, decide_eq_true_eq]
      exact threshold
    · intro view qc formed
      rcases (aggregateVotes_eq_some_iff prim _ _ _ _ qc).mp formed with
        ⟨same, aggregated, sameFound, enough, summed, rfl⟩
      cases Option.some.inj (found.symm.trans sameFound)
      refine ⟨rfl, rfl, by rw [votes], stake, ?_⟩
      intro valid
      rw [← votes] at valid
      rw [remembers.copy] at enough
      rcases ConsensusEngine.exists_certificate_of_valid complete fixed.distinct ok enough valid with
        ⟨other, otherSummed, verified⟩
      cases Except.ok.inj (summed.symm.trans otherSummed)
      exact verified key.height view

/-- Whether a certificate is returned at a supermajority depends on the recorded
signatures. -/
theorem Remembers.certifies_iff {prim : Primitives} (remembers : Remembers set calls aggregator) (fixed : FixedSet set)
    (positive : 0 < set.totalStake) (complete : BLS12381.AggregationComplete prim) (key : BlockKey) :
    Certifies prim aggregator key <-> DecodesAtQuorum prim set (remembered set key calls) := by
  have books := remembers.booksAgree fixed positive complete key
  unfold Certifies DecodesAtQuorum
  rw [books.supermajority]
  have returned : forall view, (∃ qc, aggregator.aggregateVotes prim key.height key.hash view = .ok (some qc)) <->
      2 * set.totalStake.toNat ≤ 3 * stakeOf set (remembered set key calls) ∧
        forall vote, vote ∈ remembered set key calls ->
          (BLS12381.decodeSignature prim vote.signature).isSome = true := by
    intro view
    rcases remembers.record_cases fixed key with ⟨missing, empty⟩ | ⟨record, found, votes, ok, _, threshold⟩
    · have totalPositive : 0 < set.totalStake.toNat := UInt64.lt_iff_toNat_lt.mp positive
      simp only [aggregateVotes, missing, empty, stakeOf, voters, List.map_nil, List.sum_nil]
      constructor
      · rintro ⟨qc, impossible⟩
        cases Except.ok.inj impossible
      · rintro ⟨enough, _⟩
        omega
    · have summed : (∃ aggregated, BLS12381.aggregate prim (record.votes.map Vote.signature) = .ok aggregated) <-> _ :=
        BLS12381.exists_aggregate_iff (record.votes.map Vote.signature)
      rw [List.forall_mem_map] at summed
      rw [← threshold, ← votes]
      constructor
      · rintro ⟨qc, formed⟩
        rcases (aggregateVotes_eq_some_iff prim _ _ _ _ qc).mp formed with ⟨same, aggregated, sameFound, enough, sum, _⟩
        cases Option.some.inj (found.symm.trans sameFound)
        rw [remembers.copy] at enough
        exact ⟨enough, (summed.mp ⟨aggregated, sum⟩).2⟩
      · rintro ⟨enough, decodes⟩
        have nonempty : record.votes.map Vote.signature ≠ [] := fun none => ok.nonempty (List.map_eq_nil_iff.mp none)
        rcases summed.mpr ⟨nonempty, decodes⟩ with ⟨aggregated, sum⟩
        rw [← remembers.copy] at enough
        exact ⟨_, (aggregateVotes_eq_some_iff prim _ _ _ _ _).mpr ⟨record, aggregated, found, enough, sum, rfl⟩⟩
  constructor
  · intro certifies enough
    exact ((returned 0).mp ((certifies 0).mpr enough)).2
  · intro decodes view
    rw [returned view]
    exact ⟨fun both => both.1, fun enough => ⟨enough, decodes enough⟩⟩

/-- Bookkeeping over every history of votes and clearings.  The records, the
stake, the answer of `add_vote` and the supermajority test always agree with the
remembered votes, and so does every certificate that is returned; and one is
returned at every supermajority exactly when the remembered votes of each block
with two thirds of the stake carry points of the signature group. -/
theorem bookkeeping_iff_decodes (prim : Primitives) (complete : BLS12381.AggregationComplete prim) (set : ValidatorSet)
    (fixed : FixedSet set) (positive : 0 < set.totalStake) (calls : List AggregatorCall)
    (aggregator : VoteAggregator) (reached : aggregator = run call (create set) calls) (key : BlockKey) :
    (BooksAgree prim set aggregator key (remembered set key calls) ∧ Certifies prim aggregator key) <->
      DecodesAtQuorum prim set (remembered set key calls) := by
  have remembers : Remembers set calls aggregator := by
    rw [reached]
    exact remembers_run set calls
  rw [remembers.certifies_iff fixed positive complete key]
  exact and_iff_right (remembers.booksAgree fixed positive complete key)

/-- The genuine vote of a numbered validator for the block of height one and
hash zero. -/
def genuineVote (number : Nat) : Vote := ConsensusEngine.signedVote number 1 Blake3Hash.zero

/-- The genuine votes of two of three validators, with a clearing below their
height and a repeated vote. -/
def genuineCalls : List AggregatorCall :=
  [.addVote (genuineVote 1), .addVote (genuineVote 2), .clearVotesUpToHeight 0, .addVote (genuineVote 2)]

theorem fixedSet_unitSet_three : FixedSet (unitSet 3) :=
  ⟨by unfold ValidatorSet.DistinctIds; decide +kernel, by decide +kernel, by decide +kernel⟩

theorem bookkeeping_iff_decodes_genuine :
    (run call (create (unitSet 3)) genuineCalls).hasSupermajority 1 Blake3Hash.zero = true ∧
      Certifies Transparent.strict (run call (create (unitSet 3)) genuineCalls) ⟨1, Blake3Hash.zero⟩ := by
  refine ⟨by decide +kernel, ?_⟩
  refine ((bookkeeping_iff_decodes Transparent.strict Transparent.strict_aggregationComplete (unitSet 3)
    fixedSet_unitSet_three (by decide +kernel) genuineCalls _ rfl ⟨1, Blake3Hash.zero⟩).mpr ?_).2
  unfold DecodesAtQuorum
  decide +kernel

/-- An all-zero signature under the third id, then two genuine votes. -/
def undecodableCalls : List AggregatorCall :=
  [.addVote (ConsensusEngine.forgedVote 3 1 Blake3Hash.zero), .addVote (genuineVote 1), .addVote (genuineVote 2)]

/-- The vote that does not decode is recorded with its stake, the supermajority
is reached, and `aggregate` throws. -/
theorem undecodableVote_prevents_certificate :
    FixedSet (unitSet 3) ∧ 0 < (unitSet 3).totalStake ∧ BLS12381.AggregationComplete Transparent.strict ∧
    (run call (create (unitSet 3)) undecodableCalls).hasSupermajority 1 Blake3Hash.zero = true ∧
    (run call (create (unitSet 3)) undecodableCalls).aggregateVotes Transparent.strict 1 Blake3Hash.zero 0 =
      .error (.runtimeError "Failed to deserialize first signature") ∧
    ¬ Certifies Transparent.strict (run call (create (unitSet 3)) undecodableCalls) ⟨1, Blake3Hash.zero⟩ := by
  have quorum : (run call (create (unitSet 3)) undecodableCalls).hasSupermajority 1 Blake3Hash.zero = true := by
    decide +kernel
  have thrown : (run call (create (unitSet 3)) undecodableCalls).aggregateVotes Transparent.strict 1 Blake3Hash.zero 0 =
      .error (.runtimeError "Failed to deserialize first signature") := by
    rfl
  refine ⟨fixedSet_unitSet_three, by decide +kernel, Transparent.strict_aggregationComplete, quorum, thrown, ?_⟩
  intro certifies
  rcases (certifies 0).mpr quorum with ⟨qc, formed⟩
  rw [thrown] at formed
  cases formed

/-! ## The view of a certificate -/

/-- A remembered vote was added for the block, under an active id. -/
theorem mem_of_mem_remembered {key : BlockKey} {vote : Vote} (kept : vote ∈ remembered set key calls) :
    AggregatorCall.addVote vote ∈ calls ∧ keyOf vote = key ∧ isActiveValidator set vote.validatorId = true := by
  induction calls using List.reverseRecOn with
  | nil => cases kept
  | append_singleton earlier last inductionHypothesis =>
      have before : vote ∈ remembered set key earlier -> AggregatorCall.addVote vote ∈ earlier ++ [last] ∧
          keyOf vote = key ∧ isActiveValidator set vote.validatorId = true := fun member =>
        ⟨List.mem_append_left _ (inductionHypothesis member).1, (inductionHypothesis member).2⟩
      rw [remembered_append] at kept
      cases last with
      | addVote added =>
          rw [remember, keepFirst] at kept
          split at kept
          · rename_i taken
            rcases List.mem_append.mp kept with member | new
            · exact before member
            · rw [List.mem_singleton.mp new]
              exact ⟨List.mem_append_right _ (List.mem_singleton_self _), taken.1, taken.2.1⟩
          · exact before kept
      | clearVotesUpToHeight height =>
          rw [remember] at kept
          split at kept
          · cases kept
          · exact before kept

/-- A certificate belongs to one block.  It aggregates the remembered votes for the height
and the hash, whatever their views, and carries the view that it was asked for; if all the
votes that were added for the block are of that view, then so are the aggregated ones. -/
theorem certificate_belongs_to_block (prim : Primitives) (set : ValidatorSet) (calls : List AggregatorCall)
    (height : UInt64) (hash : Blake3Hash) (view : UInt64) (qc : QuorumCertificate)
    (formed : (run call (create set) calls).aggregateVotes prim height hash view = .ok (some qc)) :
    qc.blockHeight = height ∧ qc.blockHash = hash ∧ qc.viewNumber = view ∧
      ∃ votes, votes = remembered set ⟨height, hash⟩ calls ∧ qc.signers = voters votes ∧ (voters votes).Nodup ∧
        BLS12381.aggregate prim (votes.map Vote.signature) = .ok qc.aggregatedSignature ∧
        (forall vote, vote ∈ votes -> AggregatorCall.addVote vote ∈ calls ∧ vote.blockHeight = height ∧
          vote.blockHash = hash ∧ isActiveValidator set vote.validatorId = true) ∧
        ((forall vote, AggregatorCall.addVote vote ∈ calls -> keyOf vote = ⟨height, hash⟩ -> vote.viewNumber = view) ->
          forall vote, vote ∈ votes -> vote.viewNumber = view) := by
  have remembers := remembers_run set calls
  rcases (aggregateVotes_eq_some_iff prim _ height hash view qc).mp formed with
    ⟨record, aggregated, found, _, summed, rfl⟩
  have votes : record.votes = remembered set ⟨height, hash⟩ calls := by
    rw [← remembers.recorded, votesFor, blockVotes, found]
    rfl
  refine ⟨rfl, rfl, rfl, record.votes, votes, rfl, (remembers.consistent _ record found).distinct, summed, ?_, ?_⟩
  · intro vote member
    rcases mem_of_mem_remembered (votes ▸ member) with ⟨added, keyed, active⟩
    exact ⟨added, congrArg BlockKey.height keyed, congrArg BlockKey.hash keyed, active⟩
  · intro sameView vote member
    rcases mem_of_mem_remembered (votes ▸ member) with ⟨added, keyed, _⟩
    exact sameView vote added keyed

/-- A call that neither throws nor returns nothing returns a certificate. -/
theorem exists_certificate {answer : Except Failure (Option QuorumCertificate)} (returns : answer.isOk = true)
    (something : answer ≠ .ok none) : ∃ qc, answer = .ok (some qc) := by
  rcases answer with failure | certificate
  · cases returns
  · cases certificate with
    | none => exact absurd rfl something
    | some qc => exact ⟨qc, rfl⟩

theorem certificate_belongs_to_block_genuine :
    ∃ qc, (run call (create (unitSet 3)) genuineCalls).aggregateVotes Transparent.primitives 1 Blake3Hash.zero 0 =
        .ok (some qc) ∧ qc.blockHash = Blake3Hash.zero ∧ qc.viewNumber = 0 := by
  have returns : ((run call (create (unitSet 3)) genuineCalls).aggregateVotes Transparent.primitives 1
      Blake3Hash.zero 0).isOk = true := by decide +kernel
  rcases exists_certificate returns (by decide +kernel) with ⟨qc, formed⟩
  have belongs := certificate_belongs_to_block Transparent.primitives (unitSet 3) genuineCalls 1 Blake3Hash.zero 0 qc
    formed
  exact ⟨qc, formed, belongs.2.1, belongs.2.2.1⟩

/-- Two votes for one block, cast in the views zero and one. -/
def mixedCalls : List AggregatorCall := [.addVote (genuineVote 1), .addVote { genuineVote 2 with viewNumber := 1 }]

/-- A certificate of the view one aggregates a vote of the view zero. -/
theorem certificate_mixes_views :
    let aggregator := run call (create (unitSet 3)) mixedCalls
    (∃ qc, aggregator.aggregateVotes Transparent.primitives 1 Blake3Hash.zero 1 = .ok (some qc) ∧
      qc.viewNumber = 1 ∧ (genuineVote 1).validatorId ∈ qc.signers) ∧
      genuineVote 1 ∈ aggregator.votesFor ⟨1, Blake3Hash.zero⟩ ∧ (genuineVote 1).viewNumber = 0 := by
  intro aggregator
  refine ⟨?_, by decide +kernel, rfl⟩
  have returns : (aggregator.aggregateVotes Transparent.primitives 1 Blake3Hash.zero 1).isOk = true := by
    decide +kernel
  rcases exists_certificate returns (by decide +kernel) with ⟨qc, formed⟩
  rcases (aggregateVotes_eq_some_iff Transparent.primitives aggregator 1 Blake3Hash.zero 1 qc).mp formed with
    ⟨record, aggregated, found, _, _, rfl⟩
  have recorded : aggregator.votesFor ⟨1, Blake3Hash.zero⟩ = record.votes := by
    rw [votesFor, blockVotes, found]
    rfl
  have signs : (genuineVote 1).validatorId ∈ voters (aggregator.votesFor ⟨1, Blake3Hash.zero⟩) := by
    decide +kernel
  exact ⟨_, formed, rfl, recorded ▸ signs⟩

end VoteAggregator
end Consensus
end Sarafu

import Sarafu.Consensus.Finality

namespace Sarafu
namespace Consensus

open Crypto State Library.Runs
open VoteAggregator

/-!
# Forged votes and finalization

`add_vote` documents that the signature is valid and does not check it.  The
first vote under an active id is kept whoever sent it, and the kept votes are
aggregated as a whole.  A forged vote therefore stays in every later aggregate
for its block.  The engine is characterised exactly: after any calls a hash is
finalized if and only if the kept votes for it, in order of arrival, reach the
threshold before the first forged one among them.
-/

/-- The signature of a vote verifies on its hash under the key of its id. -/
def ValidVote (prim : Primitives) (set : ValidatorSet) (vote : Vote) : Prop :=
  BLS12381.verify prim vote.signature vote.blockHash.serialize (set.consensusKeyOf vote.validatorId) = true

instance (prim : Primitives) (set : ValidatorSet) (vote : Vote) : Decidable (ValidVote prim set vote) :=
  inferInstanceAs (Decidable (_ = true))

/-- Keep a vote for the key if its id is active and not among the kept ones. -/
def keepFirst (set : ValidatorSet) (key : BlockKey) (kept : List Vote) (vote : Vote) : List Vote :=
  if keyOf vote = key ∧ isActiveValidator set vote.validatorId = true ∧ vote.validatorId ∉ voters kept
  then kept ++ [vote] else kept

/-- The first vote of every active id for a key, in order of arrival. -/
def firstVotes (set : ValidatorSet) (key : BlockKey) (votes : List Vote) : List Vote :=
  votes.foldl (keepFirst set key) []

/-- The votes delivered by a list of calls. -/
def votesOf (calls : List EngineCall) : List Vote :=
  calls.filterMap fun call => match call with
    | .onReceiveVote vote => some vote
    | _ => none

/-- Some nonempty prefix of the votes is valid and reaches the threshold. -/
def ReachesQuorum (prim : Primitives) (set : ValidatorSet) (votes : List Vote) : Prop :=
  ∃ signed, signed <+: votes ∧ signed ≠ [] ∧ (forall vote, vote ∈ signed -> ValidVote prim set vote) ∧
    (ValidatorSet.requiredStake set.totalStake).toNat ≤ stakeOf set signed

theorem firstVotes_append (set : ValidatorSet) (key : BlockKey) (votes : List Vote) (vote : Vote) :
    firstVotes set key (votes ++ [vote]) = keepFirst set key (firstVotes set key votes) vote := by
  unfold firstVotes
  rw [List.foldl_append]
  rfl

/-- Kept votes are delivered votes. -/
theorem mem_of_mem_firstVotes {set : ValidatorSet} {key : BlockKey} {votes : List Vote} {vote : Vote}
    (kept : vote ∈ firstVotes set key votes) : vote ∈ votes ∧ keyOf vote = key := by
  induction votes using List.reverseRecOn with
  | nil => cases kept
  | append_singleton earlier last inductionHypothesis =>
      rw [firstVotes_append, keepFirst] at kept
      split at kept
      · rename_i taken
        rcases List.mem_append.mp kept with before | new
        · exact ⟨List.mem_append_left _ (inductionHypothesis before).1, (inductionHypothesis before).2⟩
        · rw [List.mem_singleton.mp new]
          exact ⟨List.mem_append_right _ (List.mem_singleton_self last), taken.1⟩
      · exact ⟨List.mem_append_left _ (inductionHypothesis kept).1, (inductionHypothesis kept).2⟩

/-- One more vote reaches the quorum by itself or finds it reached. -/
theorem reachesQuorum_append {prim : Primitives} {set : ValidatorSet} (votes : List Vote) (vote : Vote) :
    ReachesQuorum prim set (votes ++ [vote]) <->
      ReachesQuorum prim set votes ∨
        ((forall other, other ∈ votes ++ [vote] -> ValidVote prim set other) ∧
          (ValidatorSet.requiredStake set.totalStake).toNat ≤ stakeOf set (votes ++ [vote])) := by
  constructor
  · rintro ⟨signed, shorter, nonempty, valid, enough⟩
    rcases List.prefix_concat_iff.mp shorter with whole | earlier
    · rw [whole] at valid enough
      exact Or.inr ⟨valid, enough⟩
    · exact Or.inl ⟨signed, earlier, nonempty, valid, enough⟩
  · rintro (⟨signed, shorter, nonempty, valid, enough⟩ | ⟨valid, enough⟩)
    · exact ⟨signed, shorter.trans (List.prefix_append _ _), nonempty, valid, enough⟩
    · exact ⟨votes ++ [vote], List.prefix_refl _, by simp, valid, enough⟩

/-- The prefix that decides is the longest valid one. -/
theorem reachesQuorum_iff_takeWhile {prim : Primitives} {set : ValidatorSet} (votes : List Vote) :
    ReachesQuorum prim set votes <->
      votes.takeWhile (fun vote => decide (ValidVote prim set vote)) ≠ [] ∧
        (ValidatorSet.requiredStake set.totalStake).toNat ≤
          stakeOf set (votes.takeWhile fun vote => decide (ValidVote prim set vote)) := by
  constructor
  · rintro ⟨signed, ⟨rest, rfl⟩, nonempty, valid, enough⟩
    have kept : (signed ++ rest).takeWhile (fun vote => decide (ValidVote prim set vote)) =
        signed ++ rest.takeWhile (fun vote => decide (ValidVote prim set vote)) :=
      List.takeWhile_append_of_pos fun vote member => decide_eq_true (valid vote member)
    rw [kept]
    refine ⟨fun empty => nonempty (List.append_eq_nil_iff.mp empty).1, ?_⟩
    rw [stakeOf_append]
    exact Nat.le_trans enough (Nat.le_add_right _ _)
  · rintro ⟨nonempty, enough⟩
    refine ⟨_, List.takeWhile_prefix _, nonempty, ?_, enough⟩
    intro vote member
    have kept := List.mem_takeWhile_imp member
    exact of_decide_eq_true kept

theorem VoteAggregator.Consistent.unrecorded_iff {aggregator : VoteAggregator} (consistent : aggregator.Consistent)
    (vote : Vote) :
    aggregator.Unrecorded vote <-> vote.validatorId ∉ voters (aggregator.votesFor (keyOf vote)) := by
  unfold VoteAggregator.Unrecorded VoteAggregator.votesFor
  rcases consistent.blockVotes (keyOf vote) with empty | ok
  · rw [empty]
    simp [BlockVotes.empty, voters]
  · rw [← ok.voted vote.validatorId, Bool.not_eq_true]

namespace ConsensusEngine

variable {prim : Primitives} {engine : ConsensusEngine} {set : ValidatorSet} {hash : Blake3Hash}

/-- The signature and key of every vote of a list. -/
def parts (set : ValidatorSet) (votes : List Vote) : List (BLS12381Signature × BLS12381PublicKey) :=
  votes.map fun vote => (vote.signature, set.consensusKeyOf vote.validatorId)

theorem parts_fst (votes : List Vote) : (parts set votes).map Prod.fst = votes.map Vote.signature := by
  rw [parts, List.map_map]
  rfl

theorem parts_snd (votes : List Vote) : (parts set votes).map Prod.snd = (voters votes).map set.consensusKeyOf := by
  rw [parts, voters, List.map_map, List.map_map]
  rfl

/-- For votes on one hash, validity of the votes is validity of the parts. -/
theorem validVotes_iff_parts {votes : List Vote} (keyed : forall vote, vote ∈ votes -> vote.blockHash = hash) :
    (forall vote, vote ∈ votes -> ValidVote prim set vote) <->
      forall part, part ∈ parts set votes -> BLS12381.verify prim part.1 hash.serialize part.2 = true := by
  constructor
  · intro valid part member
    rcases List.mem_map.mp member with ⟨vote, listed, rfl⟩
    have verified := valid vote listed
    rw [ValidVote, keyed vote listed] at verified
    exact verified
  · intro valid vote listed
    have verified := valid _ (List.mem_map_of_mem listed)
    rw [ValidVote, keyed vote listed]
    exact verified

/-- Valid votes that reach the threshold aggregate to a certificate that is accepted. -/
theorem exists_certificate_of_valid (complete : BLS12381.AggregationComplete prim) (distinct : set.DistinctIds)
    {key : BlockKey} {record : BlockVotes} (ok : RecordOk set key record)
    (enough : ValidatorSet.requiredStake set.totalStake ≤ record.totalStake)
    (valid : forall vote, vote ∈ record.votes -> ValidVote prim set vote) :
    ∃ aggregated, BLS12381.aggregate prim (record.votes.map Vote.signature) = .ok aggregated ∧
      forall height view, QCVerifier.verifyQc prim
        ⟨height, key.hash, view, aggregated, voters record.votes, record.totalStake⟩ set = .ok true := by
  have keyed : forall vote, vote ∈ record.votes -> vote.blockHash = key.hash := fun vote member =>
    congrArg BlockKey.hash (ok.keyed vote member)
  have nonempty : parts set record.votes ≠ [] := fun empty => ok.nonempty (List.map_eq_nil_iff.mp empty)
  rcases complete _ _ nonempty ((validVotes_iff_parts keyed).mp valid) with ⟨aggregated, summed, verified⟩
  rw [parts_fst] at summed
  rw [parts_snd] at verified
  refine ⟨aggregated, summed, fun height view => QCVerifier.verifyQc_eq_true_iff.mpr ⟨enough, ?_, verified⟩⟩
  intro signer member
  rcases ValidatorSet.findValidator_of_active distinct (ok.active signer member) with ⟨validator, known, _⟩
  rw [known]
  rfl

/-- A taken vote finalizes its block exactly when all votes kept for the block
are valid and reach the threshold. -/
theorem finalizes_iff (complete : BLS12381.AggregationComplete prim) (sound : BLS12381.AggregationSound prim)
    (distinct : set.DistinctIds) (bounded : set.activeStake < 2 ^ 64)
    (copy : engine.voteAggregator.validatorSet = set) (consistent : engine.voteAggregator.Consistent)
    {vote : Vote} (takes : engine.TakesVote vote) :
    (∃ qc, engine.certificateFor prim vote = .ok (some qc) ∧ QCVerifier.verifyQc prim qc set = .ok true) <->
      (forall other, other ∈ engine.voteAggregator.votesFor (keyOf vote) ++ [vote] -> ValidVote prim set other) ∧
        (ValidatorSet.requiredStake set.totalStake).toNat ≤
          stakeOf set (engine.voteAggregator.votesFor (keyOf vote) ++ [vote]) := by
  rcases recordOk_taken consistent takes with ⟨record, found, votes, ok⟩
  rw [copy] at ok
  rw [← votes, ← ok.totalStake_toNat distinct bounded, ← UInt64.le_iff_toNat_le]
  constructor
  · rintro ⟨qc, formed, verified⟩
    rcases (aggregateVotes_eq_some_iff prim _ _ _ _ qc).mp formed with
      ⟨same, aggregated, sameFound, enough, summed, rfl⟩
    cases Option.some.inj (found.symm.trans sameFound)
    rw [show (engine.voteAggregator.recordVote vote).validatorSet = set from copy] at enough
    have keyed : forall other, other ∈ record.votes -> other.blockHash = vote.blockHash := fun other member =>
      congrArg BlockKey.hash (ok.keyed other member)
    refine ⟨(validVotes_iff_parts keyed).mpr ?_, enough⟩
    have verifiedParts := (QCVerifier.verifyQc_eq_true_iff.mp verified).2.2
    rw [← parts_fst] at summed
    exact sound _ _ _ summed (parts_snd record.votes ▸ verifiedParts)
  · rintro ⟨valid, enough⟩
    rcases exists_certificate_of_valid complete distinct ok enough valid with ⟨aggregated, summed, verified⟩
    refine ⟨⟨vote.blockHeight, vote.blockHash, vote.viewNumber, aggregated, voters record.votes, record.totalStake⟩,
      (aggregateVotes_eq_some_iff prim _ _ _ _ _).mpr ⟨record, aggregated, found, ?_, summed, rfl⟩, verified _ _⟩
    rw [show (engine.voteAggregator.recordVote vote).validatorSet = set from copy]
    exact enough

/-- What the engine knows about one hash after the given votes. -/
structure Tracks (prim : Primitives) (set : ValidatorSet) (hash : Blake3Hash) (votes : List Vote)
    (engine : ConsensusEngine) : Prop where
  current : engine.currentSet = set
  copy : engine.voteAggregator.validatorSet = set
  consistent : engine.voteAggregator.Consistent
  records : forall height, engine.voteAggregator.votesFor ⟨height, hash⟩ = firstVotes set ⟨height, hash⟩ votes
  finalized : engine.isFinalized hash = true <->
    ∃ height, ReachesQuorum prim set (firstVotes set ⟨height, hash⟩ votes)

variable {votes : List Vote}

/-- A vote that is not taken changes no kept votes for the hash. -/
theorem Tracks.firstVotes_refused (tracks : Tracks prim set hash votes engine) {vote : Vote}
    (refused : ¬ engine.TakesVote vote) (height : UInt64) :
    firstVotes set ⟨height, hash⟩ (votes ++ [vote]) = firstVotes set ⟨height, hash⟩ votes := by
  rw [firstVotes_append, keepFirst]
  split
  · rename_i kept
    rcases kept with ⟨keyed, active, fresh⟩
    rw [← tracks.records height, ← keyed] at fresh
    rw [← tracks.copy] at active
    exact absurd ⟨active, (tracks.consistent.unrecorded_iff vote).mpr fresh⟩ refused
  · rfl

/-- A taken vote is appended to the kept votes of its own key. -/
theorem Tracks.firstVotes_taken (tracks : Tracks prim set hash votes engine) {vote : Vote}
    (takes : engine.TakesVote vote) (height : UInt64) :
    firstVotes set ⟨height, hash⟩ (votes ++ [vote]) =
      if (⟨height, hash⟩ : BlockKey) = keyOf vote then firstVotes set ⟨height, hash⟩ votes ++ [vote]
      else firstVotes set ⟨height, hash⟩ votes := by
  rw [firstVotes_append, keepFirst]
  by_cases keyed : (⟨height, hash⟩ : BlockKey) = keyOf vote
  · have fresh := (tracks.consistent.unrecorded_iff vote).mp takes.2
    rw [← keyed, tracks.records height] at fresh
    have active := takes.1
    rw [tracks.copy] at active
    rw [if_pos keyed, if_pos ⟨keyed.symm, active, fresh⟩]
  · rw [if_neg keyed, if_neg fun kept => keyed kept.1.symm]

/-- Recording a taken vote, apart from finalization. -/
theorem Tracks.records_taken (tracks : Tracks prim set hash votes engine) {vote : Vote}
    (takes : engine.TakesVote vote) (height : UInt64) :
    (engine.recorded vote).voteAggregator.votesFor ⟨height, hash⟩ =
      firstVotes set ⟨height, hash⟩ (votes ++ [vote]) := by
  rw [tracks.firstVotes_taken takes height, recorded, votesFor_recordVote, tracks.records height]

/-- The quorums for the hash after a taken vote: the earlier ones, and the one
that the vote completes if it is for the hash. -/
theorem Tracks.reachesQuorum_taken (tracks : Tracks prim set hash votes engine) {vote : Vote}
    (takes : engine.TakesVote vote) :
    (∃ height, ReachesQuorum prim set (firstVotes set ⟨height, hash⟩ (votes ++ [vote]))) <->
      engine.isFinalized hash = true ∨ (vote.blockHash = hash ∧
        (forall other, other ∈ engine.voteAggregator.votesFor (keyOf vote) ++ [vote] -> ValidVote prim set other) ∧
        (ValidatorSet.requiredStake set.totalStake).toNat ≤
          stakeOf set (engine.voteAggregator.votesFor (keyOf vote) ++ [vote])) := by
  rw [tracks.finalized]
  constructor
  · rintro ⟨height, reached⟩
    rw [tracks.firstVotes_taken takes height] at reached
    split at reached
    · rename_i keyed
      rw [← tracks.records height, keyed] at reached
      rcases (reachesQuorum_append _ vote).mp reached with earlier | now
      · refine Or.inl ⟨height, ?_⟩
        rw [← tracks.records height, keyed]
        exact earlier
      · exact Or.inr ⟨(congrArg BlockKey.hash keyed).symm, now⟩
    · exact Or.inl ⟨height, reached⟩
  · rintro (⟨height, reached⟩ | ⟨rfl, now⟩)
    · refine ⟨height, ?_⟩
      rw [tracks.firstVotes_taken takes height]
      split
      · exact (reachesQuorum_append _ vote).mpr (Or.inl reached)
      · exact reached
    · refine ⟨vote.blockHeight, ?_⟩
      have keyed : (⟨vote.blockHeight, vote.blockHash⟩ : BlockKey) = keyOf vote := rfl
      rw [tracks.firstVotes_taken takes, if_pos keyed, ← tracks.records, keyed]
      exact (reachesQuorum_append _ vote).mpr (Or.inr now)

/-- Delivering a vote. -/
theorem Tracks.onReceiveVote (tracks : Tracks prim set hash votes engine)
    (complete : BLS12381.AggregationComplete prim) (sound : BLS12381.AggregationSound prim)
    (distinct : set.DistinctIds) (bounded : set.activeStake < 2 ^ 64) (vote : Vote) :
    Tracks prim set hash (votes ++ [vote]) (engine.onReceiveVote prim vote).2 := by
  rcases onReceiveVote_cases prim engine vote with
    ⟨refused, outcome⟩ | ⟨takes, outcome, unverified, _⟩ | ⟨takes, qc, formed, verified, outcome⟩
  · rw [outcome]
    refine ⟨tracks.current, tracks.copy, tracks.consistent, ?_, ?_⟩
    · intro height
      rw [tracks.firstVotes_refused refused height]
      exact tracks.records height
    · simp only [tracks.firstVotes_refused refused]
      exact tracks.finalized
  · have short := (finalizes_iff complete sound distinct bounded tracks.copy tracks.consistent takes).not.mp (by
      rintro ⟨qc, formed, verified⟩
      rw [← tracks.current] at verified
      exact unverified qc formed verified)
    rw [outcome]
    refine ⟨tracks.current, tracks.copy, tracks.consistent.recordVote takes.1 takes.2,
      tracks.records_taken takes, ?_⟩
    rw [tracks.reachesQuorum_taken takes]
    exact ⟨Or.inl, fun either => either.resolve_right fun now => short now.2⟩
  · rw [tracks.current] at verified
    have enough := (finalizes_iff complete sound distinct bounded tracks.copy tracks.consistent takes).mp
      ⟨qc, formed, verified⟩
    rw [outcome]
    refine ⟨tracks.current, tracks.copy, tracks.consistent.recordVote takes.1 takes.2,
      tracks.records_taken takes, ?_⟩
    rw [tracks.reachesQuorum_taken takes, isFinalized_finalizeVerified]
    constructor
    · rintro (rfl | earlier)
      · exact Or.inr ⟨rfl, enough⟩
      · exact Or.inl earlier
    · rintro (earlier | now)
      · exact Or.inr earlier
      · exact Or.inl now.1.symm

/-- Only votes are tracked. -/
theorem Tracks.sameVoting {after : ConsensusEngine} (tracks : Tracks prim set hash votes engine)
    (same : SameVoting engine after) : Tracks prim set hash votes after where
  current := by
    rw [currentSet, same.registry]
    exact tracks.current
  copy := by
    rw [same.aggregator]
    exact tracks.copy
  consistent := by
    rw [same.aggregator]
    exact tracks.consistent
  records := by
    rw [same.aggregator]
    exact tracks.records
  finalized := by
    rw [isFinalized, same.finalizedBlocks]
    exact tracks.finalized

theorem votesOf_cons (step : EngineCall) (rest : List EngineCall) :
    votesOf (step :: rest) = votesOf [step] ++ votesOf rest := by
  cases step <;> rfl

theorem Tracks.call (tracks : Tracks prim set hash votes engine)
    (complete : BLS12381.AggregationComplete prim) (sound : BLS12381.AggregationSound prim)
    (distinct : set.DistinctIds) (bounded : set.activeStake < 2 ^ 64) (step : EngineCall) :
    Tracks prim set hash (votes ++ votesOf [step]) (engine.call prim step) := by
  cases step with
  | onReceiveVote vote => exact tracks.onReceiveVote complete sound distinct bounded vote
  | proposeBlock proposal =>
      rw [show votesOf [EngineCall.proposeBlock proposal] = [] from rfl, List.append_nil]
      exact tracks.sameVoting ((call_cases prim engine _).resolve_left nofun)
  | onReceiveBlock block =>
      rw [show votesOf [EngineCall.onReceiveBlock block] = [] from rfl, List.append_nil]
      exact tracks.sameVoting ((call_cases prim engine _).resolve_left nofun)
  | triggerViewChange =>
      rw [show votesOf [EngineCall.triggerViewChange] = [] from rfl, List.append_nil]
      exact tracks.sameVoting ((call_cases prim engine _).resolve_left nofun)

theorem Tracks.run (tracks : Tracks prim set hash votes engine)
    (complete : BLS12381.AggregationComplete prim) (sound : BLS12381.AggregationSound prim)
    (distinct : set.DistinctIds) (bounded : set.activeStake < 2 ^ 64) (calls : List EngineCall) :
    Tracks prim set hash (votes ++ votesOf calls) (Library.Runs.run (ConsensusEngine.call prim) engine calls) := by
  induction calls generalizing engine votes with
  | nil =>
      rw [show votesOf [] = [] from rfl, List.append_nil]
      exact tracks
  | cons step rest inductionHypothesis =>
      have stepped := tracks.call complete sound distinct bounded step
      have rested := inductionHypothesis stepped
      rw [List.append_assoc] at rested
      rw [votesOf_cons]
      exact rested

/-- The engine has no vote for the block yet and works on one validator set. -/
structure FreshFor (prim : Primitives) (set : ValidatorSet) (block : Block) (engine : ConsensusEngine) : Prop where
  current : engine.currentSet = set
  copy : engine.voteAggregator.validatorSet = set
  consistent : engine.voteAggregator.Consistent
  unvoted : forall height, engine.voteAggregator.votesFor ⟨height, block.hash prim⟩ = []
  undecided : engine.isFinalized (block.hash prim) = false

theorem FreshFor.tracks {block : Block} (fresh : FreshFor prim set block engine) :
    Tracks prim set (block.hash prim) [] engine where
  current := fresh.current
  copy := fresh.copy
  consistent := fresh.consistent
  records := fresh.unvoted
  finalized := by
    rw [fresh.undecided]
    constructor
    · intro impossible
      cases impossible
    · rintro ⟨_, signed, shorter, nonempty, _⟩
      exact absurd (List.prefix_nil.mp shorter) nonempty

theorem freshFor_started (registry : ValidatorRegistry) (machine : StateMachine) (config : EngineConfig)
    {genesis block : Block} (other : block.hash prim ≠ genesis.hash prim) :
    FreshFor prim registry.currentSet block (started prim registry machine config genesis) where
  current := rfl
  copy := rfl
  consistent := consistent_create registry.currentSet
  unvoted := by
    intro height
    change (((∅ : OrderedMap BlockKey BlockVotes)[_]?).getD BlockVotes.empty).votes = []
    rw [Std.ExtTreeMap.getElem?_empty]
    rfl
  undecided := by
    apply Bool.eq_false_iff.mpr
    intro marked
    rcases (isFinalized_withGenesis genesis _).mp marked with same | earlier
    · exact other same
    · rw [isFinalized_initial] at earlier
      cases earlier

/-- A vote that carries the block's height and hash and a valid signature. -/
def Genuine (prim : Primitives) (set : ValidatorSet) (block : Block) (vote : Vote) : Prop :=
  keyOf vote = ⟨block.header.height, block.hash prim⟩ ∧ ValidVote prim set vote

/-- The valid votes kept for the block before the first forged one kept for it. -/
def beforeForgery (prim : Primitives) (set : ValidatorSet) (block : Block) (votes : List Vote) : List Vote :=
  (firstVotes set ⟨block.header.height, block.hash prim⟩ votes).takeWhile fun vote =>
    decide (ValidVote prim set vote)

/-- Genuine votes reach the threshold before the first forged vote that is kept
for the block. -/
def QuorumBeforeForgery (prim : Primitives) (set : ValidatorSet) (block : Block) (votes : List Vote) : Prop :=
  beforeForgery prim set block votes ≠ [] ∧
    (ValidatorSet.requiredStake set.totalStake).toNat ≤ stakeOf set (beforeForgery prim set block votes)

instance (prim : Primitives) (set : ValidatorSet) (block : Block) (votes : List Vote) :
    Decidable (QuorumBeforeForgery prim set block votes) := inferInstanceAs (Decidable (_ ∧ _))

/-- Exactly when forged votes do not prevent finalization.  Every delivered
vote is genuine for the block or forged, and they arrive in any order and
between any other calls. -/
theorem finalized_iff_quorumBeforeForgery (prim : Primitives) (complete : BLS12381.AggregationComplete prim)
    (sound : BLS12381.AggregationSound prim) (set : ValidatorSet) (distinct : set.DistinctIds)
    (bounded : set.activeStake < 2 ^ 64) (block : Block) (engine : ConsensusEngine)
    (fresh : FreshFor prim set block engine) (calls : List EngineCall)
    (delivered : forall vote, vote ∈ votesOf calls -> Genuine prim set block vote ∨ ¬ ValidVote prim set vote) :
    (run (call prim) engine calls).isFinalized (block.hash prim) = true <->
      QuorumBeforeForgery prim set block (votesOf calls) := by
  have tracked := fresh.tracks.run complete sound distinct bounded calls
  rw [List.nil_append] at tracked
  unfold QuorumBeforeForgery beforeForgery
  rw [tracked.finalized, ← reachesQuorum_iff_takeWhile]
  constructor
  · rintro ⟨height, reached⟩
    -- a valid vote for the hash is genuine, so it carries the height of the block
    rcases reached with ⟨signed, shorter, nonempty, valid, enough⟩
    rcases List.exists_mem_of_ne_nil signed nonempty with ⟨vote, member⟩
    rcases mem_of_mem_firstVotes (shorter.subset member) with ⟨listed, keyed⟩
    rcases delivered vote listed with genuine | forged
    · rw [keyed.symm.trans genuine.1] at shorter
      exact ⟨signed, shorter, nonempty, valid, enough⟩
    · exact absurd (valid vote member) forged
  · intro reached
    exact ⟨block.header.height, reached⟩

/-! ## A forged vote against three honest ones -/

/-- A vote under a numbered id without a signature. -/
def forgedVote (number : Nat) (height : UInt64) (hash : Blake3Hash) : Vote :=
  ⟨FixedBytes.ofNat 32 number, height, hash, 0, FixedBytes.zero 96⟩

/-- A block of height one. -/
def firstBlock : Block :=
  ⟨⟨1, 1, (genesisAt 0).hash Transparent.primitives, Blake3Hash.zero, Blake3Hash.zero, Blake3Hash.zero,
    FixedBytes.ofNat 32 1, 0⟩, [], QuorumCertificate.empty⟩

/-- The genuine vote of a numbered validator for `firstBlock`. -/
def firstBlockVote (number : Nat) : Vote := signedVote number 1 (firstBlock.hash Transparent.primitives)

theorem wellFormed_unitSet_three : (unitSet 3).WellFormed :=
  ⟨by unfold ValidatorSet.DistinctIds; decide +kernel, by decide +kernel⟩

theorem freshFor_unitEngine : FreshFor Transparent.primitives (unitSet 3) firstBlock (unitEngine 3) :=
  freshFor_started (registryWith (unitSet 3)) (StateMachine.create 1) {} (by decide +kernel)

/-- Two genuine votes and then a forged one: the block is finalized, whatever
the forged vote claims. -/
theorem finalized_iff_quorumBeforeForgery_late :
    (run (call Transparent.primitives) (unitEngine 3)
      [.onReceiveVote (firstBlockVote 1), .onReceiveVote (firstBlockVote 2),
        .onReceiveVote (forgedVote 3 1 (firstBlock.hash Transparent.primitives))]).isFinalized
          (firstBlock.hash Transparent.primitives) = true := by
  apply (finalized_iff_quorumBeforeForgery Transparent.primitives Transparent.aggregationComplete
    Transparent.aggregationSound (unitSet 3) wellFormed_unitSet_three.distinct (by decide +kernel) firstBlock
    (unitEngine 3) freshFor_unitEngine _ ?_).mpr
  · decide +kernel
  · intro vote member
    simp only [votesOf, List.filterMap_cons, List.filterMap_nil, List.mem_cons, List.not_mem_nil, or_false] at member
    rcases member with rfl | rfl | rfl
    · exact Or.inl (by unfold Genuine; decide +kernel)
    · exact Or.inl (by unfold Genuine; decide +kernel)
    · exact Or.inr (by decide +kernel)

/-- A forged vote under the third id arrives first.  All three validators then
vote genuinely, two of them would do, and the block is not finalized. -/
theorem forgedVote_prevents_finalization :
    (unitSet 3).WellFormed ∧ 0 < (unitSet 3).totalStake ∧
    FreshFor Transparent.primitives (unitSet 3) firstBlock (unitEngine 3) ∧
    BLS12381.AggregationComplete Transparent.primitives ∧ BLS12381.AggregationSound Transparent.primitives ∧
    (forall number, number ∈ [1, 2, 3] ->
      Genuine Transparent.primitives (unitSet 3) firstBlock (firstBlockVote number)) ∧
    2 * (unitSet 3).activeStake ≤ 3 * stakeOf (unitSet 3) [firstBlockVote 1, firstBlockVote 2] ∧
    ¬ ValidVote Transparent.primitives (unitSet 3) (forgedVote 3 1 (firstBlock.hash Transparent.primitives)) ∧
    (run (call Transparent.primitives) (unitEngine 3)
      [.onReceiveVote (forgedVote 3 1 (firstBlock.hash Transparent.primitives)), .onReceiveVote (firstBlockVote 1),
        .onReceiveVote (firstBlockVote 2), .onReceiveVote (firstBlockVote 3)]).isFinalized
          (firstBlock.hash Transparent.primitives) = false := by
  refine ⟨wellFormed_unitSet_three, by decide +kernel, freshFor_unitEngine, Transparent.aggregationComplete,
    Transparent.aggregationSound, by unfold Genuine; decide +kernel, by decide +kernel, by decide +kernel,
    by decide +kernel⟩

end ConsensusEngine
end Consensus
end Sarafu

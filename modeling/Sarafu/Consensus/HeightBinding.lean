import Sarafu.Consensus.BlockStore
import Sarafu.Consensus.ForgedVotes

namespace Sarafu
namespace Consensus

open Crypto State Library.Runs Library.WeightedQuorum
open VoteAggregator

/-!
# The height of the highest certificate

A vote signs the block hash only, so anyone may send an honest signature again
with another height.  The aggregator files it under the pair of that height and
the hash, and the certificate takes its height from there.

Nothing is asked of the single signatures that are aggregated: two altered ones
may cancel out.  What cannot be made without an honest validator is an aggregate
that verifies under its key.  So a certificate needs honest validators that have
signed the hash, and as long as no vote in the name of such a validator carries
another height than the block's, that vote fixes the height of the certificate.
-/

/-- A certificate that verifies on its hash under the keys of its signers needs
the signature of every honest one among them. -/
def Unforged (prim : Primitives) (set : ValidatorSet) (honest : Finset ValidatorID)
    (signed : ValidatorID -> Blake3Hash -> Prop) (qc : QuorumCertificate) : Prop :=
  BLS12381.verifyAggregated prim qc.aggregatedSignature qc.blockHash.serialize
      (qc.signers.map set.consensusKeyOf) = .ok true ->
    forall id, id ∈ qc.signers -> id ∈ honest -> signed id qc.blockHash

/-- What the adversary model assumes of the validator set: the ids are distinct,
the cached total is the active stake and its double fits in 64 bits, and the
honest validators hold more than two thirds. -/
structure HonestMajority (set : ValidatorSet) (honest : Finset ValidatorID) : Prop where
  wellFormed : set.WellFormed
  fits : 2 * set.totalStake.toNat + 2 < 2 ^ 64
  faithful : Faithful set.activeStakeOf set.electorate honest

theorem HonestMajority.fixed {set : ValidatorSet} {honest : Finset ValidatorID}
    (majority : HonestMajority set honest) : FixedSet set where
  distinct := majority.wellFormed.distinct
  bounded := by
    rw [← majority.wellFormed.total]
    exact set.totalStake.toNat_lt
  fits := majority.fits

/-- A vote in the name of an honest validator that signs the hash of a known
header carries the height of that header, whatever its signature is. -/
def HeightKept (prim : Primitives) (honest : Finset ValidatorID) (signed : ValidatorID -> Blake3Hash -> Prop)
    (headers : Set BlockHeader) (vote : Vote) : Prop :=
  vote.validatorId ∈ honest -> signed vote.validatorId vote.blockHash ->
    forall header, header ∈ headers -> header.hash prim = vote.blockHash -> vote.blockHeight = header.height

namespace ConsensusEngine

variable {prim : Primitives} {engine : ConsensusEngine} {set : ValidatorSet} {honest : Finset ValidatorID}
  {signed : ValidatorID -> Blake3Hash -> Prop} {headers : Set BlockHeader}

/-- The voters of the record that a taken vote completes. -/
theorem voters_taken (consistent : engine.voteAggregator.Consistent) {vote : Vote}
    (takes : engine.TakesVote vote) :
    (voters (engine.voteAggregator.votesFor (keyOf vote) ++ [vote])).Nodup ∧
      (forall id, id ∈ voters (engine.voteAggregator.votesFor (keyOf vote) ++ [vote]) ->
        isActiveValidator engine.voteAggregator.validatorSet id = true) ∧
      forall other, other ∈ engine.voteAggregator.votesFor (keyOf vote) ++ [vote] -> keyOf other = keyOf vote := by
  rcases recordOk_taken consistent takes with ⟨record, _, votes, ok⟩
  rw [← votes]
  exact ⟨ok.distinct, ok.active, ok.keyed⟩

/-- The quorum behind a vote that finalizes its block. -/
theorem quorum_of_finalizing (majority : HonestMajority set honest)
    (copy : engine.voteAggregator.validatorSet = set) (consistent : engine.voteAggregator.Consistent) {vote : Vote}
    (takes : engine.TakesVote vote) {qc : QuorumCertificate}
    (formed : engine.certificateFor prim vote = .ok (some qc))
    (verified : QCVerifier.verifyQc prim qc set = .ok true) :
    Quorum set.activeStakeOf set.electorate
      (voters (engine.voteAggregator.votesFor (keyOf vote) ++ [vote])).toFinset := by
  have certified := certified_of_finalizing majority.fixed copy consistent takes formed verified
  rcases voters_taken consistent takes with ⟨distinct, active, _⟩
  rw [copy] at active
  exact ValidatorSet.quorum_of_list majority.wellFormed distinct active certified.twoThirds

/-- Behind a vote that finalizes its block, all honest voters have signed the
hash, and all votes are for the same height and hash. -/
theorem signed_of_finalizing (consistent : engine.voteAggregator.Consistent) {vote : Vote}
    (takes : engine.TakesVote vote) {qc : QuorumCertificate}
    (formed : engine.certificateFor prim vote = .ok (some qc))
    (verified : QCVerifier.verifyQc prim qc set = .ok true) (unforged : Unforged prim set honest signed qc) :
    forall id, id ∈ voters (engine.voteAggregator.votesFor (keyOf vote) ++ [vote]) -> id ∈ honest ->
      signed id vote.blockHash := by
  rcases certificateFor_spec consistent takes formed with ⟨record, aggregated, _, votes, _, _, _, rfl⟩
  rw [← votes]
  exact unforged (QCVerifier.verifyQc_eq_true_iff.mp verified).2.2

/-- The invariant: the vote path, the store, recorded votes that keep their
height, and the binding itself for every known header. -/
structure HeightBound (prim : Primitives) (set : ValidatorSet) (honest : Finset ValidatorID)
    (signed : ValidatorID -> Blake3Hash -> Prop) (headers : Set BlockHeader) (engine : ConsensusEngine) : Prop where
  path : VotePath prim set (fun _ => True) engine
  store : StoreOk prim headers engine
  kept : forall key vote, vote ∈ engine.voteAggregator.votesFor key -> HeightKept prim honest signed headers vote
  bound : forall header, header ∈ headers -> header.hash prim = engine.highestQc.blockHash ->
    engine.highestQc.blockHeight = header.height

/-- The adversary model over a fixed set: known headers, and no vote that
completes a certificate in which an honest signature is forged. -/
def Authentic (prim : Primitives) (set : ValidatorSet) (honest : Finset ValidatorID)
    (signed : ValidatorID -> Blake3Hash -> Prop) (headers : Set BlockHeader) (engine : ConsensusEngine) :
    NodeCall -> Prop
  | .engine step => engine.WithinHeaders prim headers step ∧ forall vote, step = .onReceiveVote vote ->
      forall qc, engine.certificateFor prim vote = .ok (some qc) -> Unforged prim set honest signed qc
  | .genesis block => block.header ∈ headers
  | .registry _ => False

/-- Delivered votes keep their height. -/
def KeepsHeights (prim : Primitives) (honest : Finset ValidatorID) (signed : ValidatorID -> Blake3Hash -> Prop)
    (headers : Set BlockHeader) (step : NodeCall) : Prop :=
  forall vote, step = .engine (.onReceiveVote vote) -> HeightKept prim honest signed headers vote

/-- A finalizing vote carries the height of the block with its hash. -/
theorem HeightBound.finalizing (bound : HeightBound prim set honest signed headers engine)
    (majority : HonestMajority set honest) {vote : Vote} (new : HeightKept prim honest signed headers vote)
    (takes : engine.TakesVote vote) {qc : QuorumCertificate}
    (formed : engine.certificateFor prim vote = .ok (some qc))
    (verified : QCVerifier.verifyQc prim qc set = .ok true) (unforged : Unforged prim set honest signed qc) :
    forall header, header ∈ headers -> header.hash prim = vote.blockHash -> vote.blockHeight = header.height := by
  intro header listed hashed
  have consistent := bound.path.consistent
  have quorum := quorum_of_finalizing majority bound.path.copy consistent takes formed verified
  -- the quorum contains an honest voter, who has signed the hash and so keeps the height
  rcases quorum.exists_faithful majority.faithful with ⟨id, inQuorum, isHonest⟩
  have voted := List.mem_toFinset.mp inQuorum
  have hashSigned := signed_of_finalizing consistent takes formed verified unforged id voted isHonest
  rcases List.mem_map.mp voted with ⟨other, member, rfl⟩
  have keyed := (voters_taken consistent takes).2.2 other member
  have otherKept : HeightKept prim honest signed headers other := by
    rcases List.mem_append.mp member with earlier | last
    · exact bound.kept _ other earlier
    · rw [List.mem_singleton.mp last]
      exact new
  have sameHash : other.blockHash = vote.blockHash := congrArg BlockKey.hash keyed
  have sameHeight : other.blockHeight = vote.blockHeight := congrArg BlockKey.height keyed
  rw [← sameHeight]
  rw [← sameHash] at hashSigned hashed
  exact otherKept isHonest hashSigned header listed hashed

theorem HeightBound.call (bound : HeightBound prim set honest signed headers engine)
    (majority : HonestMajority set honest) (free : CollisionFree prim headers) {step : EngineCall}
    (authentic : engine.Authentic prim set honest signed headers (.engine step))
    (keeps : KeepsHeights prim honest signed headers (.engine step)) :
    HeightBound prim set honest signed headers (engine.call prim step) := by
  have path := bound.path.call majority.fixed step
  have store := bound.store.call free authentic.1
  have kept : forall key vote, vote ∈ (engine.call prim step).voteAggregator.votesFor key ->
      HeightKept prim honest signed headers vote := by
    intro key vote member
    rcases mem_votesFor_call member with earlier | rfl
    · exact bound.kept key vote earlier
    · exact keeps vote rfl
  refine ⟨path, store, kept, ?_⟩
  rcases call_cases prim engine step with ⟨vote, rfl⟩ | same
  · rcases onReceiveVote_cases prim engine vote with
      ⟨_, outcome⟩ | ⟨_, outcome, _, _⟩ | ⟨takes, qc, formed, verified, outcome⟩
    · simp only [ConsensusEngine.call, outcome]
      exact bound.bound
    · simp only [ConsensusEngine.call, outcome]
      exact bound.bound
    · rw [bound.path.current] at verified
      have unforged := authentic.2 vote rfl qc formed
      have binding := bound.finalizing majority (keeps vote rfl) takes formed verified unforged
      rcases certificateFor_spec bound.path.consistent takes formed with ⟨_, _, _, _, _, _, _, rfl⟩
      simp only [ConsensusEngine.call, outcome, finalizeVerified]
      split
      · exact binding
      · exact bound.bound
  · rw [same.highestQc]
    exact bound.bound

/-- A genesis block resets the certificate to its own height. -/
theorem HeightBound.withGenesis (bound : HeightBound prim set honest signed headers engine)
    (free : CollisionFree prim headers) {genesis : Block} (listed : genesis.header ∈ headers)
    (zero : genesis.header.height = 0) :
    HeightBound prim set honest signed headers (engine.withGenesis prim genesis) where
  path := bound.path.withGenesis trivial
  store := (bound.store.storeBlock free listed).sameStore ⟨rfl, rfl⟩
  kept := bound.kept
  bound := by
    intro header known hashed
    have same : header = genesis.header := free.injective header known genesis.header listed hashed
    rw [same, zero]
    rfl

theorem HeightBound.nodeCall (bound : HeightBound prim set honest signed headers engine)
    (majority : HonestMajority set honest) (free : CollisionFree prim headers) {step : NodeCall}
    (authentic : engine.Authentic prim set honest signed headers step)
    (keeps : KeepsHeights prim honest signed headers step) :
    HeightBound prim set honest signed headers (engine.nodeCall prim step) := by
  cases step with
  | engine step => exact bound.call majority free authentic keeps
  | registry step => cases authentic
  | genesis block =>
      rcases nodeCall_genesis_cases prim engine block with ⟨zero, outcome⟩ | outcome
      · rw [outcome]
        exact bound.withGenesis free authentic zero
      · rw [outcome]
        exact bound

/-- The certificate of a fresh engine names the zero hash, which no header has. -/
theorem heightBound_initial (registry : ValidatorRegistry) (machine : StateMachine) (config : EngineConfig)
    (free : CollisionFree prim headers) :
    HeightBound prim registry.currentSet honest signed headers (initial registry machine config) where
  path := votePath_initial registry machine config
  store := storeOk_initial registry machine config
  kept := by
    intro key vote member
    change vote ∈ (((∅ : OrderedMap BlockKey BlockVotes)[key]?).getD BlockVotes.empty).votes at member
    rw [Std.ExtTreeMap.getElem?_empty] at member
    cases member
  bound := fun header known hashed => absurd hashed (free.nonzero header known)

/-- Height binding.  In every run without forgery in which no vote in the name
of an honest validator carries another height than the block that it signs, the
highest certificate and the finalized height agree with the stored block that the
certificate names.  The genesis block may be given at any point. -/
theorem highestQc_height_of_keepsHeights (prim : Primitives) (registry : ValidatorRegistry) (machine : StateMachine)
    (config : EngineConfig) (honest : Finset ValidatorID) (majority : HonestMajority registry.currentSet honest)
    (signed : ValidatorID -> Blake3Hash -> Prop) (headers : Set BlockHeader) (free : CollisionFree prim headers)
    (calls : List NodeCall)
    (authentic : Along (nodeCall prim) (Authentic prim registry.currentSet honest signed headers)
      (initial registry machine config) calls)
    (keeps : forall step, step ∈ calls -> KeepsHeights prim honest signed headers step)
    (engine : ConsensusEngine) (reached : engine = run (nodeCall prim) (initial registry machine config) calls)
    (block : Block) (stored : engine.getBlock engine.highestQc.blockHash = some block) :
    engine.highestQc.blockHeight = block.header.height ∧ engine.finalizedHeight = block.header.height := by
  have bound : HeightBound prim registry.currentSet honest signed headers engine := by
    rw [reached]
    exact invariant_run (HeightBound prim registry.currentSet honest signed headers)
      (fun state step bound guarded => bound.nodeCall majority free guarded.1 guarded.2)
      (heightBound_initial registry machine config free) (along_and authentic (along_of_forall _ keeps))
  have height := bound.bound block.header (bound.store.known _ block stored) (bound.store.keyed _ block stored)
  exact ⟨height, bound.path.height.trans height⟩

/-! ## Two honest signatures, with and without their height -/

/-- The first validator proposes without transactions at the given time. -/
def plainProposal (now : UInt64) : Proposal :=
  ⟨FixedBytes.ofNat 32 1, FixedBytes.ofNat 32 1, Mempool.empty {}, none, 1, now⟩

/-- The block that the first validator proposes right after genesis. -/
def proposedBlock : Block := (unitEngine 3).assembleBlock Transparent.primitives (plainProposal 5) none

/-- The vote of a numbered validator for the proposed block, sent with a height. -/
def proposedVote (number : Nat) (height : UInt64) : Vote :=
  { (unitEngine 3).createVote Transparent.primitives proposedBlock (FixedBytes.ofNat 32 number)
      (FixedBytes.ofNat 32 number) with blockHeight := height }

theorem honestMajority_unitSet : HonestMajority (unitSet 3) (unitSet 3).electorate :=
  ⟨wellFormed_unitSet_three, by decide +kernel, by unfold Faithful; decide +kernel⟩

/-- The headers of the genesis block and of the proposed block. -/
def proposedHeaders : List BlockHeader := [(genesisAt 0).header, proposedBlock.header]

/-- After genesis the first validator proposes, and two votes arrive with the
given height. -/
def proposedCalls (height : UInt64) : List NodeCall :=
  [.genesis (genesisAt 0), .engine (.proposeBlock (plainProposal 5)), .engine (.onReceiveVote (proposedVote 1 height)),
    .engine (.onReceiveVote (proposedVote 2 height))]

/-- The engine after those calls. -/
def proposedEngine (height : UInt64) : ConsensusEngine :=
  run (nodeCall Transparent.primitives) (initial (registryWith (unitSet 3)) (StateMachine.create 1) {})
    (proposedCalls height)

/-- Everyone signs the hash of the proposed block and no other. -/
def signsProposed (_ : ValidatorID) (hash : Blake3Hash) : Prop := hash = proposedBlock.hash Transparent.primitives

/-- A vote for the proposed block forges nothing, whatever height it carries. -/
theorem authentic_proposedVote (engine : ConsensusEngine) (number : Nat) (height : UInt64) :
    engine.Authentic Transparent.primitives (unitSet 3) (unitSet 3).electorate signsProposed
      { header | header ∈ proposedHeaders } (.engine (.onReceiveVote (proposedVote number height))) := by
  refine ⟨nofun, ?_⟩
  intro vote same qc formed _ _ _ _
  cases same
  exact blockHash_of_certificateFor formed

theorem authentic_proposedCalls (height : UInt64) : Along (nodeCall Transparent.primitives)
    (Authentic Transparent.primitives (unitSet 3) (unitSet 3).electorate signsProposed
      { header | header ∈ proposedHeaders })
    (initial (registryWith (unitSet 3)) (StateMachine.create 1) {}) (proposedCalls height) := by
  have proposes : (unitEngine 3).storedBy Transparent.primitives (.proposeBlock (plainProposal 5)) =
      some proposedBlock := by decide +kernel
  refine ⟨List.mem_cons_self, ⟨?_, nofun⟩, authentic_proposedVote _ 1 height, authentic_proposedVote _ 2 height,
    trivial⟩
  intro block stores
  cases Option.some.inj (proposes.symm.trans stores)
  exact List.mem_cons_of_mem _ List.mem_cons_self

theorem heightKept_proposedVote : forall number, number ∈ [1, 2] ->
    HeightKept Transparent.primitives (unitSet 3).electorate signsProposed { header | header ∈ proposedHeaders }
      (proposedVote number 1) := by
  have heights : forall number, number ∈ [1, 2] -> forall header, header ∈ proposedHeaders ->
      header.hash Transparent.primitives = (proposedVote number 1).blockHash ->
      (proposedVote number 1).blockHeight = header.height := by decide +kernel
  intro number numbered _ _ header listed
  exact heights number numbered header listed

theorem keepsHeights_proposedCalls : forall step, step ∈ proposedCalls 1 ->
    KeepsHeights Transparent.primitives (unitSet 3).electorate signsProposed { header | header ∈ proposedHeaders }
      step := by
  unfold proposedCalls
  simp only [List.forall_mem_cons, List.not_mem_nil, false_implies, implies_true, and_true]
  refine ⟨nofun, nofun, ?_, ?_⟩
  · intro vote same
    cases same
    exact heightKept_proposedVote 1 (by decide)
  · intro vote same
    cases same
    exact heightKept_proposedVote 2 (by decide)

theorem collisionFree_proposedHeaders :
    CollisionFree Transparent.primitives { header | header ∈ proposedHeaders } :=
  collisionFree_of_nodup (by decide +kernel) (by decide +kernel)

/-- Two votes with the height of the block bind the certificate to it. -/
theorem highestQc_height_of_keepsHeights_votes :
    (proposedEngine 1).highestQc.blockHash = proposedBlock.hash Transparent.primitives ∧
    (proposedEngine 1).highestQc.blockHeight = proposedBlock.header.height :=
  ⟨by decide +kernel, (highestQc_height_of_keepsHeights Transparent.primitives (registryWith (unitSet 3))
    (StateMachine.create 1) {} (unitSet 3).electorate honestMajority_unitSet signsProposed
    { header | header ∈ proposedHeaders } collisionFree_proposedHeaders (proposedCalls 1) (authentic_proposedCalls 1)
    keepsHeights_proposedCalls (proposedEngine 1) rfl proposedBlock (by decide +kernel)).1⟩

/-- The same two signatures are delivered with height seven.  The certificate
and the finalized height then claim height seven for a stored block of height
one. -/
theorem repackaged_votes_unbind_height :
    HonestMajority (unitSet 3) (unitSet 3).electorate ∧
    CollisionFree Transparent.primitives { header | header ∈ proposedHeaders } ∧
    Along (nodeCall Transparent.primitives)
      (Authentic Transparent.primitives (unitSet 3) (unitSet 3).electorate signsProposed
        { header | header ∈ proposedHeaders })
      (initial (registryWith (unitSet 3)) (StateMachine.create 1) {}) (proposedCalls 7) ∧
    (proposedEngine 7).getBlock (proposedEngine 7).highestQc.blockHash = some proposedBlock ∧
    proposedBlock.header.height = 1 ∧ (proposedEngine 7).highestQc.blockHeight = 7 ∧
    (proposedEngine 7).finalizedHeight = 7 :=
  ⟨honestMajority_unitSet, collisionFree_proposedHeaders, authentic_proposedCalls 7, by decide +kernel,
    by decide +kernel, by decide +kernel, by decide +kernel⟩

end ConsensusEngine
end Consensus
end Sarafu

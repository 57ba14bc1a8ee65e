import Sarafu.Consensus.ChainExtension

namespace Sarafu
namespace Consensus

open Crypto State Library.Runs Library.WeightedQuorum
open VoteAggregator

/-!
# Agreement between honest engines

A network runs one engine per honest validator.  Events reach the engines in
any order, any number of times or never, and the adversary chooses all of them;
it only cannot make honest signatures.  As votes are aggregated, this says that no
certificate verifies under the key of an honest validator that has not signed its
hash.  A validator votes for exactly the blocks its own engine accepts.

Seen from above this is a ballot: a validator casts the hash of an accepted
block for the height of the block, and a finalized block is decided by a quorum
of ballots.  Decisions are unique if honest validators cast one ballot per
height.  `on_receive_block` does not see to that by itself: it accepts any
number of blocks at one height, and the engine keeps no record of what it voted
for.
-/

/-- The engines of the validators and the blocks each validator has voted for. -/
structure Network where
  engines : ValidatorID -> ConsensusEngine
  accepted : ValidatorID -> List Block

/-- An engine call at one validator. -/
structure NetworkEvent where
  node : ValidatorID
  call : EngineCall

namespace Network

/-- The block accepted by a call; its validator issues `create_vote` for it. -/
def acceptedBy (prim : Primitives) (engine : ConsensusEngine) : EngineCall -> List Block
  | .onReceiveBlock block =>
      match (engine.onReceiveBlock prim block).1 with
      | .ok true => [block]
      | _ => []
  | .proposeBlock _ => []
  | .onReceiveVote _ => []
  | .triggerViewChange => []

/-- One event.  Only the engine at which it happens changes. -/
def step (prim : Primitives) (network : Network) (event : NetworkEvent) : Network where
  engines := Function.update network.engines event.node ((network.engines event.node).call prim event.call)
  accepted := Function.update network.accepted event.node
    (network.accepted event.node ++ acceptedBy prim (network.engines event.node) event.call)

/-- The network right after genesis, before any vote. -/
def atGenesis (prim : Primitives) (registry : ValidatorID -> ValidatorRegistry) (machine : ValidatorID -> StateMachine)
    (config : EngineConfig) (genesis : Block) : Network :=
  ⟨fun node => ConsensusEngine.started prim (registry node) (machine node) config genesis, fun _ => []⟩

/-- The validator has voted for a block with this hash. -/
def Signed (prim : Primitives) (network : Network) (id : ValidatorID) (hash : Blake3Hash) : Prop :=
  ∃ block ∈ network.accepted id, block.hash prim = hash

instance (prim : Primitives) (network : Network) (id : ValidatorID) (hash : Blake3Hash) :
    Decidable (network.Signed prim id hash) := inferInstanceAs (Decidable (∃ block ∈ network.accepted id, _))

/-- The adversary model: events at honest engines, known headers, and no vote
that completes a certificate over the key of an honest validator that has not
signed the hash. -/
def Allowed (prim : Primitives) (set : ValidatorSet) (honest : Finset ValidatorID) (headers : Set BlockHeader)
    (network : Network) (event : NetworkEvent) : Prop :=
  event.node ∈ honest ∧ (network.engines event.node).WithinHeaders prim headers event.call ∧
    forall vote, event.call = .onReceiveVote vote ->
      forall qc, (network.engines event.node).certificateFor prim vote = .ok (some qc) ->
        Unforged prim set honest (network.Signed prim) qc

/-- Two blocks of one height are the same block. -/
def Compatible (prim : Primitives) (first second : Block) : Prop :=
  first.header.height = second.header.height -> first.hash prim = second.hash prim

/-- A block that verifies does not conflict with genesis or with a block that
the validator has voted for. -/
def VotesOnce (prim : Primitives) (genesis : Block) (network : Network) (event : NetworkEvent) : Prop :=
  forall block, event.call = .onReceiveBlock block ->
    (network.engines event.node).verifyBlock prim block = .ok true ->
    forall earlier, earlier ∈ genesis :: network.accepted event.node -> Compatible prim earlier block

/-- The ballots: a validator casts the hash of a block for its height. -/
def Cast (prim : Primitives) (genesis : Block) (network : Network) (id : ValidatorID) (height : UInt64)
    (hash : Blake3Hash) : Prop :=
  ∃ block ∈ genesis :: network.accepted id, block.header.height = height ∧ block.hash prim = hash

variable {prim : Primitives} {set : ValidatorSet} {honest : Finset ValidatorID} {headers : Set BlockHeader}
  {genesis : Block} {network : Network}

theorem mem_acceptedBy {engine : ConsensusEngine} {call : EngineCall} {block : Block}
    (member : block ∈ acceptedBy prim engine call) :
    call = .onReceiveBlock block ∧ engine.verifyBlock prim block = .ok true := by
  cases call with
  | onReceiveBlock received =>
      simp only [acceptedBy] at member
      split at member
      · rename_i accepted
        rw [List.mem_singleton.mp member]
        exact ⟨rfl, (ConsensusEngine.onReceiveBlock_eq_true_iff received).mp accepted⟩
      · cases member
  | proposeBlock proposal => cases member
  | onReceiveVote vote => cases member
  | triggerViewChange => cases member

/-- The blocks voted for after an event are the earlier ones and, at the node
of the event, the block it accepts. -/
theorem mem_accepted_step {event : NetworkEvent} {node : ValidatorID} {block : Block}
    (member : block ∈ (network.step prim event).accepted node) :
    block ∈ network.accepted node ∨ (node = event.node ∧ event.call = .onReceiveBlock block ∧
      (network.engines event.node).verifyBlock prim block = .ok true) := by
  unfold step at member
  by_cases same : node = event.node
  · subst same
    simp only [Function.update_self] at member
    rcases List.mem_append.mp member with earlier | new
    · exact Or.inl earlier
    · exact Or.inr ⟨rfl, mem_acceptedBy new⟩
  · simp only [Function.update_of_ne same] at member
    exact Or.inl member

theorem accepted_step_of_accepted {event : NetworkEvent} {node : ValidatorID} {block : Block}
    (member : block ∈ network.accepted node) : block ∈ (network.step prim event).accepted node := by
  unfold step
  by_cases same : node = event.node
  · subst same
    simp only [Function.update_self]
    exact List.mem_append_left _ member
  · simp only [Function.update_of_ne same]
    exact member

theorem Signed.step {id : ValidatorID} {hash : Blake3Hash} (signed : network.Signed prim id hash)
    (event : NetworkEvent) : (network.step prim event).Signed prim id hash := by
  rcases signed with ⟨block, member, hashed⟩
  exact ⟨block, accepted_step_of_accepted member, hashed⟩

/-- A quorum whose honest members have all signed the hash. -/
def SignedByQuorum (prim : Primitives) (set : ValidatorSet) (honest : Finset ValidatorID) (network : Network)
    (hash : Blake3Hash) : Prop :=
  ∃ members, Quorum set.activeStakeOf set.electorate members ∧
    forall id, id ∈ members -> id ∈ honest -> network.Signed prim id hash

theorem SignedByQuorum.step {hash : Blake3Hash} (signed : SignedByQuorum prim set honest network hash)
    (event : NetworkEvent) : SignedByQuorum prim set honest (network.step prim event) hash := by
  rcases signed with ⟨members, quorum, all⟩
  exact ⟨members, quorum, fun id member isHonest => (all id member isHonest).step event⟩

/-- The invariant: every engine is on the vote path, every finalized hash other
than that of genesis is signed by a quorum, and every validator has voted for
compatible blocks only. -/
structure Safe (prim : Primitives) (set : ValidatorSet) (honest : Finset ValidatorID) (headers : Set BlockHeader)
    (genesis : Block) (network : Network) : Prop where
  path : forall node, ConsensusEngine.VotePath prim set (· = genesis.hash prim) (network.engines node)
  backed : forall node hash, (network.engines node).isFinalized hash = true ->
    hash = genesis.hash prim ∨ SignedByQuorum prim set honest network hash
  known : forall node block, block ∈ network.accepted node -> block.header ∈ headers
  once : forall node first second, first ∈ genesis :: network.accepted node ->
    second ∈ genesis :: network.accepted node -> Compatible prim first second

theorem Compatible.symm {first second : Block} (compatible : Compatible prim first second) :
    Compatible prim second first := fun heights => (compatible heights.symm).symm

/-- What an allowed event adds to the finalized hashes is signed by a quorum. -/
theorem Safe.finalizedBy (safe : Safe prim set honest headers genesis network) (majority : HonestMajority set honest)
    {event : NetworkEvent} (allowed : network.Allowed prim set honest headers event) {hash : Blake3Hash}
    (finalized : ((network.engines event.node).call prim event.call).isFinalized hash = true) :
    (network.engines event.node).isFinalized hash = true ∨ SignedByQuorum prim set honest network hash := by
  have path := safe.path event.node
  rcases ConsensusEngine.isFinalized_call_cases finalized with
    earlier | ⟨vote, qc, delivered, rfl, takes, formed, verified⟩
  · exact Or.inl earlier
  · rw [path.current] at verified
    have unforged := allowed.2.2 vote delivered qc formed
    refine Or.inr ⟨_, ConsensusEngine.quorum_of_finalizing majority path.copy path.consistent takes formed verified, ?_⟩
    intro id voted isHonest
    exact ConsensusEngine.signed_of_finalizing path.consistent takes formed verified unforged id
      (List.mem_toFinset.mp voted) isHonest

theorem Safe.step (safe : Safe prim set honest headers genesis network) (majority : HonestMajority set honest)
    {event : NetworkEvent} (allowed : network.Allowed prim set honest headers event)
    (votesOnce : network.VotesOnce prim genesis event) :
    Safe prim set honest headers genesis (network.step prim event) := by
  refine ⟨?_, ?_, ?_, ?_⟩
  · intro node
    unfold Network.step
    by_cases same : node = event.node
    · subst same
      simp only [Function.update_self]
      exact (safe.path event.node).call majority.fixed event.call
    · simp only [Function.update_of_ne same]
      exact safe.path node
  · intro node hash finalized
    have before : hash = genesis.hash prim ∨ SignedByQuorum prim set honest network hash := by
      unfold Network.step at finalized
      by_cases same : node = event.node
      · subst same
        simp only [Function.update_self] at finalized
        rcases safe.finalizedBy majority allowed finalized with earlier | signed
        · exact safe.backed event.node hash earlier
        · exact Or.inr signed
      · simp only [Function.update_of_ne same] at finalized
        exact safe.backed node hash finalized
    exact before.imp_right fun signed => signed.step event
  · intro node block member
    rcases mem_accepted_step member with earlier | ⟨_, received, _⟩
    · exact safe.known node block earlier
    · exact allowed.2.1 block (by rw [received]; rfl)
  · -- a new block is compatible with the earlier ones by the guard, and with itself
    have split : forall node block, block ∈ genesis :: (network.step prim event).accepted node ->
        block ∈ genesis :: network.accepted node ∨ (node = event.node ∧ event.call = .onReceiveBlock block ∧
          (network.engines event.node).verifyBlock prim block = .ok true) := by
      intro node block member
      rcases List.mem_cons.mp member with isGenesis | voted
      · exact Or.inl (List.mem_cons.mpr (Or.inl isGenesis))
      · rcases mem_accepted_step voted with earlier | new
        · exact Or.inl (List.mem_cons_of_mem genesis earlier)
        · exact Or.inr new
    intro node first second firstMember secondMember
    rcases split node first firstMember with firstEarlier | ⟨sameNode, firstReceived, firstVerified⟩
    · rcases split node second secondMember with secondEarlier | ⟨sameNode, secondReceived, secondVerified⟩
      · exact safe.once node first second firstEarlier secondEarlier
      · exact votesOnce second secondReceived secondVerified first (sameNode ▸ firstEarlier)
    · rcases split node second secondMember with secondEarlier | ⟨_, secondReceived, _⟩
      · exact (votesOnce first firstReceived firstVerified second (sameNode ▸ secondEarlier)).symm
      · cases firstReceived.symm.trans secondReceived
        exact fun _ => rfl

theorem safe_atGenesis {registry : ValidatorID -> ValidatorRegistry} {machine : ValidatorID -> StateMachine}
    {config : EngineConfig} (sets : forall node, (registry node).currentSet = set) :
    Safe prim set honest headers genesis (atGenesis prim registry machine config genesis) := by
  refine ⟨?_, ?_, nofun, ?_⟩
  · intro node
    rw [← sets node]
    exact (ConsensusEngine.votePath_initial (registry node) (machine node) config).withGenesis rfl
  · intro node hash finalized
    rcases (ConsensusEngine.isFinalized_withGenesis genesis hash).mp finalized with isGenesis | earlier
    · exact Or.inl isGenesis
    · rw [ConsensusEngine.isFinalized_initial] at earlier
      cases earlier
  · intro node first second firstMember secondMember
    rw [List.mem_singleton.mp firstMember, List.mem_singleton.mp secondMember]
    exact fun _ => rfl

/-- The refinement: a block that an engine has finalized is decided by ballots. -/
theorem Safe.decided (safe : Safe prim set honest headers genesis network)
    (separate : Set.InjOn (BlockHeader.hash prim) headers) (listed : genesis.header ∈ headers)
    {node : ValidatorID} {block : Block} (blockListed : block.header ∈ headers)
    (finalized : (network.engines node).isFinalized (block.hash prim) = true) :
    Decided set.activeStakeOf set.electorate honest (network.Cast prim genesis) block.header.height
      (block.hash prim) := by
  rcases safe.backed node _ finalized with isGenesis | ⟨members, quorum, signed⟩
  · have sameHeader : block.header = genesis.header := separate blockListed listed isGenesis
    apply decided_of_unanimous
    intro id _
    exact ⟨genesis, List.mem_cons_self, by rw [sameHeader], isGenesis.symm⟩
  · refine ⟨members, quorum, ?_⟩
    intro id member isHonest
    -- the block that the validator has signed has the same hash, hence the same height
    rcases signed id member isHonest with ⟨own, ownMember, ownHash⟩
    have sameHeader : own.header = block.header := separate (safe.known _ own ownMember) blockListed ownHash
    exact ⟨own, List.mem_cons_of_mem genesis ownMember, by rw [sameHeader], ownHash⟩

/-- Honest validators cast one ballot per height. -/
theorem Safe.cast_once (safe : Safe prim set honest headers genesis network) (id : ValidatorID) (height : UInt64)
    (left right : Blake3Hash) (leftCast : network.Cast prim genesis id height left)
    (rightCast : network.Cast prim genesis id height right) : left = right := by
  rcases leftCast with ⟨first, firstMember, firstHeight, rfl⟩
  rcases rightCast with ⟨second, secondMember, secondHeight, rfl⟩
  exact safe.once id first second firstMember secondMember (firstHeight.trans secondHeight.symm)

/-- Agreement.  In every run allowed to the adversary in which no honest engine
accepts a block that conflicts with one it has accepted before, or with genesis,
no two blocks of one height and different hashes are finalized anywhere. -/
theorem agreement_of_votesOnce (prim : Primitives) (set : ValidatorSet) (honest : Finset ValidatorID)
    (majority : HonestMajority set honest) (headers : Set BlockHeader)
    (separate : Set.InjOn (BlockHeader.hash prim) headers) (genesis : Block) (listed : genesis.header ∈ headers)
    (registry : ValidatorID -> ValidatorRegistry) (sets : forall node, (registry node).currentSet = set)
    (machine : ValidatorID -> StateMachine) (config : EngineConfig) (events : List NetworkEvent)
    (guarded : Along (step prim)
      (fun network event => network.Allowed prim set honest headers event ∧ network.VotesOnce prim genesis event)
      (atGenesis prim registry machine config genesis) events)
    (final : Network) (reached : final = run (step prim) (atGenesis prim registry machine config genesis) events)
    (left right : ValidatorID) (first second : Block) (firstListed : first.header ∈ headers)
    (secondListed : second.header ∈ headers) (sameHeight : first.header.height = second.header.height)
    (firstFinal : (final.engines left).isFinalized (first.hash prim) = true)
    (secondFinal : (final.engines right).isFinalized (second.hash prim) = true) :
    first.hash prim = second.hash prim := by
  have safe : Safe prim set honest headers genesis final := by
    rw [reached]
    exact invariant_run (Safe prim set honest headers genesis)
      (fun network event safe guard => safe.step majority guard.1 guard.2) (safe_atGenesis sets) guarded
  have firstDecided := safe.decided separate listed firstListed firstFinal
  have secondDecided := safe.decided separate listed secondListed secondFinal
  rw [sameHeight] at firstDecided
  exact firstDecided.unique majority.faithful (fun id _ => safe.cast_once id) secondDecided

/-! ## A leader that proposes twice -/

/-- One adversarial validator with one unit of stake, first in the round robin,
and two honest ones with three units each. -/
def contestedSet : ValidatorSet :=
  ⟨0, [numberedValidator 1 1, numberedValidator 2 3, numberedValidator 3 3], 7, Blake3Hash.zero⟩

def honestNodes : Finset ValidatorID := {FixedBytes.ofNat 32 2, FixedBytes.ofNat 32 3}

/-- A certificate for genesis that the adversary signs alone. -/
def adversaryQc : QuorumCertificate :=
  { ConsensusEngine.genesisQc with signers := [FixedBytes.ofNat 32 1], totalStakeSigned := 7 }

/-- The adversary's blocks at height one differ in their timestamps. -/
def contestedBlock (timestamp : UInt64) : Block :=
  ConsensusEngine.childOf (ConsensusEngine.genesisAt 0) timestamp adversaryQc

def contestedHeaders : List BlockHeader :=
  [(ConsensusEngine.genesisAt 0).header, (contestedBlock 1).header, (contestedBlock 2).header]

/-- The two honest engines right after genesis. -/
def contestedNetwork : Network :=
  atGenesis Transparent.primitives (fun _ => ConsensusEngine.registryWith contestedSet)
    (fun _ => StateMachine.create 1) {} (ConsensusEngine.genesisAt 0)

/-- The vote that an honest validator creates for one of the blocks. -/
def contestedVote (number : Nat) (timestamp : UInt64) : Vote :=
  (contestedNetwork.engines (FixedBytes.ofNat 32 number)).createVote Transparent.primitives
    (contestedBlock timestamp) (FixedBytes.ofNat 32 number) (FixedBytes.ofNat 32 number)

/-- Both honest engines receive a block. -/
def receiveBoth (timestamp : UInt64) : List NetworkEvent :=
  [⟨FixedBytes.ofNat 32 2, .onReceiveBlock (contestedBlock timestamp)⟩,
    ⟨FixedBytes.ofNat 32 3, .onReceiveBlock (contestedBlock timestamp)⟩]

/-- Both honest votes for a block reach one engine. -/
def voteBoth (node : Nat) (timestamp : UInt64) : List NetworkEvent :=
  [⟨FixedBytes.ofNat 32 node, .onReceiveVote (contestedVote 2 timestamp)⟩,
    ⟨FixedBytes.ofNat 32 node, .onReceiveVote (contestedVote 3 timestamp)⟩]

theorem honestMajority_contestedSet : HonestMajority contestedSet honestNodes :=
  ⟨⟨by unfold ValidatorSet.DistinctIds; decide +kernel, by decide +kernel⟩, by decide +kernel,
    by unfold Faithful; decide +kernel⟩

theorem injOn_contestedHeaders : Set.InjOn (BlockHeader.hash Transparent.primitives)
    { header | header ∈ contestedHeaders } :=
  fun _ first _ second same => List.inj_on_of_nodup_map (by decide +kernel) first second same

theorem allowed_receive {node : ValidatorID} {block : Block} (isHonest : node ∈ honest)
    (listed : block.header ∈ headers) : network.Allowed prim set honest headers ⟨node, .onReceiveBlock block⟩ := by
  refine ⟨isHonest, ?_, nofun⟩
  intro stored same
  cases Option.some.inj same
  exact listed

/-- A vote for a hash that all honest validators have signed forges nothing. -/
theorem allowed_vote {node : ValidatorID} {vote : Vote} (isHonest : node ∈ honest)
    (signed : forall id, id ∈ honest -> network.Signed prim id vote.blockHash) :
    network.Allowed prim set honest headers ⟨node, .onReceiveVote vote⟩ := by
  refine ⟨isHonest, nofun, ?_⟩
  intro delivered same qc formed _ id _ trusted
  cases same
  rw [ConsensusEngine.blockHash_of_certificateFor formed]
  exact signed id trusted

/-- One block only: it is finalized by one engine, so the other block is not
finalized by the other engine. -/
theorem agreement_of_votesOnce_single :
    ((run (step Transparent.primitives) contestedNetwork (receiveBoth 1 ++ voteBoth 2 1)).engines
      (FixedBytes.ofNat 32 2)).isFinalized ((contestedBlock 1).hash Transparent.primitives) = true ∧
    ((run (step Transparent.primitives) contestedNetwork (receiveBoth 1 ++ voteBoth 2 1)).engines
      (FixedBytes.ofNat 32 3)).isFinalized ((contestedBlock 2).hash Transparent.primitives) ≠ true := by
  have finalized : ((run (step Transparent.primitives) contestedNetwork (receiveBoth 1 ++ voteBoth 2 1)).engines
      (FixedBytes.ofNat 32 2)).isFinalized ((contestedBlock 1).hash Transparent.primitives) = true := by
    decide +kernel
  have guarded : Along (step Transparent.primitives) (fun network event =>
      network.Allowed Transparent.primitives contestedSet honestNodes { header | header ∈ contestedHeaders } event ∧
        network.VotesOnce Transparent.primitives (ConsensusEngine.genesisAt 0) event)
      contestedNetwork (receiveBoth 1 ++ voteBoth 2 1) := by
    refine ⟨⟨allowed_receive (by decide +kernel) (by simp [contestedHeaders]), ?_⟩,
      ⟨allowed_receive (by decide +kernel) (by simp [contestedHeaders]), ?_⟩,
      ⟨allowed_vote (by decide +kernel) (by decide +kernel), nofun⟩,
      ⟨allowed_vote (by decide +kernel) (by decide +kernel), nofun⟩, trivial⟩
    · intro block same _
      cases same
      unfold Compatible
      decide +kernel
    · intro block same _
      cases same
      unfold Compatible
      decide +kernel
  refine ⟨finalized, fun conflicting => ?_⟩
  have same := agreement_of_votesOnce Transparent.primitives contestedSet honestNodes
    honestMajority_contestedSet { header | header ∈ contestedHeaders } injOn_contestedHeaders
    (ConsensusEngine.genesisAt 0) (by simp [contestedHeaders]) (fun _ => ConsensusEngine.registryWith contestedSet)
    (fun _ => rfl) (fun _ => StateMachine.create 1) {} (receiveBoth 1 ++ voteBoth 2 1) guarded _ rfl
    (FixedBytes.ofNat 32 2) (FixedBytes.ofNat 32 3) (contestedBlock 1) (contestedBlock 2)
    (by simp [contestedHeaders]) (by simp [contestedHeaders]) (by decide +kernel) finalized conflicting
  exact absurd same (by decide +kernel)

/-- Both engines accept both blocks of the adversary and their validators vote
for both.  One engine then finalizes the first block, the other the second. -/
theorem honest_engines_disagree :
    HonestMajority contestedSet honestNodes ∧
    Set.InjOn (BlockHeader.hash Transparent.primitives) { header | header ∈ contestedHeaders } ∧
    Along (step Transparent.primitives)
      (Allowed Transparent.primitives contestedSet honestNodes { header | header ∈ contestedHeaders })
      contestedNetwork (receiveBoth 1 ++ receiveBoth 2 ++ voteBoth 2 1 ++ voteBoth 3 2) ∧
    (contestedBlock 1).header.height = (contestedBlock 2).header.height ∧
    (contestedBlock 1).hash Transparent.primitives ≠ (contestedBlock 2).hash Transparent.primitives ∧
    ((run (step Transparent.primitives) contestedNetwork
      (receiveBoth 1 ++ receiveBoth 2 ++ voteBoth 2 1 ++ voteBoth 3 2)).engines
        (FixedBytes.ofNat 32 2)).isFinalized ((contestedBlock 1).hash Transparent.primitives) = true ∧
    ((run (step Transparent.primitives) contestedNetwork
      (receiveBoth 1 ++ receiveBoth 2 ++ voteBoth 2 1 ++ voteBoth 3 2)).engines
        (FixedBytes.ofNat 32 3)).isFinalized ((contestedBlock 2).hash Transparent.primitives) = true := by
  refine ⟨honestMajority_contestedSet, injOn_contestedHeaders, ?_, by decide +kernel, by decide +kernel,
    by decide +kernel, by decide +kernel⟩
  exact ⟨allowed_receive (by decide +kernel) (by simp [contestedHeaders]),
    allowed_receive (by decide +kernel) (by simp [contestedHeaders]),
    allowed_receive (by decide +kernel) (by simp [contestedHeaders]),
    allowed_receive (by decide +kernel) (by simp [contestedHeaders]),
    allowed_vote (by decide +kernel) (by decide +kernel), allowed_vote (by decide +kernel) (by decide +kernel),
    allowed_vote (by decide +kernel) (by decide +kernel), allowed_vote (by decide +kernel) (by decide +kernel), trivial⟩

end Network
end Consensus
end Sarafu

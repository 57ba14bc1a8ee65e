import Sarafu.Consensus.ForgedVotes
import Sarafu.Network.BoundedDecoders

namespace Sarafu
namespace Network

open Crypto Consensus ConsensusEngine Library.Decoding Library.Runs

/-!
# Votes between peers

A vote is written with all of its fields.  The decoder takes the bytes of the signature out
of the payload and then builds the vote with a default signature, so what arrives is the
vote without its signature.  The receiving engine records it as it arrives.
-/

structure Vote where
  blockHeight : UInt64
  blockHash : Blake3Hash
  viewNumber : UInt64
  validatorId : ValidatorID
  signature : BLS12381Signature
deriving DecidableEq

namespace Vote

def serialize (vote : Vote) : List UInt8 :=
  bigEndian64 vote.blockHeight ++ vote.blockHash.serialize ++ bigEndian64 vote.viewNumber ++
    vote.validatorId.serialize ++ vote.signature.serialize

/-- `BLS12_381_Signature()` is filled with zeros. -/
def defaultSignature : BLS12381Signature := FixedBytes.zero 96

/-- The bytes of the signature are copied, and the signature is not built from them. -/
def decoder : ByteDecoder Vote := do
  let height <- readBig64
  let hash <- readBlake3Hash
  let view <- readBig64
  let validator <- readAddress
  let _ <- Decoder.slice 96
  return ⟨height, hash, view, validator, defaultSignature⟩

def deserialize (data : List UInt8) : Outcome String Vote :=
  if data.length < 176 then .throws "Vote::deserialize: data too short" else decoder.run data

/-- The vote that `handle_vote_message` hands to the engine; the fields go by their names. -/
def toConsensus (vote : Vote) : Consensus.Vote :=
  ⟨vote.validatorId, vote.blockHeight, vote.blockHash, vote.viewNumber, vote.signature⟩

/-- A vote as it arrives. -/
def unsigned (vote : Vote) : Vote := { vote with signature := defaultSignature }

theorem length_serialize (vote : Vote) : vote.serialize.length = 176 := by
  simp only [serialize, List.length_append, Crypto.length_serialize, length_bigEndian64]

theorem consumes_decoder (vote : Vote) : Consumes decoder vote.serialize [] vote.unsigned := by
  simp only [serialize, List.append_assoc]
  refine (consumes_readBig64 _ vote.blockHeight).bind ?_
  refine (consumes_readFixed _ _ vote.blockHash).bind ?_
  refine (consumes_readBig64 _ vote.viewNumber).bind ?_
  refine (consumes_readFixed _ _ vote.validatorId).bind ?_
  exact (Consumes.slice vote.signature.length_bytes []).last

/-- What arrives of a vote. -/
theorem deserialize_serialize (vote : Vote) : deserialize vote.serialize = .value vote.unsigned := by
  unfold deserialize
  rw [length_serialize, if_neg (Nat.lt_irrefl 176)]
  exact vote.consumes_decoder.run_eq (by rw [length_serialize]; decide)

theorem unsigned_eq_iff (vote : Vote) : vote.unsigned = vote <-> vote.signature = defaultSignature := by
  constructor
  · intro same
    rw [← same]
    rfl
  · intro default
    unfold unsigned
    rw [← default]

theorem stays_decoder {data : List UInt8} (vector : data.length < 2 ^ 63) : Stays decoder data 176 0 := by
  refine (stays_readBig64 168 vector).bind fun height => ?_
  refine (stays_readFixed 136 vector 32 _).bind fun hash => ?_
  refine (stays_readBig64 128 vector).bind fun view => ?_
  refine (stays_readFixed 96 vector 32 _).bind fun validator => ?_
  exact (Stays.slice 96 0 vector).last

theorem deserialize_ne_outside {data : List UInt8} (vector : data.length < 2 ^ 63) : deserialize data ≠ .outside :=
  checked_ne_outside (stays_decoder vector) _

end Vote

variable (prim : Primitives)

/-- `handle_vote_message`: the engine and the change of the sender's reputation.  Every exception
is caught, and what the engine did before it was thrown stays. -/
def handleVoteMessage (engine : ConsensusEngine) (payload : List UInt8) : Option (ConsensusEngine × Int) :=
  match Vote.deserialize payload with
  | .outside => none
  | .throws _ => some (engine, -5)
  | .value vote =>
      let received := engine.onReceiveVote prim vote.toConsensus
      match received.1 with
      | .error _ => some (received.2, -5)
      | .ok _ => some (received.2, 1)

/-- The engine after a vote was sent to it. -/
def afterVoteMessage (engine : ConsensusEngine) (vote : Vote) : Option ConsensusEngine :=
  (handleVoteMessage prim engine vote.serialize).map Prod.fst

/-- The engine receives the vote without its signature. -/
theorem afterVoteMessage_eq (engine : ConsensusEngine) (vote : Vote) :
    afterVoteMessage prim engine vote = some (engine.call prim (.onReceiveVote vote.unsigned.toConsensus)) := by
  unfold afterVoteMessage handleVoteMessage
  rw [Vote.deserialize_serialize, call]
  dsimp only
  cases (engine.onReceiveVote prim vote.unsigned.toConsensus).1 with
  | error failure => rfl
  | ok certificate => rfl

/-- The votes that are sent to an engine, one after the other. -/
def afterVoteMessages (engine : ConsensusEngine) (votes : List Vote) : Option ConsensusEngine :=
  votes.foldlM (afterVoteMessage prim) engine

/-- A vote that is taken is recorded with its signature. -/
theorem voteAggregator_onReceiveVote {prim : Primitives} {engine : ConsensusEngine} {vote : Consensus.Vote}
    (takes : engine.TakesVote vote) :
    (engine.onReceiveVote prim vote).2.voteAggregator = engine.voteAggregator.recordVote vote := by
  rcases onReceiveVote_cases prim engine vote with ⟨refused, _⟩ | ⟨_, outcome, _⟩ | ⟨_, qc, _, _, outcome⟩
  · exact absurd takes refused
  · rw [outcome]
    rfl
  · rw [outcome]
    rfl

/-- The aggregation takes the vote that arrived for the one that was sent. -/
theorem afterVoteMessage_eq_iff (engine : ConsensusEngine) (vote : Vote) :
    afterVoteMessage prim engine vote = some (engine.onReceiveVote prim vote.toConsensus).2 <->
      vote.signature = Vote.defaultSignature ∨ ¬ engine.TakesVote vote.toConsensus := by
  rw [afterVoteMessage_eq, Option.some_inj, call]
  by_cases default : vote.signature = Vote.defaultSignature
  · rw [vote.unsigned_eq_iff.mpr default]
    exact iff_of_true rfl (Or.inl default)
  · by_cases takes : engine.TakesVote vote.toConsensus
    · refine iff_of_false ?_ (not_or.mpr ⟨default, not_not.mpr takes⟩)
      intro same
      have arrived : engine.TakesVote vote.unsigned.toConsensus := takes
      have records := congrArg ConsensusEngine.voteAggregator same
      rw [voteAggregator_onReceiveVote takes, voteAggregator_onReceiveVote arrived] at records
      have lists := congrArg (VoteAggregator.votesFor · (VoteAggregator.keyOf vote.toConsensus)) records
      have sameKey : VoteAggregator.keyOf vote.unsigned.toConsensus = VoteAggregator.keyOf vote.toConsensus := rfl
      simp only [VoteAggregator.votesFor_recordVote, sameKey, if_true] at lists
      have votes := List.singleton_inj.mp (List.append_cancel_left lists)
      exact default (congrArg Consensus.Vote.signature votes).symm
    · refine iff_of_true ?_ (Or.inr takes)
      have refused : ¬ engine.TakesVote vote.unsigned.toConsensus := takes
      rcases onReceiveVote_cases prim engine vote.toConsensus with ⟨_, sent⟩ | ⟨taken, _⟩ | ⟨taken, _⟩
      · rcases onReceiveVote_cases prim engine vote.unsigned.toConsensus with ⟨_, arrived⟩ | ⟨taken, _⟩ | ⟨taken, _⟩
        · rw [sent, arrived]
        · exact absurd taken refused
        · exact absurd taken refused
      · exact absurd taken takes
      · exact absurd taken takes

/-- Exactly the votes with a default signature survive the wire. -/
theorem voteSurvives_iff (vote : Vote) :
    (Vote.deserialize vote.serialize = .value vote <-> vote.signature = Vote.defaultSignature) ∧
    forall (prim : Primitives) (engine : ConsensusEngine),
      afterVoteMessage prim engine vote = some (engine.onReceiveVote prim vote.toConsensus).2 <->
        vote.signature = Vote.defaultSignature ∨ ¬ engine.TakesVote vote.toConsensus := by
  refine ⟨?_, fun prim engine => afterVoteMessage_eq_iff prim engine vote⟩
  rw [Vote.deserialize_serialize, ← vote.unsigned_eq_iff, Outcome.value.injEq]

/-- The vote of a numbered validator for the block of height one, as it is sent. -/
def sentVote (number : Nat) : Vote :=
  let vote := firstBlockVote number
  ⟨vote.blockHeight, vote.blockHash, vote.viewNumber, vote.validatorId, vote.signature⟩

/-- Two of three validators vote with valid signatures.  The block is finalized, and not if the
votes come over the network. -/
theorem votes_lose_signatures :
    Vote.deserialize (sentVote 1).serialize ≠ .value (sentVote 1) ∧
    (run (call Transparent.primitives) (unitEngine 3)
      [.onReceiveVote (sentVote 1).toConsensus, .onReceiveVote (sentVote 2).toConsensus]).isFinalized
        (firstBlock.hash Transparent.primitives) = true ∧
    (afterVoteMessages Transparent.primitives (unitEngine 3) [sentVote 1, sentVote 2]).map
      (fun engine => engine.isFinalized (firstBlock.hash Transparent.primitives)) = some false := by
  refine ⟨?_, ?_, ?_⟩
  · decide +kernel
  · decide +kernel
  · decide +kernel

end Network
end Sarafu

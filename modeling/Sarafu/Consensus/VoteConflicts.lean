import Sarafu.Consensus.SlashingDetector
import Sarafu.Consensus.HeightBinding

namespace Sarafu
namespace Consensus

open Crypto State Library.Runs SlashingDetector

/-!
# The votes of an honest validator

A validator that votes for one block per height, each the child of the one before,
never signs twice at a height.  The detector of surround votes also reads the view:
two blocks at different heights conflict for it whenever their votes carry the same
view.  The engine stamps a vote with its current view, and no call but
`trigger_view_change` moves that view, so whether a chain of honest votes is reported
depends on the view changes between them.
-/

/-- The calls of a node whose validator also votes. -/
inductive VoterCall
  | node (call : NodeCall)
  | vote (block : Block)

/-- The view changes of a call. -/
def VoterCall.viewChanges : VoterCall -> Nat
  | .node (.engine .triggerViewChange) => 1
  | _ => 0

/-- An engine and the number of view changes so far. -/
structure Voter where
  engine : ConsensusEngine
  viewChanges : Nat

/-- A vote with the block that it was created for, and the view changes before it. -/
structure Ballot where
  block : Block
  viewChanges : Nat
  vote : Vote

/-- The signature record of a vote, seen at some time. -/
def Vote.signatureRecord (vote : Vote) (timestamp : UInt64) : SignatureRecord :=
  ⟨vote.validatorId, vote.blockHeight, vote.blockHash, vote.signature, timestamp⟩

namespace Voter

variable (prim : Primitives) (voterId : ValidatorID) (voterKey : BLS12381PrivateKey)

def call (voter : Voter) (step : VoterCall) : Voter where
  engine := match step with
    | .node call => voter.engine.nodeCall prim call
    | .vote _ => voter.engine
  viewChanges := voter.viewChanges + step.viewChanges

/-- The vote that a call creates. -/
def castBy (voter : Voter) : VoterCall -> Option Ballot
  | .node _ => none
  | .vote block => some ⟨block, voter.viewChanges, voter.engine.createVote prim block voterId voterKey⟩

/-- The votes of a run, in order. -/
def ballots (engine : ConsensusEngine) (calls : List VoterCall) : List Ballot :=
  outputs (call prim) (castBy prim voterId voterKey) ⟨engine, 0⟩ calls

end Voter

/-- At most one block per height, each the child of the one before. -/
structure HonestVotes (prim : Primitives) (ballots : List Ballot) : Prop where
  oneBlock : forall first, first ∈ ballots -> forall second, second ∈ ballots ->
    first.block.header.height = second.block.header.height -> first.block = second.block
  children : ballots.IsChain fun earlier later => later.block.header.previousHash = earlier.block.hash prim

/-- No two of the votes are a surround vote. -/
def NoSurroundVote (ballots : List Ballot) : Prop :=
  forall first, first ∈ ballots -> forall second, second ∈ ballots -> detectSurroundVote first.vote second.vote = none

/-- No two of the signatures are a double sign, whenever they were seen. -/
def NoDoubleSign (ballots : List Ballot) : Prop :=
  forall first, first ∈ ballots -> forall second, second ∈ ballots -> forall firstTime secondTime,
    detectDoubleSign (first.vote.signatureRecord firstTime) (second.vote.signatureRecord secondTime) = none

/-- Between two votes for different blocks the view has changed, and not by a multiple
of `2^64`. -/
def ViewsChange (prim : Primitives) (ballots : List Ballot) : Prop :=
  forall first, first ∈ ballots -> forall second, second ∈ ballots ->
    first.block.hash prim ≠ second.block.hash prim ->
      first.viewChanges % 2 ^ 64 ≠ second.viewChanges % 2 ^ 64

/-! ## The view along a run -/

namespace ConsensusEngine

/-- Only `trigger_view_change` moves the view. -/
theorem currentView_nodeCall (prim : Primitives) (engine : ConsensusEngine) (step : NodeCall) :
    (engine.nodeCall prim step).currentView = engine.currentView + UInt64.ofNat (VoterCall.node step).viewChanges := by
  have still : forall view : UInt64, view = view + UInt64.ofNat 0 := fun view => (UInt64.add_zero view).symm
  cases step with
  | registry call => exact still engine.currentView
  | genesis block =>
      rcases nodeCall_genesis_cases prim engine block with ⟨_, taken⟩ | refused
      · rw [taken]
        exact still engine.currentView
      · rw [refused]
        exact still engine.currentView
  | engine call =>
      cases call with
      | triggerViewChange => rfl
      | proposeBlock proposal =>
          rcases proposeBlock_cases prim engine proposal with ⟨parent, _, _, outcome⟩ | outcome
          · simp only [nodeCall, ConsensusEngine.call, outcome]
            exact still engine.currentView
          · simp only [nodeCall, ConsensusEngine.call, outcome]
            exact still engine.currentView
      | onReceiveBlock block =>
          rcases onReceiveBlock_cases prim engine block with ⟨_, outcome⟩ | ⟨_, _, outcome⟩
          · simp only [nodeCall, ConsensusEngine.call, outcome]
            exact still engine.currentView
          · simp only [nodeCall, ConsensusEngine.call, outcome]
            exact still engine.currentView
      | onReceiveVote vote =>
          rcases onReceiveVote_cases prim engine vote with ⟨_, outcome⟩ | ⟨_, outcome, _⟩ | ⟨_, qc, _, _, outcome⟩
          · simp only [nodeCall, ConsensusEngine.call, outcome]
            exact still engine.currentView
          · simp only [nodeCall, ConsensusEngine.call, outcome]
            exact still engine.currentView
          · simp only [nodeCall, ConsensusEngine.call, outcome]
            exact still engine.currentView

end ConsensusEngine

/-- What `create_vote` has written into a ballot of a run that started in a view. -/
structure Stamped (prim : Primitives) (voterId : ValidatorID) (startView : UInt64) (ballot : Ballot) : Prop where
  voter : ballot.vote.validatorId = voterId
  height : ballot.vote.blockHeight = ballot.block.header.height
  hash : ballot.vote.blockHash = ballot.block.hash prim
  view : ballot.vote.viewNumber = startView + UInt64.ofNat ballot.viewChanges

theorem Voter.stamped_ballots (prim : Primitives) (voterId : ValidatorID) (voterKey : BLS12381PrivateKey)
    (engine : ConsensusEngine) (calls : List VoterCall) :
    forall ballot, ballot ∈ Voter.ballots prim voterId voterKey engine calls ->
      Stamped prim voterId engine.currentView ballot := by
  refine forall_mem_outputs_of_invariant
    (fun voter : Voter => voter.engine.currentView = engine.currentView + UInt64.ofNat voter.viewChanges) ?_ ?_ ?_ calls
  · intro voter step counted
    cases step with
    | vote block => exact counted
    | node call =>
        change (voter.engine.nodeCall prim call).currentView =
          engine.currentView + UInt64.ofNat (voter.viewChanges + (VoterCall.node call).viewChanges)
        rw [ConsensusEngine.currentView_nodeCall, counted, UInt64.ofNat_add, UInt64.add_assoc]
  · intro voter step ballot counted cast
    cases step with
    | node call => cases cast
    | vote block =>
        cases Option.some.inj cast
        exact ⟨rfl, rfl, rfl, counted⟩
  · exact (UInt64.add_zero _).symm

/-- Views of one run agree if the numbers of view changes do, modulo `2^64`. -/
theorem Stamped.view_eq_iff {prim : Primitives} {voterId : ValidatorID} {startView : UInt64} {first second : Ballot}
    (one : Stamped prim voterId startView first) (other : Stamped prim voterId startView second) :
    first.vote.viewNumber = second.vote.viewNumber <->
      first.viewChanges % 2 ^ 64 = second.viewChanges % 2 ^ 64 := by
  rw [one.view, other.view, UInt64.add_right_inj, ← UInt64.toNat_inj, UInt64.toNat_ofNat', UInt64.toNat_ofNat']

/-! ## Reports -/

theorem detectSurroundVote_eq_none_iff (vote1 vote2 : Vote) :
    detectSurroundVote vote1 vote2 = none <-> vote1.validatorId ≠ vote2.validatorId ∨
      vote1.blockHash = vote2.blockHash ∨
      (vote1.blockHeight ≠ vote2.blockHeight ∧ vote1.viewNumber ≠ vote2.viewNumber) := by
  unfold detectSurroundVote
  grind

theorem detectDoubleSign_eq_none_iff (sig1 sig2 : SignatureRecord) :
    detectDoubleSign sig1 sig2 = none <-> sig1.validatorId ≠ sig2.validatorId ∨
      sig1.blockHeight ≠ sig2.blockHeight ∨ sig1.blockHash = sig2.blockHash := by
  unfold detectDoubleSign
  grind

/-- One block per height: votes at one height carry one hash. -/
theorem HonestVotes.sameHash {prim : Primitives} {voterId : ValidatorID} {startView : UInt64} {ballots : List Ballot}
    (honest : HonestVotes prim ballots)
    (stamped : forall ballot, ballot ∈ ballots -> Stamped prim voterId startView ballot)
    {first second : Ballot} (firstCast : first ∈ ballots) (secondCast : second ∈ ballots)
    (same : first.vote.blockHeight = second.vote.blockHeight) : first.vote.blockHash = second.vote.blockHash := by
  rw [(stamped first firstCast).height, (stamped second secondCast).height] at same
  rw [(stamped first firstCast).hash, (stamped second secondCast).hash,
    honest.oneBlock first firstCast second secondCast same]

/-- In every run of every engine, an honest validator never signs twice at a height, and
no two of its votes are a surround vote if and only if the view changes between its
votes for different blocks. -/
theorem honest_votes_reported_iff (prim : Primitives) (engine : ConsensusEngine) (voterId : ValidatorID)
    (voterKey : BLS12381PrivateKey) (calls : List VoterCall)
    (honest : HonestVotes prim (Voter.ballots prim voterId voterKey engine calls)) :
    NoDoubleSign (Voter.ballots prim voterId voterKey engine calls) ∧
    (NoSurroundVote (Voter.ballots prim voterId voterKey engine calls) <->
      ViewsChange prim (Voter.ballots prim voterId voterKey engine calls)) := by
  have stamped := Voter.stamped_ballots prim voterId voterKey engine calls
  refine ⟨?_, ?_, ?_⟩
  · intro first firstCast second secondCast firstTime secondTime
    rw [detectDoubleSign_eq_none_iff]
    right
    by_cases heights : first.vote.blockHeight = second.vote.blockHeight
    · exact Or.inr (honest.sameHash stamped firstCast secondCast heights)
    · exact Or.inl heights
  · intro silent first firstCast second secondCast differ sameViews
    have one := stamped first firstCast
    have other := stamped second secondCast
    rcases (detectSurroundVote_eq_none_iff _ _).mp (silent first firstCast second secondCast) with
      voters | hashes | ⟨_, views⟩
    · exact voters (one.voter.trans other.voter.symm)
    · rw [one.hash, other.hash] at hashes
      exact differ hashes
    · exact views ((one.view_eq_iff other).mpr sameViews)
  · intro change first firstCast second secondCast
    have one := stamped first firstCast
    have other := stamped second secondCast
    rw [detectSurroundVote_eq_none_iff]
    right
    by_cases hashes : first.vote.blockHash = second.vote.blockHash
    · exact Or.inl hashes
    · refine Or.inr ⟨fun heights => hashes (honest.sameHash stamped firstCast secondCast heights), fun views => ?_⟩
      rw [one.hash, other.hash] at hashes
      exact change first firstCast second secondCast hashes ((one.view_eq_iff other).mp views)

/-! ## Two honest votes, with and without a view change between them -/

/-- The child of the first proposed block. -/
def childBlock : Block :=
  { ConsensusEngine.proposedBlock with header := { ConsensusEngine.proposedBlock.header with
      height := 2, previousHash := ConsensusEngine.proposedBlock.hash Transparent.primitives } }

/-- The first validator votes for a block and for its child, with some calls between. -/
def chainVotes (between : List VoterCall) : List VoterCall :=
  .vote ConsensusEngine.proposedBlock :: between ++ [.vote childBlock]

/-- The votes of the first validator along those calls. -/
def chainBallots (between : List VoterCall) : List Ballot :=
  Voter.ballots Transparent.primitives (FixedBytes.ofNat 32 1) (FixedBytes.ofNat 32 1) (ConsensusEngine.unitEngine 3)
    (chainVotes between)

theorem honestVotes_pair {prim : Primitives} {first second : Ballot}
    (child : second.block.header.previousHash = first.block.hash prim)
    (heights : first.block.header.height ≠ second.block.header.height) : HonestVotes prim [first, second] where
  oneBlock := by
    intro one oneCast other otherCast same
    rw [List.mem_pair] at oneCast otherCast
    rcases oneCast with rfl | rfl <;> rcases otherCast with rfl | rfl
    · rfl
    · exact absurd same heights
    · exact absurd same.symm heights
    · rfl
  children := List.isChain_pair.mpr child

/-- With a view change between the two votes nothing is reported. -/
theorem honest_votes_reported_iff_view_change :
    NoDoubleSign (chainBallots [.node (.engine .triggerViewChange)]) ∧
    (NoSurroundVote (chainBallots [.node (.engine .triggerViewChange)]) <->
      ViewsChange Transparent.primitives (chainBallots [.node (.engine .triggerViewChange)])) :=
  honest_votes_reported_iff Transparent.primitives (ConsensusEngine.unitEngine 3) (FixedBytes.ofNat 32 1)
    (FixedBytes.ofNat 32 1) (chainVotes [.node (.engine .triggerViewChange)])
    (honestVotes_pair rfl (by decide +kernel))

/-- Without a view change the vote for the child is reported as a surround vote. -/
theorem child_vote_reported :
    HonestVotes Transparent.primitives (chainBallots []) ∧ ¬ NoSurroundVote (chainBallots []) := by
  refine ⟨honestVotes_pair rfl (by decide +kernel), ?_⟩
  intro silent
  have reported : forall first, first ∈ chainBallots [] -> forall second, second ∈ chainBallots [] ->
      (detectSurroundVote first.vote second.vote).isNone = true := by
    intro first firstCast second secondCast
    rw [silent first firstCast second secondCast]
    rfl
  revert reported
  decide +kernel

end Consensus
end Sarafu

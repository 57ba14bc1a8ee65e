import Sarafu.Consensus.Finality
import Sarafu.Library.Histories

namespace Sarafu
namespace Consensus

open Crypto State Library.Runs

/-!
# Which certificate finalized a block

`mark_finalized` is public and takes the hash and the certificate separately.  It verifies
the certificate and does not compare its block with the hash, so a valid certificate of one
block finalizes any other.  The vote path always passes a certificate of the block that was
voted for.
-/

/-- The calls of a node, and `mark_finalized` with any arguments. -/
inductive FinalityCall
  | node (call : NodeCall)
  | markFinalized (blockHash : Blake3Hash) (qc : QuorumCertificate)

namespace ConsensusEngine

variable (prim : Primitives)

def finalityCall (engine : ConsensusEngine) : FinalityCall -> ConsensusEngine
  | .node call => engine.nodeCall prim call
  | .markFinalized blockHash qc => (engine.markFinalized prim blockHash qc).2

/-- The call runs `mark_finalized` with this hash and this certificate. -/
inductive Requests (engine : ConsensusEngine) : FinalityCall -> Blake3Hash -> QuorumCertificate -> Prop
  | direct (blockHash : Blake3Hash) (qc : QuorumCertificate) :
      Requests engine (.markFinalized blockHash qc) blockHash qc
  | voted (vote : Vote) (qc : QuorumCertificate) (takes : engine.TakesVote vote)
      (formed : engine.certificateFor prim vote = .ok (some qc)) :
      Requests engine (.node (.engine (.onReceiveVote vote))) vote.blockHash qc

/-- The call marks the hash with a certificate that passes the verification against the
current set of the registry at that moment. -/
def Marks (engine : ConsensusEngine) (step : FinalityCall) (hash : Blake3Hash) (qc : QuorumCertificate) : Prop :=
  engine.Requests prim step hash qc ∧ QCVerifier.verifyQc prim qc engine.currentSet = .ok true

/-- The call gives the engine a genesis block of this hash. -/
def SetsGenesis (step : FinalityCall) (hash : Blake3Hash) : Prop :=
  ∃ genesis : Block, step = .node (.genesis genesis) ∧ genesis.header.height = 0 ∧ genesis.hash prim = hash

/-- The call gives a reason why the hash is final: it is genesis, or it has its own certificate. -/
def Justifies (hash : Blake3Hash) (engine : ConsensusEngine) (step : FinalityCall) : Prop :=
  SetsGenesis prim step hash ∨ ∃ qc, engine.Marks prim step hash qc ∧ qc.blockHash = hash

/-- A direct call passes a certificate of the block that it marks, or one that is rejected,
or it marks a block that is final already. -/
def PassesOwnCertificate (engine : ConsensusEngine) (step : FinalityCall) : Prop :=
  forall hash qc, step = .markFinalized hash qc -> QCVerifier.verifyQc prim qc engine.currentSet = .ok true ->
    qc.blockHash = hash ∨ engine.isFinalized hash = true

variable {prim} {engine : ConsensusEngine}

theorem isFinalized_of_blocks {before after : ConsensusEngine} (same : after.finalizedBlocks = before.finalizedBlocks)
    (hash : Blake3Hash) : after.isFinalized hash = before.isFinalized hash := by
  unfold isFinalized
  rw [same]

/-- Everything `mark_finalized` can do. -/
theorem markFinalized_cases (prim : Primitives) (engine : ConsensusEngine) (hash : Blake3Hash)
    (qc : QuorumCertificate) :
    (QCVerifier.verifyQc prim qc engine.currentSet = .ok true ∧
      (engine.markFinalized prim hash qc).2 = engine.finalizeVerified hash qc) ∨
    (QCVerifier.verifyQc prim qc engine.currentSet ≠ .ok true ∧ (engine.markFinalized prim hash qc).2 = engine) := by
  unfold markFinalized
  cases verdict : QCVerifier.verifyQc prim qc engine.currentSet with
  | error failure => exact Or.inr ⟨nofun, rfl⟩
  | ok accepted =>
      cases accepted with
      | false => exact Or.inr ⟨nofun, rfl⟩
      | true => exact Or.inl ⟨rfl, rfl⟩

/-- What a call has to do with the finality of a hash, apart from what was final before. -/
def Finalizes (prim : Primitives) (hash : Blake3Hash) (engine : ConsensusEngine) (step : FinalityCall) : Prop :=
  SetsGenesis prim step hash ∨ ∃ qc, engine.Marks prim step hash qc

theorem isFinalized_markFinalized (hash blockHash : Blake3Hash) (qc : QuorumCertificate) :
    (engine.finalityCall prim (.markFinalized blockHash qc)).isFinalized hash = true <->
      engine.isFinalized hash = true ∨ Finalizes prim hash engine (.markFinalized blockHash qc) := by
  rcases markFinalized_cases prim engine blockHash qc with ⟨verified, outcome⟩ | ⟨rejected, outcome⟩
  · rw [finalityCall, outcome, isFinalized_finalizeVerified]
    constructor
    · rintro (rfl | before)
      · exact Or.inr (Or.inr ⟨qc, .direct hash qc, verified⟩)
      · exact Or.inl before
    · rintro (before | ⟨genesis, same, _⟩ | ⟨other, ⟨⟩, _⟩)
      · exact Or.inr before
      · cases same
      · exact Or.inl rfl
  · rw [finalityCall, outcome]
    refine (or_iff_left ?_).symm
    rintro (⟨genesis, same, _⟩ | ⟨other, ⟨⟩, verified⟩)
    · cases same
    · exact rejected verified

theorem isFinalized_onReceiveVote (hash : Blake3Hash) (vote : Vote) :
    (engine.finalityCall prim (.node (.engine (.onReceiveVote vote)))).isFinalized hash = true <->
      engine.isFinalized hash = true ∨ Finalizes prim hash engine (.node (.engine (.onReceiveVote vote))) := by
  change (engine.onReceiveVote prim vote).2.isFinalized hash = true <-> _
  rcases onReceiveVote_cases prim engine vote with
    ⟨refused, outcome⟩ | ⟨_, outcome, unverified, _⟩ | ⟨takes, qc, formed, verified, outcome⟩
  · rw [outcome]
    refine (or_iff_left ?_).symm
    rintro (⟨genesis, same, _⟩ | ⟨qc, requests, _⟩)
    · cases same
    · cases requests with
      | voted _ _ takes _ => exact refused takes
  · rw [outcome, isFinalized_of_blocks (show (engine.recorded vote).finalizedBlocks = engine.finalizedBlocks from rfl)]
    refine (or_iff_left ?_).symm
    rintro (⟨genesis, same, _⟩ | ⟨qc, requests, verified⟩)
    · cases same
    · cases requests with
      | voted _ _ _ formed => exact unverified qc formed verified
  · rw [outcome, isFinalized_finalizeVerified,
      isFinalized_of_blocks (show (engine.recorded vote).finalizedBlocks = engine.finalizedBlocks from rfl)]
    constructor
    · rintro (rfl | before)
      · exact Or.inr (Or.inr ⟨qc, .voted vote qc takes formed, verified⟩)
      · exact Or.inl before
    · rintro (before | ⟨genesis, same, _⟩ | ⟨other, requests, _⟩)
      · exact Or.inr before
      · cases same
      · cases requests with
        | voted _ _ _ _ => exact Or.inl rfl

theorem isFinalized_genesis (hash : Blake3Hash) (genesis : Block) :
    (engine.finalityCall prim (.node (.genesis genesis))).isFinalized hash = true <->
      engine.isFinalized hash = true ∨ Finalizes prim hash engine (.node (.genesis genesis)) := by
  change (engine.nodeCall prim (.genesis genesis)).isFinalized hash = true <-> _
  by_cases zero : genesis.header.height = 0
  · have given : engine.nodeCall prim (.genesis genesis) = engine.withGenesis prim genesis := by
      simp only [nodeCall, setGenesisBlock_of_zero prim engine zero]
    rw [given, isFinalized_withGenesis]
    constructor
    · rintro (rfl | before)
      · exact Or.inr (Or.inl ⟨genesis, rfl, zero, rfl⟩)
      · exact Or.inl before
    · rintro (before | ⟨other, same, _, hashed⟩ | ⟨qc, requests, _⟩)
      · exact Or.inr before
      · cases same
        exact Or.inl hashed.symm
      · cases requests
  · rcases nodeCall_genesis_cases prim engine genesis with ⟨height, _⟩ | unchanged
    · exact absurd height zero
    · rw [unchanged]
      refine (or_iff_left ?_).symm
      rintro (⟨other, same, height, _⟩ | ⟨qc, requests, _⟩)
      · cases same
        exact zero height
      · cases requests

/-- A hash is final after a call if it was final before, if the call marks it, or if it is
the genesis that the call sets. -/
theorem isFinalized_finalityCall (prim : Primitives) (engine : ConsensusEngine) (step : FinalityCall)
    (hash : Blake3Hash) :
    (engine.finalityCall prim step).isFinalized hash = true <->
      engine.isFinalized hash = true ∨ Finalizes prim hash engine step := by
  -- the calls that neither mark a block nor set a genesis block
  have unchanged : forall step : FinalityCall,
      (engine.finalityCall prim step).finalizedBlocks = engine.finalizedBlocks ->
        (forall other qc, ¬engine.Requests prim step other qc) -> (forall genesis, step ≠ .node (.genesis genesis)) ->
          ((engine.finalityCall prim step).isFinalized hash = true <->
            engine.isFinalized hash = true ∨ Finalizes prim hash engine step) := by
    intro step same silent other
    rw [isFinalized_of_blocks same]
    refine (or_iff_left ?_).symm
    rintro (⟨genesis, equal, _⟩ | ⟨qc, requests, _⟩)
    · exact other genesis equal
    · exact silent hash qc requests
  cases step with
  | markFinalized blockHash qc => exact isFinalized_markFinalized hash blockHash qc
  | node step =>
      cases step with
      | registry step => exact unchanged _ rfl nofun nofun
      | genesis block => exact isFinalized_genesis hash block
      | engine step =>
          cases step with
          | onReceiveVote vote => exact isFinalized_onReceiveVote hash vote
          | proposeBlock proposal =>
              exact unchanged _ ((call_cases prim engine (.proposeBlock proposal)).resolve_left nofun).finalizedBlocks
                nofun nofun
          | onReceiveBlock block =>
              exact unchanged _ ((call_cases prim engine (.onReceiveBlock block)).resolve_left nofun).finalizedBlocks
                nofun nofun
          | triggerViewChange => exact unchanged _ rfl nofun nofun

/-- In a run whose direct calls pass own certificates, what makes a hash final justifies it. -/
theorem justifies_of_finalizes {step : FinalityCall} {hash : Blake3Hash} (own : engine.PassesOwnCertificate prim step)
    (finalizes : Finalizes prim hash engine step) :
    engine.isFinalized hash = true ∨ Justifies prim hash engine step := by
  rcases finalizes with genesis | ⟨qc, requests, verified⟩
  · exact Or.inr (Or.inl genesis)
  · cases requests with
    | direct _ _ =>
        rcases own hash qc rfl verified with same | before
        · exact Or.inr (Or.inr ⟨qc, ⟨.direct hash qc, verified⟩, same⟩)
        · exact Or.inl before
    | voted vote _ takes formed =>
        exact Or.inr (Or.inr ⟨qc, ⟨.voted vote qc takes formed, verified⟩, blockHash_of_certificateFor formed⟩)

/-- After every beginning of the run, each final hash is genesis or was marked with a
verified certificate of its own. -/
def OwnCertificates (prim : Primitives) (start : ConsensusEngine) (calls : List FinalityCall) : Prop :=
  forall before after, calls = before ++ after -> forall hash,
    (run (finalityCall prim) start before).isFinalized hash = true ->
      Happened (finalityCall prim) (Justifies prim hash) start before

/-- In a run of a new engine the final hashes have their own certificates if and only if
every direct call of `mark_finalized` keeps the hash and the certificate together. -/
theorem ownCertificates_iff (prim : Primitives) (registry : ValidatorRegistry) (machine : StateMachine)
    (config : EngineConfig) (calls : List FinalityCall) :
    OwnCertificates prim (initial registry machine config) calls <->
      Along (finalityCall prim) (PassesOwnCertificate prim) (initial registry machine config) calls := by
  constructor
  · intro certified
    rw [along_iff_forall_split]
    rintro before _ after split hash qc rfl verified
    have final : (run (finalityCall prim) (initial registry machine config)
        (before ++ [.markFinalized hash qc])).isFinalized hash = true := by
      rw [run_append]
      exact (isFinalized_finalityCall prim _ _ hash).mpr (Or.inr (Or.inr ⟨qc, .direct hash qc, verified⟩))
    have justified := certified (before ++ [.markFinalized hash qc]) after (by rw [split, List.append_assoc]; rfl)
      hash final
    rcases happened_concat.mp justified with earlier | ⟨genesis, same, _⟩ | ⟨other, ⟨requests, _⟩, own⟩
    · -- the hash was justified before, and nothing takes its finality away
      refine Or.inr (run_of_happened (fun engine => engine.isFinalized hash = true) ?_ ?_ earlier)
      · exact fun engine step before => (isFinalized_finalityCall prim engine step hash).mpr (Or.inl before)
      · intro engine step justifies
        refine (isFinalized_finalityCall prim engine step hash).mpr (Or.inr ?_)
        exact justifies.imp_right fun ⟨own, marks, _⟩ => ⟨own, marks⟩
    · cases same
    · cases requests with
      | direct _ _ => exact Or.inl own
  · rintro own before after rfl hash final
    have guarded := (along_append.mp own).1
    refine (happened_of_run (fun engine => engine.isFinalized hash = true) ?_ guarded final).resolve_left ?_
    · intro engine step passes reached
      rcases (isFinalized_finalityCall prim engine step hash).mp reached with before | finalizes
      · exact Or.inl before
      · exact justifies_of_finalizes passes finalizes
    · rw [isFinalized_initial]
      exact Bool.false_ne_true

/-- A valid certificate of one block finalizes another one. -/
theorem markFinalized_other_block :
    let qc := boastfulQc
    let engine := (initial (registryWith (unitSet 3)) (StateMachine.create 1) {}).finalityCall Transparent.primitives
      (.markFinalized (FixedBytes.ofNat 32 8) qc)
    engine.isFinalized (FixedBytes.ofNat 32 8) = true ∧ qc.blockHash = FixedBytes.ofNat 32 7 ∧
      ¬OwnCertificates Transparent.primitives (initial (registryWith (unitSet 3)) (StateMachine.create 1) {})
        [.markFinalized (FixedBytes.ofNat 32 8) qc] := by
  refine ⟨by decide +kernel, rfl, ?_⟩
  intro certified
  have justified := certified [.markFinalized (FixedBytes.ofNat 32 8) boastfulQc] [] rfl (FixedBytes.ofNat 32 8)
    (by decide +kernel)
  rcases justified with (⟨genesis, same, _⟩ | ⟨other, ⟨requests, _⟩, own⟩) | impossible
  · cases same
  · cases requests with
    | direct _ _ => exact absurd own (by decide +kernel)
  · exact impossible

end ConsensusEngine
end Consensus
end Sarafu

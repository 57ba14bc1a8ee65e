import Sarafu.Consensus.ChainExtension

namespace Sarafu
namespace Consensus

open Crypto State Library.Runs

/-!
# Repeated proposals of one leader

The height of a proposal is read from `current_height_`.  `propose_block`
leaves it where it was, although it stores the block and executes it;
`on_receive_block` advances it.  It never decreases, so the proposals of a run
are ordered by the height they were made at, and two of them share a height
exactly when nothing raised it between them.  The clock then makes them two
different blocks.
-/

namespace ConsensusEngine

variable {prim : Primitives} {engine : ConsensusEngine}

/-- A returned proposal, with what the call read: the current height and the clock. -/
structure Made where
  current : UInt64
  now : UInt64
  block : Block

/-- The proposal that a call returns. -/
def made (prim : Primitives) (engine : ConsensusEngine) : EngineCall -> Option Made
  | .proposeBlock proposal =>
      (engine.proposeBlock prim proposal).1.map fun block => ⟨engine.currentHeight, proposal.now, block⟩
  | .onReceiveBlock _ => none
  | .onReceiveVote _ => none
  | .triggerViewChange => none

/-- The proposals returned along a run. -/
def madeAlong (prim : Primitives) (engine : ConsensusEngine) (calls : List EngineCall) : List Made :=
  outputs (call prim) (made prim) engine calls

/-- Any two proposals of the run are equal or have different heights. -/
def EquivocationFree (prim : Primitives) (engine : ConsensusEngine) (calls : List EngineCall) : Prop :=
  (madeAlong prim engine calls).Pairwise fun earlier later =>
    earlier.block = later.block ∨ earlier.block.header.height ≠ later.block.header.height

/-- The current height changes between any two consecutive proposals. -/
def AdvancesBetween (prim : Primitives) (engine : ConsensusEngine) (calls : List EngineCall) : Prop :=
  (madeAlong prim engine calls).IsChain fun earlier later => earlier.current ≠ later.current

/-- What a returned proposal reads from the state and from the clock. -/
theorem made_spec {step : EngineCall} {proposed : Made} (returned : engine.made prim step = some proposed) :
    proposed.current = engine.currentHeight ∧ proposed.block.header.height = engine.currentHeight + 1 ∧
      proposed.block.header.timestamp = proposed.now := by
  cases step with
  | proposeBlock proposal =>
      rcases Option.map_eq_some_iff.mp returned with ⟨block, found, rfl⟩
      rcases proposeBlock_eq_some found with ⟨parent, _, _, rfl, _⟩
      exact ⟨rfl, rfl, rfl⟩
  | onReceiveBlock block => cases returned
  | onReceiveVote vote => cases returned
  | triggerViewChange => cases returned

/-- The current height never decreases. -/
theorem currentHeight_le_call (prim : Primitives) (engine : ConsensusEngine) (step : EngineCall) :
    engine.currentHeight.toNat ≤ (engine.call prim step).currentHeight.toNat := by
  cases step with
  | proposeBlock proposal =>
      rcases proposeBlock_cases prim engine proposal with ⟨parent, _, _, outcome⟩ | outcome
      · simp only [call, outcome]
        exact Nat.le_refl _
      · simp only [call, outcome]
        exact Nat.le_refl _
  | onReceiveBlock block =>
      rcases onReceiveBlock_cases prim engine block with ⟨_, outcome⟩ | ⟨_, _, unchanged⟩
      · simp only [call, outcome, acceptVerified]
        split
        · rename_i higher
          exact Nat.le_of_lt (UInt64.lt_iff_toNat_lt.mp higher)
        · exact Nat.le_refl _
      · simp only [call, unchanged]
        exact Nat.le_refl _
  | onReceiveVote vote =>
      rcases onReceiveVote_cases prim engine vote with
        ⟨_, outcome⟩ | ⟨_, outcome, _, _⟩ | ⟨_, qc, _, _, outcome⟩
      · simp only [call, outcome]
        exact Nat.le_refl _
      · simp only [call, outcome]
        exact Nat.le_refl _
      · simp only [call, outcome]
        exact Nat.le_refl _
  | triggerViewChange => exact Nat.le_refl _

theorem madeAlong_ordered (prim : Primitives) (engine : ConsensusEngine) (calls : List EngineCall) :
    (madeAlong prim engine calls).Pairwise fun earlier later =>
      earlier.current.toNat ≤ later.current.toNat :=
  (outputs_ranked (fun state : ConsensusEngine => state.currentHeight.toNat)
    (fun proposed : Made => proposed.current.toNat) (currentHeight_le_call prim)
    (fun _ _ _ returned => congrArg UInt64.toNat (made_spec returned).1) engine calls).1

theorem madeAlong_spec (prim : Primitives) (engine : ConsensusEngine) (calls : List EngineCall) :
    forall proposed, proposed ∈ madeAlong prim engine calls ->
      proposed.block.header.height = proposed.current + 1 ∧ proposed.block.header.timestamp = proposed.now := by
  apply forall_mem_outputs
  intro state step proposed returned
  rcases made_spec returned with ⟨current, height, clock⟩
  exact ⟨current ▸ height, clock⟩

/-- Heights that differ from one proposal to the next differ throughout,
because they never decrease. -/
theorem AdvancesBetween.pairwise {calls : List EngineCall} (advances : AdvancesBetween prim engine calls) :
    (madeAlong prim engine calls).Pairwise fun earlier later => earlier.current.toNat < later.current.toNat := by
  apply pairwise_lt_of_isChain_ne (fun proposed : Made => proposed.current.toNat)
    (madeAlong_ordered prim engine calls)
  exact List.IsChain.imp (fun _ _ different same => different (UInt64.toNat_inj.mp same)) advances

/-- Two proposals of a run have the same height exactly when they were made at
the same current height. -/
theorem height_eq_iff {calls : List EngineCall} {earlier later : Made}
    (first : earlier ∈ madeAlong prim engine calls) (second : later ∈ madeAlong prim engine calls) :
    earlier.block.header.height = later.block.header.height <-> earlier.current = later.current := by
  rw [(madeAlong_spec prim engine calls earlier first).1, (madeAlong_spec prim engine calls later second).1]
  exact UInt64.add_left_inj 1

/-- Exactly when a leader does not equivocate.  If the current height changes
between consecutive proposals, all proposals have different heights.  If the
clock readings of the proposals differ, that is also necessary. -/
theorem equivocationFree_iff_advancesBetween (prim : Primitives) (engine : ConsensusEngine)
    (calls : List EngineCall) :
    (AdvancesBetween prim engine calls -> EquivocationFree prim engine calls) ∧
    ((madeAlong prim engine calls).Pairwise (fun earlier later => earlier.now ≠ later.now) ->
      (EquivocationFree prim engine calls <-> AdvancesBetween prim engine calls)) := by
  have enough : AdvancesBetween prim engine calls -> EquivocationFree prim engine calls := by
    intro advances
    refine advances.pairwise.imp_of_mem ?_
    intro earlier later first second increases
    refine Or.inr fun sameHeight => ?_
    rw [(height_eq_iff first second).mp sameHeight] at increases
    exact Nat.lt_irrefl _ increases
  refine ⟨enough, fun clocks => ⟨?_, enough⟩⟩
  intro free
  have different : (madeAlong prim engine calls).Pairwise fun earlier later => earlier.current ≠ later.current := by
    refine (free.and clocks).imp_of_mem ?_
    rintro earlier later first second ⟨sameOrHigher, clock⟩ sameCurrent
    rcases sameOrHigher with sameBlock | differentHeight
    · apply clock
      rw [← (madeAlong_spec prim engine calls earlier first).2, ← (madeAlong_spec prim engine calls later second).2,
        sameBlock]
    · exact differentHeight ((height_eq_iff first second).mpr sameCurrent)
  exact different.isChain

/-! ## Two calls within one view -/

/-- Two proposals with a received block between them. -/
theorem equivocationFree_iff_advancesBetween_received :
    EquivocationFree Transparent.primitives (unitEngine 3)
      [.proposeBlock (plainProposal 5), .onReceiveBlock (forkBlock 1), .proposeBlock (plainProposal 6)] ∧
    (madeAlong Transparent.primitives (unitEngine 3)
      [.proposeBlock (plainProposal 5), .onReceiveBlock (forkBlock 1), .proposeBlock (plainProposal 6)]).length =
        2 := by
  refine ⟨(equivocationFree_iff_advancesBetween Transparent.primitives (unitEngine 3) _).1 ?_, by decide +kernel⟩
  unfold AdvancesBetween
  decide +kernel

/-- Two calls of the leader one clock tick apart, with nothing between them,
return two different blocks of height one. -/
theorem leader_equivocates :
    ∃ earlier later,
      (madeAlong Transparent.primitives (unitEngine 3)
        [.proposeBlock (plainProposal 5), .proposeBlock (plainProposal 6)]).map Made.block = [earlier, later] ∧
      earlier ≠ later ∧ earlier.header.height = later.header.height ∧
      earlier.header.proposer = later.header.proposer := by
  refine ⟨proposedBlock, ((unitEngine 3).afterProposal Transparent.primitives (plainProposal 5) none).assembleBlock
    Transparent.primitives (plainProposal 6) none, by decide +kernel, by decide +kernel, by decide +kernel,
    by decide +kernel⟩

end ConsensusEngine
end Consensus
end Sarafu

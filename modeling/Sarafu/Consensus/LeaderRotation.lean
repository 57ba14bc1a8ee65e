import Sarafu.Consensus.Proposals
import Sarafu.Consensus.VoteConflicts
import Sarafu.Library.RoundRobin

namespace Sarafu
namespace Consensus

open Crypto State Library.Runs Library.RoundRobin

/-!
# Who leads, and how often

A view belongs to the active validator at the place of its number, modulo their count.  Only
`trigger_view_change` leaves a view, so whatever else happens in between, the active validators
lead in turn, and a block enters the engine only from the leader of the view.
-/

namespace ConsensusEngine

/-- The ids of the active validators, in the order of the set. -/
def activeIds (engine : ConsensusEngine) : List ValidatorID :=
  engine.currentSet.getActiveValidators.map Validator.id

def changesView : EngineCall -> Bool
  | .triggerViewChange => true
  | _ => false

/-- The leader of the view that a call opens. -/
def newLeader (engine : ConsensusEngine) : EngineCall -> Option ValidatorID
  | .triggerViewChange => engine.triggerViewChange.2.getCurrentLeader
  | _ => none

/-- The block that a call brings into the engine. -/
def enteringBlock (prim : Primitives) (engine : ConsensusEngine) : EngineCall -> Option Block
  | .proposeBlock proposal => (engine.proposeBlock prim proposal).1
  | .onReceiveBlock block => if (engine.onReceiveBlock prim block).1 = .ok true then some block else none
  | .onReceiveVote _ => none
  | .triggerViewChange => none

/-- The leaders of the views that a run opens, in order. -/
def leadersIn (prim : Primitives) (start : ConsensusEngine) (calls : List EngineCall) : List ValidatorID :=
  outputs (call prim) newLeader start calls

variable {prim : Primitives} {engine start : ConsensusEngine}

theorem getCurrentLeader_eq (engine : ConsensusEngine) :
    engine.getCurrentLeader = engine.activeIds[engine.currentView.toNat % engine.activeIds.length]? := by
  simp only [getCurrentLeader, selectLeader, activeIds, List.length_map, List.getElem?_map]

theorem length_activeIds (engine : ConsensusEngine) :
    engine.activeIds.length = engine.currentSet.getActiveValidators.length := List.length_map _

theorem activeIds_call (prim : Primitives) (engine : ConsensusEngine) (step : EngineCall) :
    (engine.call prim step).activeIds = engine.activeIds := by
  have same : (engine.call prim step).validatorRegistry = engine.validatorRegistry := call_registry prim engine step
  unfold activeIds currentSet
  rw [same]

/-- Nothing but a view change moves the view. -/
theorem currentView_call (prim : Primitives) (engine : ConsensusEngine) {step : EngineCall}
    (stays : changesView step = false) : (engine.call prim step).currentView = engine.currentView := by
  have moves := currentView_nodeCall prim engine (.engine step)
  cases step with
  | triggerViewChange => cases stays
  | proposeBlock proposal => exact moves.trans (UInt64.add_zero _)
  | onReceiveBlock block => exact moves.trans (UInt64.add_zero _)
  | onReceiveVote vote => exact moves.trans (UInt64.add_zero _)

/-- The leaders of a run are the active validators in turn. -/
theorem leadersIn_eq (calls : List EngineCall)
    (unwrapped : start.currentView.toNat + calls.countP changesView < 2 ^ 64) :
    leadersIn prim start calls =
      turns start.activeIds (start.currentView.toNat + 1) (calls.countP changesView) := by
  induction calls generalizing start with
  | nil => rfl
  | cons step rest inductionHypothesis =>
      have ids := activeIds_call prim start step
      cases changes : changesView step with
      | false =>
          have stays := currentView_call prim start changes
          have silent : newLeader start step = none := by
            cases step with
            | triggerViewChange => cases changes
            | proposeBlock proposal => rfl
            | onReceiveBlock block => rfl
            | onReceiveVote vote => rfl
          rw [List.countP_cons_of_neg (by rw [changes]; exact Bool.false_ne_true)] at unwrapped ⊢
          rw [← stays] at unwrapped
          have later := inductionHypothesis unwrapped
          rw [ids, stays] at later
          rw [← later, leadersIn, outputs, silent]
          rfl
      | true =>
          rw [List.countP_cons_of_pos changes] at unwrapped ⊢
          cases step with
          | proposeBlock proposal => cases changes
          | onReceiveBlock block => cases changes
          | onReceiveVote vote => cases changes
          | triggerViewChange =>
              have next : (start.call prim .triggerViewChange).currentView.toNat = start.currentView.toNat + 1 := by
                refine (UInt64.toNat_add start.currentView 1).trans (Nat.mod_eq_of_lt ?_)
                rw [UInt64.toNat_one]
                omega
              have room : (start.call prim .triggerViewChange).currentView.toNat + rest.countP changesView <
                  2 ^ 64 := by
                omega
              have later := inductionHypothesis room
              rw [ids, next] at later
              have leads : newLeader start .triggerViewChange =
                  start.activeIds[(start.currentView.toNat + 1) % start.activeIds.length]? := by
                have leader := getCurrentLeader_eq (start.call prim .triggerViewChange)
                rw [ids, next] at leader
                exact leader
              rw [turns_succ, ← later, ← leads]
              rfl

/-- A proposed block carries its proposer's id, and a received one is checked. -/
theorem proposer_of_entering {step : EngineCall} {block : Block}
    (enters : enteringBlock prim engine step = some block) :
    engine.getCurrentLeader = some block.header.proposer := by
  cases step with
  | triggerViewChange => cases enters
  | onReceiveVote vote => cases enters
  | proposeBlock proposal =>
      rcases proposeBlock_eq_some enters with ⟨parent, leads, _, rfl, _⟩
      exact eq_of_beq leads
  | onReceiveBlock received =>
      dsimp only [enteringBlock] at enters
      split at enters
      · rename_i accepted
        cases enters
        have verified := (onReceiveBlock_eq_true_iff block).mp accepted
        exact eq_of_beq ((verifyBlock_eq_true_iff block).mp verified).2.1
      · cases enters

/-- In a run that opens so many whole rounds of views, among any other calls, every active
validator leads that many of them and nobody else leads any; and every block that enters the
engine names the leader of the view it enters in as its proposer. -/
theorem leadership_rotates (prim : Primitives) (start : ConsensusEngine) (calls : List EngineCall)
    (distinct : start.currentSet.DistinctIds)
    (unwrapped : start.currentView.toNat + calls.countP changesView < 2 ^ 64) (rounds : Nat)
    (whole : calls.countP changesView = rounds * start.currentSet.getActiveValidators.length) :
    (forall id, (leadersIn prim start calls).count id = if id ∈ start.activeIds then rounds else 0) ∧
    Along (call prim) (fun engine step => forall block, enteringBlock prim engine step = some block ->
      engine.getCurrentLeader = some block.header.proposer) start calls := by
  have nodup : start.activeIds.Nodup := distinct.sublist (List.filter_sublist.map Validator.id)
  refine ⟨?_, ?_⟩
  · intro id
    rw [leadersIn_eq calls unwrapped, whole, ← length_activeIds, count_turns, nodup.count]
    split
    · exact Nat.mul_one rounds
    · exact Nat.mul_zero rounds
  · exact along_of_invariant (fun _ => True) (fun _ _ _ _ => trivial)
      (fun _ _ _ _ _ enters => proposer_of_entering enters) trivial (along_true start calls)

/-- Three validators, one round and a forged vote in between. -/
theorem leadership_rotates_round :
    (leadersIn Transparent.primitives (unitEngine 3)
      [.triggerViewChange, .triggerViewChange, .onReceiveVote (signedVote 1 1 (FixedBytes.ofNat 32 7)),
        .triggerViewChange]).count (FixedBytes.ofNat 32 2) = 1 := by
  have rotates := (leadership_rotates Transparent.primitives (unitEngine 3)
    [.triggerViewChange, .triggerViewChange, .onReceiveVote (signedVote 1 1 (FixedBytes.ofNat 32 7)),
      .triggerViewChange] (by unfold ValidatorSet.DistinctIds; decide +kernel) (by decide +kernel) 1
    (by decide +kernel)).1 (FixedBytes.ofNat 32 2)
  have active : (FixedBytes.ofNat 32 2 : ValidatorID) ∈ (unitEngine 3).activeIds := by decide +kernel
  rw [if_pos active] at rotates
  exact rotates

end ConsensusEngine
end Consensus
end Sarafu

import Sarafu.Library.SpacedActs
import Sarafu.Network.ConsensusLoop

namespace Sarafu
namespace Network

open Crypto Consensus State ConsensusEngine Library Library.Runs

/-!
# How often the loop acts

One register holds the time of the last proposal, of the last valid block and of the last view
change to a view with a leader.  Proposals and view changes wait for it.
-/

inductive ActivityKind
  | proposal
  | validBlock
  | viewChange
deriving DecidableEq

structure Activity where
  kind : ActivityKind
  time : UInt64
deriving DecidableEq

/-- The milliseconds that an activity waits. -/
def Activity.wait (activity : Activity) : Nat :=
  match activity.kind with
  | .proposal => blockTimeMs.toNat
  | .validBlock => 0
  | .viewChange => viewTimeoutMs.toNat + 1

/-- The clock in milliseconds, as often as a call reads it. -/
def LoopCall.reads : LoopCall -> List UInt64
  | .start => []
  | .stop => []
  | .round made => [made.proposalTime, made.checkTime]
  | .receive arrival _ _ => [arrival.milliseconds]

/-- The clock starts where the register is, and it does not go backwards. -/
def Ticks (start : UInt64) (calls : List LoopCall) : Prop :=
  (start :: calls.flatMap LoopCall.reads).Pairwise fun earlier later => earlier.toNat ≤ later.toNat

instance (start : UInt64) (calls : List LoopCall) : Decidable (Ticks start calls) :=
  inferInstanceAs (Decidable (List.Pairwise _ _))

namespace ConsensusLoop

variable (prim : Primitives)

/-- A block that was broadcast. -/
def proposalActivity (loop : ConsensusLoop) (round : Round) : List Activity :=
  match (loop.proposeBlock prim round).1 with
  | .ok (some _) => [⟨.proposal, round.proposalTime⟩]
  | .ok none => []
  | .error _ => []

/-- A change to a view with a leader. -/
def timeoutActivity (loop : ConsensusLoop) (now : UInt64) : List Activity :=
  if viewTimeoutMs < now - loop.lastBlockTime ∧ loop.engine.triggerViewChange.1 = true then [⟨.viewChange, now⟩] else []

def roundActivity (loop : ConsensusLoop) (round : Round) : List Activity :=
  if loop.running then
    if loop.isLeader then
      match loop.proposeBlock prim round with
      | (.error _, _) => []
      | (.ok _, proposed) => loop.proposalActivity prim round ++ proposed.timeoutActivity round.checkTime
    else loop.timeoutActivity round.checkTime
  else []

/-- A block that was handled and is valid. -/
def blockActivity (loop : ConsensusLoop) (arrival : Arrival) (payload : List UInt8) : List Activity :=
  match Block.deserialize payload with
  | .value block =>
      if (loop.engine.onReceiveBlock prim block).1 = .ok true then [⟨.validBlock, arrival.milliseconds⟩] else []
  | .throws _ => []
  | .outside => []

def messageActivity (loop : ConsensusLoop) (arrival : Arrival) (message : NetworkMessage) : List Activity :=
  if loop.layer.isMessageSeen message.hash = false ∧ message.type ∈ loop.layer.messageHandlers ∧
      message.type = MessageType.block then loop.blockActivity prim arrival message.payload
  else []

def activity (loop : ConsensusLoop) : LoopCall -> List Activity
  | .start => []
  | .stop => []
  | .round round => loop.roundActivity prim round
  | .receive arrival message _ => loop.messageActivity prim arrival message

/-- What the loop does in a run, in order. -/
def activities : Option ConsensusLoop -> List LoopCall -> List Activity
  | _, [] => []
  | none, _ => []
  | some loop, call :: rest => loop.activity prim call ++ activities (loop.perform prim call) rest

variable {prim} {loop : ConsensusLoop}

/-- These activities note their times one after the other, and a clock that does not go
backwards makes each of them wait. -/
structure Paces (before after : UInt64) (reads : List UInt64) (acts : List Activity) : Prop where
  register : after.toNat = SpacedActs.lastTime (fun act : Activity => act.time.toNat) before.toNat acts
  spaced : (before :: reads).Pairwise (fun earlier later => earlier.toNat ≤ later.toNat) ->
    SpacedActs.Spaced Activity.wait (fun act => act.time.toNat) before.toNat acts
  among : forall act, act ∈ acts -> act.time ∈ reads

/-- The difference of two times of a clock that does not go backwards. -/
theorem toNat_sub_of_read {last now : UInt64} (ordered : last.toNat ≤ now.toNat) :
    (now - last).toNat = now.toNat - last.toNat :=
  UInt64.toNat_sub_of_le _ _ (UInt64.le_iff_toNat_le.mpr ordered)

theorem Paces.nothing (last : UInt64) (reads : List UInt64) : Paces last last reads [] := ⟨rfl, fun _ => trivial, nofun⟩

/-- One activity that has waited. -/
theorem Paces.single {last : UInt64} (act : Activity)
    (waited : last.toNat ≤ act.time.toNat -> last.toNat + act.wait ≤ act.time.toNat) :
    Paces last act.time [act.time] [act] where
  register := rfl
  spaced := by
    intro ordered
    rw [List.pairwise_pair] at ordered
    exact ⟨waited ordered, trivial⟩
  among := by
    intro other member
    rw [List.mem_singleton.mp member]
    exact List.mem_singleton_self _

theorem paces_proposeBlock (loop : ConsensusLoop) (round : Round) :
    Paces loop.lastBlockTime (loop.proposeBlock prim round).2.lastBlockTime [round.proposalTime]
      (loop.proposalActivity prim round) := by
  unfold proposalActivity proposeBlock
  split
  · exact Paces.nothing loop.lastBlockTime _
  · rename_i late
    split
    · exact Paces.nothing loop.lastBlockTime _
    · split
      · exact Paces.nothing loop.lastBlockTime _
      · refine Paces.single ⟨.proposal, round.proposalTime⟩ ?_
        intro ordered
        dsimp only at ordered
        rw [UInt64.lt_iff_toNat_lt, toNat_sub_of_read ordered] at late
        dsimp only [Activity.wait]
        omega

/-- What is done first, and then. -/
theorem Paces.append {first second third : UInt64} {reads moreReads : List UInt64} {acts moreActs : List Activity}
    (earlier : Paces first second reads acts) (later : Paces second third moreReads moreActs) :
    Paces first third (reads ++ moreReads) (acts ++ moreActs) where
  register := by
    rw [later.register, earlier.register, SpacedActs.lastTime_append]
  spaced := by
    intro ordered
    rw [← List.cons_append, List.pairwise_append] at ordered
    rcases ordered with ⟨before, after, across⟩
    refine SpacedActs.spaced_append.mpr ⟨earlier.spaced before, ?_⟩
    rw [← earlier.register]
    refine later.spaced (List.pairwise_cons.mpr ⟨?_, after⟩)
    -- the register holds the start or a time that was read
    intro read member
    rw [earlier.register]
    rcases SpacedActs.lastTime_cases (fun act : Activity => act.time.toNat) first.toNat acts with
      kept | ⟨act, listed, same⟩
    · rw [kept]
      exact across first List.mem_cons_self read member
    · rw [same]
      exact across act.time (List.mem_cons_of_mem first (earlier.among act listed)) read member
  among := by
    intro act member
    rw [List.mem_append] at member ⊢
    exact member.imp (earlier.among act) (later.among act)

/-- Times that are read besides do not matter. -/
theorem Paces.sublist {before after : UInt64} {reads more : List UInt64} {acts : List Activity}
    (paces : Paces before after reads acts) (among : reads.Sublist more) : Paces before after more acts where
  register := paces.register
  spaced := fun ordered => paces.spaced (ordered.sublist (among.cons_cons before))
  among := fun act member => among.subset (paces.among act member)

theorem paces_checkViewTimeout (loop : ConsensusLoop) (now : UInt64) :
    Paces loop.lastBlockTime (loop.checkViewTimeout now).lastBlockTime [now] (loop.timeoutActivity now) := by
  unfold timeoutActivity checkViewTimeout
  split
  · rename_i late
    dsimp only
    cases changed : loop.engine.triggerViewChange.1 with
    | false =>
        rw [if_neg Bool.false_ne_true, if_neg fun both => Bool.false_ne_true both.2]
        exact Paces.nothing loop.lastBlockTime _
    | true =>
        rw [if_pos rfl, if_pos ⟨late, rfl⟩]
        refine Paces.single ⟨.viewChange, now⟩ ?_
        intro ordered
        dsimp only at ordered
        rw [UInt64.lt_iff_toNat_lt, toNat_sub_of_read ordered] at late
        dsimp only [Activity.wait]
        omega
  · rename_i early
    rw [if_neg fun both => early both.1]
    exact Paces.nothing loop.lastBlockTime _

theorem paces_runConsensusLoop (loop : ConsensusLoop) (round : Round) :
    Paces loop.lastBlockTime (loop.runConsensusLoop prim round).lastBlockTime [round.proposalTime, round.checkTime]
      (loop.roundActivity prim round) := by
  have proposed := @paces_proposeBlock prim loop round
  unfold roundActivity runConsensusLoop
  split
  · split
    · rcases outcome : loop.proposeBlock prim round with ⟨failure | block, after⟩
      · simp only [proposalActivity, outcome] at proposed ⊢
        exact proposed.sublist (List.sublist_append_left [round.proposalTime] [round.checkTime])
      · simp only [outcome] at proposed ⊢
        exact proposed.append (paces_checkViewTimeout after round.checkTime)
    · exact (paces_checkViewTimeout loop round.checkTime).sublist
        (List.sublist_append_right [round.proposalTime] [round.checkTime])
  · exact Paces.nothing loop.lastBlockTime _

/-- A handler notes the time if the block is valid, and otherwise leaves the register alone. -/
theorem paces_handleBlockMessage {arrival : Arrival} {payload : List UInt8} {after : ConsensusLoop} {delta : Int32}
    (handled : loop.handleBlockMessage prim arrival payload = some (after, delta)) :
    Paces loop.lastBlockTime after.lastBlockTime [arrival.milliseconds] (loop.blockActivity prim arrival payload) := by
  unfold handleBlockMessage at handled
  unfold blockActivity
  split at handled
  · cases handled
  · rename_i decoded
    simp only [decoded]
    cases handled
    exact Paces.nothing loop.lastBlockTime _
  · rename_i block decoded
    simp only [decoded]
    dsimp only at handled
    split at handled
    · rename_i failure outcome
      rw [outcome, if_neg nofun]
      cases handled
      exact Paces.nothing loop.lastBlockTime _
    · rename_i outcome
      rw [outcome, if_neg nofun]
      cases handled
      exact Paces.nothing loop.lastBlockTime _
    · rename_i outcome
      rw [outcome, if_pos rfl]
      cases handled
      exact Paces.single ⟨.validBlock, arrival.milliseconds⟩ id

theorem lastBlockTime_dispatch {arrival : Arrival} {message : NetworkMessage} {after : ConsensusLoop}
    {delta : Option Int32} (other : message.type ≠ MessageType.block)
    (handled : loop.dispatch prim arrival message = some (after, delta)) :
    after.lastBlockTime = loop.lastBlockTime := by
  unfold dispatch at handled
  rw [if_neg other] at handled
  split at handled
  · rcases Option.map_eq_some_iff.mp handled with ⟨⟨next, change⟩, made, same⟩
    cases same
    rcases Option.map_eq_some_iff.mp made with ⟨received, _, built⟩
    cases built
    rfl
  · split at handled
    · rcases Option.map_eq_some_iff.mp handled with ⟨⟨next, change⟩, made, same⟩
      cases same
      unfold handleTransactionMessage at made
      split at made
      · cases made
      · cases made
        rfl
      · cases made
        rfl
    · cases handled
      rfl

theorem paces_dispatch {arrival : Arrival} {message : NetworkMessage} {after : ConsensusLoop} {delta : Option Int32}
    (handled : loop.dispatch prim arrival message = some (after, delta)) :
    Paces loop.lastBlockTime after.lastBlockTime [arrival.milliseconds]
      (if message.type = MessageType.block then loop.blockActivity prim arrival message.payload else []) := by
  split
  · rename_i block
    unfold dispatch at handled
    rw [if_pos block] at handled
    rcases Option.map_eq_some_iff.mp handled with ⟨⟨next, change⟩, made, same⟩
    cases same
    exact paces_handleBlockMessage made
  · rename_i other
    rw [lastBlockTime_dispatch other handled]
    exact Paces.nothing loop.lastBlockTime _

theorem paces_receive {arrival : Arrival} {message : NetworkMessage} {sender : PeerID} {after : ConsensusLoop}
    (received : loop.receive prim arrival message sender = some after) :
    Paces loop.lastBlockTime after.lastBlockTime [arrival.milliseconds]
      (loop.messageActivity prim arrival message) := by
  unfold receive at received
  unfold messageActivity
  split at received
  · rename_i seen
    cases received
    rw [if_neg fun all => Bool.false_ne_true (all.1.symm.trans seen)]
    exact Paces.nothing loop.lastBlockTime _
  · rename_i unseen
    dsimp only at received
    split at received
    · rename_i handler
      rcases Option.map_eq_some_iff.mp received with ⟨⟨next, change⟩, made, same⟩
      have paced := paces_dispatch made
      have register : after.lastBlockTime = next.lastBlockTime := by
        cases change with
        | none =>
            cases same
            rfl
        | some delta =>
            cases same
            rfl
      have listed : message.type ∈ loop.layer.messageHandlers := handler
      have fresh : loop.layer.isMessageSeen message.hash = false := Bool.eq_false_iff.mpr unseen
      simp only [fresh, listed, true_and, register]
      exact paced
    · rename_i absent
      have unlisted : message.type ∉ loop.layer.messageHandlers := absent
      cases received
      rw [if_neg fun all => unlisted all.2.1]
      exact Paces.nothing loop.lastBlockTime _

theorem paces_perform {call : LoopCall} {after : ConsensusLoop} (performed : loop.perform prim call = some after) :
    Paces loop.lastBlockTime after.lastBlockTime call.reads (loop.activity prim call) := by
  cases call with
  | start =>
      cases performed
      unfold start
      split
      · exact Paces.nothing loop.lastBlockTime _
      · exact Paces.nothing loop.lastBlockTime _
  | stop =>
      cases performed
      exact Paces.nothing loop.lastBlockTime _
  | round round =>
      cases performed
      exact paces_runConsensusLoop loop round
  | receive arrival message sender => exact paces_receive performed

theorem paces_run {calls : List LoopCall} {after : ConsensusLoop}
    (reached : run (step prim) (some loop) calls = some after) :
    Paces loop.lastBlockTime after.lastBlockTime (calls.flatMap LoopCall.reads)
      (activities prim (some loop) calls) := by
  induction calls generalizing loop with
  | nil =>
      cases reached
      exact Paces.nothing _ _
  | cons call rest inductionHypothesis =>
      rw [run_cons] at reached
      change run (step prim) (loop.perform prim call) rest = some after at reached
      rw [activities, List.flatMap_cons]
      cases performed : loop.perform prim call with
      | none =>
          rw [performed, step_none] at reached
          cases reached
      | some next =>
          rw [performed] at reached
          exact (paces_perform performed).append (inductionHypothesis reached)

end ConsensusLoop

/-- With a clock that does not go backwards: between a proposal and whatever the loop did
before lie two seconds, and between a view change and whatever it did before more than four.
So in any window the proposals are at most one more than the block times in it. -/
theorem consensusLoop_paces (prim : Primitives) {start after : ConsensusLoop} {calls : List LoopCall}
    (ticks : Ticks start.lastBlockTime calls)
    (reached : run (ConsensusLoop.step prim) (some start) calls = some after) :
    ((ConsensusLoop.activities prim (some start) calls).Pairwise fun earlier later =>
      earlier.time.toNat + later.wait ≤ later.time.toNat) ∧
    forall opens window : Nat,
      ((ConsensusLoop.activities prim (some start) calls).filter fun act => act.kind = .proposal ∧
        opens ≤ act.time.toNat ∧ act.time.toNat ≤ opens + window).length * 2000 ≤ window + 2000 := by
  have spaced := ((ConsensusLoop.paces_run reached).spaced ticks).pairwise
  refine ⟨spaced.1, ?_⟩
  intro opens window
  refine SpacedActs.length_le_of_gap (fun act : Activity => act.time.toNat) 2000 opens window ?_ ?_
  · refine (spaced.1.filter _).imp_of_mem ?_
    intro earlier later _ member apart
    have kind : later.kind = .proposal := (of_decide_eq_true (List.mem_filter.mp member).2).1
    have wait : later.wait = 2000 := by
      rw [Activity.wait, kind]
      rfl
    rw [wait] at apart
    exact apart
  · intro act member
    exact (of_decide_eq_true (List.mem_filter.mp member).2).2

/-- The leader of the first view proposes, and a round later it is too soon. -/
def leaderRounds : List LoopCall :=
  [.start, .round ⟨10000, 10000, 10, 10, none⟩, .round ⟨11000, 11000, 11, 11, none⟩]

theorem consensusLoop_paces_leader :
    ((ConsensusLoop.activities Transparent.primitives (some validatorLoop) leaderRounds).Pairwise fun earlier later =>
      earlier.time.toNat + later.wait ≤ later.time.toNat) ∧
    forall opens window : Nat,
      ((ConsensusLoop.activities Transparent.primitives (some validatorLoop) leaderRounds).filter fun act =>
        act.kind = .proposal ∧ opens ≤ act.time.toNat ∧ act.time.toNat ≤ opens + window).length * 2000 ≤
          window + 2000 := by
  have ends : (run (ConsensusLoop.step Transparent.primitives) (some validatorLoop) leaderRounds).isSome = true := by
    decide +kernel
  rcases Option.isSome_iff_exists.mp ends with ⟨after, reached⟩
  exact consensusLoop_paces Transparent.primitives (by decide +kernel) reached

example : ConsensusLoop.activities Transparent.primitives (some validatorLoop) leaderRounds = [⟨.proposal, 10000⟩] := by
  decide +kernel

end Network
end Sarafu

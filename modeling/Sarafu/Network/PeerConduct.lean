import Sarafu.Network.ConsensusLoop

namespace Sarafu
namespace Network

open Crypto Consensus State ConsensusEngine Library.Runs

/-!
# What a peer is judged by

Each message that reaches a handler of the loop changes the reputation of its sender, and a
reputation below 25 bans the sender for a day.  A peer is judged by its own messages alone: what
it has after a run is the fold of the verdicts on them.
-/

/-- The reputation of a peer, if it is listed, and the time until which it is banned, if it is. -/
structure Standing where
  reputation : Option UInt64
  bannedUntil : Option UInt64
deriving DecidableEq

def Connections.standing (connections : Connections) (peer : PeerID) : Standing :=
  ⟨(connections.peers[peer]?).map PeerInfo.reputationScore, connections.bannedPeers[peer]?⟩

/-- A change of the reputation of a peer at some time. -/
structure Verdict where
  peer : PeerID
  delta : Int32
  time : UInt64
deriving DecidableEq

/-- The reputation after a change, between 0 and 100. -/
def changedReputation (reputation : UInt64) (delta : Int32) : Nat :=
  (max 0 (min 100 (reputation.toInt64.toInt + delta.toInt))).toNat

/-- One verdict.  A peer that is not listed has no reputation to change. -/
def Standing.judge (standing : Standing) (verdict : Verdict) : Standing :=
  match standing.reputation with
  | none => standing
  | some reputation =>
      if changedReputation reputation verdict.delta < 25 then
        ⟨none, some (verdict.time + Connections.defaultBanDuration)⟩
      else { standing with reputation := some (UInt64.ofNat (changedReputation reputation verdict.delta)) }

/-! ## Verdicts of one kind -/

theorem changedReputation_eq {reputation : UInt64} (scored : reputation.toNat ≤ 100) (delta : Int32) :
    (changedReputation reputation delta : Int) = max 0 (min 100 (reputation.toNat + delta.toInt)) := by
  have signed : reputation.toInt64.toInt = reputation.toNat := by
    change reputation.toBitVec.toInt = reputation.toBitVec.toNat
    refine BitVec.toInt_eq_toNat_of_lt ?_
    change 2 * reputation.toNat < 2 ^ 64
    omega
  unfold changedReputation
  rw [signed]
  omega

theorem changedReputation_le (reputation : UInt64) (delta : Int32) : changedReputation reputation delta ≤ 100 := by
  unfold changedReputation
  omega

theorem toNat_changedReputation (reputation : UInt64) (delta : Int32) :
    (UInt64.ofNat (changedReputation reputation delta)).toNat = changedReputation reputation delta := by
  have small := changedReputation_le reputation delta
  exact UInt64.toNat_ofNat_of_lt' (Nat.lt_of_le_of_lt small (by decide))

/-- A peer whose messages are never refused keeps its place. -/
theorem Standing.kept_of_accepted {standing : Standing} {reputation : UInt64} {verdicts : List Verdict}
    (listed : standing.reputation = some reputation) (trusted : 25 ≤ reputation.toNat) (scored : reputation.toNat ≤ 100)
    (accepted : forall verdict, verdict ∈ verdicts -> 0 ≤ verdict.delta.toInt) :
    ∃ after, (verdicts.foldl Standing.judge standing).reputation = some after ∧ reputation.toNat ≤ after.toNat ∧
      after.toNat ≤ 100 ∧ (verdicts.foldl Standing.judge standing).bannedUntil = standing.bannedUntil := by
  induction verdicts generalizing standing reputation with
  | nil => exact ⟨reputation, listed, Nat.le_refl _, scored, rfl⟩
  | cons verdict rest inductionHypothesis =>
      rw [List.forall_mem_cons] at accepted
      have changed := changedReputation_eq scored verdict.delta
      have value := toNat_changedReputation reputation verdict.delta
      have most := changedReputation_le reputation verdict.delta
      have raised : reputation.toNat ≤ changedReputation reputation verdict.delta := by omega
      have judged : standing.judge verdict =
          { standing with reputation := some (UInt64.ofNat (changedReputation reputation verdict.delta)) } := by
        unfold judge
        simp only [listed]
        rw [if_neg (by omega)]
      have held : (standing.judge verdict).reputation =
          some (UInt64.ofNat (changedReputation reputation verdict.delta)) := congrArg Standing.reputation judged
      have banned : (standing.judge verdict).bannedUntil = standing.bannedUntil := by rw [judged]
      rcases inductionHypothesis held (by omega) (by omega) accepted.2 with ⟨after, found, above, below, kept⟩
      exact ⟨after, found, by omega, below, kept.trans banned⟩

theorem Standing.unlisted_stays {standing : Standing} (unlisted : standing.reputation = none)
    (verdicts : List Verdict) :
    verdicts.foldl Standing.judge standing = standing := by
  induction verdicts with
  | nil => rfl
  | cons verdict rest inductionHypothesis =>
      have same : standing.judge verdict = standing := by
        unfold judge
        simp only [unlisted]
      rw [List.foldl_cons, same, inductionHypothesis]

/-- The sum of the changes. -/
def totalDelta (verdicts : List Verdict) : Int := (verdicts.map fun verdict => verdict.delta.toInt).sum

theorem totalDelta_nonpos {verdicts : List Verdict}
    (refused : forall verdict, verdict ∈ verdicts -> verdict.delta.toInt ≤ 0) : totalDelta verdicts ≤ 0 := by
  have bound := List.sum_le_card_nsmul (verdicts.map fun verdict => verdict.delta.toInt) 0 (by
    intro delta member
    rcases List.mem_map.mp member with ⟨verdict, listed, rfl⟩
    exact refused verdict listed)
  rw [smul_zero] at bound
  exact bound

/-- A peer of which only refused messages arrive loses its place exactly when the penalties are more than
what it was above the limit. -/
theorem Standing.dropped_iff_of_refused {standing : Standing} {reputation : UInt64} {verdicts : List Verdict}
    (listed : standing.reputation = some reputation) (trusted : 25 ≤ reputation.toNat) (scored : reputation.toNat ≤ 100)
    (refused : forall verdict, verdict ∈ verdicts -> verdict.delta.toInt ≤ 0) :
    (verdicts.foldl Standing.judge standing).reputation = none <-> reputation.toNat + totalDelta verdicts < 25 := by
  induction verdicts generalizing standing reputation with
  | nil =>
      have none : totalDelta [] = 0 := rfl
      rw [List.foldl_nil, listed, none]
      exact iff_of_false nofun (by omega)
  | cons verdict rest inductionHypothesis =>
      rw [List.forall_mem_cons] at refused
      have changed := changedReputation_eq scored verdict.delta
      have value := toNat_changedReputation reputation verdict.delta
      have later := totalDelta_nonpos refused.2
      have total : totalDelta (verdict :: rest) = verdict.delta.toInt + totalDelta rest := List.sum_cons
      rw [List.foldl_cons, total]
      by_cases low : changedReputation reputation verdict.delta < 25
      · have gone : (standing.judge verdict).reputation = none := by
          unfold judge
          simp only [listed]
          rw [if_pos low]
        rw [Standing.unlisted_stays gone, gone]
        exact iff_of_true rfl (by omega)
      · have held : (standing.judge verdict).reputation =
            some (UInt64.ofNat (changedReputation reputation verdict.delta)) := by
          unfold judge
          simp only [listed]
          rw [if_neg low]
        rw [inductionHypothesis held (by omega) (by omega) refused.2, value]
        -- above the limit nothing was cut off
        have kept : (changedReputation reputation verdict.delta : Int) = reputation.toNat + verdict.delta.toInt := by
          omega
        rw [kept, Int.add_assoc]

/-! ## The standing after a call -/

namespace Connections

theorem standing_updateReputation_self (connections : Connections) (now : UInt64) (peer : PeerID) (delta : Int32) :
    (connections.updateReputation now peer delta).standing peer =
      (connections.standing peer).judge ⟨peer, delta, now⟩ := by
  unfold updateReputation Standing.judge standing
  cases found : connections.peers[peer]? with
  | none =>
      simp only [Option.map_none, found]
  | some info =>
      simp only [Option.map_some]
      have same : max 0 (min 100 (info.reputationScore.toInt64.toInt + delta.toInt)) =
          (changedReputation info.reputationScore delta : Int) := by
        unfold changedReputation
        omega
      rw [same]
      by_cases low : changedReputation info.reputationScore delta < 25
      · rw [if_pos (by omega), if_pos low]
        simp only [banPeer, OrderedMap.find_erase, OrderedMap.find_insert, if_true, Option.map_none]
      · rw [if_neg (by omega), if_neg low]
        simp only [OrderedMap.find_insert, if_true, Option.map_some, Int.toNat_natCast]

theorem standing_updateReputation_of_ne (connections : Connections) (now : UInt64) {peer other : PeerID}
    (delta : Int32) (different : other ≠ peer) :
    (connections.updateReputation now peer delta).standing other = connections.standing other := by
  unfold updateReputation standing
  split
  · rfl
  · dsimp only
    split
    · simp only [banPeer, OrderedMap.find_erase, OrderedMap.find_insert, different, if_false]
    · simp only [OrderedMap.find_insert, different, if_false]

end Connections

/-- Seeing a peer does not change its standing. -/
theorem standing_touch (connections : Connections) (now : UInt64) (sender peer : PeerID) :
    ({ connections with peers := GossipNode.touch connections.peers now sender } : Connections).standing peer =
      connections.standing peer := by
  unfold Connections.standing GossipNode.touch
  cases found : connections.peers[sender]? with
  | none => rfl
  | some info =>
      dsimp only
      rw [OrderedMap.find_insert]
      split
      · rename_i same
        rw [same, found]
        rfl
      · rfl

namespace ConsensusLoop

variable (prim : Primitives)

/-- The verdict on a message, if a handler of the loop takes it up. -/
def verdict (loop : ConsensusLoop) : LoopCall -> Option Verdict
  | .start => none
  | .stop => none
  | .round _ => none
  | .receive arrival message sender =>
      if loop.layer.isMessageSeen message.hash = false ∧ message.type ∈ loop.layer.messageHandlers then
        ((loop.noteMessage arrival message sender).dispatch prim arrival message).bind fun handled =>
          handled.2.map fun delta => ⟨sender, delta, arrival.seconds⟩
      else none

/-- The verdicts of a run, in order. -/
def verdicts (start : ConsensusLoop) (calls : List LoopCall) : List Verdict :=
  outputs (step prim) (fun state call => state.bind fun loop => loop.verdict prim call) (some start) calls

variable {prim} {loop : ConsensusLoop}

theorem connections_proposeBlock (loop : ConsensusLoop) (round : Round) :
    (loop.proposeBlock prim round).2.connections = loop.connections := by
  unfold proposeBlock
  split
  · rfl
  · split
    · rfl
    · split
      · rfl
      · rfl

theorem connections_checkViewTimeout (loop : ConsensusLoop) (now : UInt64) :
    (loop.checkViewTimeout now).connections = loop.connections := by
  unfold checkViewTimeout
  split
  · rfl
  · rfl

theorem connections_runConsensusLoop (loop : ConsensusLoop) (round : Round) :
    (loop.runConsensusLoop prim round).connections = loop.connections := by
  have proposed := @connections_proposeBlock prim loop round
  unfold runConsensusLoop
  split
  · split
    · split
      · rename_i failure after outcome
        rw [outcome] at proposed
        exact proposed
      · rename_i block after outcome
        rw [outcome] at proposed
        exact (connections_checkViewTimeout after round.checkTime).trans proposed
    · exact connections_checkViewTimeout loop round.checkTime
  · rfl

theorem connections_handleBlockMessage {arrival : Arrival} {payload : List UInt8} {after : ConsensusLoop}
    {delta : Int32} (handled : loop.handleBlockMessage prim arrival payload = some (after, delta)) :
    after.connections = loop.connections := by
  unfold handleBlockMessage at handled
  split at handled
  · cases handled
  · cases handled
    rfl
  · dsimp only at handled
    split at handled
    · cases handled
      rfl
    · cases handled
      rfl
    · cases handled
      rfl

/-- The handlers leave the connections to the verdict. -/
theorem connections_dispatch {arrival : Arrival} {message : NetworkMessage} {after : ConsensusLoop}
    {delta : Option Int32} (handled : loop.dispatch prim arrival message = some (after, delta)) :
    after.connections = loop.connections := by
  unfold dispatch at handled
  split at handled
  · rcases Option.map_eq_some_iff.mp handled with ⟨⟨next, change⟩, made, same⟩
    cases same
    exact connections_handleBlockMessage made
  · split at handled
    · rcases Option.map_eq_some_iff.mp handled with ⟨⟨next, change⟩, made, same⟩
      cases same
      rcases Option.map_eq_some_iff.mp made with ⟨received, _, built⟩
      cases built
      rfl
    · split at handled
      · rcases Option.map_eq_some_iff.mp handled with ⟨⟨next, change⟩, made, same⟩
        cases same
        unfold handleTransactionMessage at made
        split at made
        · cases made
        · cases made
          rfl
        · cases made
          rfl
      · cases handled
        rfl

/-- The standing of a peer after a message: that of the sender is judged, and no other one. -/
theorem standing_receive {arrival : Arrival} {message : NetworkMessage} {sender : PeerID} {after : ConsensusLoop}
    (received : loop.receive prim arrival message sender = some after) (peer : PeerID) :
    after.connections.standing peer =
      ((loop.verdict prim (.receive arrival message sender)).toList.filter fun made => made.peer = peer).foldl
        Standing.judge (loop.connections.standing peer) := by
  have touched := standing_touch loop.connections arrival.seconds sender peer
  unfold receive at received
  rw [verdict]
  split at received
  · rename_i seen
    cases received
    rw [if_neg fun all => Bool.false_ne_true (all.1.symm.trans seen)]
    rfl
  · rename_i unseen
    dsimp only at received
    split at received
    · rename_i handler
      have listed : message.type ∈ loop.layer.messageHandlers := handler
      rw [if_pos ⟨Bool.eq_false_iff.mpr unseen, listed⟩]
      rcases Option.map_eq_some_iff.mp received with ⟨⟨next, change⟩, made, same⟩
      have kept := connections_dispatch made
      rw [made, Option.bind_some]
      cases change with
      | none =>
          cases same
          rw [kept]
          exact touched
      | some delta =>
          cases same
          change (next.connections.updateReputation arrival.seconds sender delta).standing peer = _
          rw [kept, Option.map_some, Option.toList_some, ← touched]
          by_cases own : sender = peer
          · simp only [List.filter_cons, List.filter_nil, own, decide_true, if_true, List.foldl_cons, List.foldl_nil]
            exact Connections.standing_updateReputation_self _ arrival.seconds peer delta
          · simp only [List.filter_cons, List.filter_nil, own, decide_false, Bool.false_eq_true, if_false,
            List.foldl_nil]
            exact Connections.standing_updateReputation_of_ne _ arrival.seconds delta (Ne.symm own)
    · rename_i absent
      have unlisted : message.type ∉ loop.layer.messageHandlers := absent
      cases received
      rw [if_neg fun all => unlisted all.2]
      exact touched

/-- What a call does to the standing of a peer: the verdict on the peer's own message. -/
theorem standing_perform {call : LoopCall} {after : ConsensusLoop} (performed : loop.perform prim call = some after)
    (peer : PeerID) : after.connections.standing peer =
      ((loop.verdict prim call).toList.filter fun made => made.peer = peer).foldl Standing.judge
        (loop.connections.standing peer) := by
  cases call with
  | start =>
      cases performed
      unfold start
      split
      · rfl
      · rfl
  | stop =>
      cases performed
      rfl
  | round round =>
      cases performed
      rw [connections_runConsensusLoop]
      rfl
  | receive arrival message sender => exact standing_receive performed peer

end ConsensusLoop

/-- What a peer has after a run is the fold of the verdicts on its own messages. -/
theorem standing_folds_verdicts (prim : Primitives) {start after : ConsensusLoop} {calls : List LoopCall}
    (reached : run (ConsensusLoop.step prim) (some start) calls = some after) (peer : PeerID) :
    after.connections.standing peer =
      ((ConsensusLoop.verdicts prim start calls).filter fun made => made.peer = peer).foldl Standing.judge
        (start.connections.standing peer) := by
  unfold ConsensusLoop.verdicts
  induction calls generalizing start with
  | nil =>
      cases reached
      rfl
  | cons call rest inductionHypothesis =>
      rw [run_cons] at reached
      change run (ConsensusLoop.step prim) (start.perform prim call) rest = some after at reached
      cases performed : start.perform prim call with
      | none =>
          rw [performed, ConsensusLoop.step_none] at reached
          cases reached
      | some next =>
          rw [performed] at reached
          have now := ConsensusLoop.standing_perform performed peer
          have moved : ConsensusLoop.step prim (some start) call = some next := performed
          rw [outputs, List.filter_append, List.foldl_append, moved, Option.bind_some, ← now]
          exact inductionHypothesis reached

/-- The verdicts on the messages of one peer. -/
def ownVerdicts (prim : Primitives) (start : ConsensusLoop) (calls : List LoopCall) (peer : PeerID) : List Verdict :=
  (ConsensusLoop.verdicts prim start calls).filter fun made => made.peer = peer

/-- In every run the reputation of a peer, and whether and until when it is banned, are the fold
of the verdicts on its own messages: what others send and what the loop does have no part in
it.  A peer in good standing whose messages are never refused keeps its place, and one whose
messages are all refused loses it exactly when the penalties together are more than what it had
above the limit. -/
theorem peer_judged_by_own_messages (prim : Primitives) {start after : ConsensusLoop} {calls : List LoopCall}
    (reached : run (ConsensusLoop.step prim) (some start) calls = some after) (peer : PeerID) :
    after.connections.standing peer =
        (ownVerdicts prim start calls peer).foldl Standing.judge (start.connections.standing peer) ∧
      forall reputation, (start.connections.standing peer).reputation = some reputation -> 25 ≤ reputation.toNat ->
        reputation.toNat ≤ 100 ->
        ((forall verdict, verdict ∈ ownVerdicts prim start calls peer -> 0 ≤ verdict.delta.toInt) ->
          ∃ kept, (after.connections.standing peer).reputation = some kept ∧ reputation.toNat ≤ kept.toNat ∧
            (after.connections.standing peer).bannedUntil = (start.connections.standing peer).bannedUntil) ∧
        ((forall verdict, verdict ∈ ownVerdicts prim start calls peer -> verdict.delta.toInt ≤ 0) ->
          ((after.connections.standing peer).reputation = none <->
            reputation.toNat + totalDelta (ownVerdicts prim start calls peer) < 25)) := by
  have folded := standing_folds_verdicts prim reached peer
  refine ⟨folded, ?_⟩
  intro reputation listed trusted scored
  change _ = (ownVerdicts prim start calls peer).foldl _ _ at folded
  rw [folded]
  constructor
  · intro accepted
    rcases Standing.kept_of_accepted listed trusted scored accepted with ⟨kept, found, above, _, same⟩
    exact ⟨kept, found, above, same⟩
  · exact Standing.dropped_iff_of_refused listed trusted scored

/-- Eight messages that are no blocks. -/
def refusedCalls : List LoopCall :=
  .start :: (List.range 8).map fun number => .receive ⟨5000, 5, none⟩
    (NetworkMessage.make Transparent.primitives MessageType.block [UInt8.ofNat number]) [0]

/-- A peer that sends eight messages that are no blocks has lost its place. -/
theorem peer_judged_by_own_messages_refused : ∃ after,
    run (ConsensusLoop.step Transparent.primitives) (some validatorLoop) refusedCalls = some after ∧
      (after.connections.standing [0]).reputation = none := by
  have ends : (run (ConsensusLoop.step Transparent.primitives) (some validatorLoop) refusedCalls).isSome = true := by
    decide +kernel
  rcases Option.isSome_iff_exists.mp ends with ⟨after, reached⟩
  refine ⟨after, reached, ?_⟩
  have judged := (peer_judged_by_own_messages Transparent.primitives reached [0]).2 100 (by decide +kernel)
    (by decide) (by decide)
  exact (judged.2 (by decide +kernel)).mpr (by decide +kernel)

end Network
end Sarafu

import Sarafu.Library.Histories
import Sarafu.Network.GossipStorm

namespace Sarafu
namespace Network

open Crypto State Library Library.Runs

/-!
# Whom a message reaches

A node handles only what some node has broadcast.  Where no copy of a message is lost and every
node that takes it up sends it to all its peers, a message that is nowhere in flight any more has
been handled by every node that the connections lead to.  Nodes tell messages apart by the hash of
the payload, so of two messages with the same payload a node may handle either one.
-/

variable {Node : Type} [DecidableEq Node] {topology : Topology Node}

namespace GossipNetwork

variable {net start : GossipNetwork Node} {event : GossipEvent Node} {events : List (GossipEvent Node)}

/-- The node that takes up a message, and the message. -/
def handles (net : GossipNetwork Node) : GossipEvent Node -> Option (Node × NetworkMessage)
  | .manage _ _ => none
  | .broadcast node _ _ message => if (net.nodes node).layer.initialized = true then some (node, message) else none
  | .deliver envelope _ _ _ =>
      if envelope ∈ net.inFlight ∧ (net.nodes envelope.target).layer.isMessageSeen envelope.message.hash = false then
        some (envelope.target, envelope.message)
      else none
  | .lose _ => none

/-- The messages taken up in a run, in order. -/
def handledIn (topology : Topology Node) (start : GossipNetwork Node) (events : List (GossipEvent Node)) :
    List (Node × NetworkMessage) := outputs (step topology) handles start events

/-! ## Nothing comes from nowhere -/

/-- Some node broadcasts the message in one of these events. -/
def BroadcastIn (events : List (GossipEvent Node)) (message : NetworkMessage) : Prop :=
  ∃ node now chance, GossipEvent.broadcast node now chance message ∈ events

/-- What is in flight after an event was so before, or it is sent by a node that takes it up. -/
theorem mem_inFlight_step {envelope : Envelope Node} (flies : envelope ∈ (net.step topology event).inFlight) :
    envelope ∈ net.inFlight ∨ ∃ node, net.handles event = some (node, envelope.message) := by
  have outcome := net.outcome_step topology event
  generalize net.step topology event = after at outcome flies
  have fromCopies : forall {source message sent}, envelope ∈ copies topology source message sent ->
      envelope.message = message := by
    intro source message sent copied
    rcases List.mem_filterMap.mp copied with ⟨peer, _, made⟩
    rcases Option.map_eq_some_iff.mp made with ⟨target, _, rfl⟩
    rfl
  cases outcome with
  | managed node call => exact Or.inl flies
  | refused node now chance message stopped => exact Or.inl flies
  | absent other now chance handler gone => exact Or.inl flies
  | duplicate other now chance handler member seen => exact Or.inl (List.mem_of_mem_erase flies)
  | lost other => exact Or.inl (List.mem_of_mem_erase flies)
  | sent node now chance message started =>
      rcases List.mem_append.mp flies with old | copied
      · exact Or.inl old
      · rw [fromCopies copied]
        exact Or.inr ⟨node, if_pos started⟩
  | handled other now chance handler member unseen =>
      rcases List.mem_append.mp flies with old | copied
      · exact Or.inl (List.mem_of_mem_erase old)
      · rw [fromCopies copied]
        exact Or.inr ⟨other.target, if_pos ⟨member, unseen⟩⟩

/-- A message that is taken up is broadcast now, or it was in flight. -/
theorem handles_cases {node : Node} {message : NetworkMessage} (taken : net.handles event = some (node, message)) :
    (∃ now chance, event = .broadcast node now chance message) ∨
      ∃ envelope, envelope ∈ net.inFlight ∧ envelope.message = message := by
  cases event with
  | manage other call => cases taken
  | lose envelope => cases taken
  | broadcast other now chance sent =>
      simp only [handles, Option.ite_none_right_eq_some, Option.some.injEq, Prod.mk.injEq] at taken
      rcases taken with ⟨_, rfl, rfl⟩
      exact Or.inl ⟨now, chance, rfl⟩
  | deliver envelope now chance handler =>
      simp only [handles, Option.ite_none_right_eq_some, Option.some.injEq, Prod.mk.injEq] at taken
      rcases taken with ⟨⟨member, _⟩, _, same⟩
      exact Or.inr ⟨envelope, member, same⟩

/-- Whatever happens to the messages, every message in flight or taken up was broadcast. -/
theorem broadcastIn_of_handled (fresh : start.Fresh) :
    (forall envelope, envelope ∈ (run (step topology) start events).inFlight -> BroadcastIn events envelope.message) ∧
      forall entry, entry ∈ handledIn topology start events -> BroadcastIn events entry.2 := by
  induction events using List.reverseRecOn with
  | nil =>
      refine ⟨?_, nofun⟩
      rw [run_nil, fresh.silent]
      exact nofun
  | append_singleton before event inductionHypothesis =>
      have earlier : forall {message}, BroadcastIn before message -> BroadcastIn (before ++ [event]) message := by
        rintro message ⟨node, now, chance, listed⟩
        exact ⟨node, now, chance, List.mem_append_left _ listed⟩
      have taken : forall node message, (run (step topology) start before).handles event = some (node, message) ->
          BroadcastIn (before ++ [event]) message := by
        intro node message handled
        rcases handles_cases handled with ⟨now, chance, rfl⟩ | ⟨envelope, flies, rfl⟩
        · exact ⟨node, now, chance, List.mem_append_right _ List.mem_cons_self⟩
        · exact earlier (inductionHypothesis.1 envelope flies)
      rw [run_append, run_cons, run_nil]
      constructor
      · intro envelope flies
        rcases mem_inFlight_step flies with old | ⟨node, handled⟩
        · exact earlier (inductionHypothesis.1 envelope old)
        · exact taken node envelope.message handled
      · rintro ⟨node, message⟩ member
        unfold handledIn at member
        rw [outputs_concat, List.mem_append, Option.mem_toList] at member
        rcases member with old | now
        · exact earlier (inductionHypothesis.2 (node, message) old)
        · exact taken node message now

/-! ## Messages that are passed on -/

variable {hash : Blake3Hash} {node other : Node}

/-- The node takes up a message with this hash. -/
def Handles (hash : Blake3Hash) (node : Node) (net : GossipNetwork Node) (event : GossipEvent Node) : Prop :=
  ∃ message, net.handles event = some (node, message) ∧ message.hash = hash

/-- The host sends to every peer in this event. -/
def SendsToAll : GossipEvent Node -> Prop
  | .broadcast _ _ chance _ => forall peer, chance.sends peer = true
  | .deliver _ _ chance _ => forall peer, chance.sends peer = true
  | _ => True

/-- No copy of the message is lost, and a node that takes it up has a host that sends to every peer and
no more peers than the fanout. -/
def PassedOn (topology : Topology Node) (hash : Blake3Hash) (net : GossipNetwork Node) (event : GossipEvent Node) :
    Prop :=
  (forall envelope, event = .lose envelope -> envelope.message.hash ≠ hash) ∧
    forall node, Handles hash node net event ->
      SendsToAll event ∧
        ((net.step topology event).nodes node).peers.size ≤ ((net.step topology event).nodes node).gossipFanout

/-- The first node has the second one as a peer. -/
def Linked (topology : Topology Node) (net : GossipNetwork Node) (node other : Node) : Prop :=
  ∃ peer, peer ∈ (net.nodes node).peers ∧ topology.target node peer = some other

/-- Whenever the first node takes up the message, it has the second one as a peer. -/
def Serves (topology : Topology Node) (hash : Blake3Hash) (start : GossipNetwork Node)
    (events : List (GossipEvent Node)) (node other : Node) : Prop :=
  Along (step topology)
    (fun net event => Handles hash node net event -> Linked topology (net.step topology event) node other)
    start events

/-- Every node that has noted the hash is done, and every node that a done one serves is done or a
copy is on its way to it. -/
structure Spread (hash : Blake3Hash) (done : Node -> Prop) (serves : Node -> Node -> Prop) (net : GossipNetwork Node) :
    Prop where
  noted : forall node, (net.nodes node).layer.isMessageSeen hash = true -> done node
  passed : forall node other, done node -> serves node other ->
    done other ∨ ∃ envelope, envelope ∈ net.inFlight ∧ envelope.target = other ∧ envelope.message.hash = hash

/-- What is noted after a step was noted before, or it is taken up. -/
theorem handles_of_isMessageSeen_step {node : Node}
    (seen : ((net.step topology event).nodes node).layer.isMessageSeen hash = true) :
    (net.nodes node).layer.isMessageSeen hash = true ∨ Handles hash node net event := by
  have outcome := net.outcome_step topology event
  generalize net.step topology event = after at outcome seen
  cases outcome with
  | refused other now chance message stopped => exact Or.inl seen
  | absent envelope now chance handler gone => exact Or.inl seen
  | duplicate envelope now chance handler member already => exact Or.inl seen
  | lost envelope => exact Or.inl seen
  | managed other call =>
      refine Or.inl ?_
      dsimp only at seen
      rcases eq_or_ne node other with rfl | elsewhere
      · unfold NetworkLayer.isMessageSeen at *
        rw [Function.update_self, GossipNode.perform_seenMessages] at seen
        exact seen
      · rw [Function.update_of_ne elsewhere] at seen
        exact seen
  | sent other now chance message started =>
      rcases eq_or_ne node other with rfl | elsewhere
      · rw [emit_nodes_self] at seen
        rcases NetworkLayer.eq_or_isMessageSeen_of_markMessageSeen seen with same | before
        · exact Or.inr ⟨message, if_pos started, same.symm⟩
        · exact Or.inl before
      · rw [net.emit_nodes_of_ne topology _ _ _ _ elsewhere] at seen
        exact Or.inl seen
  | handled envelope now chance handler member unseen =>
      rcases eq_or_ne node envelope.target with rfl | elsewhere
      · rw [emit_nodes_self, GossipNode.runHandler_layer] at seen
        rcases NetworkLayer.eq_or_isMessageSeen_of_markMessageSeen seen with same | before
        · exact Or.inr ⟨envelope.message, if_pos ⟨member, unseen⟩, same.symm⟩
        · exact Or.inl before
      · rw [net.emit_nodes_of_ne topology _ _ _ _ elsewhere] at seen
        exact Or.inl seen

omit [DecidableEq Node] in
/-- A node that sends a message sends a copy to each of its peers. -/
theorem mem_copies_of_linked {node other : Node} {after : GossipNode} {chance : Chance} {message : NetworkMessage}
    (sends : forall peer, chance.sends peer = true) (few : after.peers.size ≤ after.gossipFanout) {peer : PeerID}
    (listed : peer ∈ after.peers) (routed : topology.target node peer = some other) :
    ⟨other, topology.nameOf node peer, message⟩ ∈ copies topology node message (after.reached chance message) := by
  refine List.mem_filterMap.mpr ⟨peer, GossipNode.reached_of_listed few sends listed, ?_⟩
  rw [routed, Option.map_some]

/-- An envelope is taken out only if it is lost, or for a node that has noted or takes up its hash. -/
theorem flies_or_handles {envelope : Envelope Node} (passed : PassedOn topology envelope.message.hash net event)
    (flies : envelope ∈ net.inFlight) :
    envelope ∈ (net.step topology event).inFlight ∨
      (net.nodes envelope.target).layer.isMessageSeen envelope.message.hash = true ∨
      Handles envelope.message.hash envelope.target net event := by
  have outcome := net.outcome_step topology event
  generalize net.step topology event = after at outcome
  cases outcome with
  | managed node call => exact Or.inl flies
  | refused node now chance message stopped => exact Or.inl flies
  | absent other now chance handler gone => exact Or.inl flies
  | sent node now chance message started => exact Or.inl (List.mem_append_left _ flies)
  | lost other =>
      rcases eq_or_ne envelope other with rfl | different
      · exact absurd rfl (passed.1 envelope rfl)
      · exact Or.inl ((List.mem_erase_of_ne different).mpr flies)
  | duplicate other now chance handler member seen =>
      rcases eq_or_ne envelope other with rfl | different
      · exact Or.inr (Or.inl seen)
      · exact Or.inl ((List.mem_erase_of_ne different).mpr flies)
  | handled other now chance handler member unseen =>
      rcases eq_or_ne envelope other with rfl | different
      · exact Or.inr (Or.inr ⟨envelope.message, if_pos ⟨member, unseen⟩, rfl⟩)
      · exact Or.inl (List.mem_append_left _ ((List.mem_erase_of_ne different).mpr flies))

/-- A node that takes up a message sends a copy to each of its peers. -/
theorem copy_of_handles (passed : PassedOn topology hash net event) (handled : Handles hash node net event)
    (linked : Linked topology (net.step topology event) node other) :
    ∃ envelope, envelope ∈ (net.step topology event).inFlight ∧ envelope.target = other ∧
      envelope.message.hash = hash := by
  rcases passed.2 node handled with ⟨sends, few⟩
  rcases linked with ⟨peer, listed, routed⟩
  rcases handled with ⟨message, taken, rfl⟩
  have outcome := net.outcome_step topology event
  generalize net.step topology event = after at outcome few listed
  cases outcome with
  | managed other call => cases taken
  | lost envelope => cases taken
  | refused source now chance sent stopped =>
      simp only [handles, stopped, Bool.false_eq_true, if_false, reduceCtorEq] at taken
  | absent envelope now chance handler gone =>
      simp only [handles, gone, false_and, if_false, reduceCtorEq] at taken
  | duplicate envelope now chance handler member seen =>
      simp only [handles, seen, Bool.true_eq_false, and_false, if_false, reduceCtorEq] at taken
  | sent source now chance sent started =>
      simp only [handles, started, if_true, Option.some.injEq, Prod.mk.injEq] at taken
      rcases taken with ⟨rfl, rfl⟩
      rw [emit_nodes_self] at few listed
      exact ⟨_, List.mem_append_right _ (mem_copies_of_linked sends few listed routed), rfl, rfl⟩
  | handled envelope now chance handler member unseen =>
      simp only [handles, member, unseen, and_self, if_true, Option.some.injEq, Prod.mk.injEq] at taken
      rcases taken with ⟨rfl, rfl⟩
      rw [emit_nodes_self] at few listed
      exact ⟨_, List.mem_append_right _ (mem_copies_of_linked sends few listed routed), rfl, rfl⟩

theorem spread_step {done : Node -> Prop} {serves : Node -> Node -> Prop} (spread : Spread hash done serves net)
    (passed : PassedOn topology hash net event) :
    Spread hash (fun node => done node ∨ Handles hash node net event)
      (fun node other => serves node other ∧
        (Handles hash node net event -> Linked topology (net.step topology event) node other))
      (net.step topology event) := by
  refine ⟨fun node seen => (handles_of_isMessageSeen_step seen).imp_left (spread.noted node), ?_⟩
  rintro node other finished ⟨served, serving⟩
  rcases finished with before | now
  · rcases spread.passed node other before served with also | ⟨envelope, flies, rfl, rfl⟩
    · exact Or.inl (Or.inl also)
    · have flown := flies_or_handles passed flies
      rcases flown with still | seen | taken
      · exact Or.inr ⟨envelope, still, rfl, rfl⟩
      · exact Or.inl (Or.inl (spread.noted envelope.target seen))
      · exact Or.inl (Or.inr taken)
  · exact Or.inr (copy_of_handles passed now (serving now))

theorem exists_mem_handledIn_iff : (∃ message, (node, message) ∈ handledIn topology start events ∧
    message.hash = hash) <-> Happened (step topology) (Handles hash node) start events := by
  unfold handledIn
  constructor
  · rintro ⟨message, member, same⟩
    exact (mem_outputs_iff.mp member).mono fun state call taken => ⟨message, taken, same⟩
  · intro happened
    induction events generalizing start with
    | nil => exact happened.elim
    | cons event rest inductionHypothesis =>
        rcases happened with ⟨message, taken, same⟩ | later
        · exact ⟨message, List.mem_append_left _ (Option.mem_toList.mpr taken), same⟩
        · rcases inductionHypothesis later with ⟨message, member, same⟩
          exact ⟨message, List.mem_append_right _ member, same⟩

theorem serves_concat :
    Serves topology hash start (events ++ [event]) node other <->
      Serves topology hash start events node other ∧
        (Handles hash node (run (step topology) start events) event ->
          Linked topology ((run (step topology) start events).step topology event) node other) :=
  along_append.trans (and_congr_right fun _ => and_iff_left trivial)

/-- In a run that passes the message on, every node that has taken it up has passed it on. -/
theorem spread_run (fresh : start.Fresh) (passed : Along (step topology) (PassedOn topology hash) start events) :
    Spread hash (fun node => Happened (step topology) (Handles hash node) start events)
      (Serves topology hash start events) (run (step topology) start events) := by
  induction events using List.reverseRecOn with
  | nil =>
      refine ⟨?_, fun node other none => none.elim⟩
      intro node seen
      unfold NetworkLayer.isMessageSeen at seen
      rw [run_nil, fresh.unnoted node, Std.ExtTreeMap.getElem?_empty] at seen
      cases seen
  | append_singleton before event inductionHypothesis =>
      rcases along_append.mp passed with ⟨earlier, now, _⟩
      have spread := spread_step (inductionHypothesis earlier) now
      rw [run_append, run_cons, run_nil]
      constructor
      · intro node seen
        exact happened_concat.mpr (spread.noted node seen)
      · intro node other finished serving
        rw [happened_concat] at finished ⊢
        exact spread.passed node other finished (serves_concat.mp serving)

end GossipNetwork

open GossipNetwork

/-- In every run from a network in which nothing was sent, what anybody takes up was broadcast by some
node.  If the run passes a message on that some node has taken up, and no copy of it is in flight any
more, then every node that the connections lead to has taken up a message with the same hash: this
message, if no other one with its hash was broadcast.  The connections are those that a node has
whenever it takes the message up. -/
theorem gossip_reaches (topology : Topology Node) {start : GossipNetwork Node} (events : List (GossipEvent Node))
    (fresh : start.Fresh) :
    (forall entry, entry ∈ handledIn topology start events -> BroadcastIn events entry.2) ∧
    forall source target message, (source, message) ∈ handledIn topology start events ->
      Along (step topology) (PassedOn topology message.hash) start events ->
      (forall envelope, envelope ∈ (run (step topology) start events).inFlight ->
        envelope.message.hash ≠ message.hash) ->
      Relation.ReflTransGen (Serves topology message.hash start events) source target ->
      ∃ copy, (target, copy) ∈ handledIn topology start events ∧ copy.hash = message.hash ∧
        ((forall other, BroadcastIn events other -> other.hash = message.hash -> other = message) ->
          copy = message) := by
  have broadcasts : forall entry, entry ∈ handledIn topology start events -> BroadcastIn events entry.2 :=
    (broadcastIn_of_handled fresh).2
  refine ⟨broadcasts, ?_⟩
  intro source target message taken passed quiet connected
  have reached : Happened (step topology) (Handles message.hash target) start events := by
    induction connected with
    | refl => exact exists_mem_handledIn_iff.mp ⟨message, taken, rfl⟩
    | tail path serving finished =>
        rcases (spread_run fresh passed).passed _ _ finished serving with done | ⟨envelope, flies, _, same⟩
        · exact done
        · exact absurd same (quiet envelope flies)
  rcases exists_mem_handledIn_iff.mpr reached with ⟨copy, member, same⟩
  exact ⟨copy, member, same, fun only => only copy (broadcasts (target, copy) member) same⟩

/-- The broadcast of one of two connected nodes reaches the other one. -/
theorem gossip_reaches_pair :
    (true, NetworkMessage.make Transparent.primitives MessageType.transaction [7]) ∈
      handledIn pairTopology pairStart pairEvents := by
  have taken : (false, NetworkMessage.make Transparent.primitives MessageType.transaction [7]) ∈
      handledIn pairTopology pairStart pairEvents := by decide +kernel
  have passed : Along (step pairTopology) (PassedOn pairTopology (Transparent.digest [7])) pairStart pairEvents := by
    have few : Along (step pairTopology) (fun net event => forall node,
        ((net.step pairTopology event).nodes node).peers.size ≤
          ((net.step pairTopology event).nodes node).gossipFanout) pairStart pairEvents := by decide +kernel
    exact ⟨⟨nofun, fun node _ => ⟨fun _ => rfl, few.1 node⟩⟩, ⟨nofun, fun node _ => ⟨fun _ => rfl, few.2.1 node⟩⟩,
      ⟨nofun, fun node _ => ⟨fun _ => rfl, few.2.2.1 node⟩⟩, trivial⟩
  have serving : Serves pairTopology (Transparent.digest [7]) pairStart pairEvents false true :=
    ⟨fun _ => ⟨[0], by decide +kernel, rfl⟩, fun _ => ⟨[0], by decide +kernel, rfl⟩,
      fun _ => ⟨[0], by decide +kernel, rfl⟩, trivial⟩
  have same : forall other, BroadcastIn pairEvents other ->
      other = NetworkMessage.make Transparent.primitives MessageType.transaction [7] := by
    rintro other ⟨node, now, chance, listed⟩
    simp only [pairEvents, List.mem_cons, GossipEvent.broadcast.injEq, reduceCtorEq, List.not_mem_nil,
      or_false] at listed
    exact listed.2.2.2
  rcases (gossip_reaches pairTopology pairEvents fresh_pairStart).2 false true _ taken passed (by decide +kernel)
    (Relation.ReflTransGen.single serving) with ⟨copy, member, _, only⟩
  rw [only fun other broadcast _ => same other broadcast] at member
  exact member

end Network
end Sarafu

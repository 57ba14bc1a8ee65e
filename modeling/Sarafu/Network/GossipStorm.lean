import Sarafu.Network.GossipNetwork

namespace Sarafu
namespace Network

open Crypto State Library Library.Runs

/-!
# How far a message spreads

While the clocks of the nodes move by less than an hour, a node relays a hash once.  The
copies in flight, together with what the nodes that have not seen the hash may still send, are
then a potential that only broadcasts raise.
-/

variable {Node : Type} [DecidableEq Node] {topology : Topology Node}

/-- The node whose clock an event reads, and the time. -/
def GossipEvent.clock : GossipEvent Node -> Option (Node × UInt64)
  | .manage _ _ => none
  | .broadcast node now _ _ => some (node, now)
  | .deliver envelope now _ _ => some (envelope.target, now)
  | .lose _ => none

/-- The clock of each node does not go backwards, and it moves by at most the time to live. -/
def WithinTheHour (events : List (GossipEvent Node)) : Prop :=
  (events.filterMap GossipEvent.clock).Pairwise fun earlier later => earlier.1 = later.1 ->
    earlier.2.toNat ≤ later.2.toNat ∧ later.2.toNat ≤ earlier.2.toNat + seenMessageTTL.toNat

instance (events : List (GossipEvent Node)) : Decidable (WithinTheHour events) :=
  inferInstanceAs (Decidable (List.Pairwise _ _))

/-- Nothing that a node has noted expires when its clock is read. -/
def NothingExpires (net : GossipNetwork Node) (clock : Option (Node × UInt64)) : Prop :=
  forall (node : Node) (now : UInt64), clock = some (node, now) -> forall (hash : Blake3Hash) (noted : UInt64),
    (net.nodes node).layer.seenMessages[hash]? = some noted -> expired now noted = false

/-! ## The notes of a node -/

theorem expired_eq_false {now noted : UInt64} (before : noted.toNat ≤ now.toNat)
    (recent : now.toNat ≤ noted.toNat + seenMessageTTL.toNat) : expired now noted = false := by
  unfold expired
  rw [decide_eq_false_iff_not, UInt64.lt_iff_toNat_lt, UInt64.toNat_sub_of_le _ _ (UInt64.le_iff_toNat_le.mpr before)]
  omega

namespace GossipNode

theorem perform_seenMessages (node : GossipNode) (call : LocalCall) :
    (node.perform call).layer.seenMessages = node.layer.seenMessages := by
  cases call with
  | initializeNode starts =>
      simp only [perform, initializeNode, NetworkLayer.initializeLayer]
      split
      · rfl
      · rfl
  | shutdown =>
      simp only [perform, shutdown, NetworkLayer.shutdown]
      split
      · rfl
      · rfl
  | onMessage type => rfl
  | setPeers table => exact congrArg NetworkLayer.seenMessages (node.setPeers_layer table)

theorem perform_gossipFanout (node : GossipNode) (call : LocalCall) :
    (node.perform call).gossipFanout = node.gossipFanout := by
  cases call with
  | initializeNode starts =>
      simp only [perform, initializeNode]
      split
      · rfl
      · rfl
  | shutdown =>
      simp only [perform, shutdown]
      split
      · rfl
      · rfl
  | onMessage type => rfl
  | setPeers table => exact node.setPeers_gossipFanout table

end GossipNode

namespace NetworkLayer

variable {layer : NetworkLayer} {now : UInt64} {hash other : Blake3Hash}

theorem find_markMessageSeen (layer : NetworkLayer) (now : UInt64) (hash other : Blake3Hash) :
    (layer.markMessageSeen now hash).seenMessages[other]? =
      (if other = hash then some now else layer.seenMessages[other]?).filter fun noted => !expired now noted := by
  change ((layer.seenMessages.insert hash now).filter _)[other]? = _
  rw [OrderedMap.find_filter, OrderedMap.find_insert]

/-- A note of the marked layer is old, or it is the one just made. -/
theorem noted_of_markMessageSeen {noted : UInt64}
    (found : (layer.markMessageSeen now hash).seenMessages[other]? = some noted) :
    layer.seenMessages[other]? = some noted ∨ noted = now := by
  rw [find_markMessageSeen, Option.filter_eq_some_iff] at found
  rcases found with ⟨held, _⟩
  split at held
  · exact Or.inr (Option.some.inj held).symm
  · exact Or.inl held

theorem isMessageSeen_markMessageSeen_self (layer : NetworkLayer) (now : UInt64) (hash : Blake3Hash) :
    (layer.markMessageSeen now hash).isMessageSeen hash = true := by
  unfold isMessageSeen
  rw [find_markMessageSeen, if_pos rfl, Option.filter_some, expired_self, Bool.not_false, if_pos rfl,
    Option.isSome_some]

/-- What the marked layer has seen was seen before, or it is the hash just marked. -/
theorem eq_or_isMessageSeen_of_markMessageSeen (seen : (layer.markMessageSeen now hash).isMessageSeen other = true) :
    other = hash ∨ layer.isMessageSeen other = true := by
  rcases Option.isSome_iff_exists.mp seen with ⟨noted, found⟩
  rw [find_markMessageSeen, Option.filter_eq_some_iff] at found
  rcases found with ⟨held, _⟩
  split at held
  · rename_i same
    exact Or.inl same
  · exact Or.inr (Option.isSome_of_eq_some held)

/-- If nothing expires, what was seen stays seen. -/
theorem isMessageSeen_markMessageSeen
    (fresh : forall (hash : Blake3Hash) (noted : UInt64), layer.seenMessages[hash]? = some noted ->
      expired now noted = false)
    (seen : layer.isMessageSeen other = true) : (layer.markMessageSeen now hash).isMessageSeen other = true := by
  by_cases same : other = hash
  · rw [same]
    exact layer.isMessageSeen_markMessageSeen_self now hash
  · rcases Option.isSome_iff_exists.mp seen with ⟨noted, found⟩
    unfold isMessageSeen
    rw [find_markMessageSeen, if_neg same, found, Option.filter_some, fresh other noted found, Bool.not_false,
      if_pos rfl, Option.isSome_some]

end NetworkLayer

namespace GossipNetwork

open GossipEvent

variable {net : GossipNetwork Node} {event : GossipEvent Node}

/-- The notes of a node after a step: those from before, or the event has read its clock and
the node has noted something at that time. -/
theorem seenMessages_step (topology : Topology Node) (net : GossipNetwork Node) (event : GossipEvent Node)
    (node : Node) : ((net.step topology event).nodes node).layer.seenMessages = (net.nodes node).layer.seenMessages ∨
      ∃ now hash, event.clock = some (node, now) ∧ ((net.step topology event).nodes node).layer.seenMessages =
        ((net.nodes node).layer.markMessageSeen now hash).seenMessages := by
  have outcome := net.outcome_step topology event
  generalize net.step topology event = after at outcome
  cases outcome with
  | refused other now chance message stopped => exact Or.inl rfl
  | absent envelope now chance handler gone => exact Or.inl rfl
  | duplicate envelope now chance handler member seen => exact Or.inl rfl
  | lost envelope => exact Or.inl rfl
  | managed other call =>
      refine Or.inl ?_
      dsimp only
      rcases eq_or_ne node other with rfl | elsewhere
      · rw [Function.update_self, GossipNode.perform_seenMessages]
      · rw [Function.update_of_ne elsewhere]
  | sent other now chance message started =>
      rcases eq_or_ne node other with rfl | elsewhere
      · rw [emit_nodes_self]
        exact Or.inr ⟨now, message.hash, rfl, rfl⟩
      · rw [net.emit_nodes_of_ne topology _ _ _ _ elsewhere]
        exact Or.inl rfl
  | handled envelope now chance handler member unseen =>
      rcases eq_or_ne node envelope.target with rfl | elsewhere
      · rw [emit_nodes_self, GossipNode.runHandler_layer]
        exact Or.inr ⟨now, envelope.message.hash, rfl, rfl⟩
      · rw [net.emit_nodes_of_ne topology _ _ _ _ elsewhere]
        exact Or.inl rfl

/-- From nothing noted, nothing expires within the hour. -/
theorem along_nothingExpires {events : List (GossipEvent Node)} (hour : WithinTheHour events)
    (fresh : forall event, event ∈ events -> NothingExpires net event.clock) :
    Along (step topology) (fun net event => NothingExpires net event.clock) net events := by
  induction events generalizing net with
  | nil => exact trivial
  | cons event rest inductionHypothesis =>
      rw [List.forall_mem_cons] at fresh
      have later : WithinTheHour rest := by
        unfold WithinTheHour at hour ⊢
        rw [List.filterMap_cons] at hour
        split at hour
        · exact hour
        · exact (List.pairwise_cons.mp hour).2
      refine ⟨fresh.1, inductionHypothesis later ?_⟩
      intro next listed node now read hash noted found
      rcases seenMessages_step topology net event node with same | ⟨before, other, readBefore, marked⟩
      · rw [same] at found
        exact fresh.2 next listed node now read hash noted found
      · rw [marked] at found
        rcases NetworkLayer.noted_of_markMessageSeen found with old | rfl
        · exact fresh.2 next listed node now read hash noted old
        · unfold WithinTheHour at hour
          rw [List.filterMap_cons, readBefore] at hour
          have ordered := (List.pairwise_cons.mp hour).1 (node, now) (List.mem_filterMap.mpr ⟨next, listed, read⟩) rfl
          exact expired_eq_false ordered.1 ordered.2

/-! ## Copies and nodes that can still send -/

/-- The copies of messages with this hash that are in flight. -/
def copiesInFlight (net : GossipNetwork Node) (hash : Blake3Hash) : Nat :=
  net.inFlight.countP fun envelope => decide (envelope.message.hash = hash)

section Finite

variable [Fintype Node]

/-- The nodes that have not noted the hash. -/
def unseen (net : GossipNetwork Node) (hash : Blake3Hash) : Finset Node :=
  Finset.univ.filter fun node => (net.nodes node).layer.isMessageSeen hash = false

omit [DecidableEq Node] in
theorem mem_unseen {hash : Blake3Hash} {node : Node} :
    node ∈ net.unseen hash <-> (net.nodes node).layer.isMessageSeen hash = false := by
  unfold unseen
  rw [Finset.mem_filter]
  exact and_iff_right (Finset.mem_univ node)

end Finite

/-- If nothing expires, what a node has seen stays seen. -/
theorem isMessageSeen_step {hash : Blake3Hash} {node : Node} (fresh : NothingExpires net event.clock)
    (seen : (net.nodes node).layer.isMessageSeen hash = true) :
    ((net.step topology event).nodes node).layer.isMessageSeen hash = true := by
  unfold NetworkLayer.isMessageSeen
  rcases seenMessages_step topology net event node with same | ⟨now, other, read, marked⟩
  · rw [same]
    exact seen
  · rw [marked]
    exact NetworkLayer.isMessageSeen_markMessageSeen (fresh node now read) seen

omit [DecidableEq Node] in
theorem copiesInFlight_copies_le (topology : Topology Node) (hash : Blake3Hash) (source : Node)
    (message : NetworkMessage) (sent : List PeerID) :
    (copies topology source message sent).countP (fun envelope => decide (envelope.message.hash = hash)) ≤
      if message.hash = hash then sent.length else 0 := by
  split
  · exact List.countP_le_length.trans (List.length_filterMap_le _ _)
  · rename_i different
    rw [Nat.le_zero, List.countP_eq_zero]
    intro envelope member
    rcases List.mem_filterMap.mp member with ⟨peer, _, made⟩
    rcases Option.map_eq_some_iff.mp made with ⟨target, _, rfl⟩
    rw [decide_eq_true_eq]
    exact different

/-- What is taken out of the envelopes in flight. -/
theorem countP_erase (net : GossipNetwork Node) (envelope : Envelope Node) (hash : Blake3Hash) :
    (if envelope ∈ net.inFlight ∧ envelope.message.hash = hash then 1 else 0) +
        (net.inFlight.erase envelope).countP (fun envelope => decide (envelope.message.hash = hash)) =
      net.copiesInFlight hash := by
  unfold copiesInFlight
  by_cases member : envelope ∈ net.inFlight
  · rw [(List.perm_cons_erase member).countP_eq, List.countP_cons]
    simp only [member, true_and, decide_eq_true_eq]
    exact Nat.add_comm _ _
  · rw [List.erase_of_not_mem member, if_neg fun both => member both.1, Nat.zero_add]

/-- An event takes a copy of a message with this hash out of those in flight. -/
def taken (hash : Blake3Hash) (net : GossipNetwork Node) : GossipEvent Node -> Nat
  | .manage _ _ => 0
  | .broadcast _ _ _ _ => 0
  | .deliver envelope _ _ _ => if envelope ∈ net.inFlight ∧ envelope.message.hash = hash then 1 else 0
  | .lose envelope => if envelope ∈ net.inFlight ∧ envelope.message.hash = hash then 1 else 0

/-- A broadcast of a message with this hash. -/
def starts (hash : Blake3Hash) : GossipEvent Node -> Nat
  | .manage _ _ => 0
  | .broadcast _ _ _ message => if message.hash = hash then 1 else 0
  | .deliver _ _ _ _ => 0
  | .lose _ => 0

/-- No node sends a message to more peers than this. -/
def FanoutAtMost (fanout : Nat) (net : GossipNetwork Node) : Prop :=
  forall node, (net.nodes node).gossipFanout ≤ fanout

theorem copiesInFlight_emit_le (net : GossipNetwork Node) (topology : Topology Node) (hash : Blake3Hash) (node : Node)
    {after : GossipNode} (chance : Chance) (message : NetworkMessage) (rest : List (Envelope Node)) {fanout : Nat}
    (small : after.gossipFanout ≤ fanout) :
    (net.emit topology node after chance message rest).copiesInFlight hash ≤
      rest.countP (fun envelope => decide (envelope.message.hash = hash)) +
        if message.hash = hash then fanout else 0 := by
  have sent := copiesInFlight_copies_le topology hash node message (after.reached chance message)
  have few := (after.length_reached_le chance message).trans small
  unfold copiesInFlight emit
  rw [List.countP_append]
  split
  · rename_i same
    rw [if_pos same] at sent
    omega
  · rename_i different
    rw [if_neg different] at sent
    omega

theorem gossipFanout_step (topology : Topology Node) (net : GossipNetwork Node) (event : GossipEvent Node)
    (node : Node) : ((net.step topology event).nodes node).gossipFanout = (net.nodes node).gossipFanout := by
  have outcome := net.outcome_step topology event
  generalize net.step topology event = after at outcome
  cases outcome with
  | refused other now chance message stopped => rfl
  | absent envelope now chance handler gone => rfl
  | duplicate envelope now chance handler member seen => rfl
  | lost envelope => rfl
  | managed other call =>
      dsimp only
      rcases eq_or_ne node other with rfl | elsewhere
      · rw [Function.update_self, GossipNode.perform_gossipFanout]
      · rw [Function.update_of_ne elsewhere]
  | sent other now chance message started =>
      rcases eq_or_ne node other with rfl | elsewhere
      · rw [emit_nodes_self]
        rfl
      · rw [net.emit_nodes_of_ne topology _ _ _ _ elsewhere]
  | handled envelope now chance handler member unseen =>
      rcases eq_or_ne node envelope.target with rfl | elsewhere
      · rw [emit_nodes_self, GossipNode.runHandler_gossipFanout]
        rfl
      · rw [net.emit_nodes_of_ne topology _ _ _ _ elsewhere]

theorem fanoutAtMost_step {fanout : Nat} (small : FanoutAtMost fanout net) :
    FanoutAtMost fanout (net.step topology event) := by
  intro node
  rw [gossipFanout_step]
  exact small node

section Potential

variable [Fintype Node]

/-- The copies in flight, and what the nodes that have not seen the hash may send. -/
def potential (fanout : Nat) (hash : Blake3Hash) (net : GossipNetwork Node) : Nat :=
  net.copiesInFlight hash + fanout * (net.unseen hash).card

theorem unseen_step_subset {hash : Blake3Hash} (fresh : NothingExpires net event.clock) :
    (net.step topology event).unseen hash ⊆ net.unseen hash := by
  intro node still
  rw [mem_unseen] at still ⊢
  rw [Bool.eq_false_iff] at still ⊢
  exact fun seen => still (isMessageSeen_step fresh seen)

/-- What an event takes out of the network is paid for. -/
theorem taken_add_potential_le {fanout : Nat} (hash : Blake3Hash) (small : FanoutAtMost fanout net)
    (fresh : NothingExpires net event.clock) :
    taken hash net event + potential fanout hash (net.step topology event) ≤
      potential fanout hash net + fanout * starts hash event := by
  have kept : (net.step topology event).unseen hash ⊆ net.unseen hash := unseen_step_subset fresh
  have less := Nat.mul_le_mul_left fanout (Finset.card_le_card kept)
  unfold potential
  have outcome := net.outcome_step topology event
  generalize net.step topology event = after at outcome kept less
  cases outcome with
  | managed node call => exact (Nat.zero_add _).trans_le (Nat.add_le_add_left less _)
  | refused node now chance message stopped => exact (Nat.zero_add _).trans_le (Nat.le_add_right _ _)
  | absent envelope now chance handler gone =>
      rw [taken, if_neg fun both => gone both.1]
      exact (Nat.zero_add _).trans_le (Nat.le_add_right _ _)
  | sent node now chance message started =>
      have nodeFanout : ((net.nodes node).markMessageSeen now message).gossipFanout ≤ fanout := small node
      have copied := net.copiesInFlight_emit_le topology hash node chance message net.inFlight nodeFanout
      rw [taken, starts]
      change _ ≤ net.copiesInFlight hash + _ at copied
      split at copied
      · rename_i same
        rw [if_pos same]
        omega
      · rename_i different
        rw [if_neg different]
        omega
  | duplicate envelope now chance handler member seen =>
      have gone := net.countP_erase envelope hash
      rw [taken]
      unfold copiesInFlight at *
      dsimp only at *
      omega
  | lost envelope =>
      have gone := net.countP_erase envelope hash
      rw [taken]
      unfold copiesInFlight at *
      dsimp only at *
      omega
  | handled envelope now chance handler member unseen =>
      have gone := net.countP_erase envelope hash
      have targetFanout : (((net.nodes envelope.target).markMessageSeen now envelope.message).runHandler now handler
          envelope.message envelope.sender).gossipFanout ≤ fanout := by
        rw [GossipNode.runHandler_gossipFanout]
        exact small envelope.target
      have copied := net.copiesInFlight_emit_le topology hash envelope.target chance envelope.message
        (net.inFlight.erase envelope) targetFanout
      rw [taken]
      split at copied
      · -- the target has seen the hash from now on, and what it might have sent pays for what it sends
        rename_i same
        subst same
        have seenNow : envelope.target ∉ (net.emit topology envelope.target
            (((net.nodes envelope.target).markMessageSeen now envelope.message).runHandler now handler envelope.message
              envelope.sender) chance envelope.message (net.inFlight.erase envelope)).unseen envelope.message.hash := by
          rw [mem_unseen, emit_nodes_self, GossipNode.runHandler_layer, Bool.not_eq_false]
          exact NetworkLayer.isMessageSeen_markMessageSeen_self _ now envelope.message.hash
        have strictly := Finset.card_lt_card (Finset.ssubset_iff_of_subset kept |>.mpr
          ⟨envelope.target, mem_unseen.mpr unseen, seenNow⟩)
        have spent := Nat.mul_le_mul_left fanout strictly
        rw [Nat.mul_succ] at spent
        omega
      · omega

end Potential

/-- No node has noted a message, and none is in flight. -/
structure Fresh (net : GossipNetwork Node) : Prop where
  unnoted : forall node, (net.nodes node).layer.seenMessages = ∅
  silent : net.inFlight = []

omit [DecidableEq Node] in
theorem Fresh.nothingExpires (fresh : net.Fresh) (clock : Option (Node × UInt64)) : NothingExpires net clock := by
  intro node now _ hash noted found
  rw [fresh.unnoted node, Std.ExtTreeMap.getElem?_empty] at found
  cases found

end GossipNetwork

open GossipNetwork

/-- From a network in which nothing was sent: within the hour, the copies of a message that
were delivered or lost and those that are still in flight are together at most the fanout for
every node and for every broadcast.  This holds for every order of the events, every choice of
peers, whatever handlers and managers do with the tables of peers. -/
theorem messageStorm_bounded [Fintype Node] (topology : Topology Node) {start : GossipNetwork Node}
    {events : List (GossipEvent Node)} {fanout : Nat} (hash : Blake3Hash) (fresh : start.Fresh)
    (small : FanoutAtMost fanout start) (hour : WithinTheHour events) :
    Amortized.total (step topology) (taken hash) start events +
        (run (step topology) start events).copiesInFlight hash ≤
      fanout * (Fintype.card Node + (events.map (starts hash)).sum) := by
  have unexpired : Along (step topology) (fun net event => NothingExpires net event.clock) start events :=
    along_nothingExpires hour fun event _ => fresh.nothingExpires event.clock
  have guarded : Along (step topology) (fun net event => FanoutAtMost fanout net ∧ NothingExpires net event.clock)
      start events :=
    along_of_invariant (FanoutAtMost fanout) (fun net event few _ => fanoutAtMost_step few)
      (fun net event few now => ⟨few, now⟩) small unexpired
  have paid : Amortized.total (step topology) (taken hash) start events +
        potential fanout hash (run (step topology) start events) ≤
      potential fanout hash start +
        Amortized.total (step topology) (fun _ event => fanout * starts hash event) start events :=
    Amortized.total_add_potential_le (potential fanout hash)
      (fun net event guard => taken_add_potential_le hash guard.1 guard.2) guarded
  have credit : Amortized.total (step topology) (fun _ event => fanout * starts hash event) start events =
      fanout * (events.map (starts hash)).sum := by
    rw [Amortized.total_eq_sum, List.sum_map_mul_left]
  have initially : potential fanout hash start ≤ fanout * Fintype.card Node := by
    unfold potential copiesInFlight
    rw [fresh.silent, List.countP_nil, Nat.zero_add]
    exact Nat.mul_le_mul_left fanout (Finset.card_le_univ _)
  rw [credit] at paid
  unfold potential at paid initially
  rw [Nat.mul_add]
  omega

/-! ## Two nodes -/

/-- Two started nodes that are connected, one peer each. -/
def pairTopology : Topology Bool where
  target := fun node peer => if peer = [0] then some !node else none
  nameOf := fun _ _ => [0]

def pairNode : GossipNode where
  layer := { NetworkLayer.create with initialized := true }
  peers := (∅ : PeerTable).insert [0] ⟨[0], [], false, 0, 100⟩
  gossipFanout := 8
  stopped := nofun

def pairStart : GossipNetwork Bool := ⟨fun _ => pairNode, []⟩

/-- Nothing is shuffled, and the host reaches every peer. -/
def plainChance : Chance where
  first := ⟨id, fun _ => List.Perm.refl _⟩
  second := ⟨id, fun _ => List.Perm.refl _⟩
  sends := fun _ => true

/-- A broadcast of one node is handled by the other one, which sends it back. -/
def pairEvents : List (GossipEvent Bool) :=
  let message := NetworkMessage.make Transparent.primitives MessageType.transaction [7]
  [.broadcast false 100 plainChance message, .deliver ⟨true, [0], message⟩ 101 plainChance id,
    .deliver ⟨false, [0], message⟩ 101 plainChance id]

theorem fresh_pairStart : pairStart.Fresh := ⟨fun _ => rfl, rfl⟩

example : Amortized.total (step pairTopology) (taken (Transparent.digest [7])) pairStart pairEvents = 2 := by
  decide +kernel

theorem messageStorm_bounded_pair :
    Amortized.total (step pairTopology) (taken (Transparent.digest [7])) pairStart pairEvents +
        (run (step pairTopology) pairStart pairEvents).copiesInFlight (Transparent.digest [7]) ≤
      8 * (Fintype.card Bool + (pairEvents.map (starts (Transparent.digest [7]))).sum) :=
  messageStorm_bounded pairTopology (Transparent.digest [7]) fresh_pairStart (fun _ => Nat.le_refl 8)
    (by decide +kernel)

end Network
end Sarafu

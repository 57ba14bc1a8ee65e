import Sarafu.Library.Amortized
import Sarafu.Network.Connections
import Sarafu.Network.Gossip

namespace Sarafu
namespace Network

open Crypto State Library Library.Runs

/-!
# A network of gossiping nodes

A node sends what it broadcasts, and what it handles for the first time, to some of its peers.
The peers are drawn by a shuffle, for blocks from the validators first.  What the shuffle and
the host decide is an argument of each call.

The host of the network layer reads from its sockets without taking messages apart, so the
delivery of a message that was sent is an event of the environment, and so is its loss.  A
handler may change the table of peers before the message is relayed.  What it broadcasts itself
is a call that follows, since messages in flight have no order.
-/

/-- `std::shuffle`. -/
structure Shuffle where
  reorder : List PeerID -> List PeerID
  perm : forall peers, (reorder peers).Perm peers

/-- The two shuffles of a selection, and whether the host sends to a peer. -/
structure Chance where
  first : Shuffle
  second : Shuffle
  sends : PeerID -> Bool

/-- The peers of one kind, in the order of the table. -/
def peersOfKind (peers : PeerTable) (validator : Bool) : List PeerID :=
  (peers.toList.filter fun entry => entry.2.isValidator == validator).map Prod.fst

def selectGossipPeers (peers : PeerTable) (chance : Chance) (count : Nat) (prioritizeValidators : Bool) : List PeerID :=
  let validators := peersOfKind peers true
  let nonValidators := peersOfKind peers false
  if prioritizeValidators then
    let result := (chance.first.reorder validators).take (min count validators.length)
    if result.length < count then
      let remaining := count - result.length
      result ++ (chance.second.reorder nonValidators).take (min remaining nonValidators.length)
    else result
  else
    let allPeers := validators ++ nonValidators
    (chance.first.reorder allPeers).take (min count allPeers.length)

/-- A network layer with its peers.  There are peers only between its start and its shutdown. -/
structure GossipNode where
  layer : NetworkLayer
  peers : PeerTable
  gossipFanout : Nat
  stopped : layer.initialized = false -> peers = ∅

namespace GossipNode

def sendToPeer (node : GossipNode) (chance : Chance) (peer : PeerID) : Except Failure Bool :=
  if node.layer.initialized = false then .error (.runtimeError "NetworkLayer::send_to_peer: not initialized")
  else match node.peers[peer]? with
    | none => .ok false
    | some _ => .ok (chance.sends peer)

/-- The loop over the selected peers.  It returns those that the host has sent to. -/
def sendToAll (node : GossipNode) (chance : Chance) : List PeerID -> Except Failure (List PeerID)
  | [] => .ok []
  | peer :: rest =>
      match node.sendToPeer chance peer with
      | .error failure => .error failure
      | .ok sent => (node.sendToAll chance rest).map fun others => if sent then peer :: others else others

def gossipMessage (node : GossipNode) (chance : Chance) (message : NetworkMessage) (fanout : Nat) :
    Except Failure (List PeerID) :=
  node.sendToAll chance (selectGossipPeers node.peers chance fanout (decide (message.type = MessageType.block)))

/-- What was sent to whom, and the node. -/
def relay (node : GossipNode) (chance : Chance) (message : NetworkMessage) :
    Except Failure (List PeerID × GossipNode) :=
  (node.gossipMessage chance message node.gossipFanout).map fun sent => (sent, node)

def markMessageSeen (node : GossipNode) (now : UInt64) (message : NetworkMessage) : GossipNode :=
  { node with layer := node.layer.markMessageSeen now message.hash }

def broadcast (node : GossipNode) (now : UInt64) (chance : Chance) (message : NetworkMessage) :
    Except Failure (List PeerID × GossipNode) :=
  if node.layer.initialized = false then .error (.runtimeError "NetworkLayer::broadcast: not initialized")
  else (node.markMessageSeen now message).relay chance message

/-- The last time that the sender was seen. -/
def touch (peers : PeerTable) (now : UInt64) (sender : PeerID) : PeerTable :=
  match peers[sender]? with
  | none => peers
  | some info => peers.insert sender { info with lastSeen := now }

/-- Another table of peers.  A layer that is stopped has none. -/
def setPeers (node : GossipNode) (table : PeerTable) : GossipNode :=
  if started : node.layer.initialized = true then
    { node with peers := table, stopped := fun off => absurd (started.symm.trans off) Bool.true_eq_false.mp }
  else node

/-- The sender was seen, and the handler has run.  It leaves some table of peers. -/
def runHandler (node : GossipNode) (now : UInt64) (handler : PeerTable -> PeerTable) (message : NetworkMessage)
    (sender : PeerID) : GossipNode :=
  let touched := node.setPeers (touch node.peers now sender)
  if message.type ∈ touched.layer.messageHandlers then touched.setPeers (handler touched.peers) else touched

def handleMessage (node : GossipNode) (now : UInt64) (chance : Chance) (handler : PeerTable -> PeerTable)
    (message : NetworkMessage) (sender : PeerID) : Except Failure (List PeerID × GossipNode) :=
  if node.layer.isMessageSeen message.hash then .ok ([], node)
  else ((node.markMessageSeen now message).runHandler now handler message sender).relay chance message

def initializeNode (node : GossipNode) (starts : Bool) : GossipNode :=
  if started : node.layer.initialized = true then node
  else { node with
    layer := node.layer.initializeLayer starts
    stopped := fun _ => node.stopped (Bool.eq_false_iff.mpr started) }

def shutdown (node : GossipNode) : GossipNode :=
  if node.layer.initialized = false then node
  else { node with layer := node.layer.shutdown, peers := ∅, stopped := fun _ => rfl }

def onMessage (node : GossipNode) (type : MessageType) : GossipNode :=
  { node with layer := node.layer.onMessage type }

end GossipNode

/-! ## Which peers are selected -/

section Selection

variable {peers : PeerTable} {chance : Chance} {count : Nat} {prioritize : Bool} {peer : PeerID}

theorem keys_perm_peersOfKind (peers : PeerTable) :
    (peersOfKind peers true ++ peersOfKind peers false).Perm peers.keys := by
  rw [← Std.ExtTreeMap.map_fst_toList_eq_keys]
  unfold peersOfKind
  rw [← List.map_append]
  have others : (fun entry : PeerID × PeerInfo => entry.2.isValidator == false) =
      fun entry => !(entry.2.isValidator == true) := by
    funext entry
    cases entry.2.isValidator
    · rfl
    · rfl
  rw [others]
  exact (List.filter_append_perm _ peers.toList).map Prod.fst

/-- The selected peers are the first ones of some order of all peers. -/
theorem selectGossipPeers_eq_take (peers : PeerTable) (chance : Chance) (count : Nat) (prioritize : Bool) :
    ∃ order : List PeerID,
      selectGossipPeers peers chance count prioritize = order.take count ∧ order.Perm peers.keys := by
  have cut : forall (shuffle : Shuffle) (list : List PeerID) (wanted : Nat),
      (shuffle.reorder list).take (min wanted list.length) = (shuffle.reorder list).take wanted := by
    intro shuffle list wanted
    rw [List.take_eq_take_min (i := wanted), (shuffle.perm list).length_eq]
  cases prioritize with
  | false =>
      refine ⟨chance.first.reorder (peersOfKind peers true ++ peersOfKind peers false), ?_, ?_⟩
      · rw [selectGossipPeers, if_neg Bool.false_ne_true, cut]
      · exact (chance.first.perm _).trans (keys_perm_peersOfKind peers)
  | true =>
      have first := chance.first.perm (peersOfKind peers true)
      have second := chance.second.perm (peersOfKind peers false)
      refine ⟨_, ?_, (first.append second).trans (keys_perm_peersOfKind peers)⟩
      rw [selectGossipPeers, if_pos rfl, List.take_append, first.length_eq]
      dsimp only
      rw [cut, List.length_take, first.length_eq]
      split
      · rename_i room
        have taken : min count (peersOfKind peers true).length = (peersOfKind peers true).length := by omega
        rw [cut, taken]
      · rename_i full
        have none : count - (peersOfKind peers true).length = 0 := by omega
        rw [none, List.take_zero, List.append_nil]

theorem length_selectGossipPeers (peers : PeerTable) (chance : Chance) (count : Nat) (prioritize : Bool) :
    (selectGossipPeers peers chance count prioritize).length = min count peers.size := by
  rcases selectGossipPeers_eq_take peers chance count prioritize with ⟨order, selected, all⟩
  rw [selected, List.length_take, all.length_eq, Std.ExtTreeMap.length_keys]

theorem listed_of_selected (selected : peer ∈ selectGossipPeers peers chance count prioritize) : peer ∈ peers := by
  rcases selectGossipPeers_eq_take peers chance count prioritize with ⟨order, equal, all⟩
  rw [equal] at selected
  exact Std.ExtTreeMap.mem_keys.mp (all.mem_iff.mp (List.mem_of_mem_take selected))

/-- All peers are selected if there are not too many. -/
theorem selected_of_listed (few : peers.size ≤ count) (listed : peer ∈ peers) :
    peer ∈ selectGossipPeers peers chance count prioritize := by
  rcases selectGossipPeers_eq_take peers chance count prioritize with ⟨order, equal, all⟩
  have length := all.length_eq
  rw [Std.ExtTreeMap.length_keys] at length
  rw [equal, List.take_of_length_le (by omega), all.mem_iff]
  exact Std.ExtTreeMap.mem_keys.mpr listed

end Selection

/-! ## What a node sends -/

namespace GossipNode

variable {node : GossipNode} {chance : Chance} {message : NetworkMessage}

/-- A started layer sends to those of its peers that the host reaches. -/
theorem sendToAll_eq (started : node.layer.initialized = true) {selected : List PeerID}
    (listed : forall peer, peer ∈ selected -> peer ∈ node.peers) :
    node.sendToAll chance selected = .ok (selected.filter chance.sends) := by
  induction selected with
  | nil => rfl
  | cons peer rest inductionHypothesis =>
      rw [List.forall_mem_cons] at listed
      have held := Std.ExtTreeMap.mem_iff_isSome_getElem?.mp listed.1
      rcases Option.isSome_iff_exists.mp held with ⟨info, found⟩
      have sent : node.sendToPeer chance peer = .ok (chance.sends peer) := by
        rw [sendToPeer, started, if_neg Bool.true_eq_false.mp]
        simp only [found]
      simp only [sendToAll, sent, inductionHypothesis listed.2, Except.map, List.filter_cons]

/-- The peers that a message is sent to. -/
def reached (node : GossipNode) (chance : Chance) (message : NetworkMessage) : List PeerID :=
  (selectGossipPeers node.peers chance node.gossipFanout
    (decide (message.type = MessageType.block))).filter chance.sends

/-- Gossip does not throw: a layer that is stopped has no peers. -/
theorem relay_eq (node : GossipNode) (chance : Chance) (message : NetworkMessage) :
    node.relay chance message = .ok (node.reached chance message, node) := by
  have sent : node.gossipMessage chance message node.gossipFanout = .ok (node.reached chance message) := by
    unfold gossipMessage reached
    cases started : node.layer.initialized with
    | true => exact sendToAll_eq started fun peer => listed_of_selected
    | false =>
        rw [node.stopped started]
        have length := length_selectGossipPeers ∅ chance node.gossipFanout (decide (message.type = MessageType.block))
        rw [Std.ExtTreeMap.size_empty, Nat.min_zero] at length
        rw [List.eq_nil_of_length_eq_zero length]
        rfl
  rw [relay, sent]
  rfl

theorem length_reached_le (node : GossipNode) (chance : Chance) (message : NetworkMessage) :
    (node.reached chance message).length ≤ node.gossipFanout := by
  refine (List.length_filter_le _ _).trans ?_
  rw [length_selectGossipPeers]
  exact Nat.min_le_left _ _

/-- A host that reaches every peer sends to all of them if there are not more than the fanout. -/
theorem reached_of_listed (few : node.peers.size ≤ node.gossipFanout) (sends : forall peer, chance.sends peer = true)
    {peer : PeerID} (listed : peer ∈ node.peers) : peer ∈ node.reached chance message :=
  List.mem_filter.mpr ⟨selected_of_listed few listed, sends peer⟩

theorem setPeers_layer (node : GossipNode) (table : PeerTable) : (node.setPeers table).layer = node.layer := by
  unfold setPeers
  split
  · rfl
  · rfl

theorem setPeers_gossipFanout (node : GossipNode) (table : PeerTable) :
    (node.setPeers table).gossipFanout = node.gossipFanout := by
  unfold setPeers
  split
  · rfl
  · rfl

theorem runHandler_layer (node : GossipNode) (now : UInt64) (handler : PeerTable -> PeerTable)
    (message : NetworkMessage) (sender : PeerID) :
    (node.runHandler now handler message sender).layer = node.layer := by
  unfold runHandler
  dsimp only
  split
  · rw [setPeers_layer, setPeers_layer]
  · rw [setPeers_layer]

theorem runHandler_gossipFanout (node : GossipNode) (now : UInt64) (handler : PeerTable -> PeerTable)
    (message : NetworkMessage) (sender : PeerID) :
    (node.runHandler now handler message sender).gossipFanout = node.gossipFanout := by
  unfold runHandler
  dsimp only
  split
  · rw [setPeers_gossipFanout, setPeers_gossipFanout]
  · rw [setPeers_gossipFanout]

end GossipNode

/-! ## The network -/

variable {Node : Type} [DecidableEq Node]

/-- A message on its way.  The sender is what the receiver calls it. -/
structure Envelope (Node : Type) where
  target : Node
  sender : PeerID
  message : NetworkMessage
deriving DecidableEq

/-- One decision for all steps that look for an envelope. -/
instance (envelope : Envelope Node) (flying : List (Envelope Node)) : Decidable (envelope ∈ flying) :=
  inferInstanceAs (Decidable (_ ∈ _))

/-- The node behind the name of a peer, and what that node calls the one that names it. -/
structure Topology (Node : Type) where
  target : Node -> PeerID -> Option Node
  nameOf : Node -> PeerID -> PeerID

structure GossipNetwork (Node : Type) where
  nodes : Node -> GossipNode
  inFlight : List (Envelope Node)

/-- The calls of a node that send nothing. -/
inductive LocalCall
  | initializeNode (starts : Bool)
  | shutdown
  | onMessage (type : MessageType)
  | setPeers (table : PeerTable)

inductive GossipEvent (Node : Type)
  | manage (node : Node) (call : LocalCall)
  | broadcast (node : Node) (now : UInt64) (chance : Chance) (message : NetworkMessage)
  | deliver (envelope : Envelope Node) (now : UInt64) (chance : Chance) (handler : PeerTable -> PeerTable)
  | lose (envelope : Envelope Node)

def GossipNode.perform (node : GossipNode) : LocalCall -> GossipNode
  | .initializeNode starts => node.initializeNode starts
  | .shutdown => node.shutdown
  | .onMessage type => node.onMessage type
  | .setPeers table => node.setPeers table

/-- The copies of a message that are sent to these peers of a node. -/
def copies (topology : Topology Node) (source : Node) (message : NetworkMessage) (sent : List PeerID) :
    List (Envelope Node) :=
  sent.filterMap fun peer => (topology.target source peer).map fun target =>
    ⟨target, topology.nameOf source peer, message⟩

namespace GossipNetwork

/-- A node has sent this.  If it threw, nothing has changed. -/
def put (net : GossipNetwork Node) (topology : Topology Node) (node : Node) (message : NetworkMessage) :
    Except Failure (List PeerID × GossipNode) -> GossipNetwork Node
  | .error _ => net
  | .ok (sent, after) =>
      { nodes := Function.update net.nodes node after
        inFlight := net.inFlight ++ copies topology node message sent }

/-- Only what is in flight can be delivered or lost. -/
def step (topology : Topology Node) (net : GossipNetwork Node) : GossipEvent Node -> GossipNetwork Node
  | .manage node call => { net with nodes := Function.update net.nodes node ((net.nodes node).perform call) }
  | .broadcast node now chance message =>
      net.put topology node message ((net.nodes node).broadcast now chance message)
  | .deliver envelope now chance handler =>
      if envelope ∈ net.inFlight then
        { net with inFlight := net.inFlight.erase envelope }.put topology envelope.target envelope.message
          ((net.nodes envelope.target).handleMessage now chance handler envelope.message envelope.sender)
      else net
  | .lose envelope => { net with inFlight := net.inFlight.erase envelope }

/-- A node in its new state has sent a message to the peers that it reaches. -/
def emit (net : GossipNetwork Node) (topology : Topology Node) (node : Node) (after : GossipNode) (chance : Chance)
    (message : NetworkMessage) (rest : List (Envelope Node)) : GossipNetwork Node :=
  { nodes := Function.update net.nodes node after
    inFlight := rest ++ copies topology node message (after.reached chance message) }

theorem emit_nodes_self (net : GossipNetwork Node) (topology : Topology Node) (node : Node) (after : GossipNode)
    (chance : Chance) (message : NetworkMessage) (rest : List (Envelope Node)) :
    (net.emit topology node after chance message rest).nodes node = after := by
  unfold emit
  exact Function.update_self node after net.nodes

theorem emit_nodes_of_ne (net : GossipNetwork Node) (topology : Topology Node) {node other : Node} (after : GossipNode)
    (chance : Chance) (message : NetworkMessage) (rest : List (Envelope Node)) (elsewhere : other ≠ node) :
    (net.emit topology node after chance message rest).nodes other = net.nodes other := by
  unfold emit
  exact Function.update_of_ne elsewhere after net.nodes

/-- What an event does. -/
inductive Outcome (topology : Topology Node) (net : GossipNetwork Node) : GossipEvent Node -> GossipNetwork Node -> Prop
  | managed (node call) :
      Outcome topology net (.manage node call)
        { net with nodes := Function.update net.nodes node ((net.nodes node).perform call) }
  | refused (node now chance message) (stopped : (net.nodes node).layer.initialized = false) :
      Outcome topology net (.broadcast node now chance message) net
  | sent (node now chance message) (started : (net.nodes node).layer.initialized = true) :
      Outcome topology net (.broadcast node now chance message)
        (net.emit topology node ((net.nodes node).markMessageSeen now message) chance message net.inFlight)
  | absent (envelope now chance handler) (gone : envelope ∉ net.inFlight) :
      Outcome topology net (.deliver envelope now chance handler) net
  | duplicate (envelope now chance handler) (member : envelope ∈ net.inFlight)
      (seen : (net.nodes envelope.target).layer.isMessageSeen envelope.message.hash = true) :
      Outcome topology net (.deliver envelope now chance handler) { net with inFlight := net.inFlight.erase envelope }
  | handled (envelope now chance handler) (member : envelope ∈ net.inFlight)
      (unseen : (net.nodes envelope.target).layer.isMessageSeen envelope.message.hash = false) :
      Outcome topology net (.deliver envelope now chance handler)
        (net.emit topology envelope.target
          (((net.nodes envelope.target).markMessageSeen now envelope.message).runHandler now handler envelope.message
            envelope.sender) chance envelope.message (net.inFlight.erase envelope))
  | lost (envelope) : Outcome topology net (.lose envelope) { net with inFlight := net.inFlight.erase envelope }

theorem outcome_step (topology : Topology Node) (net : GossipNetwork Node) (event : GossipEvent Node) :
    Outcome topology net event (net.step topology event) := by
  cases event with
  | manage node call => exact .managed node call
  | broadcast node now chance message =>
      cases started : (net.nodes node).layer.initialized with
      | false =>
          have refused : Outcome topology net (.broadcast node now chance message) net :=
            .refused node now chance message started
          rw [step, GossipNode.broadcast, if_pos started]
          exact refused
      | true =>
          rw [step, GossipNode.broadcast, started, if_neg Bool.true_eq_false.mp, GossipNode.relay_eq]
          exact .sent node now chance message started
  | deliver envelope now chance handler =>
      rw [step]
      by_cases member : envelope ∈ net.inFlight
      · rw [if_pos member]
        unfold GossipNode.handleMessage
        cases seen : (net.nodes envelope.target).layer.isMessageSeen envelope.message.hash with
        | true =>
            have kept : Function.update net.nodes envelope.target (net.nodes envelope.target) = net.nodes :=
              Function.update_eq_self _ _
            rw [if_pos rfl, put, kept, copies, List.filterMap_nil, List.append_nil]
            exact .duplicate envelope now chance handler member seen
        | false =>
            rw [if_neg Bool.false_ne_true, GossipNode.relay_eq]
            exact .handled envelope now chance handler member seen
      · rw [if_neg member]
        exact .absent envelope now chance handler member
  | lose envelope => exact .lost envelope

end GossipNetwork
end Network
end Sarafu

import Sarafu.Library.Runs
import Sarafu.Network.GossipNetwork
import Sarafu.Network.PeerAddresses

namespace Sarafu
namespace Network

open Crypto Library.Decoding Library.Runs Library.TextSearch

/-!
# Bans over the life of a node

A ban takes a peer out of the table and is looked up before a peer is put into it.  Maintenance
forgets the bans that have ended.  As long as the clock does not run backwards, no
peer in the table is banned, and a banned peer stays out of it until its ban ends, whatever is
called in between.
-/

/-- One address that the node connects to: whether the host gets a connection, and what the clock says
when the ban is looked up and when the peer is listed. -/
structure Attempt where
  peerAddr : List UInt8
  connects : Bool
  checked : UInt64
  now : UInt64

namespace Connections

def create (minPeers maxPeers : Nat) : Connections := ⟨minPeers, maxPeers, ∅, ∅, false⟩

def isPeerBanned (layer : Connections) (now : UInt64) (peer : PeerID) : Bool :=
  match layer.bannedPeers[peer]? with
  | none => false
  | some expiry => decide (now < expiry)

/-- What is listed for a new peer. -/
def freshInfo (attempt : Attempt) (peer : PeerID) : PeerInfo := ⟨peer, [attempt.peerAddr], false, attempt.now, 100⟩

/-- The peer is listed, unless it is already or is banned; and the number of new peers. -/
def listPeer (layer : Connections) (attempt : Attempt) (peer : PeerID) : Nat × Connections :=
  if attempt.connects = false then (0, layer)
  else if (layer.peers[peer]?).isSome then (0, layer)
  else if layer.isPeerBanned attempt.checked peer then (0, layer)
  else (1, { layer with peers := layer.peers.insert peer (freshInfo attempt peer) })

/-- The loop over the addresses.  An exception leaves the peers that are listed by then. -/
def connectAll (layer : Connections) (connected : Nat) : List Attempt -> Outcome String Nat × Connections
  | [] => (.value connected, layer)
  | attempt :: rest =>
      match parsePeerAddress attempt.peerAddr with
      | .value none => layer.connectAll connected rest
      | .value (some (ipAddr, port)) =>
          let listed := layer.listPeer attempt (peerIdOf ipAddr port)
          listed.2.connectAll (connected + listed.1) rest
      | .throws error => (.throws error, layer)
      | .outside => (.outside, layer)

def connectToPeers (layer : Connections) (attempts : List Attempt) : Outcome String Nat × Connections :=
  if layer.initialized = false then (.throws "NetworkLayer::connect_to_peers: not initialized", layer)
  else layer.connectAll 0 attempts

def setValidatorStatus (layer : Connections) (peer : PeerID) (isValidator : Bool) : Connections :=
  match layer.peers[peer]? with
  | none => layer
  | some info => { layer with peers := layer.peers.insert peer { info with isValidator := isValidator } }

/-- `initialize`, where the host starts or throws. -/
def startUp (layer : Connections) (starts : Bool) : Connections :=
  { layer with initialized := layer.initialized || starts }

def shutdown (layer : Connections) : Connections :=
  if layer.initialized = false then layer else { layer with peers := ∅, initialized := false }

end Connections

/-- The calls that change the table or the bans, with what they read from the clock. -/
inductive TableCall
  | startUp (starts : Bool)
  | shutdown
  | connectToPeers (attempts : List Attempt)
  | maintainConnections (now : UInt64)
  | banPeer (now : UInt64) (peer : PeerID) (durationSeconds : UInt64)
  | updateReputation (now : UInt64) (peer : PeerID) (delta : Int32)
  | setValidatorStatus (peer : PeerID) (isValidator : Bool)
  | touch (now : UInt64) (sender : PeerID)

namespace TableCall

/-- The readings of the clock, in order. -/
def times : TableCall -> List UInt64
  | .connectToPeers attempts => attempts.flatMap fun attempt => [attempt.checked, attempt.now]
  | .maintainConnections now => [now]
  | .banPeer now _ _ => [now]
  | .updateReputation now _ _ => [now]
  | .touch now _ => [now]
  | _ => []

/-- The call does not ban the peer itself. -/
def Spares (peer : PeerID) : TableCall -> Prop
  | .banPeer _ other _ => other ≠ peer
  | _ => True

/-- The call bans the peer: itself, or with the reputation that it takes away. -/
def Bans (layer : Connections) (peer : PeerID) : TableCall -> Prop
  | .banPeer _ other _ => other = peer
  | .updateReputation _ other delta => other = peer ∧ ∃ info, layer.peers[peer]? = some info ∧
      max 0 (min 100 (info.reputationScore.toInt64.toInt + delta.toInt)) < 25
  | _ => False

/-- Only a listed peer loses its reputation. -/
theorem Bans.listed {layer : Connections} {peer : PeerID} {step : TableCall} (bans : step.Bans layer peer)
    (spares : step.Spares peer) : (layer.peers[peer]?).isSome = true := by
  cases step with
  | banPeer now other durationSeconds => exact absurd bans spares
  | updateReputation now other delta =>
      rcases bans with ⟨_, info, found, _⟩
      exact Option.isSome_of_eq_some found
  | startUp starts => exact bans.elim
  | shutdown => exact bans.elim
  | connectToPeers attempts => exact bans.elim
  | maintainConnections now => exact bans.elim
  | setValidatorStatus other isValidator => exact bans.elim
  | touch now sender => exact bans.elim

end TableCall

namespace Connections

/-- The layer after a call.  Maintenance needs one round more than there are peers. -/
def call (layer : Connections) : TableCall -> Connections
  | .startUp starts => layer.startUp starts
  | .shutdown => layer.shutdown
  | .connectToPeers attempts => (layer.connectToPeers attempts).2
  | .maintainConnections now => (layer.maintainConnections (layer.peers.size + 1) now).getD layer
  | .banPeer now peer durationSeconds => layer.banPeer now peer durationSeconds
  | .updateReputation now peer delta => layer.updateReputation now peer delta
  | .setValidatorStatus peer isValidator => layer.setValidatorStatus peer isValidator
  | .touch now sender => { layer with peers := GossipNode.touch layer.peers now sender }

variable {layer : Connections} {peer : PeerID}

theorem isPeerBanned_eq_false_iff {now : UInt64} : layer.isPeerBanned now peer = false <->
    forall expiry, layer.bannedPeers[peer]? = some expiry -> expiry ≤ now := by
  unfold isPeerBanned
  cases layer.bannedPeers[peer]? with
  | none => exact iff_of_true rfl nofun
  | some expiry =>
      simp only [decide_eq_false_iff_not, UInt64.not_lt]
      constructor
      · intro ended other same
        rw [← Option.some.inj same]
        exact ended
      · exact fun ended => ended expiry rfl

theorem isPeerBanned_of_some {now expiry : UInt64} (banned : layer.bannedPeers[peer]? = some expiry)
    (before : now < expiry) : layer.isPeerBanned now peer = true := by
  unfold isPeerBanned
  rw [banned]
  exact decide_eq_true before

/-! ## What a call does to one peer -/

/-- The peer is not listed anew and its ban is not forgotten while it is banned. -/
structure Calm (layer after : Connections) (times : List UInt64) (peer : PeerID) : Prop where
  listed : (after.peers[peer]?).isSome = true ->
    (layer.peers[peer]?).isSome = true ∨ ∃ time, time ∈ times ∧ layer.isPeerBanned time peer = false
  bans : after.bannedPeers[peer]? = layer.bannedPeers[peer]? ∨
    (after.bannedPeers[peer]? = none ∧ ∃ time, time ∈ times ∧ layer.isPeerBanned time peer = false)

/-- A call that does not touch the bans and lists no one. -/
theorem Calm.of_listed {after : Connections} {times : List UInt64} (bans : after.bannedPeers = layer.bannedPeers)
    (listed : (after.peers[peer]?).isSome = true -> (layer.peers[peer]?).isSome = true) : Calm layer after times peer :=
  ⟨fun isListed => Or.inl (listed isListed), Or.inl (by rw [bans])⟩

theorem isSome_insert {peers : PeerTable} {other : PeerID} {info stored : PeerInfo} (found : peers[other]? = some info)
    (isListed : ((peers.insert other stored)[peer]?).isSome = true) : (peers[peer]?).isSome = true := by
  rw [OrderedMap.find_insert] at isListed
  split at isListed
  · rename_i same
    rw [same, found]
    rfl
  · exact isListed

theorem bannedPeers_listPeer (layer : Connections) (attempt : Attempt) (other : PeerID) :
    (layer.listPeer attempt other).2.bannedPeers = layer.bannedPeers := by
  unfold listPeer
  split_ifs
  all_goals rfl

theorem bannedPeers_connectAll (layer : Connections) (connected : Nat) (attempts : List Attempt) :
    (layer.connectAll connected attempts).2.bannedPeers = layer.bannedPeers := by
  induction attempts generalizing layer connected with
  | nil => rfl
  | cons attempt rest inductionHypothesis =>
      unfold connectAll
      split
      · exact inductionHypothesis layer connected
      · exact (inductionHypothesis _ _).trans (bannedPeers_listPeer layer attempt _)
      · rfl
      · rfl

theorem listed_listPeer {attempt : Attempt} {other : PeerID}
    (isListed : ((layer.listPeer attempt other).2.peers[peer]?).isSome = true) :
    (layer.peers[peer]?).isSome = true ∨ layer.isPeerBanned attempt.checked peer = false := by
  unfold listPeer at isListed
  split_ifs at isListed with unconnected known banned
  · exact Or.inl isListed
  · exact Or.inl isListed
  · exact Or.inl isListed
  · rw [OrderedMap.find_insert] at isListed
    split at isListed
    · rename_i same
      rw [same]
      exact Or.inr ((Bool.not_eq_true _).mp banned)
    · exact Or.inl isListed

theorem listed_connectAll (layer : Connections) (connected : Nat) (attempts : List Attempt)
    (isListed : ((layer.connectAll connected attempts).2.peers[peer]?).isSome = true) :
    (layer.peers[peer]?).isSome = true ∨
      ∃ attempt, attempt ∈ attempts ∧ layer.isPeerBanned attempt.checked peer = false := by
  induction attempts generalizing layer connected with
  | nil => exact Or.inl isListed
  | cons attempt rest inductionHypothesis =>
      have later : forall middle : Connections, middle.bannedPeers = layer.bannedPeers ->
          (∃ other, other ∈ rest ∧ middle.isPeerBanned other.checked peer = false) ->
          ∃ other, other ∈ attempt :: rest ∧ layer.isPeerBanned other.checked peer = false := by
        rintro middle same ⟨other, member, free⟩
        refine ⟨other, List.mem_cons_of_mem attempt member, ?_⟩
        rw [← free, isPeerBanned, isPeerBanned, same]
      unfold connectAll at isListed
      split at isListed
      · exact (inductionHypothesis layer connected isListed).imp_right (later layer rfl)
      · rcases inductionHypothesis _ _ isListed with early | late
        · rcases listed_listPeer early with before | free
          · exact Or.inl before
          · exact Or.inr ⟨attempt, List.mem_cons_self, free⟩
        · exact Or.inr (later _ (bannedPeers_listPeer layer attempt _) late)
      · exact Or.inl isListed
      · exact Or.inl isListed

theorem isSome_listPeer (layer : Connections) (attempt : Attempt) (other : PeerID)
    (isListed : (layer.peers[peer]?).isSome = true) :
    ((layer.listPeer attempt other).2.peers[peer]?).isSome = true := by
  unfold listPeer
  split_ifs
  · exact isListed
  · exact isListed
  · exact isListed
  · rw [OrderedMap.find_insert]
    split
    · rfl
    · exact isListed

theorem isSome_connectAll (layer : Connections) (connected : Nat) (attempts : List Attempt)
    (isListed : (layer.peers[peer]?).isSome = true) :
    ((layer.connectAll connected attempts).2.peers[peer]?).isSome = true := by
  induction attempts generalizing layer connected with
  | nil => exact isListed
  | cons attempt rest inductionHypothesis =>
      unfold connectAll
      split
      · exact inductionHypothesis layer connected isListed
      · exact inductionHypothesis _ _ (isSome_listPeer layer attempt _ isListed)
      · exact isListed
      · exact isListed

/-- A peer that the host connects to while it is not banned is listed afterwards. -/
theorem listed_of_free (layer : Connections) (connected : Nat) {before after : List Attempt} {attempt : Attempt}
    {ipAddr : List UInt8} {port : UInt16}
    (parses : forall earlier, earlier ∈ before -> ∃ found, parsePeerAddress earlier.peerAddr = .value found)
    (parsed : parsePeerAddress attempt.peerAddr = .value (some (ipAddr, port))) (connects : attempt.connects = true)
    (free : layer.isPeerBanned attempt.checked (peerIdOf ipAddr port) = false) :
    ((layer.connectAll connected (before ++ attempt :: after)).2.peers[peerIdOf ipAddr port]?).isSome = true := by
  induction before generalizing layer connected with
  | nil =>
      rw [List.nil_append, connectAll]
      simp only [parsed]
      refine isSome_connectAll _ _ after ?_
      rw [listPeer, if_neg (by rw [connects]; nofun)]
      split_ifs with known banned
      · exact known
      · rw [free] at banned
        cases banned
      · rw [OrderedMap.find_insert, if_pos rfl]
        rfl
  | cons earlier rest inductionHypothesis =>
      rw [List.forall_mem_cons] at parses
      rcases parses.1 with ⟨found, parsedEarlier⟩
      rw [List.cons_append, connectAll, parsedEarlier]
      cases found with
      | none => exact inductionHypothesis layer connected parses.2 free
      | some address =>
          refine inductionHypothesis _ _ parses.2 ?_
          rw [← free, isPeerBanned, isPeerBanned, bannedPeers_listPeer]

theorem calm_connectToPeers (layer : Connections) (attempts : List Attempt) :
    Calm layer (layer.connectToPeers attempts).2 (attempts.flatMap fun attempt => [attempt.checked, attempt.now])
      peer := by
  unfold connectToPeers
  split
  · exact .of_listed rfl id
  · refine ⟨fun isListed => ?_, Or.inl (by rw [bannedPeers_connectAll])⟩
    refine (listed_connectAll layer 0 attempts isListed).imp_right ?_
    rintro ⟨attempt, member, free⟩
    exact ⟨attempt.checked, List.mem_flatMap.mpr ⟨attempt, member, List.mem_cons_self⟩, free⟩

theorem find_disconnectExcess {maxPeers fuel : Nat} {peers after : PeerTable}
    (ended : disconnectExcess maxPeers fuel peers = some after) (isListed : (after[peer]?).isSome = true) :
    (peers[peer]?).isSome = true := by
  induction fuel generalizing peers with
  | zero => cases ended
  | succ fuel inductionHypothesis =>
      unfold disconnectExcess at ended
      split at ended
      · exact Option.some.inj ended ▸ isListed
      · split at ended
        · exact Option.some.inj ended ▸ isListed
        · have kept := inductionHypothesis ended
          rw [OrderedMap.find_erase] at kept
          split at kept
          · cases kept
          · exact kept

/-- Maintenance drops peers and forgets bans that have ended. -/
theorem calm_maintainConnections (layer : Connections) (now : UInt64) :
    Calm layer ((layer.maintainConnections (layer.peers.size + 1) now).getD layer) [now] peer := by
  unfold maintainConnections
  split
  · simp only []
    cases ended : disconnectExcess (layer.cleanupExpiredBans now).maxPeers (layer.peers.size + 1)
        (layer.cleanupExpiredBans now).peers with
    | none => exact .of_listed rfl id
    | some peers =>
        rw [Option.bind_some, discoverMissing_succ, Option.getD_some]
        refine ⟨fun isListed => Or.inl (find_disconnectExcess ended isListed), ?_⟩
        change (layer.bannedPeers.filter fun _ expiry => !decide (expiry ≤ now))[peer]? = _ ∨
          (layer.bannedPeers.filter fun _ expiry => !decide (expiry ≤ now))[peer]? = none ∧ _
        rw [OrderedMap.find_filter]
        cases banned : layer.bannedPeers[peer]? with
        | none => exact Or.inl rfl
        | some expiry =>
            by_cases past : expiry ≤ now
            · refine Or.inr ⟨by simp [Option.filter, past], now, List.mem_singleton_self now, ?_⟩
              rw [isPeerBanned_eq_false_iff, banned]
              intro other same
              rw [← Option.some.inj same]
              exact past
            · exact Or.inl (by simp [Option.filter, past])
  · rw [Option.getD_some]
    exact .of_listed rfl id

/-- A ban of another peer. -/
theorem calm_banPeer (layer : Connections) (now durationSeconds : UInt64) {other : PeerID} (different : other ≠ peer)
    (times : List UInt64) : Calm layer (layer.banPeer now other durationSeconds) times peer := by
  refine ⟨fun isListed => Or.inl ?_, Or.inl ?_⟩
  · change ((layer.peers.erase other)[peer]?).isSome = true at isListed
    rw [OrderedMap.find_erase, if_neg different.symm] at isListed
    exact isListed
  · change (layer.bannedPeers.insert other (now + durationSeconds))[peer]? = layer.bannedPeers[peer]?
    rw [OrderedMap.find_insert, if_neg different.symm]

theorem find_banPeer_self (layer : Connections) (now durationSeconds : UInt64) :
    (layer.banPeer now peer durationSeconds).peers[peer]? = none := by
  change (layer.peers.erase peer)[peer]? = none
  rw [OrderedMap.find_erase, if_pos rfl]

/-- The peer is banned and taken out of the table. -/
def Dropped (layer after : Connections) (step : TableCall) (peer : PeerID) : Prop :=
  after.peers[peer]? = none ∧ step.Bans layer peer

/-- What a call can do to a peer: drop it, or nothing that its ban forbids. -/
theorem call_cases (layer : Connections) (step : TableCall) (peer : PeerID) :
    Calm layer (layer.call step) step.times peer ∨ Dropped layer (layer.call step) step peer := by
  cases step with
  | startUp starts => exact Or.inl (.of_listed rfl id)
  | shutdown =>
      refine Or.inl (.of_listed ?_ ?_)
      · unfold call shutdown
        simp only []
        split
        · rfl
        · rfl
      · unfold call shutdown
        simp only []
        split
        · exact id
        · intro isListed
          rw [show (∅ : PeerTable)[peer]? = none from Std.ExtTreeMap.getElem?_empty] at isListed
          cases isListed
  | connectToPeers attempts => exact Or.inl (calm_connectToPeers layer attempts)
  | maintainConnections now => exact Or.inl (calm_maintainConnections layer now)
  | banPeer now other durationSeconds =>
      by_cases same : other = peer
      · subst same
        exact Or.inr ⟨find_banPeer_self layer now durationSeconds, rfl⟩
      · exact Or.inl (calm_banPeer layer now durationSeconds same _)
  | updateReputation now other delta =>
      unfold call updateReputation
      cases found : layer.peers[other]? with
      | none =>
          simp only [found]
          exact Or.inl (.of_listed rfl id)
      | some info =>
          simp only [found]
          split
          · rename_i low
            by_cases same : other = peer
            · subst same
              exact Or.inr ⟨find_banPeer_self _ now defaultBanDuration, rfl, info, found, low⟩
            · have calm := calm_banPeer layer now defaultBanDuration same [now]
              refine Or.inl ⟨fun isListed => Or.inl ?_, calm.bans⟩
              change (((layer.peers.insert other _).erase other)[peer]?).isSome = true at isListed
              rw [OrderedMap.find_erase, if_neg (Ne.symm same)] at isListed
              exact isSome_insert found isListed
          · exact Or.inl (.of_listed rfl (isSome_insert found))
  | setValidatorStatus other isValidator =>
      unfold call setValidatorStatus
      cases found : layer.peers[other]? with
      | none =>
          simp only [found]
          exact Or.inl (.of_listed rfl id)
      | some info =>
          simp only [found]
          exact Or.inl (.of_listed rfl (isSome_insert found))
  | touch now sender =>
      unfold call GossipNode.touch
      cases found : layer.peers[sender]? with
      | none =>
          simp only [found]
          exact Or.inl (.of_listed rfl id)
      | some info =>
          simp only [found]
          exact Or.inl (.of_listed rfl (isSome_insert found))

/-! ## The entries of the table -/

theorem peerIdOf_ne_nil (ipAddr : List UInt8) (port : UInt16) : peerIdOf ipAddr port ≠ [] := by
  unfold peerIdOf
  simp only [List.append_assoc]
  exact List.append_ne_nil_of_left_ne_nil (by decide) _

theorem valid_listPeer (valid : Valid layer.peers) {attempt : Attempt} (early : attempt.now.toNat < 2 ^ 64 - 1)
    (ipAddr : List UInt8) (port : UInt16) : Valid (layer.listPeer attempt (peerIdOf ipAddr port)).2.peers := by
  unfold listPeer
  split_ifs
  · exact valid
  · exact valid
  · exact valid
  · exact valid.insert ⟨peerIdOf_ne_nil ipAddr port, show (100 : UInt64).toNat ≤ 100 by decide, early⟩

theorem valid_connectAll (valid : Valid layer.peers) (connected : Nat) {attempts : List Attempt}
    (early : forall attempt, attempt ∈ attempts -> attempt.now.toNat < 2 ^ 64 - 1) :
    Valid (layer.connectAll connected attempts).2.peers := by
  induction attempts generalizing layer connected with
  | nil => exact valid
  | cons attempt rest inductionHypothesis =>
      rw [List.forall_mem_cons] at early
      unfold connectAll
      split
      · exact inductionHypothesis valid connected early.2
      · exact inductionHypothesis (valid_listPeer valid early.1 _ _) _ early.2
      · exact valid
      · exact valid

theorem valid_maintainConnections (valid : Valid layer.peers) (now : UInt64) :
    Valid ((layer.maintainConnections (layer.peers.size + 1) now).getD layer).peers := by
  rcases disconnectExcess_spec layer.maxPeers valid with ⟨peers, ends, _, keeps⟩
  unfold maintainConnections
  split
  · have loop : disconnectExcess (layer.cleanupExpiredBans now).maxPeers (layer.peers.size + 1)
        (layer.cleanupExpiredBans now).peers = some peers := ends _ (Nat.lt_succ_self _)
    simp only []
    rw [loop, Option.bind_some, discoverMissing_succ, Option.getD_some]
    exact fun id info found => valid id info (keeps.unchanged id info found)
  · exact valid

theorem valid_call (valid : Valid layer.peers) {step : TableCall}
    (early : forall time, time ∈ step.times -> time.toNat < 2 ^ 64 - 1) : Valid (layer.call step).peers := by
  cases step with
  | startUp starts => exact valid
  | shutdown =>
      unfold call shutdown
      simp only []
      split
      · exact valid
      · intro id info found
        rw [show (∅ : PeerTable)[id]? = none from Std.ExtTreeMap.getElem?_empty] at found
        cases found
  | connectToPeers attempts =>
      unfold call connectToPeers
      simp only []
      split
      · exact valid
      · refine valid_connectAll valid 0 fun attempt member => early attempt.now ?_
        exact List.mem_flatMap.mpr ⟨attempt, member, List.mem_cons_of_mem _ List.mem_cons_self⟩
  | maintainConnections now => exact valid_maintainConnections valid now
  | banPeer now other durationSeconds => exact valid.erase other
  | updateReputation now other delta => exact valid_updateReputation valid now other delta
  | setValidatorStatus other isValidator =>
      unfold call setValidatorStatus
      cases found : layer.peers[other]? with
      | none =>
          simp only [found]
          exact valid
      | some info =>
          simp only [found]
          have entry := valid other info found
          exact valid.insert ⟨entry.named, entry.reputed, entry.seen⟩
  | touch now sender =>
      unfold call GossipNode.touch
      cases found : layer.peers[sender]? with
      | none =>
          simp only [found]
          exact valid
      | some info =>
          simp only [found]
          have entry := valid sender info found
          exact valid.insert ⟨entry.named, entry.reputed, early now (List.mem_singleton_self now)⟩

end Connections

/-! ## Runs -/

/-- The layer and what the clock was last. -/
structure TimedTable where
  layer : Connections
  clock : UInt64

namespace TimedTable

def step (timed : TimedTable) (call : TableCall) : TimedTable :=
  ⟨timed.layer.call call, call.times.getLast?.getD timed.clock⟩

/-- The clock does not run backwards and does not reach its end. -/
structure InOrder (timed : TimedTable) (call : TableCall) : Prop where
  ascending : (timed.clock :: call.times).Pairwise (· ≤ ·)
  early : forall time, time ∈ call.times -> time.toNat < 2 ^ 64 - 1

variable {timed : TimedTable} {call : TableCall}

theorem InOrder.times_le (ordered : timed.InOrder call) {time : UInt64} (member : time ∈ call.times) :
    timed.clock ≤ time ∧ time ≤ (timed.step call).clock := by
  rcases List.pairwise_cons.mp ordered.ascending with ⟨after, sorted⟩
  refine ⟨after time member, ?_⟩
  unfold step
  rcases List.eq_nil_or_concat call.times with none | ⟨earlier, last, some⟩
  · rw [none] at member
    cases member
  · rw [some, List.concat_eq_append] at member sorted ⊢
    rw [List.getLast?_concat, Option.getD_some]
    rcases List.mem_append.mp member with before | same
    · exact (List.pairwise_append.mp sorted).2.2 time before last (List.mem_singleton_self last)
    · rw [List.mem_singleton.mp same]
      exact UInt64.le_refl last

theorem InOrder.clock_le (ordered : timed.InOrder call) : timed.clock ≤ (timed.step call).clock := by
  rcases List.eq_nil_or_concat call.times with none | ⟨earlier, last, some⟩
  · unfold step
    rw [none]
    exact UInt64.le_refl _
  · have member : last ∈ call.times := by
      rw [some, List.concat_eq_append]
      exact List.mem_append_right earlier (List.mem_singleton_self last)
    exact UInt64.le_trans (ordered.times_le member).1 (ordered.times_le member).2

/-- No peer in the table is banned. -/
def Fair (timed : TimedTable) : Prop :=
  forall peer, (timed.layer.peers[peer]?).isSome = true -> timed.layer.isPeerBanned timed.clock peer = false

theorem isPeerBanned_mono {layer : Connections} {peer : PeerID} {now later : UInt64}
    (free : layer.isPeerBanned now peer = false) (ordered : now ≤ later) : layer.isPeerBanned later peer = false := by
  rw [Connections.isPeerBanned_eq_false_iff] at free ⊢
  exact fun expiry banned => UInt64.le_trans (free expiry banned) ordered

/-- The step lemma: a peer is listed while it is not banned, and dropped when it is. -/
theorem Fair.step (fair : timed.Fair) (ordered : timed.InOrder call) : (timed.step call).Fair := by
  intro peer isListed
  rcases timed.layer.call_cases call peer with calm | dropped
  · -- A time by which the peer was not banned before the call.
    have free : timed.layer.isPeerBanned (timed.step call).clock peer = false := by
      rcases calm.listed isListed with before | ⟨time, member, free⟩
      · exact isPeerBanned_mono (fair peer before) ordered.clock_le
      · exact isPeerBanned_mono free (ordered.times_le member).2
    rw [Connections.isPeerBanned_eq_false_iff] at free ⊢
    intro expiry banned
    rcases calm.bans with same | ⟨forgotten, _⟩
    · exact free expiry (same.symm.trans banned)
    · cases forgotten.symm.trans banned
  · have gone := dropped.1
    change ((timed.layer.call call).peers[peer]?).isSome = true at isListed
    rw [gone] at isListed
    cases isListed

/-- The peer is out of the table until the end of its ban. -/
structure Barred (peer : PeerID) (expiry : UInt64) (timed : TimedTable) : Prop where
  unlisted : timed.layer.peers[peer]? = none
  banned : timed.layer.bannedPeers[peer]? = some expiry

/-- The call is made before the end of a ban and does not ban the peer again. -/
structure During (peer : PeerID) (expiry : UInt64) (call : TableCall) : Prop where
  spares : call.Spares peer
  before : forall time, time ∈ call.times -> time < expiry

theorem Barred.step {peer : PeerID} {expiry : UInt64} (barred : timed.Barred peer expiry)
    (during : During peer expiry call) : (timed.step call).Barred peer expiry := by
  rcases timed.layer.call_cases call peer with calm | dropped
  · have never : ¬ ∃ time, time ∈ call.times ∧ timed.layer.isPeerBanned time peer = false := by
      rintro ⟨time, member, free⟩
      rw [Connections.isPeerBanned_of_some barred.banned (during.before time member)] at free
      cases free
    refine ⟨?_, ?_⟩
    · rw [← Option.not_isSome_iff_eq_none]
      intro isListed
      rcases calm.listed isListed with before | free
      · rw [barred.unlisted] at before
        cases before
      · exact never free
    · rcases calm.bans with same | ⟨_, free⟩
      · exact same.trans barred.banned
      · exact absurd free never
  · have listed := dropped.2.listed during.spares
    rw [barred.unlisted] at listed
    cases listed

/-- If the peer is banned at all, it is so until this time. -/
def BannedUntil (peer : PeerID) (expiry : UInt64) (timed : TimedTable) : Prop :=
  forall other, timed.layer.bannedPeers[peer]? = some other -> other = expiry

theorem BannedUntil.step {peer : PeerID} {expiry : UInt64} (lapses : timed.BannedUntil peer expiry)
    (spares : ¬ call.Bans timed.layer peer) : (timed.step call).BannedUntil peer expiry := by
  intro other banned
  rcases timed.layer.call_cases call peer with calm | dropped
  · rcases calm.bans with same | ⟨forgotten, _⟩
    · exact lapses other (same.symm.trans banned)
    · cases forgotten.symm.trans banned
  · exact absurd dropped.2 spares

/-- The end of a ban: a connection after it lists the peer. -/
theorem BannedUntil.readmitted {peer : PeerID} {expiry : UInt64} (lapses : timed.BannedUntil peer expiry)
    {before after : List Attempt} {attempt : Attempt} {ipAddr : List UInt8} {port : UInt16}
    (parses : forall earlier, earlier ∈ before -> ∃ found, parsePeerAddress earlier.peerAddr = .value found)
    (parsed : parsePeerAddress attempt.peerAddr = .value (some (ipAddr, port))) (named : peerIdOf ipAddr port = peer)
    (connects : attempt.connects = true) (ended : expiry ≤ attempt.checked)
    (initialized : timed.layer.initialized = true) :
    ((timed.layer.connectToPeers (before ++ attempt :: after)).2.peers[peer]?).isSome = true := by
  have free : timed.layer.isPeerBanned attempt.checked peer = false := by
    rw [Connections.isPeerBanned_eq_false_iff]
    intro other banned
    rw [lapses other banned]
    exact ended
  unfold Connections.connectToPeers
  rw [initialized, if_neg nofun]
  subst named
  exact Connections.listed_of_free timed.layer 0 parses parsed connects free

/-- Under a clock that does not run backwards, in every run from a new layer: the table is one that its
maintenance is made for, and no peer in it is banned.  A peer that is banned then stays out of the
table through all calls before its ban ends, unless it is banned again.  After any calls that do not
ban it again, a connection to it after the end lists it.  The end is computed modulo `2^64`. -/
theorem bans_hold (minPeers maxPeers : Nat) (clock : UInt64) {calls : List TableCall}
    (ordered : Along step InOrder ⟨.create minPeers maxPeers, clock⟩ calls) :
    let after := run step ⟨.create minPeers maxPeers, clock⟩ calls
    Valid after.layer.peers ∧
    (forall peer now, (after.layer.peers[peer]?).isSome = true -> after.clock ≤ now ->
      after.layer.isPeerBanned now peer = false) ∧
    forall peer now duration later,
      let final := run step ⟨after.layer.banPeer now peer duration, now⟩ later
      (Along step (fun _ => During peer (now + duration)) ⟨after.layer.banPeer now peer duration, now⟩ later ->
        final.layer.peers[peer]? = none ∧
        forall time, time < now + duration -> final.layer.isPeerBanned time peer = true) ∧
      (Along step (fun timed call => ¬ call.Bans timed.layer peer) ⟨after.layer.banPeer now peer duration, now⟩ later ->
        forall before attempt rest ipAddr port,
          (forall earlier, earlier ∈ before -> ∃ found, parsePeerAddress earlier.peerAddr = .value found) ->
          parsePeerAddress attempt.peerAddr = .value (some (ipAddr, port)) -> peerIdOf ipAddr port = peer ->
          attempt.connects = true -> now + duration ≤ attempt.checked -> final.layer.initialized = true ->
          ((final.layer.connectToPeers (before ++ attempt :: rest)).2.peers[peer]?).isSome = true) := by
  intro after
  have empty : forall peer, (Connections.create minPeers maxPeers).peers[peer]? = none :=
    fun _ => Std.ExtTreeMap.getElem?_empty
  refine ⟨?_, ?_, ?_⟩
  · refine invariant_run (fun timed : TimedTable => Valid timed.layer.peers) ?_ ?_ ordered
    · exact fun timed call valid inOrder => Connections.valid_call valid inOrder.early
    · intro peer info found
      cases (empty peer).symm.trans found
  · intro peer now isListed later
    have fair : after.Fair := by
      refine invariant_run Fair (fun _ _ fair inOrder => fair.step inOrder) ?_ ordered
      intro other impossible
      rw [empty other] at impossible
      cases impossible
    exact isPeerBanned_mono (fair peer isListed) later
  · intro peer now duration later final
    have banned : (after.layer.banPeer now peer duration).bannedPeers[peer]? = some (now + duration) :=
      (OrderedMap.find_insert _ _ _ _).trans (if_pos rfl)
    constructor
    · intro during
      have start : Barred peer (now + duration) ⟨after.layer.banPeer now peer duration, now⟩ :=
        ⟨Connections.find_banPeer_self after.layer now duration, banned⟩
      have barred := invariant_run (Barred peer (now + duration)) (fun _ _ barred guard => barred.step guard) start
        during
      exact ⟨barred.unlisted, fun time before => Connections.isPeerBanned_of_some barred.banned before⟩
    · intro spared before attempt rest ipAddr port parses parsed named connects ended initialized
      have start : BannedUntil peer (now + duration) ⟨after.layer.banPeer now peer duration, now⟩ :=
        fun other same => Option.some.inj (same.symm.trans banned)
      have lapses := invariant_run (BannedUntil peer (now + duration)) (fun _ _ lapses guard => lapses.step guard) start
        spared
      exact lapses.readmitted parses parsed named connects ended initialized

def sampleAttempt (now : UInt64) : Attempt := ⟨bytesOf "10.0.0.7:9000", true, now, now⟩

/-- A ban of ten seconds, an attempt during it, and one after it behind an address that means nothing. -/
theorem bans_hold_sample :
    let peer := peerIdOf (bytesOf "10.0.0.7") 9000
    let after := run step ⟨.create 8 50, 0⟩ [.startUp true, .connectToPeers [sampleAttempt 5]]
    let final := run step ⟨after.layer.banPeer 6 peer 10, 6⟩ [.connectToPeers [sampleAttempt 7], .maintainConnections 9]
    final.layer.peers[peer]? = none ∧
      ((final.layer.connectToPeers [⟨bytesOf "nowhere", true, 16, 16⟩, sampleAttempt 16]).2.peers[peer]?).isSome =
        true := by
  intro peer after final
  have ordered : Along step InOrder ⟨.create 8 50, 0⟩ [.startUp true, .connectToPeers [sampleAttempt 5]] :=
    ⟨⟨by decide, List.forall_mem_nil _⟩,
      ⟨by decide, List.forall_mem_cons.mpr ⟨by decide, List.forall_mem_singleton.mpr (by decide)⟩⟩, trivial⟩
  have during : Along step (fun _ => During peer (6 + 10)) ⟨after.layer.banPeer 6 peer 10, 6⟩
      [.connectToPeers [sampleAttempt 7], .maintainConnections 9] :=
    ⟨⟨trivial, List.forall_mem_cons.mpr ⟨by decide, List.forall_mem_singleton.mpr (by decide)⟩⟩,
      ⟨trivial, List.forall_mem_singleton.mpr (by decide)⟩, trivial⟩
  have spared : Along step (fun timed call => ¬ call.Bans timed.layer peer) ⟨after.layer.banPeer 6 peer 10, 6⟩
      [.connectToPeers [sampleAttempt 7], .maintainConnections 9] := ⟨id, id, trivial⟩
  have parsed : parsePeerAddress (sampleAttempt 16).peerAddr = .value (some (bytesOf "10.0.0.7", 9000)) := by
    decide +kernel
  have meaningless : parsePeerAddress (bytesOf "nowhere") = .value none := by decide +kernel
  rcases (bans_hold 8 50 0 ordered).2.2 peer 6 10 _ with ⟨stays, readmitted⟩
  have initialized : final.layer.initialized = true := by decide +kernel
  exact ⟨(stays during).1, readmitted spared [⟨bytesOf "nowhere", true, 16, 16⟩] (sampleAttempt 16) [] _ _
    (List.forall_mem_singleton.mpr ⟨none, meaningless⟩) parsed rfl rfl (by decide) initialized⟩

end TimedTable
end Network
end Sarafu

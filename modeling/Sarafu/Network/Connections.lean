import Sarafu.Crypto.Bytes
import Sarafu.Library.GreedyEviction

namespace Sarafu
namespace Network

open Crypto Library

/-!
# Connections

The network layer keeps a table of the peers that it is connected to.  Its maintenance
disconnects peers as long as there are too many: first those with the lowest reputation that
are not validators, then the validators that have not been seen for the longest time.  The
discovery of further peers is a stub.
-/

/-- A `std::string`, in bytes. -/
abbrev PeerID := List UInt8

structure PeerInfo where
  id : PeerID
  addresses : List (List UInt8)
  isValidator : Bool
  lastSeen : UInt64
  reputationScore : UInt64
deriving DecidableEq

abbrev PeerTable := OrderedMap PeerID PeerInfo

structure Connections where
  minPeers : Nat
  maxPeers : Nat
  peers : PeerTable
  bannedPeers : OrderedMap PeerID UInt64
  initialized : Bool

namespace Connections

def cleanupExpiredBans (layer : Connections) (now : UInt64) : Connections :=
  { layer with bannedPeers := layer.bannedPeers.filter fun _ expiry => !decide (expiry ≤ now) }

/-- The search for the non-validator with the lowest reputation.  The result is empty if there
is none. -/
def lowestReputation (peers : PeerTable) : PeerID :=
  (GreedyEviction.search (fun info => !info.isValidator) (fun info => info.reputationScore.toNat) 101 [] peers.toList).2

/-- The search for the oldest `last_seen`, from `UINT64_MAX` on. -/
def oldestSeen (peers : PeerTable) : PeerID :=
  (GreedyEviction.search (fun _ => true) (fun info => info.lastSeen.toNat) (2 ^ 64 - 1) [] peers.toList).2

def toDisconnect (peers : PeerTable) : PeerID :=
  if (lowestReputation peers).isEmpty then oldestSeen peers else lowestReputation peers

/-- The loop while there are too many peers.  It has no result if the fuel is used up. -/
def disconnectExcess (maxPeers : Nat) : Nat -> PeerTable -> Option PeerTable
  | 0, _ => none
  | fuel + 1, peers =>
      if peers.size ≤ maxPeers then some peers
      else if (toDisconnect peers).isEmpty then some peers
      else disconnectExcess maxPeers fuel (peers.erase (toDisconnect peers))

/-- The number of discovered peers. -/
def discoverPeers (layer : Connections) : Nat × Connections := (0, layer)

/-- The loop while there are too few peers. -/
def discoverMissing : Nat -> Connections -> Option Connections
  | 0, _ => none
  | fuel + 1, layer =>
      if layer.minPeers ≤ layer.peers.size then some layer
      else if layer.discoverPeers.1 = 0 then some layer.discoverPeers.2
      else discoverMissing fuel layer.discoverPeers.2

def maintainConnections (layer : Connections) (fuel : Nat) (now : UInt64) : Option Connections :=
  if layer.initialized then
    let cleaned := layer.cleanupExpiredBans now
    (disconnectExcess cleaned.maxPeers fuel cleaned.peers).bind fun peers =>
      discoverMissing fuel { cleaned with peers := peers }
  else some layer

/-- One day. -/
def defaultBanDuration : UInt64 := 86400

def banPeer (layer : Connections) (now : UInt64) (peer : PeerID) (durationSeconds : UInt64) : Connections :=
  { layer with
    peers := layer.peers.erase peer
    bannedPeers := layer.bannedPeers.insert peer (now + durationSeconds) }

def updateReputation (layer : Connections) (now : UInt64) (peer : PeerID) (delta : Int32) : Connections :=
  match layer.peers[peer]? with
  | none => layer
  | some info =>
      let newReputation := max 0 (min 100 (info.reputationScore.toInt64.toInt + delta.toInt))
      let updated := { layer with
        peers := layer.peers.insert peer { info with reputationScore := UInt64.ofNat newReputation.toNat } }
      if newReputation < 25 then updated.banPeer now peer defaultBanDuration else updated

end Connections

/-- The identifier is not empty, the reputation is at most 100, and the peer was not seen at the
end of time. -/
structure ValidEntry (id : PeerID) (info : PeerInfo) : Prop where
  named : id ≠ []
  reputed : info.reputationScore.toNat ≤ 100
  seen : info.lastSeen.toNat < 2 ^ 64 - 1

/-- The tables that the layer keeps. -/
def Valid (peers : PeerTable) : Prop :=
  forall (id : PeerID) (info : PeerInfo), peers[id]? = some info -> ValidEntry id info

instance (id : PeerID) (info : PeerInfo) : Decidable (ValidEntry id info) :=
  decidable_of_iff (id ≠ [] ∧ info.reputationScore.toNat ≤ 100 ∧ info.lastSeen.toNat < 2 ^ 64 - 1)
    ⟨fun ⟨named, reputed, seen⟩ => ⟨named, reputed, seen⟩, fun entry => ⟨entry.named, entry.reputed, entry.seen⟩⟩

theorem valid_iff_toList (peers : PeerTable) :
    (forall entry, entry ∈ peers.toList -> ValidEntry entry.1 entry.2) <-> Valid peers := by
  constructor
  · intro all id info found
    exact all (id, info) (Std.ExtTreeMap.mem_toList_iff_getElem?_eq_some.mpr found)
  · intro valid entry member
    exact valid entry.1 entry.2 (Std.ExtTreeMap.mem_toList_iff_getElem?_eq_some.mp member)

instance (peers : PeerTable) : Decidable (Valid peers) := decidable_of_iff _ (valid_iff_toList peers)

theorem Valid.erase {peers : PeerTable} (valid : Valid peers) (peer : PeerID) : Valid (peers.erase peer) := by
  intro id info found
  rw [OrderedMap.find_erase] at found
  split at found
  · cases found
  · exact valid id info found

theorem Valid.insert {peers : PeerTable} (valid : Valid peers) {peer : PeerID} {info : PeerInfo}
    (entry : ValidEntry peer info) : Valid (peers.insert peer info) := by
  intro id stored found
  rw [OrderedMap.find_insert] at found
  split at found
  · rename_i same
    rw [same, ← Option.some.inj found]
    exact entry
  · exact valid id stored found

namespace Connections

/-- Reputations stay between 0 and 100, whatever they are changed by. -/
theorem valid_updateReputation {layer : Connections} (valid : Valid layer.peers) (now : UInt64) (peer : PeerID)
    (delta : Int32) : Valid (layer.updateReputation now peer delta).peers := by
  unfold updateReputation
  cases found : layer.peers[peer]? with
  | none => exact valid
  | some info =>
      have before := valid peer info found
      have updated : Valid (layer.peers.insert peer { info with
          reputationScore :=
            UInt64.ofNat (max 0 (min 100 (info.reputationScore.toInt64.toInt + delta.toInt))).toNat }) := by
        refine valid.insert ⟨before.named, ?_, before.seen⟩
        rw [UInt64.toNat_ofNat']
        omega
      dsimp only
      split
      · exact updated.erase peer
      · exact updated

/-! ## What is evicted -/

/-- Non-validators come before validators. -/
def rank (info : PeerInfo) : Nat :=
  if info.isValidator then 2 ^ 64 + info.lastSeen.toNat else info.reputationScore.toNat

theorem rank_of_validator {info : PeerInfo} (validator : info.isValidator = true) :
    rank info = 2 ^ 64 + info.lastSeen.toNat := if_pos validator

theorem rank_of_other {info : PeerInfo} (other : info.isValidator = false) :
    rank info = info.reputationScore.toNat := by
  rw [rank, other, if_neg Bool.false_ne_true]

theorem mem_toList {peers : PeerTable} {entry : PeerID × PeerInfo} :
    entry ∈ peers.toList <-> peers[entry.1]? = some entry.2 := Std.ExtTreeMap.mem_toList_iff_getElem?_eq_some

/-- Among validators the one whose last message is oldest ranks lowest. -/
theorem lowest_oldestSeen {peers : PeerTable} (valid : Valid peers) (nonempty : peers.size ≠ 0)
    (validators : forall entry, entry ∈ peers.toList -> entry.2.isValidator = true) :
    oldestSeen peers ≠ [] ∧ GreedyEviction.Lowest rank peers (oldestSeen peers) := by
  rcases GreedyEviction.search_cases (fun _ : PeerInfo => true) (fun info => info.lastSeen.toNat) (2 ^ 64 - 1) []
    peers.toList with ⟨_, none⟩ | ⟨entry, member, kept, _, _, lowest⟩
  · have listed : peers.toList ≠ [] := fun empty =>
      nonempty (Std.ExtTreeMap.length_toList.symm.trans (congrArg List.length empty))
    rcases List.exists_mem_of_ne_nil peers.toList listed with ⟨entry, member⟩
    have seen := (valid entry.1 entry.2 (mem_toList.mp member)).seen
    have above := none entry member rfl
    omega
  · unfold oldestSeen
    rw [kept]
    have found := mem_toList.mp member
    refine ⟨(valid entry.1 entry.2 found).named, entry.2, found, ?_⟩
    intro id stored remains
    have listed : (id, stored) ∈ peers.toList := mem_toList.mpr remains
    have older := lowest (id, stored) listed rfl
    rw [rank_of_validator (validators entry member), rank_of_validator (validators (id, stored) listed)]
    exact Nat.add_le_add_left older _

/-- Below all validators, a non-validator of the lowest reputation ranks lowest. -/
theorem lowest_of_reputation {peers : PeerTable} {entry : PeerID × PeerInfo} (valid : Valid peers)
    (found : peers[entry.1]? = some entry.2) (other : entry.2.isValidator = false)
    (lowest : forall listed, listed ∈ peers.toList -> (!listed.2.isValidator) = true ->
      entry.2.reputationScore.toNat ≤ listed.2.reputationScore.toNat) :
    GreedyEviction.Lowest rank peers entry.1 := by
  refine ⟨entry.2, found, ?_⟩
  intro id stored remains
  have reputed := (valid entry.1 entry.2 found).reputed
  rw [rank_of_other other]
  cases kind : stored.isValidator with
  | true =>
      rw [rank_of_validator kind]
      omega
  | false =>
      rw [rank_of_other kind]
      exact lowest (id, stored) (mem_toList.mpr remains) ((Bool.not_eq_true' _).mpr kind)

/-- The peer to disconnect is found, and it ranks lowest. -/
theorem lowest_toDisconnect {peers : PeerTable} (valid : Valid peers) (nonempty : peers.size ≠ 0) :
    toDisconnect peers ≠ [] ∧ GreedyEviction.Lowest rank peers (toDisconnect peers) := by
  rcases GreedyEviction.search_cases (fun info : PeerInfo => !info.isValidator) (fun info => info.reputationScore.toNat)
    101 [] peers.toList with ⟨kept, none⟩ | ⟨entry, member, kept, other, _, lowest⟩
  · -- no reputation reaches 101, so there are validators only
    have validators : forall entry, entry ∈ peers.toList -> entry.2.isValidator = true := by
      intro entry member
      by_contra nonValidator
      have reputed := (valid entry.1 entry.2 (mem_toList.mp member)).reputed
      have above := none entry member ((Bool.not_eq_true' _).mpr (Bool.eq_false_iff.mpr nonValidator))
      omega
    have chosen : toDisconnect peers = oldestSeen peers := by
      unfold toDisconnect lowestReputation
      rw [kept, if_pos List.isEmpty_nil]
    rw [chosen]
    exact lowest_oldestSeen valid nonempty validators
  · have found := mem_toList.mp member
    have named := (valid entry.1 entry.2 found).named
    have chosen : toDisconnect peers = entry.1 := by
      unfold toDisconnect lowestReputation
      rw [kept, if_neg]
      rw [List.isEmpty_iff]
      exact named
    rw [chosen]
    exact ⟨named, lowest_of_reputation valid found ((Bool.not_eq_true' _).mp other) lowest⟩

/-- The loop ends when there are not too many peers any more, and what remains ranks highest. -/
theorem disconnectExcess_spec (maxPeers : Nat) {peers : PeerTable} (valid : Valid peers) : ∃ after : PeerTable,
    (forall fuel, peers.size < fuel -> disconnectExcess maxPeers fuel peers = some after) ∧
      after.size = min peers.size maxPeers ∧ GreedyEviction.Keeps rank peers after := by
  induction size : peers.size generalizing peers with
  | zero =>
      refine ⟨peers, ?_, by omega, GreedyEviction.Keeps.refl peers⟩
      intro fuel enough
      rcases Nat.exists_eq_add_one_of_ne_zero (Nat.ne_of_gt enough) with ⟨left, rfl⟩
      rw [disconnectExcess, if_pos (by omega)]
  | succ count inductionHypothesis =>
      by_cases few : peers.size ≤ maxPeers
      · refine ⟨peers, ?_, by omega, GreedyEviction.Keeps.refl peers⟩
        intro fuel enough
        rcases Nat.exists_eq_add_one_of_ne_zero (Nat.ne_of_gt (Nat.zero_lt_of_lt enough)) with ⟨left, rfl⟩
        rw [disconnectExcess, if_pos few]
      · rcases lowest_toDisconnect valid (by omega) with ⟨named, lowest⟩
        have smaller : (peers.erase (toDisconnect peers)).size = count := by
          rcases lowest with ⟨info, found, _⟩
          have held := Std.ExtTreeMap.mem_iff_isSome_getElem?.mpr (Option.isSome_of_eq_some found)
          have contained := Std.ExtTreeMap.mem_iff_contains.mp held
          rw [Std.ExtTreeMap.size_erase, if_pos contained, size, Nat.add_sub_cancel]
        rcases inductionHypothesis (valid.erase _) smaller with ⟨after, ends, length, keeps⟩
        refine ⟨after, ?_, by omega, GreedyEviction.Keeps.of_erase lowest keeps⟩
        intro fuel enough
        rcases Nat.exists_eq_add_one_of_ne_zero (Nat.ne_of_gt (Nat.zero_lt_of_lt enough)) with ⟨left, rfl⟩
        have named' : ¬(toDisconnect peers).isEmpty = true := fun empty => named (List.isEmpty_iff.mp empty)
        rw [disconnectExcess, if_neg few, if_neg named']
        exact ends left (by omega)

/-- Nothing is ever discovered, so the second loop ends at once. -/
theorem discoverMissing_succ (fuel : Nat) (layer : Connections) : discoverMissing (fuel + 1) layer = some layer := by
  rw [discoverMissing]
  split
  · rfl
  · exact if_pos rfl

end Connections

/-- Maintenance ends and leaves as many peers as are allowed.  A validator is evicted only if
nothing but validators remains, and the evicted peers had the lowest reputations, or were
the validators that had not been seen for the longest time. -/
theorem maintainConnections_evicts_lowest (layer : Connections) (now : UInt64) (initialized : layer.initialized = true)
    (valid : Valid layer.peers) : ∃ after : Connections,
    (forall fuel, layer.peers.size < fuel -> layer.maintainConnections fuel now = some after) ∧
    after.peers.size = min layer.peers.size layer.maxPeers ∧
    (forall (id : PeerID) (info : PeerInfo), after.peers[id]? = some info -> layer.peers[id]? = some info) ∧
    forall (id : PeerID) (info : PeerInfo), layer.peers[id]? = some info -> after.peers[id]? = none ->
      forall (other : PeerID) (remaining : PeerInfo), after.peers[other]? = some remaining ->
        (info.isValidator = true -> remaining.isValidator = true ∧ info.lastSeen ≤ remaining.lastSeen) ∧
        (info.isValidator = false -> remaining.isValidator = false ->
          info.reputationScore ≤ remaining.reputationScore) := by
  rcases Connections.disconnectExcess_spec layer.maxPeers valid with ⟨peers, ends, size, keeps⟩
  refine ⟨{ layer.cleanupExpiredBans now with peers := peers }, ?_, size, keeps.unchanged, ?_⟩
  · intro fuel enough
    have loop := ends fuel enough
    rcases Nat.exists_eq_add_one_of_ne_zero (Nat.ne_of_gt (Nat.zero_lt_of_lt enough)) with ⟨left, rfl⟩
    unfold Connections.maintainConnections
    rw [if_pos initialized]
    change (Connections.disconnectExcess layer.maxPeers (left + 1) layer.peers).bind _ = _
    rw [loop, Option.bind_some, Connections.discoverMissing_succ]
  · intro id info found gone other remaining remains
    have ranked := keeps.lowest id info found gone other remaining remains
    have small := (valid other remaining (keeps.unchanged other remaining remains)).reputed
    constructor
    · intro validator
      rw [Connections.rank_of_validator validator] at ranked
      cases kind : remaining.isValidator with
      | false =>
          rw [Connections.rank_of_other kind] at ranked
          omega
      | true =>
          rw [Connections.rank_of_validator kind] at ranked
          exact ⟨rfl, UInt64.le_iff_toNat_le.mpr (Nat.le_of_add_le_add_left ranked)⟩
    · intro evicted kept
      rw [Connections.rank_of_other evicted, Connections.rank_of_other kept] at ranked
      exact UInt64.le_iff_toNat_le.mpr ranked

/-- Two validators and two other peers, where one peer is allowed. -/
def crowded : Connections where
  minPeers := 0
  maxPeers := 1
  peers := [⟨[1], [], false, 400, 90⟩, ⟨[2], [], true, 100, 10⟩, ⟨[3], [], false, 300, 40⟩,
    ⟨[4], [], true, 200, 0⟩].foldl
    (fun peers (info : PeerInfo) => peers.insert info.id info) (∅ : PeerTable)
  bannedPeers := ∅
  initialized := true

theorem maintainConnections_evicts_lowest_crowded : ∃ after : Connections,
    (forall fuel, crowded.peers.size < fuel -> crowded.maintainConnections fuel 500 = some after) ∧
      after.peers.size = 1 ∧ crowded.maintainConnections 5 500 = some after ∧
      (crowded.maintainConnections 5 500).map (fun layer => layer.peers.keys) = some [[4]] := by
  rcases maintainConnections_evicts_lowest crowded 500 rfl (by decide +kernel) with ⟨after, ends, size, _⟩
  exact ⟨after, ends, size.trans (by decide +kernel), ends 5 (by decide +kernel), by decide +kernel⟩

end Network
end Sarafu

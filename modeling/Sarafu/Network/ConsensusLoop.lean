import Sarafu.Consensus.BlockStore
import Sarafu.Network.GossipNetwork
import Sarafu.Network.MessageBytes
import Sarafu.State.FeeMarket

namespace Sarafu
namespace Network

open Crypto Consensus State ConsensusEngine Library.Decoding Library.Runs

/-!
# The consensus loop

The loop proposes when its validator leads, changes the view when nothing has happened for a
while, and hands what arrives to the engine or to the mempool.  Each outcome changes the
reputation of the sender.  The threads of the loop and of the network take turns here.

Every exception is caught by the handlers and by the loop.  A message that is read beyond its
end leaves no state.
-/

structure ConsensusLoop where
  engine : ConsensusEngine
  layer : NetworkLayer
  connections : Connections
  mempool : Mempool
  feeMarket : FeeMarket
  validatorId : ValidatorID
  validatorKey : BLS12381PrivateKey
  isValidator : Bool
  running : Bool
  lastBlockTime : UInt64

/-- What one round of the loop reads: the clock in milliseconds when it proposes and when it
checks the timeout, the clock of the engine and of the network in seconds, and the accounts. -/
structure Round where
  proposalTime : UInt64
  checkTime : UInt64
  engineTime : UInt64
  networkTime : UInt64
  accountManager : Option AccountManager

/-- What the handling of a message reads: both clocks and the accounts. -/
structure Arrival where
  milliseconds : UInt64
  seconds : UInt64
  accountManager : Option AccountManager

/-- Two seconds. -/
def blockTimeMs : UInt64 := 2000

/-- Four seconds. -/
def viewTimeoutMs : UInt64 := 4000

namespace ConsensusLoop

/-- `register_message_handlers`. -/
def registerMessageHandlers (layer : NetworkLayer) : NetworkLayer :=
  (((layer.onMessage MessageType.block).onMessage MessageType.vote).onMessage MessageType.transaction).onMessage
    MessageType.blockRequest

def start (loop : ConsensusLoop) : ConsensusLoop :=
  if loop.running then loop else { loop with running := true, layer := registerMessageHandlers loop.layer }

def stop (loop : ConsensusLoop) : ConsensusLoop := { loop with running := false }

variable (prim : Primitives)

/-- The arguments of the proposal.  The source asks the fee market for `get_base_fee`, which is
its current base fee. -/
def proposal (loop : ConsensusLoop) (round : Round) : ConsensusEngine.Proposal where
  proposerId := loop.validatorId
  proposerKey := loop.validatorKey
  mempool := loop.mempool
  accountManager := round.accountManager
  baseFee := loop.feeMarket.currentBaseFee
  now := round.engineTime

/-- The block that was broadcast, if any.  The difference of the times is taken in 64 bits. -/
def proposeBlock (loop : ConsensusLoop) (round : Round) : Except Failure (Option Block) × ConsensusLoop :=
  if round.proposalTime - loop.lastBlockTime < blockTimeMs then (.ok none, loop)
  else
    match loop.engine.proposeBlock prim (loop.proposal round) with
    | (none, engine) => (.ok none, { loop with engine := engine })
    | (some block, engine) =>
        match loop.layer.broadcast round.networkTime (NetworkMessage.make prim MessageType.block block.serialize) with
        | .error failure => (.error failure, { loop with engine := engine })
        | .ok layer =>
            (.ok (some block), { loop with engine := engine, layer := layer, lastBlockTime := round.proposalTime })

/-- The view changes even if the new view has no leader; then the time is not noted. -/
def checkViewTimeout (loop : ConsensusLoop) (now : UInt64) : ConsensusLoop :=
  if viewTimeoutMs < now - loop.lastBlockTime then
    let changed := loop.engine.triggerViewChange
    { loop with engine := changed.2, lastBlockTime := if changed.1 then now else loop.lastBlockTime }
  else loop

def isLeader (loop : ConsensusLoop) : Bool :=
  match loop.engine.getCurrentLeader with
  | none => false
  | some leader => loop.isValidator && decide (leader = loop.validatorId)

/-- One round.  A proposal that throws ends it before the timeout is checked. -/
def runConsensusLoop (loop : ConsensusLoop) (round : Round) : ConsensusLoop :=
  if loop.running then
    if loop.isLeader then
      match loop.proposeBlock prim round with
      | (.error _, proposed) => proposed
      | (.ok _, proposed) => proposed.checkViewTimeout round.checkTime
    else loop.checkViewTimeout round.checkTime
  else loop

/-! ## Handlers

Each handler returns the new state and the change of the sender's reputation. -/

def handleBlockMessage (loop : ConsensusLoop) (arrival : Arrival) (payload : List UInt8) :
    Option (ConsensusLoop × Int32) :=
  match Block.deserialize payload with
  | .outside => none
  | .throws _ => some (loop, -10)
  | .value block =>
      let received := loop.engine.onReceiveBlock prim block
      match received.1 with
      | .error _ => some ({ loop with engine := received.2 }, -10)
      | .ok false => some ({ loop with engine := received.2 }, -10)
      | .ok true => some ({ loop with engine := received.2, lastBlockTime := arrival.milliseconds }, 5)

def handleVotePayload (loop : ConsensusLoop) (payload : List UInt8) : Option (ConsensusLoop × Int32) :=
  (handleVoteMessage prim loop.engine payload).map fun handled =>
    ({ loop with engine := handled.1 }, Int32.ofInt handled.2)

def handleTransactionMessage (loop : ConsensusLoop) (arrival : Arrival) (payload : List UInt8) :
    Option (ConsensusLoop × Int32) :=
  match Transaction.deserialize payload with
  | .outside => none
  | .throws _ => some (loop, -5)
  | .value tx =>
      let added := loop.mempool.addTransaction prim arrival.accountManager arrival.seconds tx
      some ({ loop with mempool := added.2 }, if added.1 then 1 else -2)

/-- The response to a block request. -/
def respond (loop : ConsensusLoop) (request : BlockRequest) : BlockResponse :=
  let block :=
    if request.type = RequestType.byHeight then loop.engine.getBlockByHeight request.height
    else if request.type = RequestType.byHash then loop.engine.getBlock request.hash
    else none
  match block with
  | some block => ⟨block, true, []⟩
  | none => ⟨BlockResponse.defaultBlock, false, "Block not found".toUTF8.toList⟩

/-- The handler of a type.  A block request changes nothing; its response goes to the sender. -/
def dispatch (loop : ConsensusLoop) (arrival : Arrival) (message : NetworkMessage) :
    Option (ConsensusLoop × Option Int32) :=
  if message.type = MessageType.block then
    (loop.handleBlockMessage prim arrival message.payload).map fun handled => (handled.1, some handled.2)
  else if message.type = MessageType.vote then
    (loop.handleVotePayload prim message.payload).map fun handled => (handled.1, some handled.2)
  else if message.type = MessageType.transaction then
    (loop.handleTransactionMessage prim arrival message.payload).map fun handled => (handled.1, some handled.2)
  else some (loop, none)

def updateReputation (loop : ConsensusLoop) (now : UInt64) (peer : PeerID) (delta : Int32) : ConsensusLoop :=
  { loop with connections := loop.connections.updateReputation now peer delta }

/-- The message has been noted, and its sender was seen. -/
def noteMessage (loop : ConsensusLoop) (arrival : Arrival) (message : NetworkMessage) (sender : PeerID) :
    ConsensusLoop :=
  { loop with
    layer := loop.layer.markMessageSeen arrival.seconds message.hash
    connections := { loop.connections with
      peers := GossipNode.touch loop.connections.peers arrival.seconds sender } }

/-- `handle_message` of the network layer with the handlers of the loop. -/
def receive (loop : ConsensusLoop) (arrival : Arrival) (message : NetworkMessage) (sender : PeerID) :
    Option ConsensusLoop :=
  if loop.layer.isMessageSeen message.hash then some loop
  else
    let noted := loop.noteMessage arrival message sender
    if message.type ∈ noted.layer.messageHandlers then
      (noted.dispatch prim arrival message).map fun handled =>
        match handled.2 with
        | none => handled.1
        | some delta => handled.1.updateReputation arrival.seconds sender delta
    else some noted

end ConsensusLoop

/-- What the loop does and what is done to it. -/
inductive LoopCall
  | start
  | stop
  | round (round : Round)
  | receive (arrival : Arrival) (message : NetworkMessage) (sender : PeerID)

namespace ConsensusLoop

variable (prim : Primitives)

def perform (loop : ConsensusLoop) : LoopCall -> Option ConsensusLoop
  | .start => some loop.start
  | .stop => some loop.stop
  | .round round => some (loop.runConsensusLoop prim round)
  | .receive arrival message sender => loop.receive prim arrival message sender

/-- There is no state after a read beyond the end of a message. -/
def step (state : Option ConsensusLoop) (call : LoopCall) : Option ConsensusLoop :=
  state.bind fun loop => loop.perform prim call

theorem step_none (calls : List LoopCall) : run (step prim) none calls = none := by
  induction calls with
  | nil => rfl
  | cons call rest inductionHypothesis => exact inductionHypothesis

/-! ## What the loop does to its engine -/

/-- The engine has taken these calls, and no vote among them came with a signature. -/
def Drives (before after : ConsensusEngine) : Prop :=
  ∃ calls, after = run (ConsensusEngine.call prim) before calls ∧
    forall vote, vote ∈ votesOf calls -> vote.signature = Vote.defaultSignature

variable {prim} {loop : ConsensusLoop}

theorem Drives.refl (engine : ConsensusEngine) : Drives prim engine engine := ⟨[], rfl, nofun⟩

theorem Drives.trans {first second third : ConsensusEngine} (earlier : Drives prim first second)
    (later : Drives prim second third) : Drives prim first third := by
  rcases earlier with ⟨calls, rfl, unsigned⟩
  rcases later with ⟨others, rfl, alsoUnsigned⟩
  refine ⟨calls ++ others, (run_append first calls others).symm, ?_⟩
  intro vote member
  unfold votesOf at member
  rw [List.filterMap_append] at member
  rcases List.mem_append.mp member with among | among
  · exact unsigned vote among
  · exact alsoUnsigned vote among

/-- One call that delivers no vote, or one without a signature. -/
theorem Drives.single {engine : ConsensusEngine} (step : EngineCall)
    (unsigned : forall vote, step = .onReceiveVote vote -> vote.signature = Vote.defaultSignature) :
    Drives prim engine (engine.call prim step) := by
  refine ⟨[step], rfl, ?_⟩
  intro vote member
  rcases List.mem_filterMap.mp member with ⟨call, listed, taken⟩
  rw [List.mem_singleton.mp listed] at taken
  cases step with
  | onReceiveVote delivered =>
      rw [← Option.some.inj taken]
      exact unsigned delivered rfl
  | proposeBlock proposal => cases taken
  | onReceiveBlock block => cases taken
  | triggerViewChange => cases taken

theorem drives_proposeBlock (loop : ConsensusLoop) (round : Round) :
    Drives prim loop.engine (loop.proposeBlock prim round).2.engine := by
  have proposed : Drives prim loop.engine (loop.engine.proposeBlock prim (loop.proposal round)).2 :=
    Drives.single (.proposeBlock (loop.proposal round)) nofun
  unfold proposeBlock
  split
  · exact Drives.refl loop.engine
  · split
    · rename_i engine outcome
      rw [outcome] at proposed
      exact proposed
    · rename_i block engine outcome
      rw [outcome] at proposed
      split
      · exact proposed
      · exact proposed

theorem drives_checkViewTimeout (loop : ConsensusLoop) (now : UInt64) :
    Drives prim loop.engine (loop.checkViewTimeout now).engine := by
  unfold checkViewTimeout
  split
  · exact Drives.single .triggerViewChange nofun
  · exact Drives.refl loop.engine

theorem drives_runConsensusLoop (loop : ConsensusLoop) (round : Round) :
    Drives prim loop.engine (loop.runConsensusLoop prim round).engine := by
  have proposed := @drives_proposeBlock prim loop round
  unfold runConsensusLoop
  split
  · split
    · split
      · rename_i failure after outcome
        rw [outcome] at proposed
        exact proposed
      · rename_i block after outcome
        rw [outcome] at proposed
        exact proposed.trans (drives_checkViewTimeout after round.checkTime)
    · exact drives_checkViewTimeout loop round.checkTime
  · exact Drives.refl loop.engine

theorem drives_handleBlockMessage {arrival : Arrival} {payload : List UInt8} {after : ConsensusLoop} {delta : Int32}
    (handled : loop.handleBlockMessage prim arrival payload = some (after, delta)) :
    Drives prim loop.engine after.engine := by
  unfold handleBlockMessage at handled
  split at handled
  · cases handled
  · cases handled
    exact Drives.refl loop.engine
  · rename_i block _
    have received : Drives prim loop.engine (loop.engine.onReceiveBlock prim block).2 :=
      Drives.single (.onReceiveBlock block) nofun
    dsimp only at handled
    split at handled
    · cases handled
      exact received
    · cases handled
      exact received
    · cases handled
      exact received

theorem drives_handleVotePayload {payload : List UInt8} {after : ConsensusLoop} {delta : Int32}
    (handled : loop.handleVotePayload prim payload = some (after, delta)) : Drives prim loop.engine after.engine := by
  unfold handleVotePayload handleVoteMessage at handled
  split at handled
  · cases handled
  · cases handled
    exact Drives.refl loop.engine
  · rename_i vote decoded
    have received : Drives prim loop.engine (loop.engine.onReceiveVote prim vote.toConsensus).2 := by
      refine Drives.single (.onReceiveVote vote.toConsensus) ?_
      intro other same
      rw [← EngineCall.onReceiveVote.inj same]
      exact Vote.signature_of_deserialize decoded
    dsimp only at handled
    split at handled
    · cases handled
      exact received
    · cases handled
      exact received

theorem engine_handleTransactionMessage {arrival : Arrival} {payload : List UInt8} {after : ConsensusLoop}
    {delta : Int32} (handled : loop.handleTransactionMessage prim arrival payload = some (after, delta)) :
    after.engine = loop.engine := by
  unfold handleTransactionMessage at handled
  split at handled
  · cases handled
  · cases handled
    rfl
  · cases handled
    rfl

theorem drives_dispatch {arrival : Arrival} {message : NetworkMessage} {after : ConsensusLoop} {delta : Option Int32}
    (handled : loop.dispatch prim arrival message = some (after, delta)) : Drives prim loop.engine after.engine := by
  unfold dispatch at handled
  split at handled
  · rcases Option.map_eq_some_iff.mp handled with ⟨⟨next, change⟩, made, same⟩
    cases same
    exact drives_handleBlockMessage made
  · split at handled
    · rcases Option.map_eq_some_iff.mp handled with ⟨⟨next, change⟩, made, same⟩
      cases same
      exact drives_handleVotePayload made
    · split at handled
      · rcases Option.map_eq_some_iff.mp handled with ⟨⟨next, change⟩, made, same⟩
        cases same
        rw [engine_handleTransactionMessage made]
        exact Drives.refl loop.engine
      · cases handled
        exact Drives.refl loop.engine

theorem drives_receive {arrival : Arrival} {message : NetworkMessage} {sender : PeerID} {after : ConsensusLoop}
    (received : loop.receive prim arrival message sender = some after) : Drives prim loop.engine after.engine := by
  unfold receive at received
  split at received
  · cases received
    exact Drives.refl loop.engine
  · dsimp only at received
    split at received
    · rcases Option.map_eq_some_iff.mp received with ⟨⟨next, change⟩, made, same⟩
      have driven : Drives prim (loop.noteMessage arrival message sender).engine next.engine := drives_dispatch made
      cases change with
      | none =>
          cases same
          exact driven
      | some delta =>
          cases same
          exact driven
    · cases received
      exact Drives.refl loop.engine

theorem drives_perform {call : LoopCall} {after : ConsensusLoop} (performed : loop.perform prim call = some after) :
    Drives prim loop.engine after.engine := by
  cases call with
  | start =>
      cases performed
      unfold start
      split
      · exact Drives.refl loop.engine
      · exact Drives.refl loop.engine
  | stop =>
      cases performed
      exact Drives.refl loop.engine
  | round round =>
      cases performed
      exact drives_runConsensusLoop loop round
  | receive arrival message sender => exact drives_receive performed

/-- A run of the loop is a run of its engine. -/
theorem drives_run (prim : Primitives) (start : ConsensusLoop) (calls : List LoopCall) {after : ConsensusLoop}
    (reached : run (step prim) (some start) calls = some after) : Drives prim start.engine after.engine := by
  have every : forall loop, run (step prim) (some start) calls = some loop -> Drives prim start.engine loop.engine := by
    refine invariant_run (fun state => forall loop, state = some loop -> Drives prim start.engine loop.engine) ?_ ?_
      (along_true (some start) calls)
    · intro state call driven _ loop performed
      rcases Option.bind_eq_some_iff.mp performed with ⟨before, rfl, made⟩
      exact (driven before rfl).trans (drives_perform made)
    · intro loop same
      cases same
      exact Drives.refl start.engine
  exact every after reached

end ConsensusLoop

/-- What the engine does in a run of the loop it does in a run of calls in which no vote carries a
signature: votes lose theirs on the way in.  If the default signature does not decode, then no vote
completes a certificate, and so in every run what is finalized, the finalized height and the highest
certificate stay what they were, whatever peers send, in whatever order, and whatever is proposed. -/
theorem consensusLoop_finalizes_nothing {prim : Primitives} {start after : ConsensusLoop} {calls : List LoopCall}
    (reached : run (ConsensusLoop.step prim) (some start) calls = some after) :
    ConsensusLoop.Drives prim start.engine after.engine ∧
      (BLS12381.decodeSignature prim Vote.defaultSignature = none -> SameFinality start.engine after.engine) := by
  have drives := ConsensusLoop.drives_run prim start calls reached
  refine ⟨drives, ?_⟩
  intro undecodable
  rcases drives with ⟨engineCalls, same, unsigned⟩
  rw [same]
  have unsignedCalls : Along (ConsensusEngine.call prim)
      (fun _ step => forall vote, step = .onReceiveVote vote -> vote.signature = Vote.defaultSignature)
      start.engine engineCalls := by
    refine along_of_forall start.engine ?_
    rintro step listed vote rfl
    exact unsigned vote (List.mem_filterMap.mpr ⟨.onReceiveVote vote, listed, rfl⟩)
  refine invariant_run (SameFinality start.engine) ?_ (SameFinality.refl start.engine) unsignedCalls
  intro engine step kept plain
  refine kept.trans (sameFinality_call ?_)
  intro vote delivers
  rw [plain vote delivers]
  exact undecodable

/-- A validator's loop over the engine of three validators. -/
def validatorLoop : ConsensusLoop where
  engine := unitEngine 3
  layer := { NetworkLayer.create with initialized := true }
  connections := ⟨8, 50, (∅ : PeerTable).insert [0] ⟨[0], [], false, 0, 100⟩, ∅, true⟩
  mempool := Mempool.empty {}
  feeMarket := FeeMarket.create
  validatorId := FixedBytes.ofNat 32 1
  validatorKey := FixedBytes.zero 32
  isValidator := true
  running := false
  lastBlockTime := 0

/-- A valid vote as it comes from a peer. -/
def sentVoteCall (number : Nat) : LoopCall :=
  .receive ⟨5000, 5, none⟩ (NetworkMessage.make Transparent.primitives MessageType.vote (sentVote number).serialize) [0]

/-- The transparent libraries with a decoder that refuses the signature of zeros, as the real one does. -/
def refusingPrimitives : Primitives :=
  { Transparent.primitives with
    blst := { Transparent.blst with
      p2Uncompress := fun signature =>
        if signature = FixedBytes.zero 96 then none else some (Transparent.uncompress signature) } }

/-- Two of three validators send valid votes for the block of height one.  An engine that gets the votes
themselves finalizes it. -/
theorem consensusLoop_finalizes_nothing_twoVotes :
    (run (ConsensusEngine.call refusingPrimitives) validatorLoop.engine
      [.onReceiveVote (sentVote 1).toConsensus, .onReceiveVote (sentVote 2).toConsensus]).isFinalized
        (firstBlock.hash refusingPrimitives) = true ∧
    ∃ after, run (ConsensusLoop.step refusingPrimitives) (some validatorLoop) [.start, sentVoteCall 1, sentVoteCall 2] =
      some after ∧ SameFinality validatorLoop.engine after.engine := by
  have ends : (run (ConsensusLoop.step refusingPrimitives) (some validatorLoop)
      [.start, sentVoteCall 1, sentVoteCall 2]).isSome = true := by decide +kernel
  rcases Option.isSome_iff_exists.mp ends with ⟨after, reached⟩
  exact ⟨by decide +kernel, after, reached, (consensusLoop_finalizes_nothing reached).2 (by decide +kernel)⟩

end Network
end Sarafu

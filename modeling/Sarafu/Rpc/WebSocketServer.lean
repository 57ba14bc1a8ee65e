import Sarafu.Library.SinceCalls
import Sarafu.Library.TextSearch

namespace Sarafu
namespace Rpc

open Library.Runs Library.SinceCalls Library.TextSearch

/-!
# Event subscriptions

Clients subscribe to three kinds of events by messages in which the server looks for words.  The server
keeps a set of connections for each kind and sends every event to the connections in its set.
Only a client that has subscribed gets an event, until it unsubscribes, closes its connection or the
server is stopped.  `SendMessage` is a stub that prints, so an event is sent where it is called.
-/

inductive SubscriptionType
  | newBlocks
  | newTransactions
  | validatorSetChanges
deriving DecidableEq

/-- A pointer. -/
abbrev ConnectionHandle := UInt64

/-- `std::set` in the order of the pointers. -/
abbrev ConnectionSet := Std.ExtTreeSet ConnectionHandle

structure NewBlockEvent where
  height : UInt64
  blockHash : List UInt8
  timestamp : UInt64
  proposer : List UInt8
  transactionCount : UInt64

structure NewTransactionEvent where
  txHash : List UInt8
  sender : List UInt8
  recipient : List UInt8
  amount : UInt64
  fee : UInt64

structure ValidatorSetChangeEvent where
  epoch : UInt64
  validatorCount : UInt64
  totalStake : UInt64
  addedValidators : List (List UInt8)
  removedValidators : List (List UInt8)

structure Subscriptions where
  newBlocks : ConnectionSet
  newTransactions : ConnectionSet
  validatorSetChanges : ConnectionSet

namespace Subscriptions

def ofType (subscriptions : Subscriptions) : SubscriptionType -> ConnectionSet
  | .newBlocks => subscriptions.newBlocks
  | .newTransactions => subscriptions.newTransactions
  | .validatorSetChanges => subscriptions.validatorSetChanges

/-- The set of one type is replaced. -/
def modify (subscriptions : Subscriptions) (type : SubscriptionType) (change : ConnectionSet -> ConnectionSet) :
    Subscriptions :=
  match type with
  | .newBlocks => { subscriptions with newBlocks := change subscriptions.newBlocks }
  | .newTransactions => { subscriptions with newTransactions := change subscriptions.newTransactions }
  | .validatorSetChanges => { subscriptions with validatorSetChanges := change subscriptions.validatorSetChanges }

def empty : Subscriptions := ⟨∅, ∅, ∅⟩

theorem ofType_modify (subscriptions : Subscriptions) (type other : SubscriptionType)
    (change : ConnectionSet -> ConnectionSet) : (subscriptions.modify type change).ofType other =
      if other = type then change (subscriptions.ofType type) else subscriptions.ofType other := by
  cases type with
  | newBlocks => cases other <;> rfl
  | newTransactions => cases other <;> rfl
  | validatorSetChanges => cases other <;> rfl

end Subscriptions

/-- A message to a client. -/
structure Sent where
  conn : ConnectionHandle
  message : List UInt8
deriving DecidableEq

structure WebSocketServer where
  running : Bool
  address : List UInt8
  subscriptions : Subscriptions

/-! ## The texts of the server -/

def quoted (text : List UInt8) : List UInt8 := bytesOf "\"" ++ text ++ bytesOf "\""

def number (value : UInt64) : List UInt8 := decimal value.toNat

def serializeNewBlockEvent (event : NewBlockEvent) : List UInt8 :=
  bytesOf "\x7b\"type\":\"new_block\",\"height\":" ++ number event.height ++ bytesOf ",\"block_hash\":" ++
    quoted event.blockHash ++ bytesOf ",\"timestamp\":" ++ number event.timestamp ++ bytesOf ",\"proposer\":" ++
    quoted event.proposer ++ bytesOf ",\"transaction_count\":" ++ number event.transactionCount ++ bytesOf "\x7d"

def serializeNewTransactionEvent (event : NewTransactionEvent) : List UInt8 :=
  bytesOf "\x7b\"type\":\"new_transaction\",\"tx_hash\":" ++ quoted event.txHash ++ bytesOf ",\"from\":" ++
    quoted event.sender ++ bytesOf ",\"to\":" ++ quoted event.recipient ++ bytesOf ",\"amount\":" ++
    number event.amount ++ bytesOf ",\"fee\":" ++ number event.fee ++ bytesOf "\x7d"

/-- The loop over the identifiers, with commas between them. -/
def quotedList : List (List UInt8) -> List UInt8
  | [] => []
  | first :: rest => quoted first ++ rest.flatMap fun text => bytesOf "," ++ quoted text

def serializeValidatorSetChangeEvent (event : ValidatorSetChangeEvent) : List UInt8 :=
  bytesOf "\x7b\"type\":\"validator_set_change\",\"epoch\":" ++ number event.epoch ++
    bytesOf ",\"validator_count\":" ++ number event.validatorCount ++ bytesOf ",\"total_stake\":" ++
    number event.totalStake ++ bytesOf ",\"added_validators\":[" ++ quotedList event.addedValidators ++
    bytesOf "],\"removed_validators\":[" ++ quotedList event.removedValidators ++ bytesOf "]\x7d"

/-- The raw string of the source, with its line breaks. -/
def welcomeMessage : List UInt8 :=
  bytesOf "\x7b\n        \"type\": \"welcome\",\n        \"message\": \"Connected to Sarafu WebSocket API\",\n" ++
    bytesOf ("        \"subscriptions\": [\"new_blocks\", \"new_transactions\", \"validator_set_changes\"]\n" ++
      "    \x7d")

def errorMessage (text : String) : List UInt8 :=
  bytesOf "\x7b\"type\": \"error\", \"message\": \"" ++ bytesOf text ++ bytesOf "\"\x7d"

/-- The answer repeats the request as it is. -/
def responseMessage (type : String) (message : List UInt8) : List UInt8 :=
  bytesOf "\x7b\"type\": \"" ++ bytesOf type ++ bytesOf "\", \"subscription\": \"" ++ message ++ bytesOf "\"\x7d"

/-! ## The calls -/

/-- A word in quotation marks is somewhere in the message. -/
def mentions (message : List UInt8) (word : String) : Bool := (find (quoted (bytesOf word)) message).isSome

/-- The first of the three names that the message mentions. -/
def requestedType (message : List UInt8) : Option SubscriptionType :=
  if mentions message "new_blocks" then some .newBlocks
  else if mentions message "new_transactions" then some .newTransactions
  else if mentions message "validator_set_changes" then some .validatorSetChanges
  else none

namespace WebSocketServer

def create : WebSocketServer := ⟨false, [], Subscriptions.empty⟩

def start (server : WebSocketServer) (address : List UInt8) : WebSocketServer :=
  { server with running := true, address := address }

/-- A server that is not running keeps its subscriptions. -/
def stop (server : WebSocketServer) : WebSocketServer :=
  if server.running then { server with running := false, subscriptions := Subscriptions.empty } else server

def subscribe (server : WebSocketServer) (conn : ConnectionHandle) (type : SubscriptionType) : WebSocketServer :=
  { server with subscriptions := server.subscriptions.modify type fun set => set.insert conn }

def unsubscribe (server : WebSocketServer) (conn : ConnectionHandle) (type : SubscriptionType) : WebSocketServer :=
  { server with subscriptions := server.subscriptions.modify type fun set => set.erase conn }

def onClose (server : WebSocketServer) (conn : ConnectionHandle) : WebSocketServer :=
  { server with subscriptions :=
      ⟨server.subscriptions.newBlocks.erase conn, server.subscriptions.newTransactions.erase conn,
        server.subscriptions.validatorSetChanges.erase conn⟩ }

def handleSubscribeMessage (server : WebSocketServer) (conn : ConnectionHandle) (message : List UInt8) :
    List Sent × WebSocketServer :=
  match requestedType message with
  | none => ([⟨conn, errorMessage "Invalid subscription type"⟩], server)
  | some type => ([⟨conn, responseMessage "subscribed" message⟩], server.subscribe conn type)

def handleUnsubscribeMessage (server : WebSocketServer) (conn : ConnectionHandle) (message : List UInt8) :
    List Sent × WebSocketServer :=
  match requestedType message with
  | none => ([⟨conn, errorMessage "Invalid subscription type"⟩], server)
  | some type => ([⟨conn, responseMessage "unsubscribed" message⟩], server.unsubscribe conn type)

def onMessage (server : WebSocketServer) (conn : ConnectionHandle) (message : List UInt8) :
    List Sent × WebSocketServer :=
  if mentions message "subscribe" then server.handleSubscribeMessage conn message
  else if mentions message "unsubscribe" then server.handleUnsubscribeMessage conn message
  else ([⟨conn, errorMessage "Unknown action"⟩], server)

def broadcastToSubscribers (server : WebSocketServer) (type : SubscriptionType) (message : List UInt8) : List Sent :=
  (server.subscriptions.ofType type).toList.map fun conn => ⟨conn, message⟩

def broadcastNewBlock (server : WebSocketServer) (event : NewBlockEvent) : List Sent :=
  server.broadcastToSubscribers .newBlocks (serializeNewBlockEvent event)

def broadcastNewTransaction (server : WebSocketServer) (event : NewTransactionEvent) : List Sent :=
  server.broadcastToSubscribers .newTransactions (serializeNewTransactionEvent event)

def broadcastValidatorSetChange (server : WebSocketServer) (event : ValidatorSetChangeEvent) : List Sent :=
  server.broadcastToSubscribers .validatorSetChanges (serializeValidatorSetChangeEvent event)

/-- The connections with a subscription, each counted once. -/
def getConnectionCount (server : WebSocketServer) : Nat :=
  (server.subscriptions.newBlocks ∪ server.subscriptions.newTransactions ∪
    server.subscriptions.validatorSetChanges).size

end WebSocketServer

inductive WebSocketCall
  | start (address : List UInt8)
  | stop
  | subscribe (conn : ConnectionHandle) (type : SubscriptionType)
  | unsubscribe (conn : ConnectionHandle) (type : SubscriptionType)
  | onOpen (conn : ConnectionHandle)
  | onClose (conn : ConnectionHandle)
  | onMessage (conn : ConnectionHandle) (message : List UInt8)
  | broadcastNewBlock (event : NewBlockEvent)
  | broadcastNewTransaction (event : NewTransactionEvent)
  | broadcastValidatorSetChange (event : ValidatorSetChangeEvent)

/-- What a message asks for: to begin or to end a subscription. -/
def request (message : List UInt8) : Option (Bool × SubscriptionType) :=
  if mentions message "subscribe" then (requestedType message).map fun type => (true, type)
  else if mentions message "unsubscribe" then (requestedType message).map fun type => (false, type)
  else none

namespace WebSocketServer

/-- The messages that are sent, and the server after the call. -/
def perform (server : WebSocketServer) : WebSocketCall -> List Sent × WebSocketServer
  | .start address => ([], server.start address)
  | .stop => ([], server.stop)
  | .subscribe conn type => ([], server.subscribe conn type)
  | .unsubscribe conn type => ([], server.unsubscribe conn type)
  | .onOpen conn => ([⟨conn, welcomeMessage⟩], server)
  | .onClose conn => ([], server.onClose conn)
  | .onMessage conn message => server.onMessage conn message
  | .broadcastNewBlock event => (server.broadcastNewBlock event, server)
  | .broadcastNewTransaction event => (server.broadcastNewTransaction event, server)
  | .broadcastValidatorSetChange event => (server.broadcastValidatorSetChange event, server)

def call (server : WebSocketServer) (step : WebSocketCall) : WebSocketServer := (server.perform step).2

/-- The connection is in the set of the type. -/
def IsSubscribed (conn : ConnectionHandle) (type : SubscriptionType) (server : WebSocketServer) : Prop :=
  conn ∈ server.subscriptions.ofType type

/-- The call subscribes the connection. -/
def Begins (conn : ConnectionHandle) (type : SubscriptionType) (_ : WebSocketServer) : WebSocketCall -> Prop
  | .subscribe other wanted => other = conn ∧ wanted = type
  | .onMessage other message => other = conn ∧ request message = some (true, type)
  | _ => False

/-- The call unsubscribes the connection, closes it or stops a running server. -/
def Ends (conn : ConnectionHandle) (type : SubscriptionType) (server : WebSocketServer) : WebSocketCall -> Prop
  | .unsubscribe other wanted => other = conn ∧ wanted = type
  | .onMessage other message => other = conn ∧ request message = some (false, type)
  | .onClose other => other = conn
  | .stop => server.running = true
  | _ => False

variable {server : WebSocketServer} {conn other : ConnectionHandle} {type wanted : SubscriptionType}

/-! ## One call -/

theorem isSubscribed_subscribe : IsSubscribed conn type (server.subscribe other wanted) <->
    (other = conn ∧ wanted = type) ∨ IsSubscribed conn type server := by
  unfold IsSubscribed subscribe
  rw [Subscriptions.ofType_modify]
  split
  · rename_i same
    rw [Std.ExtTreeSet.mem_insert, Std.LawfulEqCmp.compare_eq_iff_eq, same]
    simp
  · rename_i different
    simp [Ne.symm different]

theorem isSubscribed_unsubscribe : IsSubscribed conn type (server.unsubscribe other wanted) <->
    IsSubscribed conn type server ∧ ¬ (other = conn ∧ wanted = type) := by
  unfold IsSubscribed unsubscribe
  rw [Subscriptions.ofType_modify]
  split
  · rename_i same
    rw [Std.ExtTreeSet.mem_erase, same, Ne, Std.LawfulEqCmp.compare_eq_iff_eq]
    simp [and_comm]
  · rename_i different
    simp [Ne.symm different]

theorem isSubscribed_onClose : IsSubscribed conn type (server.onClose other) <->
    IsSubscribed conn type server ∧ ¬ other = conn := by
  unfold IsSubscribed onClose
  cases type with
  | newBlocks => simp [Subscriptions.ofType, Std.ExtTreeSet.mem_erase, and_comm]
  | newTransactions => simp [Subscriptions.ofType, Std.ExtTreeSet.mem_erase, and_comm]
  | validatorSetChanges => simp [Subscriptions.ofType, Std.ExtTreeSet.mem_erase, and_comm]

theorem not_isSubscribed_empty (conn : ConnectionHandle) (type : SubscriptionType) :
    conn ∉ Subscriptions.empty.ofType type := by
  cases type with
  | newBlocks => exact Std.ExtTreeSet.not_mem_empty
  | newTransactions => exact Std.ExtTreeSet.not_mem_empty
  | validatorSetChanges => exact Std.ExtTreeSet.not_mem_empty

theorem isSubscribed_onMessage (message : List UInt8) : IsSubscribed conn type (server.onMessage other message).2 <->
    (other = conn ∧ request message = some (true, type)) ∨
      (IsSubscribed conn type server ∧ ¬ (other = conn ∧ request message = some (false, type))) := by
  unfold onMessage request
  split
  · unfold handleSubscribeMessage
    cases requestedType message with
    | none => simp
    | some found => simp [isSubscribed_subscribe]
  · split
    · unfold handleUnsubscribeMessage
      cases requestedType message with
      | none => simp
      | some found => simp [isSubscribed_unsubscribe]
    · simp

/-- The step lemma: what a call does to a subscription. -/
theorem isSubscribed_call (server : WebSocketServer) (step : WebSocketCall) :
    IsSubscribed conn type (server.call step) <->
      Begins conn type server step ∨ (IsSubscribed conn type server ∧ ¬ Ends conn type server step) := by
  cases step with
  | start address => simp [call, perform, start, IsSubscribed, Begins, Ends]
  | stop =>
      unfold call perform stop
      simp only [Begins, Ends, false_or]
      split
      · rename_i running
        simp [running, IsSubscribed, not_isSubscribed_empty]
      · rename_i stopped
        simp [stopped]
  | subscribe other wanted => simp [call, perform, isSubscribed_subscribe, Begins, Ends]
  | unsubscribe other wanted => simp [call, perform, isSubscribed_unsubscribe, Begins, Ends]
  | onOpen other => simp [call, perform, Begins, Ends]
  | onClose other => simp [call, perform, isSubscribed_onClose, Begins, Ends]
  | onMessage other message => exact isSubscribed_onMessage message
  | broadcastNewBlock event => simp [call, perform, Begins, Ends]
  | broadcastNewTransaction event => simp [call, perform, Begins, Ends]
  | broadcastValidatorSetChange event => simp [call, perform, Begins, Ends]

/-! ## Runs -/

theorem isSubscribed_run_iff (calls : List WebSocketCall) :
    IsSubscribed conn type (run call create calls) <->
      Since call (Begins conn type) (Ends conn type) create calls := by
  have initially : ¬ IsSubscribed conn type create := not_isSubscribed_empty conn type
  exact holds_run_iff (IsSubscribed conn type) isSubscribed_call initially calls

theorem nodup_toList (set : ConnectionSet) : set.toList.Nodup := by
  refine set.distinct_toList.imp ?_
  rintro left right different rfl
  exact different Std.ReflCmp.compare_self

/-- The connections that are counted are those in one of the sets. -/
theorem mem_union_iff (server : WebSocketServer) (conn : ConnectionHandle) :
    conn ∈ server.subscriptions.newBlocks ∪ server.subscriptions.newTransactions ∪
      server.subscriptions.validatorSetChanges <-> ∃ type, IsSubscribed conn type server := by
  rw [Std.ExtTreeSet.mem_union_iff, Std.ExtTreeSet.mem_union_iff]
  constructor
  · rintro ((blocks | transactions) | changes)
    · exact ⟨.newBlocks, blocks⟩
    · exact ⟨.newTransactions, transactions⟩
    · exact ⟨.validatorSetChanges, changes⟩
  · rintro ⟨type, subscribed⟩
    cases type with
    | newBlocks => exact Or.inl (Or.inl subscribed)
    | newTransactions => exact Or.inl (Or.inr subscribed)
    | validatorSetChanges => exact Or.inr subscribed

/-- In every run, an event is sent once to each connection that has subscribed to its kind and has since neither
unsubscribed nor been closed, nor been dropped by a stop of the running server; and to no
other.  The connections that are counted are those with such a subscription of any kind. -/
theorem events_reach_subscribers (calls : List WebSocketCall) :
    let server := run call create calls
    (forall type message sent, sent ∈ server.broadcastToSubscribers type message <->
      sent.message = message ∧ Since call (Begins sent.conn type) (Ends sent.conn type) create calls) ∧
    (forall type message, (server.broadcastToSubscribers type message).Nodup) ∧
    ∃ counted : Finset ConnectionHandle, server.getConnectionCount = counted.card ∧
      forall conn, conn ∈ counted <-> ∃ type, Since call (Begins conn type) (Ends conn type) create calls := by
  intro server
  refine ⟨?_, ?_, ?_⟩
  · rintro type message ⟨conn, text⟩
    rw [← isSubscribed_run_iff, broadcastToSubscribers, List.mem_map]
    constructor
    · rintro ⟨listed, member, same⟩
      cases same
      exact ⟨rfl, Std.ExtTreeSet.mem_toList.mp member⟩
    · rintro ⟨rfl, subscribed⟩
      exact ⟨conn, Std.ExtTreeSet.mem_toList.mpr subscribed, rfl⟩
  · intro type message
    refine List.Nodup.map ?_ (nodup_toList _)
    intro left right same
    exact congrArg Sent.conn same
  · let union := server.subscriptions.newBlocks ∪ server.subscriptions.newTransactions ∪
      server.subscriptions.validatorSetChanges
    refine ⟨union.toList.toFinset, ?_, ?_⟩
    · rw [List.toFinset_card_of_nodup (nodup_toList union), Std.ExtTreeSet.length_toList]
      rfl
    · intro conn
      rw [List.mem_toFinset, Std.ExtTreeSet.mem_toList, mem_union_iff]
      exact exists_congr fun type => isSubscribed_run_iff calls

/-- A request for blocks in the documented form, and one that names both actions. -/
example : request (bytesOf "\x7b\"action\": \"subscribe\", \"type\": \"new_blocks\"\x7d") =
      some (true, .newBlocks) ∧
    request (bytesOf "\x7b\"action\": \"unsubscribe\", \"was\": \"subscribe\", \"type\": \"new_blocks\"\x7d") =
      some (true, .newBlocks) := by decide +kernel

end WebSocketServer
end Rpc
end Sarafu

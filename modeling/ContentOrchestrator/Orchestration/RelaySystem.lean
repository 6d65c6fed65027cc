import ContentOrchestrator.Lib.Delivery
import ContentOrchestrator.Lib.Transition
import ContentOrchestrator.Orchestration.Relay

/-! # The relay as a system

Events are emitted, and a relay pass or the request that emitted an event delivers it to the
registered consumers. Which handlers succeed is an input of each delivery; what a handler
emits is an emission of its own. The state keeps the calls that were committed beside the
database. -/

namespace ContentOrchestrator

open Lib Lib.Delivery

/-- `_REGISTRY`: each consumer's name with the event types it has a handler for. -/
structure Subscriptions where
  entries : List (String × List String)
  unique : (entries.map Prod.fst).Nodup

/-- How the handlers of one delivery end: with an error, or normally. -/
abbrev Reaction := String → Option OrchestrationError

/-- The handler of a consumer that reacts so. -/
def Reaction.handler (reaction : Reaction) (name : String) : Handler := fun _ =>
  match reaction name with
  | none => pure ()
  | some error => throw error

def Reaction.succeeds (reaction : Reaction) (name : String) : Bool := (reaction name).isNone

/-- The consumer's handler ends the transaction. -/
def Reaction.aborts (reaction : Reaction) (name : String) : Bool :=
  (reaction name).any (·.abortsTransaction)

def Reaction.consumer (reaction : Reaction) (entry : String × List String) : Consumer where
  name := entry.1
  handlers := entry.2.map fun eventType => (eventType, reaction.handler entry.1)

def Subscriptions.registry (subs : Subscriptions) (reaction : Reaction) : List Consumer :=
  subs.entries.map reaction.consumer

/-- The pending events of one pass, oldest first; rows locked by another relay are skipped. -/
def pendingEvents (db : Db) (batchSize : Nat) (lockedEvents : List Nat) : List OutboxEvent :=
  (((db.outbox.select (·.status == .pending)).insertionSort fun a b =>
      a.occurredAt ≤ b.occurredAt).filter fun e => !lockedEvents.contains e.id).take batchSize

def dispatchEach (subs : Subscriptions) (reactions : Nat → Reaction) : List Nat → Session Unit
  | [] => return
  | eventId :: rest => do
    dispatchOne (subs.registry (reactions eventId)) eventId
    dispatchEach subs reactions rest

/-- **One relay tick.** -/
def pollAndDispatch (subs : Subscriptions) (batchSize : Nat) (lockedEvents : List Nat)
    (reactions : Nat → Reaction) : Session Nat := do
  let events := pendingEvents (← get) batchSize lockedEvents
  dispatchEach subs reactions (events.map (·.id))
  return events.length

/-- The database, and the calls of handlers that were committed. -/
structure RelayState where
  db : Db
  calls : List (Attempt String)

/-- The consumer's row. -/
def consumerNamed (db : Db) (name : String) : Option EventConsumer :=
  (db.consumers.select fun c => c.name == name).head?

def checkpointFor (db : Db) (consumerId : Nat) (aggregate : Aggregate) :
    Option ConsumerCheckpoint :=
  (db.checkpoints.select fun c => c.consumerId == consumerId && c.aggregate == aggregate).head?

/-- How far the consumer has come in the aggregate's events. -/
def lastSequence (db : Db) (name : String) (aggregate : Aggregate) : Nat :=
  match consumerNamed db name with
  | none => 0
  | some consumer => (checkpointFor db consumer.id aggregate).elim 0 (·.lastSequence)

def maxDeliveryAttempts (db : Db) (name : String) : Nat :=
  (consumerNamed db name).elim 10 (·.maxDeliveryAttempts)

/-- The consumer has a handler for the event and its checkpoint has not passed it. -/
def OutboxEvent.isFor (db : Db) (event : OutboxEvent) (entry : String × List String) : Bool :=
  entry.2.contains event.eventType &&
    decide (lastSequence db entry.1 event.aggregate < event.sequence)

/-- The calls one delivery makes. -/
def callsOf (subs : Subscriptions) (reaction : Reaction) (event : OutboxEvent) (db : Db) :
    List (Attempt String) :=
  (subs.entries.filter (event.isFor db)).map fun entry =>
    ⟨entry.1, event.id, reaction.succeeds entry.1⟩

/-- A handler the delivery calls ends the transaction. -/
def isAborted (subs : Subscriptions) (reaction : Reaction) (event : OutboxEvent) (db : Db) : Bool :=
  subs.entries.any fun entry => event.isFor db entry && reaction.aborts entry.1

inductive RelayOp
  /-- `emit`, by a process whose clock reads `occurredAt`. -/
  | emit (occurredAt : Nat) (eventType : String) (workspaceId : Nat) (aggregate : Aggregate)
      (reviewGateId : Option Nat)
  /-- `dispatch_one`, by a relay pass or by the request that emitted the event. -/
  | dispatch (eventId : Nat) (reaction : Reaction)

/-- **A step of the relay.** Only pending events are delivered, and an aborted delivery leaves
nothing. -/
def relayStep (subs : Subscriptions) (s : RelayState) : RelayOp → RelayState
  | .emit occurredAt eventType workspaceId aggregate gate =>
    { s with db := emit eventType workspaceId aggregate gate { s.db with now := occurredAt } }
  | .dispatch eventId reaction =>
    match s.db.outbox.get? eventId with
    | none => s
    | some event =>
      if event.status = .pending then
        match (dispatchOne (subs.registry reaction) eventId).run s.db with
        | .ok _ db => ⟨db, s.calls ++ callsOf subs reaction event s.db⟩
        | .error _ _ => s
      else s

/-- A database the relay has not worked on. -/
structure IsFreshRelay (s : RelayState) : Prop where
  outbox : s.db.outbox = ∅
  checkpoints : s.db.checkpoints = ∅
  deadLetters : s.db.deadLetters = ∅
  calls : s.calls = []

end ContentOrchestrator

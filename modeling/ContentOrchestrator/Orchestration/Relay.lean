import ContentOrchestrator.Orchestration.Controller

/-! # Outbox relay and the review consumers

An event is delivered to each registered consumer whose checkpoint has not passed
it. A handler that raises is recorded as a failed attempt and the delivery goes on,
with whatever the handler had already changed; only an error of the database itself
ends the transaction. -/

namespace ContentOrchestrator

open Lib

abbrev Handler := OutboxEvent → Session Unit

/-- The handlers of one consumer, by event type. -/
structure Consumer where
  name : String
  handlers : List (String × Handler)

def getOrCreateConsumer (name : String) : Session EventConsumer := do
  let db ← get
  match (db.consumers.select fun c => c.name == name).head? with
  | some consumer => return consumer
  | none =>
    modify fun db =>
      { db with consumers := db.consumers.insert ⟨fun id => { id, name }, fun _ => rfl⟩ }
    return { id := db.consumers.next, name }

def getOrCreateCheckpoint (consumerId : Nat) (aggregate : Aggregate) :
    Session ConsumerCheckpoint := do
  let db ← get
  match (db.checkpoints.select fun c =>
      c.consumerId == consumerId && c.aggregate == aggregate).head? with
  | some checkpoint => return checkpoint
  | none =>
    modify fun db =>
      { db with
        checkpoints := db.checkpoints.insert ⟨fun id =>
          { id, consumerId, aggregate, lastSequence := 0 }, fun _ => rfl⟩ }
    return { id := db.checkpoints.next, consumerId, aggregate, lastSequence := 0 }

def advanceCheckpoint (checkpointId sequence : Nat) (db : Db) : Db :=
  { db with
    checkpoints := db.checkpoints.modify checkpointId
      ⟨fun c => { c with lastSequence := sequence }, fun _ => rfl⟩ }

def modifyEvent (eventId : Nat) (u : Update OutboxEvent) (db : Db) : Db :=
  { db with outbox := db.outbox.modify eventId u }

def OutboxEvent.failAttempt : Update OutboxEvent :=
  ⟨fun e => { e with deliveryAttempts := e.deliveryAttempts + 1 }, fun _ => rfl⟩

def OutboxEvent.setStatus (status : OutboxEventStatus) : Update OutboxEvent :=
  ⟨fun e => { e with status }, fun _ => rfl⟩

def loadEvent (eventId : Nat) : Session OutboxEvent := do
  require ((← get).outbox.get? eventId) (.valueError "outbox event not found")

/-- `str(exc)`. -/
def OrchestrationError.message : OrchestrationError → String
  | valueError m | typeError m | notImplemented m | runtimeError m => m
  | attributeError name => "object has no attribute " ++ name
  | keyError key => "'" ++ key ++ "'"
  | dataError text => "invalid input value: " ++ text
  | invalidOperation => "invalid operation"
  | integrityError constraint => "violates constraint " ++ constraint
  | leaseNotOwned => "assignment not owned by worker"
  | leaseConflict code => code
  | reviewGateNotFound => "review gate not found"
  | reviewGateDelivery => "review decision could not be applied"
  | spendBudgetExceeded => "workspace spend cap exceeded; pipeline run paused on spend_hold"
  | multipleResultsFound => "Multiple rows were found when one or none was required"

/-- A failed attempt; the event is poisoned once the consumer's attempts are used up.
The answer says whether the event stays pending. -/
def recordFailure (eventId : Nat) (consumer : EventConsumer) (error : OrchestrationError) :
    Session Bool := do
  modify (modifyEvent eventId OutboxEvent.failAttempt)
  let event ← loadEvent eventId
  if consumer.maxDeliveryAttempts ≤ event.deliveryAttempts then
    modify (modifyEvent eventId (OutboxEvent.setStatus .poison))
    modify (routeToDeadLetter event.workspaceId "outbox_events" (.event eventId)
      ("event_consumer:" ++ consumer.name) error.message event.deliveryAttempts)
    return false
  else
    return true

/-- Deliver to one consumer; the answer says whether it still has the event to take. -/
def deliverTo (eventId : Nat) (consumer : Consumer) : Session Bool := do
  let event ← loadEvent eventId
  match consumer.handlers.lookup event.eventType with
  | none => return false
  | some handler =>
    let row ← getOrCreateConsumer consumer.name
    let checkpoint ← getOrCreateCheckpoint row.id event.aggregate
    if event.sequence ≤ checkpoint.lastSequence then return false
    tryCatch
      (do
        handler event
        modify (advanceCheckpoint checkpoint.id event.sequence)
        return false)
      fun error => if error.abortsTransaction then throw error else recordFailure eventId row error

/-- Deliver to every consumer in turn. -/
def deliverAll (eventId : Nat) : List Consumer → Session Bool
  | [] => return false
  | consumer :: rest => do
    let pending ← deliverTo eventId consumer
    let later ← deliverAll eventId rest
    return pending || later

/-- **Deliver one event.** It is dispatched once no consumer has it still to take. -/
def dispatchOne (registry : List Consumer) (eventId : Nat) : Session Unit := do
  let anyPending ← deliverAll eventId registry
  let event ← loadEvent eventId
  if event.status ≠ .poison ∧ !anyPending then
    modify (modifyEvent eventId (OutboxEvent.setStatus .dispatched))

/-! ## Consumers -/

/-- A review verdict is applied to its gate, if the gate still exists. -/
def onReviewDecided (approved : Bool) : Handler := fun event => do
  let gateId ← require event.reviewGateId (.keyError "review_gate_id")
  match (← get).gates.get? gateId with
  | some gate => resumeFromReview gate approved
  | none => return

/-- `register_all`. -/
def registry : List Consumer :=
  [{ name := "pipeline-controller"
     handlers := [(EventType.reviewApproved, onReviewDecided true),
       (EventType.reviewRejected, onReviewDecided false)] }]

end ContentOrchestrator

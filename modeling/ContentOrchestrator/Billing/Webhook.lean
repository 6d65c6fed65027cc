import ContentOrchestrator.Billing.StripeEvents

/-! # The Stripe webhook

One delivery is one transaction: the receipt of the event is claimed first, inside a
savepoint that also holds the mutations it leads to. A constraint the database refuses
rolls the savepoint back and is answered as a duplicate; any other error leaves the
session without a commit. -/

namespace ContentOrchestrator

/-! ## Tables -/

structure WorkspaceBilling where
  workspaceId : Nat
  stripeCustomerId : Option String := none
  stripeSubscriptionId : Option String := none
  plan : String := "none"
  status : String := "inactive"
  currentPeriodEnd : Option Int := none
  cancelAtPeriodEnd : Bool := false
deriving DecidableEq, Repr

structure BillingWebhookEvent where
  stripeEventId : String
  eventType : String
  workspaceId : Option Nat
  payload : Json

structure BillingDb where
  /-- The workspaces there are: what the foreign keys refer to. -/
  workspaces : List Nat
  billing : List WorkspaceBilling := []
  receipts : List BillingWebhookEvent := []

def isEntitled (row : Option WorkspaceBilling) (billingEnabled : Bool) : Bool :=
  if billingEnabled then
    match row with
    | none => false
    | some row => row.plan == proPlan && activeStatuses.contains row.status
  else true

namespace BillingDb

/-- The row of a workspace, by its primary key. -/
def billingOf (db : BillingDb) (workspaceId : Nat) : Option WorkspaceBilling :=
  db.billing.find? (·.workspaceId == workspaceId)

def bySubscription (db : BillingDb) (subscriptionId : String) : Option WorkspaceBilling :=
  db.billing.find? (·.stripeSubscriptionId == some subscriptionId)

def byCustomer (db : BillingDb) (customerId : String) : Option WorkspaceBilling :=
  db.billing.find? (·.stripeCustomerId == some customerId)

def isReceived (db : BillingDb) (eventId : String) : Bool :=
  db.receipts.any (·.stripeEventId == eventId)

end BillingDb

/-! ## Constraints -/

def planNames : List String := ["none", "pro"]

def statusNames : List String :=
  ["inactive", "incomplete", "trialing", "active", "past_due", "canceled", "unpaid"]

/-- The constraint that refuses a row, if one does. -/
def refusal (db : BillingDb) (row : WorkspaceBilling) : Option String :=
  let others := db.billing.filter (·.workspaceId != row.workspaceId)
  if !db.workspaces.contains row.workspaceId then some "workspace_billing_workspace_id_fkey"
  else if !planNames.contains row.plan then some "workspace_billing_plan_chk"
  else if !statusNames.contains row.status then some "workspace_billing_status_chk"
  else if row.stripeCustomerId.isSome &&
    others.any (·.stripeCustomerId == row.stripeCustomerId) then
    some "workspace_billing_stripe_customer_id_key"
  else if row.stripeSubscriptionId.isSome &&
    others.any (·.stripeSubscriptionId == row.stripeSubscriptionId) then
    some "workspace_billing_stripe_subscription_id_key"
  else none

def BillingDb.setBilling (db : BillingDb) (row : WorkspaceBilling) : BillingDb :=
  { db with billing := db.billing.map fun b => if b.workspaceId = row.workspaceId then row else b }

/-- The flush of a changed row. -/
def flushBilling (db : BillingDb) (row : WorkspaceBilling) : Except BillingFailure BillingDb :=
  match refusal db row with
  | some constraint => throw (.integrityError constraint)
  | none => return db.setBilling row

/-- The flush of a new receipt. -/
def insertReceipt (db : BillingDb) (receipt : BillingWebhookEvent) :
    Except BillingFailure BillingDb := do
  if db.isReceived receipt.stripeEventId then
    throw (.integrityError "billing_webhook_events_stripe_event_id_key")
  if let some workspaceId := receipt.workspaceId then
    unless db.workspaces.contains workspaceId do
      throw (.integrityError "billing_webhook_events_workspace_id_fkey")
  return { db with receipts := db.receipts ++ [receipt] }

/-! ## The service -/

def ensureWorkspaceBilling (db : BillingDb) (workspaceId : Nat) :
    Except BillingFailure (WorkspaceBilling × BillingDb) :=
  match db.billingOf workspaceId with
  | some row => return (row, db)
  | none => do
    let row : WorkspaceBilling := { workspaceId }
    match refusal db row with
    | some constraint => throw (.integrityError constraint)
    | none => return (row, { db with billing := db.billing ++ [row] })

/-- The receipts that count for the order of a workspace's events. -/
def BillingWebhookEvent.countsFor (workspaceId : Nat) (excludeEventId : String)
    (r : BillingWebhookEvent) : Bool :=
  r.workspaceId == some workspaceId && r.stripeEventId != excludeEventId &&
    (StripeEventType.ofName r.eventType).bearsEntitlement

/-- The `created` of a payload, if it is an integer. -/
def createdOf (payload : Json) : Option Int := (payload.get "created").int?

def latestAppliedEventCreated (db : BillingDb) (workspaceId : Nat) (excludeEventId : String) :
    Option Int :=
  ((db.receipts.filter (·.countsFor workspaceId excludeEventId)).filterMap
    (createdOf ·.payload)).max?

/-- Strictly older than what is recorded, or as old and granting. -/
def isSuperseded (latest created : Option Int) (granting : Bool) : Bool :=
  match created, latest with
  | some c, some l => decide (c < l) || (decide (c = l) && granting)
  | _, _ => false

/-- `subscription.get("id") or billing.stripe_subscription_id`. -/
def WorkspaceBilling.linkedSubscription (row : WorkspaceBilling) (id : Json) :
    Except BillingFailure (Option String) :=
  if id.truthy then some <$> id.boundText else return row.stripeSubscriptionId

/-- The customer, given as its id or as an object. -/
def WorkspaceBilling.linkedCustomer (row : WorkspaceBilling) (customer : Json) :
    Except BillingFailure (Option String) := do
  match customer with
  | .str customerId => return some customerId
  | .obj _ =>
    let id ← customer.dictGet "id"
    if id.truthy then some <$> id.boundText else return row.stripeCustomerId
  | _ => return row.stripeCustomerId

/-- A lapsed plan keeps its marker; only a cancellation takes it. -/
def WorkspaceBilling.planUnder (row : WorkspaceBilling) (status : String) : String :=
  if activeStatuses.contains status then proPlan
  else if status = "canceled" then "none"
  else if ["past_due", "unpaid", "incomplete"].contains status then proPlan
  else row.plan

/-- The row as the subscription describes it. -/
def WorkspaceBilling.mirror (row : WorkspaceBilling) (subscription : Json) (status : String) :
    Except BillingFailure WorkspaceBilling := do
  let stripeSubscriptionId ← row.linkedSubscription (← subscription.dictGet "id")
  let stripeCustomerId ← row.linkedCustomer (← subscription.dictGet "customer")
  let currentPeriodEnd ← periodEndFromSubscription subscription
  let cancelAtPeriodEnd := (← subscription.dictGet "cancel_at_period_end").truthy
  return { row with
    stripeSubscriptionId, stripeCustomerId, plan := row.planUnder status, status, currentPeriodEnd,
      cancelAtPeriodEnd }

def applySubscription (db : BillingDb) (workspaceId : Nat) (subscription : Json) (eventId : String)
    (eventCreated : Option Int) : Except BillingFailure BillingDb := do
  let (billing, db) ← ensureWorkspaceBilling db workspaceId
  let status ← subscriptionStatus subscription
  let latest := latestAppliedEventCreated db workspaceId eventId
  if isSuperseded latest eventCreated (activeStatuses.contains status) then return db
  flushBilling db (← billing.mirror subscription status)

/-- Linkage only. -/
def linkCheckout (db : BillingDb) (workspaceId : Nat) (checkout : Json) :
    Except BillingFailure BillingDb := do
  let subscriptionId ← checkout.dictGet "subscription"
  let customerId ← checkout.dictGet "customer"
  let (billing, db) ← ensureWorkspaceBilling db workspaceId
  flushBilling db { billing with
    stripeCustomerId := customerId.text?.or billing.stripeCustomerId
    stripeSubscriptionId := subscriptionId.text?.or billing.stripeSubscriptionId }

/-- The workspace of a subscription event without metadata: by the subscription, else by the
customer. -/
def workspaceOfSubscription (db : BillingDb) (subscription : Json) :
    Except BillingFailure (Option Nat) := do
  let id ← subscription.dictGet "id"
  let customer ← subscription.dictGet "customer"
  let row := (id.text?.bind db.bySubscription).or (customer.text?.bind db.byCustomer)
  return row.map (·.workspaceId)

/-- A failed payment of the subscription a workspace is linked to. -/
def failPayment (db : BillingDb) (workspaceId : Nat) (eventId : String) (created : Option Int) :
    Except BillingFailure BillingDb := do
  let (row, db) ← ensureWorkspaceBilling db workspaceId
  let latest := latestAppliedEventCreated db workspaceId eventId
  if isSuperseded latest created false then return db
  flushBilling db { row with status := "past_due" }

/-- What an event leads to, and the workspace it is about. -/
def applyEvent (db : BillingDb) (eventId eventType : String) (created : Option Int) (obj : Json)
    (workspaceId : Option Nat) : Except BillingFailure (BillingDb × Option Nat) := do
  match StripeEventType.ofName eventType with
  | .checkoutCompleted =>
    match workspaceId with
    | none => throw (.billing "missing_workspace" "checkout session missing workspace_id")
    | some id => return (← linkCheckout db id obj, some id)
  | .subscription =>
    let found ← match workspaceId with
      | some id => pure (some id)
      | none => workspaceOfSubscription db obj
    match found with
    | none =>
      throw (.billing "unknown_subscription"
        "subscription event could not be mapped to a workspace")
    | some id => return (← applySubscription db id obj eventId created, some id)
  | .paymentFailed =>
    let subscription ← obj.dictGet "subscription"
    match subscription.text?.bind db.bySubscription with
    | none => return (db, workspaceId)
    | some row => return (← failPayment db row.workspaceId eventId created, some row.workspaceId)
  | .ignored => return (db, workspaceId)

/-- The workspace found is put on a receipt that has none. -/
def linkReceipt (db : BillingDb) (eventId : String) (workspaceId : Option Nat) : BillingDb :=
  { db with
    receipts := db.receipts.map fun r =>
      if r.stripeEventId = eventId then { r with workspaceId := r.workspaceId.or workspaceId }
        else r }

inductive BillingAnswer
  | processed (workspaceId : Option Nat)
  | duplicate
deriving DecidableEq, Repr

/-- The body of the savepoint. -/
def claimAndApply (db : BillingDb) (event : Json) (eventId eventType : String) (obj : Json)
    (workspaceId : Option Nat) : Except BillingFailure (BillingDb × Option Nat) := do
  let db ← insertReceipt db { stripeEventId := eventId, eventType, workspaceId, payload := event }
  let (db, workspaceId) ← applyEvent db eventId eventType (createdOf event) obj workspaceId
  return (linkReceipt db eventId workspaceId, workspaceId)

def processStripeEvent (db : BillingDb) (event : Json) :
    Except BillingFailure (BillingAnswer × BillingDb) := do
  let eventId ← event.dictGet "id"
  let eventType ← event.dictGet "type"
  unless eventId.truthy && eventType.truthy do
    throw (.billing "invalid_event" "Stripe event missing id or type")
  let eventId ← eventId.boundText
  if db.isReceived eventId then return (.duplicate, db)
  let data ← event.dictGet "data"
  let obj := (← (data.orElse (.obj [])).dictGet "object").orElse (.obj [])
  let workspaceId ← workspaceIdFromMetadata obj
  let eventType ← eventType.boundText
  match claimAndApply db event eventId eventType obj workspaceId with
  | .ok (db', found) => return (.processed found, db')
  | .error failure => if failure.isIntegrity then return (.duplicate, db) else throw failure

/-- The webhook: a delivery that raises is not committed. -/
def deliverEvent (db : BillingDb) (event : Json) : BillingDb :=
  match processStripeEvent db event with
  | .ok (_, db') => db'
  | .error _ => db

end ContentOrchestrator

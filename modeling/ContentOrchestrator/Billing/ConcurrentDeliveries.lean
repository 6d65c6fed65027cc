import ContentOrchestrator.Billing.Deliveries
import ContentOrchestrator.Lib.Interleaving

/-! # Deliveries side by side

A delivery runs statement by statement over what is committed. The receipt, a new row
and the changed values of the unique columns are held until the commit; the billing row
is locked where it is read for update, or where it is written. A row read before it is
locked keeps the columns it was read with, and only columns that are set to another
value are written. -/

namespace ContentOrchestrator

open Lib

/-- What the commit of a delivery came to: for which workspace, and whether the event's effect was
written. -/
structure BillingEffect where
  eventId : String
  workspaceId : Nat
  applied : Bool
deriving DecidableEq, Repr

/-- The committed tables, and, beside them, what the commits came to. -/
structure BillingStore where
  db : BillingDb
  effects : List BillingEffect

inductive BillingLock
  | receipt (eventId : String)
  | row (workspaceId : Nat)
  | customer (customerId : String)
  | subscription (subscriptionId : String)
deriving DecidableEq, Repr

/-- What the handler has read of a payload. -/
structure ReadEvent where
  payload : Json
  id : String
  eventType : String
  obj : Json
  workspaceId : Option Nat
deriving DecidableEq

/-- The row as it was loaded and as it is written; a new row is loaded as it was inserted. -/
structure BillingWrite where
  workspaceId : Nat
  loaded : WorkspaceBilling
  row : WorkspaceBilling
deriving DecidableEq, Repr

/-- The statement of a delivery that comes next, or its end. -/
inductive Delivery
  | lookup (payload : Json)
  | claim (e : ReadEvent)
  | branch (e : ReadEvent)
  | byCustomer (e : ReadEvent)
  | lockRow (e : ReadEvent) (workspaceId : Nat) (loaded : Option WorkspaceBilling)
  | insertRow (e : ReadEvent) (workspaceId : Nat)
  | decide (e : ReadEvent) (workspaceId : Nat) (loaded : WorkspaceBilling)
  | flush (e : ReadEvent) (w : BillingWrite)
  | processed (e : ReadEvent) (workspaceId : Option Nat) (write : Option BillingWrite)
  | duplicate (payload : Json)
  | failed (failure : BillingFailure)
deriving DecidableEq

/-! ## Statements -/

/-- The columns set to another value. -/
def BillingWrite.over (w : BillingWrite) (current : WorkspaceBilling) : WorkspaceBilling where
  workspaceId := current.workspaceId
  stripeCustomerId :=
    if w.row.stripeCustomerId = w.loaded.stripeCustomerId then current.stripeCustomerId
      else w.row.stripeCustomerId
  stripeSubscriptionId :=
    if w.row.stripeSubscriptionId = w.loaded.stripeSubscriptionId then current.stripeSubscriptionId
    else w.row.stripeSubscriptionId
  plan := if w.row.plan = w.loaded.plan then current.plan else w.row.plan
  status := if w.row.status = w.loaded.status then current.status else w.row.status
  currentPeriodEnd :=
    if w.row.currentPeriodEnd = w.loaded.currentPeriodEnd then current.currentPeriodEnd
      else w.row.currentPeriodEnd
  cancelAtPeriodEnd :=
    if w.row.cancelAtPeriodEnd = w.loaded.cancelAtPeriodEnd then current.cancelAtPeriodEnd
      else w.row.cancelAtPeriodEnd

/-- The entries of the unique indexes a write adds. -/
def BillingWrite.entries (w : BillingWrite) : List BillingLock :=
  (if w.row.stripeCustomerId = w.loaded.stripeCustomerId then []
    else (w.row.stripeCustomerId.map BillingLock.customer).toList) ++
  (if w.row.stripeSubscriptionId = w.loaded.stripeSubscriptionId then []
    else (w.row.stripeSubscriptionId.map BillingLock.subscription).toList)

/-- The row a workspace has, or the one the transaction inserts. -/
def BillingDb.rowOrNew (db : BillingDb) (workspaceId : Nat) : WorkspaceBilling :=
  (db.billingOf workspaceId).getD { workspaceId }

/-- Why the flush of a write fails; where nothing is set to another value there is no statement. -/
def BillingWrite.refused (w : BillingWrite) (db : BillingDb) : Option String :=
  if w.row = w.loaded then none else refusal db (w.over (db.rowOrNew w.workspaceId))

/-- What an event makes of a row. -/
def ReadEvent.describe (e : ReadEvent) (row : WorkspaceBilling) :
    Except BillingFailure WorkspaceBilling := do
  match StripeEventType.ofName e.eventType with
  | .subscription => row.mirror e.obj (← subscriptionStatus e.obj)
  | .paymentFailed => return { row with status := "past_due" }
  | .checkoutCompleted =>
    let subscriptionId ← e.obj.dictGet "subscription"
    let customerId ← e.obj.dictGet "customer"
    return { row with
      stripeCustomerId := customerId.text?.or row.stripeCustomerId
      stripeSubscriptionId := subscriptionId.text?.or row.stripeSubscriptionId }
  | .ignored => return row

/-- Older than the latest receipt of the workspace, or as old and granting; a checkout is not
ordered. -/
def ReadEvent.isSuperseded (e : ReadEvent) (db : BillingDb) (workspaceId : Nat) :
    Except BillingFailure Bool := do
  let latest := latestAppliedEventCreated db workspaceId e.id
  match StripeEventType.ofName e.eventType with
  | .subscription =>
    return ContentOrchestrator.isSuperseded latest (createdOf e.payload)
      (activeStatuses.contains (← subscriptionStatus e.obj))
  | .paymentFailed => return ContentOrchestrator.isSuperseded latest (createdOf e.payload) false
  | _ => return false

/-- The reading of a payload that has not been received. -/
def readEvent (payload : Json) (id eventType : Json) : Except BillingFailure ReadEvent := do
  let id ← id.boundText
  let data ← payload.dictGet "data"
  let obj := (← (data.orElse (.obj [])).dictGet "object").orElse (.obj [])
  let workspaceId ← workspaceIdFromMetadata obj
  let eventType ← eventType.boundText
  return { payload, id, eventType, obj, workspaceId }

/-- The first statement: the receipt is looked up. -/
def lookupReceipt (db : BillingDb) (payload : Json) : Except BillingFailure Delivery := do
  let id ← payload.dictGet "id"
  let eventType ← payload.dictGet "type"
  unless id.truthy && eventType.truthy do
    throw (.billing "invalid_event" "Stripe event missing id or type")
  let eventId ← id.boundText
  if db.isReceived eventId then return .duplicate payload
  return .claim (← readEvent payload id eventType)

/-- The flush of the receipt. -/
def claimReceipt (db : BillingDb) (e : ReadEvent) : Delivery :=
  if db.isReceived e.id then .duplicate e.payload
  else if e.workspaceId.all db.workspaces.contains then .branch e
  else .duplicate e.payload

/-- The branch of the event's type, up to its first statement over the billing rows. -/
def enterBranch (db : BillingDb) (e : ReadEvent) : Except BillingFailure Delivery := do
  match StripeEventType.ofName e.eventType with
  | .checkoutCompleted =>
    match e.workspaceId with
    | none => throw (.billing "missing_workspace" "checkout session missing workspace_id")
    | some workspaceId =>
      match db.billingOf workspaceId with
      | some row => return .decide e workspaceId row
      | none => return .insertRow e workspaceId
  | .subscription =>
    match e.workspaceId with
    | some workspaceId => return .lockRow e workspaceId none
    | none =>
      match (← e.obj.dictGet "id").text?.bind db.bySubscription with
      | some row => return .lockRow e row.workspaceId (some row)
      | none => return .byCustomer e
  | .paymentFailed =>
    match (← e.obj.dictGet "subscription").text?.bind db.bySubscription with
    | some row => return .lockRow e row.workspaceId none
    | none => return .processed e e.workspaceId none
  | .ignored => return .processed e e.workspaceId none

def findByCustomer (db : BillingDb) (e : ReadEvent) : Except BillingFailure Delivery := do
  match (← e.obj.dictGet "customer").text?.bind db.byCustomer with
  | some row => return .lockRow e row.workspaceId (some row)
  | none =>
    throw (.billing "unknown_subscription"
      "subscription event could not be mapped to a workspace")

/-- The row is there and locked, or it is not there. -/
def afterLock (db : BillingDb) (e : ReadEvent) (workspaceId : Nat)
    (loaded : Option WorkspaceBilling) : Delivery :=
  match db.billingOf workspaceId with
  | some row => .decide e workspaceId (loaded.getD row)
  | none => .insertRow e workspaceId

/-- The flush of a new row: its primary key is free, and its workspace exists. -/
def afterInsert (db : BillingDb) (e : ReadEvent) (workspaceId : Nat) : Delivery :=
  if (db.billingOf workspaceId).isSome || (refusal db { workspaceId }).isSome then
    .duplicate e.payload
  else .decide e workspaceId { workspaceId }

/-- The receipts are read, and the event is superseded or its row is made. -/
def decideRow (db : BillingDb) (e : ReadEvent) (workspaceId : Nat) (loaded : WorkspaceBilling) :
    Except BillingFailure Delivery := do
  if ← e.isSuperseded db workspaceId then
    return .processed e (e.workspaceId.or (some workspaceId)) (some ⟨workspaceId, loaded, loaded⟩)
  return .flush e ⟨workspaceId, loaded, ← e.describe loaded⟩

def flushWrite (db : BillingDb) (e : ReadEvent) (w : BillingWrite) : Delivery :=
  if (w.refused db).isSome then .duplicate e.payload
  else .processed e (e.workspaceId.or (some w.workspaceId)) (some w)

/-- An error that is no integrity error leaves the session. -/
def orFailed (next : Except BillingFailure Delivery) : Delivery :=
  match next with
  | .ok d => d
  | .error failure => .failed failure

def Delivery.next (db : BillingDb) (held : List BillingLock) : Delivery →
    Option (List BillingLock × Delivery)
  | .lookup payload => some (held, orFailed (lookupReceipt db payload))
  | .claim e => some (.receipt e.id :: held, claimReceipt db e)
  | .branch e => some (held, orFailed (enterBranch db e))
  | .byCustomer e => some (held, orFailed (findByCustomer db e))
  | .lockRow e workspaceId loaded =>
    if (db.billingOf workspaceId).isSome then
      some (.row workspaceId :: held, afterLock db e workspaceId loaded)
    else some (held, afterLock db e workspaceId loaded)
  | .insertRow e workspaceId => some (.row workspaceId :: held, afterInsert db e workspaceId)
  | .decide e workspaceId loaded => some (held, orFailed (decideRow db e workspaceId loaded))
  | .flush e w => some (.row w.workspaceId :: w.entries ++ held, flushWrite db e w)
  | .processed _ _ _ | .duplicate _ | .failed _ => none

/-! ## The commit -/

def ReadEvent.receipt (e : ReadEvent) (workspaceId : Option Nat) : BillingWebhookEvent :=
  { stripeEventId := e.id, eventType := e.eventType, workspaceId, payload := e.payload }

def BillingWrite.commit (w : BillingWrite) (db : BillingDb) : BillingDb :=
  match db.billingOf w.workspaceId with
  | some row => db.setBilling (w.over row)
  | none => { db with billing := db.billing ++ [w.row] }

/-- The committed row is the one the event makes of the row before. -/
def ReadEvent.takesEffect (e : ReadEvent) (w : BillingWrite) (db : BillingDb) : Bool :=
  match e.describe (db.rowOrNew w.workspaceId) with
  | .ok row => w.over (db.rowOrNew w.workspaceId) == row
  | .error _ => false

def commitDelivery (e : ReadEvent) (workspaceId : Option Nat) (write : Option BillingWrite)
    (s : BillingStore) :
    BillingStore where
  db :=
    let db := write.elim s.db (·.commit s.db)
    { db with receipts := db.receipts ++ [e.receipt workspaceId] }
  effects := s.effects ++ (write.map fun w => ⟨e.id, w.workspaceId, e.takesEffect w s.db⟩).toList

/-- A duplicate commits an empty transaction, a failure nothing. -/
def Delivery.commit : Delivery → Option (BillingStore → BillingStore)
  | .processed e workspaceId write => some (commitDelivery e workspaceId write)
  | .duplicate _ => some id
  | _ => none

/-- The webhook's deliveries. -/
def webhook : Code BillingStore BillingLock Delivery Json Empty where
  start := .lookup
  next s _ held d := d.next s.db held
  commit := Delivery.commit
  needs := nofun
  apply := nofun

end ContentOrchestrator

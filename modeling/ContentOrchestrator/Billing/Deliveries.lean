import ContentOrchestrator.Billing.Webhook
import ContentOrchestrator.Lib.Transition

/-! # What one delivery does

`StripeEvent` is a payload together with what the handler reads from it; the lemmas say
what its delivery makes of a database that has not received it. -/

namespace ContentOrchestrator

/-- A payload the handler can read. -/
structure StripeEvent where
  payload : Json
  id : String
  eventType : String
  fields : List (String × Json)
  workspaceId : Option Nat
  hasId : payload.dictGet "id" = .ok (.str id)
  hasType : payload.dictGet "type" = .ok (.str eventType)
  named : id ≠ "" ∧ eventType ≠ ""
  data : Json
  hasData : payload.dictGet "data" = .ok data
  obj : Json
  hasObject : (data.orElse (.obj [])).dictGet "object" = .ok obj
  readsObject : obj.orElse (.obj []) = .obj fields
  hasWorkspace : workspaceIdFromMetadata (.obj fields) = .ok workspaceId

namespace StripeEvent

variable (e : StripeEvent)

def kind : StripeEventType := StripeEventType.ofName e.eventType

def created : Option Int := createdOf e.payload

def field (key : String) : Json := (e.fields.lookup key).getD .null

/-- The status the event announces. -/
def status : String :=
  match e.kind with
  | .paymentFailed => "past_due"
  | _ => ((e.field "status").orElse (.str "inactive")).pyStr

def isGranting : Bool := activeStatuses.contains e.status

/-- The receipt, once the workspace is found. -/
def receipt (workspaceId : Option Nat) : BillingWebhookEvent :=
  { stripeEventId := e.id, eventType := e.eventType, workspaceId, payload := e.payload }

@[simp] theorem dictGet_fields (key : String) :
    (Json.obj e.fields).dictGet key = .ok (e.field key) := rfl

theorem subscriptionStatus_eq (hkind : e.kind = .subscription) :
    subscriptionStatus (.obj e.fields) = .ok e.status := by
  unfold subscriptionStatus status
  rw [dictGet_fields, hkind]
  rfl

/-- The subscription an entitlement-bearing event is about. -/
def subject : Option String :=
  match e.kind with
  | .subscription => (e.field "id").text?
  | .paymentFailed => (e.field "subscription").text?
  | _ => none

/-- The workspace a subscription event is about. -/
def workspaceIn (db : BillingDb) : Option Nat :=
  match e.workspaceId with
  | some id => some id
  | none =>
    (((e.field "id").text?.bind db.bySubscription).or
      ((e.field "customer").text?.bind db.byCustomer)).map
      (·.workspaceId)

/-- The row whose payment has failed. -/
def failedRow (db : BillingDb) : Option WorkspaceBilling :=
  (e.field "subscription").text?.bind db.bySubscription

end StripeEvent

theorem text?_eq_some {v : Json} {s : String} : v.text? = some s ↔ v = .str s := by
  cases v with
  | str t => simp [Json.text?]
  | _ => simp [Json.text?]

variable {db : BillingDb} {e : StripeEvent} {w : Nat} {row : WorkspaceBilling}

/-- The receipt of an event about the workspace is kept. -/
def BillingDb.record (db : BillingDb) (e : StripeEvent) (workspaceId : Option Nat) : BillingDb :=
  { db with receipts := db.receipts ++ [e.receipt workspaceId] }

@[simp] theorem record_billing (x : Option Nat) : (db.record e x).billing = db.billing := rfl

@[simp] theorem record_workspaces (x : Option Nat) : (db.record e x).workspaces = db.workspaces :=
  rfl

@[simp] theorem record_billingOf (x : Option Nat) (v : Nat) :
    (db.record e x).billingOf v = db.billingOf v := rfl

@[simp] theorem record_bySubscription (x : Option Nat) (s : String) :
    (db.record e x).bySubscription s = db.bySubscription s := rfl

@[simp] theorem record_byCustomer (x : Option Nat) (s : String) :
    (db.record e x).byCustomer s = db.byCustomer s := rfl

@[simp] theorem record_refusal (x : Option Nat) (r : WorkspaceBilling) :
    refusal (db.record e x) r = refusal db r := rfl

@[simp] theorem setBilling_receipts (r : WorkspaceBilling) :
    (db.setBilling r).receipts = db.receipts := rfl

@[simp] theorem setBilling_workspaces (r : WorkspaceBilling) :
    (db.setBilling r).workspaces = db.workspaces := rfl

theorem isReceived_record {x : Option Nat} {id : String} :
    (db.record e x).isReceived id = (db.isReceived id || e.id == id) := by
  unfold BillingDb.isReceived BillingDb.record
  rw [List.any_append]
  simp [StripeEvent.receipt]

/-- An event does not count against itself. -/
theorem latest_record_self (x : Option Nat) :
    latestAppliedEventCreated (db.record e x) w e.id = latestAppliedEventCreated db w e.id := by
  unfold latestAppliedEventCreated BillingDb.record
  rw [List.filter_append]
  simp [BillingWebhookEvent.countsFor, StripeEvent.receipt]

theorem linkReceipt_record (hnew : db.isReceived e.id = false) (x y : Option Nat) :
    linkReceipt (db.record e x) e.id y = db.record e (x.or y) := by
  have hothers : db.receipts.map (fun r =>
      if r.stripeEventId = e.id then { r with workspaceId := r.workspaceId.or y } else r) =
          db.receipts := by
    refine (List.map_congr_left fun r hr => ?_).trans (List.map_id _)
    have hne : r.stripeEventId ≠ e.id := by
      intro heq
      have hreceived := List.any_eq_false.mp hnew r hr
      exact hreceived (by simp [heq])
    exact if_neg hne
  unfold linkReceipt BillingDb.record
  simp only [List.map_append, hothers, List.map_cons, List.map_nil, StripeEvent.receipt, if_true]

/-- **The frame of a delivery**: an event already received changes nothing, a new one runs inside
the savepoint. -/
theorem processStripeEvent_eq (db : BillingDb) (e : StripeEvent) :
    processStripeEvent db e.payload =
      if db.isReceived e.id then .ok (.duplicate, db)
      else match claimAndApply db e.payload e.id e.eventType (.obj e.fields) e.workspaceId with
        | .ok (db', found) => .ok (.processed found, db')
        | .error failure => if failure.isIntegrity then .ok (.duplicate, db)
            else .error failure := by
  have htruthy : (Json.str e.id).truthy = true ∧ (Json.str e.eventType).truthy = true := by
    simp [Json.truthy, e.named]
  unfold processStripeEvent
  simp only [e.hasId, e.hasType, bind, Except.bind, htruthy.1, htruthy.2, Bool.and_self, if_true,
    Json.boundText, pure, Except.pure]
  by_cases hreceived : db.isReceived e.id = true
  · rw [if_pos hreceived, if_pos hreceived]
  · rw [if_neg hreceived, if_neg hreceived]
    simp only [e.hasData, e.hasObject, e.readsObject, e.hasWorkspace]
    cases claimAndApply db e.payload e.id e.eventType (.obj e.fields) e.workspaceId with
    | ok r => rfl
    | error failure => cases failure.isIntegrity <;> rfl

theorem deliverEvent_received (hreceived : db.isReceived e.id = true) :
    deliverEvent db e.payload = db := by
  unfold deliverEvent
  rw [processStripeEvent_eq, if_pos hreceived]

theorem deliverEvent_new (hnew : db.isReceived e.id = false) :
    deliverEvent db e.payload =
      match claimAndApply db e.payload e.id e.eventType (.obj e.fields) e.workspaceId with
      | .ok (db', _) => db'
      | .error _ => db := by
  unfold deliverEvent
  rw [processStripeEvent_eq, if_neg (by simp [hnew])]
  cases claimAndApply db e.payload e.id e.eventType (.obj e.fields) e.workspaceId with
  | ok r => rfl
  | error failure =>
    cases hintegrity : failure.isIntegrity with
    | true => simp only [hintegrity, if_true]
    | false => simp [hintegrity]

theorem insertReceipt_eq (hnew : db.isReceived e.id = false)
    (hexists : ∀ id, e.workspaceId = some id → id ∈ db.workspaces) :
    insertReceipt db (e.receipt e.workspaceId) = .ok (db.record e e.workspaceId) := by
  unfold insertReceipt
  have hid : (e.receipt e.workspaceId).stripeEventId = e.id := rfl
  rw [hid, hnew]
  cases hworkspace : e.workspaceId with
  | none => rfl
  | some id =>
    have hcontains : db.workspaces.contains id =
        true := List.contains_iff_mem.mpr (hexists id hworkspace)
    simp only [StripeEvent.receipt, hcontains]
    rfl

/-- The workspace a mapped receipt ends with. -/
theorem claimAndApply_eq (hnew : db.isReceived e.id = false)
    (hexists : ∀ id, e.workspaceId = some id → id ∈ db.workspaces) :
    claimAndApply db e.payload e.id e.eventType (.obj e.fields) e.workspaceId =
      (do
        let (db', found) ← applyEvent (db.record e e.workspaceId) e.id e.eventType e.created
            (.obj e.fields)
          e.workspaceId
        return (linkReceipt db' e.id found, found)) := by
  have hinsert := insertReceipt_eq hnew hexists
  unfold StripeEvent.receipt at hinsert
  unfold claimAndApply
  rw [hinsert]
  rfl

/-! ## Subscription events -/

/-- A subscription event that finds its workspace's row. -/
theorem deliverEvent_subscription (hkind : e.kind = .subscription)
    (hnew : db.isReceived e.id = false) (hexists : ∀ id, e.workspaceId = some id →
    id ∈ db.workspaces) (hfound : e.workspaceIn db = some w) (hrow : db.billingOf w = some row) :
    deliverEvent db e.payload =
      if isSuperseded (latestAppliedEventCreated db w e.id) e.created e.isGranting then
        db.record e (some w)
      else match row.mirror (.obj e.fields) e.status with
        | .ok row' => if refusal db row' = none then (db.setBilling row').record e (some w) else db
        | .error _ => db := by
  have hw : e.workspaceId.or (some w) = some w := by
    unfold StripeEvent.workspaceIn at hfound
    cases hmeta : e.workspaceId with
    | none => rfl
    | some id =>
      rw [hmeta] at hfound
      exact hfound
  have happly : applyEvent (db.record e e.workspaceId) e.id e.eventType e.created
      (.obj e.fields) e.workspaceId =
      (do return (← applySubscription (db.record e e.workspaceId) w (.obj e.fields) e.id e.created,
        some w)) := by
    have hkind' : StripeEventType.ofName e.eventType = .subscription := hkind
    unfold applyEvent
    rw [hkind']
    unfold StripeEvent.workspaceIn at hfound
    cases hmeta : e.workspaceId with
    | none =>
      rw [hmeta] at hfound
      simp only [workspaceOfSubscription, e.dictGet_fields, bind, Except.bind, pure, Except.pure]
      have hrecord : (((e.field "id").text?.bind (db.record e none).bySubscription).or
          ((e.field "customer").text?.bind (db.record e none).byCustomer)).map (·.workspaceId) =
            some w := hfound
      rw [hrecord]
    | some id =>
      rw [hmeta] at hfound
      cases hfound
      rfl
  rw [deliverEvent_new hnew, claimAndApply_eq hnew hexists, happly]
  simp only [applySubscription, ensureWorkspaceBilling, record_billingOf, hrow, bind, Except.bind,
    pure, Except.pure, e.subscriptionStatus_eq hkind, latest_record_self]
  by_cases hsuperseded :
    isSuperseded (latestAppliedEventCreated db w e.id) e.created e.isGranting = true
  · have hcase := hsuperseded
    unfold StripeEvent.isGranting at hcase
    rw [if_pos hsuperseded, if_pos hcase]
    exact (linkReceipt_record hnew _ _).trans (by rw [hw])
  · have hcase := hsuperseded
    unfold StripeEvent.isGranting at hcase
    rw [if_neg hsuperseded, if_neg hcase]
    cases row.mirror (.obj e.fields) e.status with
    | error failure => rfl
    | ok row' =>
      simp only [flushBilling, record_refusal]
      cases hrefusal : refusal db row' with
      | some constraint => simp [throw, throwThe, MonadExceptOf.throw]
      | none =>
        simp only [if_true]
        have hnew' : (db.setBilling row').isReceived e.id = false := hnew
        exact (linkReceipt_record hnew' _ _).trans (by rw [hw])


/-- A subscription event that finds no workspace raises. -/
theorem deliverEvent_unmapped (hkind : e.kind = .subscription) (hnew : db.isReceived e.id = false)
    (hfound : e.workspaceIn db = none) : deliverEvent db e.payload = db := by
  have hmeta : e.workspaceId = none := by
    unfold StripeEvent.workspaceIn at hfound
    cases hmeta : e.workspaceId with
    | none => rfl
    | some id =>
      rw [hmeta] at hfound
      cases hfound
  have hexists : ∀ id, e.workspaceId = some id → id ∈ db.workspaces := by
    intro id hid
    rw [hmeta] at hid
    cases hid
  have happly : applyEvent (db.record e e.workspaceId) e.id e.eventType e.created
      (.obj e.fields) e.workspaceId =
      .error (.billing "unknown_subscription"
        "subscription event could not be mapped to a workspace") := by
    have hkind' : StripeEventType.ofName e.eventType = .subscription := hkind
    unfold applyEvent
    rw [hkind']
    unfold StripeEvent.workspaceIn at hfound
    rw [hmeta] at hfound ⊢
    simp only [workspaceOfSubscription, e.dictGet_fields, bind, Except.bind, pure, Except.pure]
    have hrecord : (((e.field "id").text?.bind (db.record e none).bySubscription).or
        ((e.field "customer").text?.bind (db.record e none).byCustomer)).map (·.workspaceId) =
          none := hfound
    rw [hrecord]
    rfl
  rw [deliverEvent_new hnew, claimAndApply_eq hnew hexists, happly]
  rfl

/-! ## Failed payments -/

/-- A failed payment of a subscription that a workspace is linked to. -/
theorem deliverEvent_paymentFailed (hkind : e.kind = .paymentFailed)
    (hnew : db.isReceived e.id = false)
    (hexists : ∀ id, e.workspaceId = some id → id ∈ db.workspaces)
    (hfound : e.failedRow db = some row) (hid : row.workspaceId = w)
    (hrow : db.billingOf w = some row) :
    deliverEvent db e.payload =
      if isSuperseded (latestAppliedEventCreated db w e.id) e.created false then
        db.record e (e.workspaceId.or (some w))
      else if refusal db { row with status := "past_due" } = none then
        (db.setBilling { row with status := "past_due" }).record e (e.workspaceId.or (some w))
      else db := by
  subst hid
  have happly : applyEvent (db.record e e.workspaceId) e.id e.eventType e.created
      (.obj e.fields) e.workspaceId =
      (do return (← failPayment (db.record e e.workspaceId) row.workspaceId e.id e.created,
        some row.workspaceId)) := by
    have hkind' : StripeEventType.ofName e.eventType = .paymentFailed := hkind
    have hfound' : (e.field "subscription").text?.bind (db.record e e.workspaceId).bySubscription =
        some row := hfound
    unfold applyEvent
    rw [hkind']
    simp only [e.dictGet_fields, bind, Except.bind, pure, Except.pure, hfound']
  rw [deliverEvent_new hnew, claimAndApply_eq hnew hexists, happly]
  simp only [failPayment, ensureWorkspaceBilling, record_billingOf, hrow, bind, Except.bind, pure,
    Except.pure, latest_record_self]
  by_cases hsuperseded :
      isSuperseded (latestAppliedEventCreated db row.workspaceId e.id) e.created false = true
  · rw [if_pos hsuperseded, if_pos hsuperseded]
    exact linkReceipt_record hnew _ _
  · rw [if_neg hsuperseded, if_neg hsuperseded]
    simp only [flushBilling, record_refusal]
    cases hrefusal : refusal db { row with status := "past_due" } with
    | some constraint => simp [throw, throwThe, MonadExceptOf.throw]
    | none =>
      simp only [if_true]
      have hnew' : (db.setBilling { row with status := "past_due" }).isReceived e.id = false := hnew
      exact linkReceipt_record hnew' _ _

/-- A failed payment of a subscription nobody is linked to leaves its receipt only. -/
theorem deliverEvent_paymentFailed_unlinked (hkind : e.kind = .paymentFailed)
    (hnew : db.isReceived e.id = false)
    (hexists : ∀ id, e.workspaceId = some id → id ∈ db.workspaces)
    (hfound : e.failedRow db = none) :
    deliverEvent db e.payload = db.record e e.workspaceId := by
  have happly : applyEvent (db.record e e.workspaceId) e.id e.eventType e.created
      (.obj e.fields) e.workspaceId =
      .ok (db.record e e.workspaceId, e.workspaceId) := by
    have hkind' : StripeEventType.ofName e.eventType = .paymentFailed := hkind
    have hfound' : (e.field "subscription").text?.bind (db.record e e.workspaceId).bySubscription =
        none := hfound
    unfold applyEvent
    rw [hkind']
    simp only [e.dictGet_fields, bind, Except.bind, pure, Except.pure, hfound']
  rw [deliverEvent_new hnew, claimAndApply_eq hnew hexists, happly]
  simp only [bind, Except.bind, pure, Except.pure]
  rw [linkReceipt_record hnew, Option.or_self]

/-! ## The row as a subscription describes it -/

theorem mirror_ok {row' : WorkspaceBilling} (h : row.mirror (.obj e.fields) e.status = .ok row') :
    row'.workspaceId = row.workspaceId ∧ row'.status = e.status ∧
      row'.plan = row.planUnder e.status ∧
      row.linkedSubscription (e.field "id") = .ok row'.stripeSubscriptionId ∧
      row.linkedCustomer (e.field "customer") = .ok row'.stripeCustomerId := by
  unfold WorkspaceBilling.mirror at h
  simp only [e.dictGet_fields, bind, Except.bind, pure, Except.pure] at h
  split at h
  · cases h
  rename_i subscriptionId hsubscription
  split at h
  · cases h
  rename_i customerId hcustomer
  split at h
  · cases h
  cases h
  exact ⟨rfl, rfl, rfl, hsubscription, hcustomer⟩

/-- An event of the linked subscription leaves the link. -/
theorem linkedSubscription_same {s : String} {found : Option String}
    (hlinked : row.stripeSubscriptionId = some s)
    (h : row.linkedSubscription (.str s) = .ok found) : found = some s := by
  unfold WorkspaceBilling.linkedSubscription at h
  split at h
  · cases h
    rfl
  · rw [← hlinked]
    cases h
    rfl

/-- A mirrored row entitles exactly under an active status. -/
theorem mirror_entitles {row' : WorkspaceBilling}
    (h : row.mirror (.obj e.fields) e.status = .ok row') :
    isEntitled (some row') true = e.isGranting := by
  obtain ⟨-, hstatus, hplan, -, -⟩ := mirror_ok h
  simp only [isEntitled, if_true, hstatus, hplan, WorkspaceBilling.planUnder,
    StripeEvent.isGranting]
  cases activeStatuses.contains e.status with
  | true => simp
  | false => simp

/-- A payment failure takes the entitlement. -/
theorem pastDue_entitles (row : WorkspaceBilling) :
    isEntitled (some { row with status := "past_due" }) true = false := by
  simp [isEntitled, activeStatuses]

/-! ## The latest receipt -/

theorem countsFor_iff {r : BillingWebhookEvent} {id : String} :
    r.countsFor w id = true ↔
      r.workspaceId = some w ∧ r.stripeEventId ≠ id ∧
        (StripeEventType.ofName r.eventType).bearsEntitlement = true := by
  simp [BillingWebhookEvent.countsFor, and_assoc]

theorem latest_eq_none {id : String} :
    latestAppliedEventCreated db w id = none ↔
      ∀ r ∈ db.receipts, r.countsFor w id = true → createdOf r.payload = none := by
  simp [latestAppliedEventCreated]

theorem latest_eq_some {id : String} {m : Int} :
    latestAppliedEventCreated db w id = some m ↔
      (∃ r ∈ db.receipts, r.countsFor w id = true ∧ createdOf r.payload = some m) ∧
        ∀ r ∈ db.receipts, r.countsFor w id = true → ∀ c, createdOf r.payload = some c → c ≤ m := by
  unfold latestAppliedEventCreated
  rw [List.max?_eq_some_iff]
  simp only [List.mem_filterMap, List.mem_filter, and_assoc]
  constructor
  · rintro ⟨hmem, hle⟩
    exact ⟨hmem, fun r hr hcounts c hc => hle c ⟨r, hr, hcounts, hc⟩⟩
  · rintro ⟨hmem, hle⟩
    refine ⟨hmem, fun c hc => ?_⟩
    obtain ⟨r, hr, hcounts, hc⟩ := hc
    exact hle r hr hcounts c hc

theorem mem_record {x : Option Nat} {r : BillingWebhookEvent} :
    r ∈ (db.record e x).receipts ↔ r ∈ db.receipts ∨ r = e.receipt x := by
  simp [BillingDb.record]

/-- A recorded event no later than the latest changes nothing. -/
theorem latest_record_le {id : String} {c m : Int} (hc : e.created = some c)
    (hlatest : latestAppliedEventCreated db w id = some m) (hle : c ≤ m) (x : Option Nat) :
    latestAppliedEventCreated (db.record e x) w id = some m := by
  obtain ⟨⟨r, hr, hcounts, hm⟩, hall⟩ := latest_eq_some.mp hlatest
  refine latest_eq_some.mpr ⟨⟨r, mem_record.mpr (.inl hr), hcounts, hm⟩,
    fun q hq hqcounts d hd => ?_⟩
  rcases mem_record.mp hq with hq | rfl
  · exact hall q hq hqcounts d hd
  · have hcreated : e.created = some d := hd
    rw [hc] at hcreated
    cases hcreated
    exact hle

/-- A recorded event at least as late as the latest becomes it. -/
theorem latest_record_ge {id : String} {c : Int} (hkind : e.kind.bearsEntitlement = true)
    (hid : e.id ≠ id) (hc : e.created = some c)
    (hge : ∀ m, latestAppliedEventCreated db w id = some m → m ≤ c) :
    latestAppliedEventCreated (db.record e (some w)) w id = some c := by
  have hcounts : (e.receipt (some w)).countsFor w id = true := countsFor_iff.mpr ⟨rfl, hid, hkind⟩
  refine latest_eq_some.mpr ⟨⟨e.receipt (some w), mem_record.mpr (.inr rfl), hcounts, hc⟩,
    fun q hq hqcounts d hd => ?_⟩
  rcases mem_record.mp hq with hq | rfl
  · cases hlatest : latestAppliedEventCreated db w id with
    | none =>
      rw [latest_eq_none.mp hlatest q hq hqcounts] at hd
      cases hd
    | some m =>
      exact Int.le_trans ((latest_eq_some.mp hlatest).2 q hq hqcounts d hd) (hge m hlatest)
  · have hcreated : e.created = some d := hd
    rw [hc] at hcreated
    cases hcreated
    exact Int.le_refl c

theorem latest_record_uncounted {id : String} {x : Option Nat}
    (h : (e.receipt x).countsFor w id = false ∨ e.created = none) :
    latestAppliedEventCreated (db.record e x) w id = latestAppliedEventCreated db w id := by
  unfold latestAppliedEventCreated BillingDb.record
  rw [List.filter_append, List.filterMap_append]
  have hlast : ([e.receipt x].filter (·.countsFor w id)).filterMap (createdOf ·.payload) = [] := by
    rcases h with hcounts | hcreated
    · rw [List.filter_cons_of_neg (by simp [hcounts])]
      rfl
    · have hnone : createdOf (e.receipt x).payload = none := hcreated
      by_cases hcounts : (e.receipt x).countsFor w id = true
      · rw [List.filter_cons_of_pos hcounts]
        simp [hnone]
      · rw [List.filter_cons_of_neg hcounts]
        rfl
  rw [hlast, List.append_nil]

/-- One receipt more moves equal marks alike. -/
theorem latest_record_congr {db' : BillingDb} {id : String}
    (h : latestAppliedEventCreated db w id = latestAppliedEventCreated db' w id) (x : Option Nat) :
    latestAppliedEventCreated (db.record e x) w id =
      latestAppliedEventCreated (db'.record e x) w id := by
  by_cases huncounted : (e.receipt x).countsFor w id = false ∨ e.created = none
  · rw [latest_record_uncounted huncounted, latest_record_uncounted huncounted, h]
  obtain ⟨hcounts, hcreated⟩ := not_or.mp huncounted
  obtain ⟨hx, hid, hkind⟩ := countsFor_iff.mp (Bool.not_eq_false _ ▸ hcounts)
  obtain ⟨c, hc⟩ := Option.ne_none_iff_exists'.mp hcreated
  have hx' : x = some w := hx
  subst hx'
  by_cases hbelow : ∃ m, latestAppliedEventCreated db w id = some m ∧ c ≤ m
  · obtain ⟨m, hm, hle⟩ := hbelow
    rw [latest_record_le hc hm hle, latest_record_le hc (h ▸ hm) hle]
  · have hge : ∀ m, latestAppliedEventCreated db w id = some m → m ≤ c := by
      intro m hm
      exact Int.le_of_lt (Int.not_le.mp fun hle => hbelow ⟨m, hm, hle⟩)
    rw [latest_record_ge hkind hid hc hge, latest_record_ge hkind hid hc (h ▸ hge)]

/-- For events not received it does not matter which of them asks for the latest. -/
theorem latest_of_unreceived {x y : String} (hx : db.isReceived x = false)
    (hy : db.isReceived y = false) :
    latestAppliedEventCreated db w x = latestAppliedEventCreated db w y := by
  have hcounts : ∀ r ∈ db.receipts, r.countsFor w x = r.countsFor w y := by
    intro r hr
    have hne : ∀ id, db.isReceived id = false → (r.stripeEventId != id) = true := by
      intro id hid
      have hnot := List.any_eq_false.mp hid r hr
      simpa using hnot
    simp only [BillingWebhookEvent.countsFor, hne x hx, hne y hy]
  unfold latestAppliedEventCreated
  rw [List.filter_congr hcounts]

theorem isSuperseded_some {latest : Option Int} {c : Int} {granting : Bool} :
    isSuperseded latest (some c) granting = true ↔
      ∃ m, latest = some m ∧ (c < m ∨ c = m ∧ granting = true) := by
  cases latest with
  | none => simp [isSuperseded]
  | some l => simp [isSuperseded]

/-! ## Constraints -/

/-- What the table accepts of a row: its workspace exists, its plan and status are listed, and no
other row has its customer or its subscription. -/
structure Accepted (db : BillingDb) (row : WorkspaceBilling) : Prop where
  workspace : row.workspaceId ∈ db.workspaces
  plan : row.plan ∈ planNames
  status : row.status ∈ statusNames
  customer : ∀ c, row.stripeCustomerId = some c →
    ∀ b ∈ db.billing, b.workspaceId ≠ row.workspaceId →
    b.stripeCustomerId ≠ some c
  subscription : ∀ s, row.stripeSubscriptionId = some s →
    ∀ b ∈ db.billing, b.workspaceId ≠ row.workspaceId →
    b.stripeSubscriptionId ≠ some s

theorem any_others (row : WorkspaceBilling) (rows : List WorkspaceBilling)
    (f : WorkspaceBilling → Option String) :
    ((f row).isSome && (rows.filter (·.workspaceId != row.workspaceId)).any
    (fun b => f b == f row)) = false ↔
      ∀ c, f row = some c → ∀ b ∈ rows, b.workspaceId ≠ row.workspaceId → f b ≠ some c := by
  cases hf : f row with
  | none => simp
  | some c =>
    simp only [Option.isSome_some, Bool.true_and, List.any_eq_false, List.mem_filter, bne_iff_ne,
      ne_eq, beq_iff_eq, Option.some.injEq, forall_eq', and_imp]

theorem refusal_eq_none : refusal db row = none ↔ Accepted db row := by
  have hcustomer := any_others row db.billing (·.stripeCustomerId)
  have hsubscription := any_others row db.billing (·.stripeSubscriptionId)
  unfold refusal
  constructor
  · intro h
    simp only at h
    split at h
    · cases h
    rename_i hworkspace
    split at h
    · cases h
    rename_i hplan
    split at h
    · cases h
    rename_i hstatus
    split at h
    · cases h
    rename_i hnocustomer
    split at h
    · cases h
    rename_i hnosubscription
    exact ⟨by simpa using hworkspace, by simpa using hplan, by simpa using hstatus,
      hcustomer.mp (by simpa using hnocustomer), hsubscription.mp (by simpa using hnosubscription)⟩
  · intro h
    have hw : db.workspaces.contains row.workspaceId = true := List.contains_iff_mem.mpr h.workspace
    have hplan : planNames.contains row.plan = true := List.contains_iff_mem.mpr h.plan
    have hstatus : statusNames.contains row.status = true := List.contains_iff_mem.mpr h.status
    simp only [hw, hplan, hstatus, Bool.not_true, Bool.false_eq_true, if_false,
      hcustomer.mpr h.customer, hsubscription.mpr h.subscription]

/-- The tables as the database keeps them. -/
structure BillingDb.Sound (db : BillingDb) : Prop where
  keyed : ∀ a ∈ db.billing, ∀ b ∈ db.billing, a.workspaceId = b.workspaceId → a = b
  accepted : ∀ row ∈ db.billing, Accepted db row

theorem mem_of_billingOf (h : db.billingOf w = some row) :
    row ∈ db.billing ∧ row.workspaceId = w := by
  have hfound := List.find?_eq_some_iff_append.mp h
  exact ⟨List.mem_of_find?_eq_some h, by simpa using hfound.1⟩

theorem BillingDb.Sound.billingOf (hs : db.Sound) (hrow : row ∈ db.billing) :
    db.billingOf row.workspaceId = some row := by
  cases hfound : db.billingOf row.workspaceId with
  | none =>
    have hnone := List.find?_eq_none.mp hfound row hrow
    simp at hnone
  | some found =>
    obtain ⟨hmem, hid⟩ := mem_of_billingOf hfound
    rw [hs.keyed found hmem row hrow hid]

/-- The unique index finds the linked row. -/
theorem BillingDb.Sound.bySubscription (hs : db.Sound) {s : String} (hrow : row ∈ db.billing)
    (hlinked : row.stripeSubscriptionId = some s) : db.bySubscription s = some row := by
  cases hfound : db.bySubscription s with
  | none =>
    have hnone := List.find?_eq_none.mp hfound row hrow
    simp [hlinked] at hnone
  | some found =>
    have hmem : found ∈ db.billing := List.mem_of_find?_eq_some hfound
    have hsub : found.stripeSubscriptionId = some s := by
      simpa using (List.find?_eq_some_iff_append.mp hfound).1
    by_cases hid : found.workspaceId = row.workspaceId
    · rw [hs.keyed found hmem row hrow hid]
    · exact absurd hsub ((hs.accepted row hrow).subscription s hlinked found hmem hid)

theorem mem_setBilling {b r : WorkspaceBilling} :
    b ∈ (db.setBilling r).billing →
      b = r ∨ b ∈ db.billing ∧ b.workspaceId ≠ r.workspaceId := by
  unfold BillingDb.setBilling
  simp only [List.mem_map]
  rintro ⟨a, ha, rfl⟩
  by_cases hid : a.workspaceId = r.workspaceId
  · rw [if_pos hid]
    exact .inl rfl
  · rw [if_neg hid]
    exact .inr ⟨ha, hid⟩

theorem billingOf_setBilling {r : WorkspaceBilling} (hrow : db.billingOf r.workspaceId = some row) :
    (db.setBilling r).billingOf r.workspaceId = some r := by
  obtain ⟨hmem, hid⟩ := mem_of_billingOf hrow
  have hin : r ∈ (db.setBilling r).billing := List.mem_map.mpr ⟨row, hmem, if_pos hid⟩
  cases hfound : (db.setBilling r).billingOf r.workspaceId with
  | none =>
    have hnone := List.find?_eq_none.mp hfound r hin
    simp at hnone
  | some found =>
    obtain ⟨hfoundin, hfoundid⟩ := mem_of_billingOf hfound
    rcases mem_setBilling hfoundin with rfl | ⟨-, hne⟩
    · rfl
    · exact absurd hfoundid hne

/-- What is accepted depends on the rows of the other workspaces only. -/
theorem Accepted.of_others {db' : BillingDb} (h : Accepted db row)
    (hworkspaces : db'.workspaces = db.workspaces)
    (hothers : ∀ b ∈ db'.billing, b.workspaceId ≠ row.workspaceId → b ∈ db.billing) :
    Accepted db' row where
  workspace := hworkspaces ▸ h.workspace
  plan := h.plan
  status := h.status
  customer c hc b hb hne := h.customer c hc b (hothers b hb hne) hne
  subscription s hs b hb hne := h.subscription s hs b (hothers b hb hne) hne

/-- An accepted change keeps the constraints. -/
theorem BillingDb.Sound.setBilling {r : WorkspaceBilling} (hs : db.Sound) (h : Accepted db r) :
    (db.setBilling r).Sound where
  keyed a ha b hb hid := by
    rcases mem_setBilling ha with rfl | ⟨ha, hane⟩
    · rcases mem_setBilling hb with rfl | ⟨hb, hbne⟩
      · rfl
      · exact absurd hid.symm hbne
    · rcases mem_setBilling hb with rfl | ⟨hb, hbne⟩
      · exact absurd hid hane
      · exact hs.keyed a ha b hb hid
  accepted a ha := by
    rcases mem_setBilling ha with rfl | ⟨hold, hane⟩
    · refine h.of_others rfl fun b hb hne => ?_
      rcases mem_setBilling hb with rfl | ⟨hb, -⟩
      · exact absurd rfl hne
      · exact hb
    · have haccepted := hs.accepted a hold
      refine ⟨haccepted.workspace, haccepted.plan, haccepted.status, fun c hc b hb hne => ?_,
        fun s hsub b hb hne => ?_⟩
      · rcases mem_setBilling hb with rfl | ⟨hb, -⟩
        · intro heq
          exact h.customer c heq a hold hane hc
        · exact haccepted.customer c hc b hb hne
      · rcases mem_setBilling hb with rfl | ⟨hb, -⟩
        · intro heq
          exact h.subscription s heq a hold hane hsub
        · exact haccepted.subscription s hsub b hb hne

theorem BillingDb.Sound.record (hs : db.Sound) (x : Option Nat) : (db.record e x).Sound where
  keyed := hs.keyed
  accepted row hrow := (hs.accepted row hrow).of_others rfl fun _ hb _ => hb

/-! ## Runs -/

def deliverEvents (db : BillingDb) (deliveries : List StripeEvent) : BillingDb :=
  Lib.replay (fun db (e : StripeEvent) => deliverEvent db e.payload) db deliveries

/-! ## Payloads -/

/-- An update of a subscription that names no workspace. -/
def subscriptionUpdated (subscriptionId id status : String) (created : Int) (named : id != "") :
    StripeEvent where
  payload := .obj [("id", .str id), ("type", .str "customer.subscription.updated"),
    ("created", .num (.int created)),
    ("data", .obj [("object", .obj [("id", .str subscriptionId), ("status", .str status)])])]
  id := id
  eventType := "customer.subscription.updated"
  fields := [("id", .str subscriptionId), ("status", .str status)]
  workspaceId := none
  hasId := rfl
  hasType := rfl
  named := ⟨bne_iff_ne.mp named, by decide⟩
  data := .obj [("object", .obj [("id", .str subscriptionId), ("status", .str status)])]
  hasData := rfl
  obj := .obj [("id", .str subscriptionId), ("status", .str status)]
  hasObject := rfl
  readsObject := rfl
  hasWorkspace := rfl

/-- A failed payment of a subscription. -/
def invoicePaymentFailed (subscriptionId id : String) (created : Int) (named : id != "") :
    StripeEvent where
  payload := .obj [("id", .str id), ("type", .str "invoice.payment_failed"),
    ("created", .num (.int created)),
    ("data", .obj [("object", .obj [("subscription", .str subscriptionId)])])]
  id := id
  eventType := "invoice.payment_failed"
  fields := [("subscription", .str subscriptionId)]
  workspaceId := none
  hasId := rfl
  hasType := rfl
  named := ⟨bne_iff_ne.mp named, by decide⟩
  data := .obj [("object", .obj [("subscription", .str subscriptionId)])]
  hasData := rfl
  obj := .obj [("subscription", .str subscriptionId)]
  hasObject := rfl
  readsObject := rfl
  hasWorkspace := rfl

end ContentOrchestrator

import ContentOrchestrator.Billing.ConcurrentDeliveries

/-! # Acknowledged events

A delivery that is answered has left a receipt, and the event's effect with it, unless
the event was superseded. Every integrity error is answered as a duplicate, and a failed
payment may come before the link it needs: the condition says where neither happens. -/

namespace ContentOrchestrator

open Lib

/-- The payload is of an entitlement-bearing event: a subscription event, or a failed payment of a
subscription. -/
def bearing (payload : Json) : Bool :=
  match (payload.get "type").text?.map StripeEventType.ofName with
  | some .subscription => true
  | some .paymentFailed => (((payload.get "data").get "object").get "subscription").text?.isSome
  | _ => false

/-- Recorded for the workspace is another event at least as new. -/
def BillingStore.Superseded (s : BillingStore) (eventId : String) (payload : Json)
    (workspaceId : Nat) : Prop :=
  ∃ c, createdOf payload = some c ∧ ∃ r ∈ s.db.receipts, r.countsFor workspaceId eventId = true ∧
    ∃ m, createdOf r.payload = some m ∧ c ≤ m

/-- The effect of the event was written, or the event was superseded in the workspace it is
about. -/
def BillingStore.Settled (s : BillingStore) (eventId : String) (payload : Json) : Prop :=
  ∃ x ∈ s.effects, x.eventId = eventId ∧
    (x.applied = true ∨ s.Superseded eventId payload x.workspaceId)

/-- The receipt of the event is there, and the event is settled. -/
def BillingStore.Recorded (s : BillingStore) (payload : Json) : Prop :=
  ∃ r ∈ s.db.receipts, r.payload = payload ∧ payload.dictGet "id" = .ok (.str r.stripeEventId) ∧
    s.Settled r.stripeEventId payload

/-- What was received before the first delivery counts as applied. -/
def BillingStore.startingAt (db : BillingDb) : BillingStore where
  db
  effects := db.receipts.map fun r => ⟨r.stripeEventId, r.workspaceId.getD 0, true⟩

/-- What the webhook owes Stripe: a receipt of an entitlement-bearing event stands for its effect;
such an event is answered as processed if its commit leaves a settled receipt, as a duplicate if
there is one; and what raised commits nothing. -/
structure Acknowledges (w : World BillingStore BillingLock Delivery) : Prop where
  receipts : ∀ r ∈ w.store.db.receipts, bearing r.payload = true →
    w.store.Settled r.stripeEventId r.payload
  processed : ∀ x ∈ w.running, ∀ e workspaceId write, x.locals = .processed e workspaceId write →
    bearing e.payload = true → (commitDelivery e workspaceId write w.store).Recorded e.payload
  duplicate : ∀ x ∈ w.running, ∀ payload, x.locals = .duplicate payload → bearing payload = true →
    w.store.Recorded payload
  failed : ∀ x ∈ w.running, ∀ failure, x.locals = .failed failure →
    webhook.step w (.commit x.id) = w

/-! ## The condition -/

/-- A receipt under the event's id is a receipt of this event. -/
def BillingDb.sameEvent (db : BillingDb) (eventId : Json) (payload : Json) : Bool :=
  db.receipts.all fun r => decide (eventId = .str r.stripeEventId → r.payload = payload)

/-- The condition on the next statement of a delivery of an entitlement-bearing event. -/
def ReadEvent.smooth (db : BillingDb) (e : ReadEvent) : Delivery → Bool
  | .claim _ => db.sameEvent (.str e.id) e.payload &&
      (db.isReceived e.id || e.workspaceId.all db.workspaces.contains)
  -- a failed payment finds the row its subscription is linked to
  | .branch _ =>
    match StripeEventType.ofName e.eventType, e.obj.dictGet "subscription" with
    | .paymentFailed, .ok subscription => (subscription.text?.bind db.bySubscription).isSome
    | _, _ => true
  -- nobody has inserted the workspace's first row meanwhile
  | .insertRow _ workspaceId =>
    (db.billingOf workspaceId).isNone && (refusal db { workspaceId }).isNone
  -- a row that is written is as it was loaded
  | .decide _ workspaceId loaded =>
    match e.isSuperseded db workspaceId with
    | .ok false => db.rowOrNew workspaceId == loaded
    | _ => true
  | .flush _ w => (w.refused db).isNone
  | _ => true

def Delivery.event? : Delivery → Option ReadEvent
  | .claim e | .branch e | .byCustomer e | .lockRow e _ _ | .insertRow e _ | .decide e _ _
  | .flush e _ => some e
  | _ => none

def Delivery.smooth (db : BillingDb) (d : Delivery) : Bool :=
  match d with
  | .lookup payload =>
    match payload.dictGet "id" with
    | .ok id => !bearing payload || db.sameEvent id payload
    | .error _ => true
  | d => d.event?.all fun e => !bearing e.payload || e.smooth db d

/-- The condition on a step. -/
def deliversSmoothly (w : World BillingStore BillingLock Delivery) : Action Json Empty → Bool
  | .run id => (w.running.get? id).all (·.locals.smooth w.store.db)
  | _ => true

variable {s : BillingStore} {db : BillingDb} {e : ReadEvent} {held : List BillingLock}

theorem BillingDb.sameEvent_iff {eventId payload : Json} :
    db.sameEvent eventId payload = true ↔ ∀ r ∈ db.receipts, eventId = .str r.stripeEventId →
      r.payload = payload := by
  unfold BillingDb.sameEvent
  simp only [List.all_eq_true, decide_eq_true_eq]

/-- The condition, for an entitlement-bearing event. -/
theorem Delivery.smooth_of {d : Delivery} (h : d.smooth db = true) (hevent : d.event? = some e)
    (hbearing : bearing e.payload = true) : e.smooth db d = true := by
  unfold Delivery.smooth at h
  split at h
  · cases hevent
  · rw [hevent, Option.all_some, hbearing] at h
    simpa using h

/-! ## What the statements read -/

/-- The event is read off its payload. -/
def ReadEvent.Reads (e : ReadEvent) : Prop :=
  e.payload.dictGet "id" = .ok (.str e.id) ∧ (e.payload.get "type").text? = some e.eventType

/-- The handler of the event reads the order of events, under the lock of the row. -/
def ReadEvent.ordered (e : ReadEvent) : Bool :=
  (StripeEventType.ofName e.eventType).bearsEntitlement

theorem ReadEvent.Reads.ordered (h : e.Reads) (hbearing : bearing e.payload = true) :
    e.ordered = true := by
  unfold bearing at hbearing
  unfold ReadEvent.ordered
  rw [h.2, Option.map_some] at hbearing
  cases hkind : StripeEventType.ofName e.eventType with
  | subscription => rfl
  | paymentFailed => rfl
  | checkoutCompleted => simp [hkind] at hbearing
  | ignored => simp [hkind] at hbearing

theorem boundText_ok {v : Json} {text : String} (h : v.boundText = .ok text) : v = .str text := by
  cases v with
  | str t =>
    cases h
    rfl
  | _ => cases h

theorem dictGet_get {v found : Json} {key : String} (h : v.dictGet key = .ok found) :
    v.get key = found := by
  cases v with
  | obj fields =>
    cases h
    rfl
  | _ => cases h

theorem readEvent_reads {payload id eventType : Json} (hid : payload.dictGet "id" = .ok id)
    (htype : payload.dictGet "type" = .ok eventType) (h : readEvent payload id eventType = .ok e) :
    e.payload = payload ∧ id = .str e.id ∧ e.Reads := by
  unfold readEvent at h
  simp only [bind, Except.bind, pure, Except.pure] at h
  split at h
  · cases h
  rename_i text htext
  split at h
  · cases h
  split at h
  · cases h
  split at h
  · cases h
  split at h
  · cases h
  rename_i name hname
  cases h
  have hidtext := boundText_ok htext
  refine ⟨rfl, hidtext, hidtext ▸ hid, ?_⟩
  rw [dictGet_get htype, boundText_ok hname]
  rfl

/-- A look-up finds the receipt, or the event is read. -/
theorem lookupReceipt_ok {payload : Json} {d : Delivery} (h : lookupReceipt db payload = .ok d) :
    (∃ id, payload.dictGet "id" = .ok (.str id) ∧ db.isReceived id = true ∧
    d = .duplicate payload) ∨
      ∃ e, d = .claim e ∧ e.Reads := by
  unfold lookupReceipt at h
  simp only [bind, Except.bind, pure, Except.pure] at h
  split at h
  · cases h
  rename_i id hid
  split at h
  · cases h
  rename_i eventType htype
  split at h
  · split at h
    · cases h
    rename_i text htext
    split at h
    · rename_i hreceived
      cases h
      exact .inl ⟨text, boundText_ok htext ▸ hid, hreceived, rfl⟩
    · split at h
      · cases h
      rename_i e he
      cases h
      exact .inr ⟨e, rfl, (readEvent_reads hid htype he).2.2⟩
  · cases h

theorem mirror_workspaceId {row row' : WorkspaceBilling} {subscription : Json} {status : String}
    (h : row.mirror subscription status = .ok row') : row'.workspaceId = row.workspaceId := by
  unfold WorkspaceBilling.mirror at h
  simp only [bind, Except.bind, pure, Except.pure] at h
  split at h
  · cases h
  split at h
  · cases h
  split at h
  · cases h
  split at h
  · cases h
  split at h
  · cases h
  split at h
  · cases h
  cases h
  rfl

/-- An event leaves the key of the row. -/
theorem ReadEvent.describe_workspaceId {row row' : WorkspaceBilling}
    (h : e.describe row = .ok row') :
    row'.workspaceId = row.workspaceId := by
  unfold ReadEvent.describe at h
  simp only [bind, Except.bind, pure, Except.pure] at h
  split at h
  · split at h
    · cases h
    · exact mirror_workspaceId h
  · cases h
    rfl
  · split at h
    · cases h
    split at h
    · cases h
    cases h
    rfl
  · cases h
    rfl

/-- A superseded event is ordered, and there is an event at least as new. -/
theorem ReadEvent.superseded_of {workspaceId : Nat}
    (h : e.isSuperseded s.db workspaceId = .ok true) :
    e.ordered = true ∧ s.Superseded e.id e.payload workspaceId := by
  have hfact : ∀ granting,
      ContentOrchestrator.isSuperseded (latestAppliedEventCreated s.db workspaceId e.id)
      (createdOf e.payload) granting = true → s.Superseded e.id e.payload workspaceId := by
    intro granting hsuperseded
    cases hcreated : createdOf e.payload with
    | none => simp [ContentOrchestrator.isSuperseded, hcreated] at hsuperseded
    | some c =>
      rw [hcreated] at hsuperseded
      obtain ⟨m, hm, hcase⟩ := isSuperseded_some.mp hsuperseded
      obtain ⟨r, hr, hcounts, hrm⟩ := (latest_eq_some.mp hm).1
      exact ⟨c, hcreated, r, hr, hcounts, m, hrm,
        hcase.elim Int.le_of_lt fun htie => Int.le_of_eq htie.1⟩
  unfold ReadEvent.isSuperseded at h
  unfold ReadEvent.ordered
  simp only [bind, Except.bind, pure, Except.pure] at h
  split at h
  · rename_i hkind
    split at h
    · cases h
    rw [hkind]
    exact ⟨rfl, hfact _ (Except.ok.inj h)⟩
  · rename_i hkind
    rw [hkind]
    exact ⟨rfl, hfact _ (Except.ok.inj h)⟩
  · cases h

/-! ## The rows -/

theorem billingOf_workspaceId {workspaceId : Nat} {row : WorkspaceBilling}
    (h : db.billingOf workspaceId = some row) :
    row.workspaceId = workspaceId :=
  (mem_of_billingOf h).2

theorem BillingWrite.over_loaded {w : BillingWrite} (h : w.row.workspaceId = w.loaded.workspaceId) :
    w.over w.loaded = w.row := by
  unfold BillingWrite.over
  obtain ⟨workspaceId, loaded, row⟩ := w
  cases row
  cases loaded
  simp only at h
  subst h
  simp only [WorkspaceBilling.mk.injEq, true_and]
  refine ⟨?_, ?_, ?_, ?_, ?_, ?_⟩ <;> split <;> simp_all

theorem billingOf_setBilling_other {r : WorkspaceBilling} {v : Nat} (hne : v ≠ r.workspaceId) :
    (db.setBilling r).billingOf v = db.billingOf v := by
  unfold BillingDb.setBilling BillingDb.billingOf
  rw [List.find?_map]
  have hsame : ((fun b : WorkspaceBilling => b.workspaceId == v) ∘ fun b =>
      if b.workspaceId = r.workspaceId then r else b) =
      fun b => b.workspaceId == v := by
    funext b
    simp only [Function.comp_apply]
    split
    · rename_i hb
      rw [hb]
    · rfl
  rw [hsame]
  cases hfound : db.billing.find? (fun b => b.workspaceId == v) with
  | none => rfl
  | some row =>
    have hid : row.workspaceId = v := by
      simpa using List.find?_some hfound
    rw [Option.map_some, if_neg (hid ▸ hne)]

/-- A write leaves the rows of the other workspaces. -/
theorem BillingWrite.commit_other {w : BillingWrite} {v : Nat}
    (hrow : w.row.workspaceId = w.workspaceId) (hne : v ≠ w.workspaceId) :
    (w.commit db).billingOf v = db.billingOf v := by
  unfold BillingWrite.commit
  split
  · rename_i row hfound
    have hid := billingOf_workspaceId hfound
    have hne' : v ≠ (w.over row).workspaceId := fun heq => hne (heq.trans hid)
    exact billingOf_setBilling_other hne'
  · unfold BillingDb.billingOf
    rw [List.find?_append]
    have hlast : [w.row].find? (·.workspaceId == v) = none := by
      rw [List.find?_cons_of_neg (by simpa [hrow] using Ne.symm hne)]
      rfl
    rw [hlast, Option.or_none]

theorem BillingWrite.commit_receipts (w : BillingWrite) : (w.commit db).receipts = db.receipts := by
  unfold BillingWrite.commit
  split
  · rfl
  · rfl

/-! ## What commits leave -/

variable {workspaceId : Option Nat} {write : Option BillingWrite}

/-- A commit appends its receipt. -/
theorem commitDelivery_receipts :
    (commitDelivery e workspaceId write s).db.receipts =
    s.db.receipts ++ [e.receipt workspaceId] := by
  unfold commitDelivery
  cases write with
  | none => rfl
  | some w => exact congrArg (· ++ [e.receipt workspaceId]) w.commit_receipts

theorem BillingStore.Superseded.commit {eventId : String} {payload : Json} {v : Nat}
    (h : s.Superseded eventId payload v) :
    (commitDelivery e workspaceId write s).Superseded eventId payload v := by
  obtain ⟨c, hc, r, hr, hrest⟩ := h
  refine ⟨c, hc, r, ?_, hrest⟩
  rw [commitDelivery_receipts]
  exact List.mem_append_left _ hr

theorem BillingStore.Settled.commit {eventId : String} {payload : Json}
    (h : s.Settled eventId payload) :
    (commitDelivery e workspaceId write s).Settled eventId payload := by
  obtain ⟨x, hx, hid, hcase⟩ := h
  exact ⟨x, List.mem_append_left _ hx, hid, hcase.imp_right BillingStore.Superseded.commit⟩

theorem BillingStore.Recorded.commit {payload : Json} (h : s.Recorded payload) :
    (commitDelivery e workspaceId write s).Recorded payload := by
  obtain ⟨r, hr, hpayload, hid, hsettled⟩ := h
  refine ⟨r, ?_, hpayload, hid, hsettled.commit⟩
  rw [commitDelivery_receipts]
  exact List.mem_append_left _ hr

/-- The rows of workspaces that the commit does not lock stay. -/
theorem commitDelivery_rows {v : Nat}
    (h : ∀ w, write = some w → w.row.workspaceId = w.workspaceId ∧ v ≠ w.workspaceId) :
    (commitDelivery e workspaceId write s).db.billingOf v = s.db.billingOf v := by
  unfold commitDelivery
  cases write with
  | none => rfl
  | some w =>
    obtain ⟨hrow, hne⟩ := h w rfl
    exact w.commit_other hrow hne

/-! ## The assertions -/

/-- The write makes of the committed row what the event makes of it. -/
def BillingWrite.Applies (w : BillingWrite) (db : BillingDb) (e : ReadEvent) : Prop :=
  db.rowOrNew w.workspaceId = w.loaded ∧ e.describe w.loaded = .ok w.row

/-- What is known of a delivery before its next statement, over what is committed and its own
locks. -/
def Delivery.Asserts (s : BillingStore) (held : List BillingLock) : Delivery → Prop
  | .lookup _ => True
  | .claim e | .branch e | .byCustomer e | .insertRow e _ => e.Reads
  | .lockRow e workspaceId loaded => e.Reads ∧ ∀ row, loaded = some row →
      row.workspaceId = workspaceId
  | .decide e workspaceId loaded =>
    e.Reads ∧ loaded.workspaceId = workspaceId ∧ (e.ordered = true → .row workspaceId ∈ held)
  | .flush e w =>
    e.Reads ∧ w.loaded.workspaceId = w.workspaceId ∧ w.row.workspaceId = w.workspaceId ∧
      (e.ordered = true → .row w.workspaceId ∈ held) ∧ (bearing e.payload = true → w.Applies s.db e)
  | .processed e _ none => e.Reads ∧ bearing e.payload = false
  | .processed e _ (some w) =>
    e.Reads ∧ w.loaded.workspaceId = w.workspaceId ∧ w.row.workspaceId = w.workspaceId ∧
      .row w.workspaceId ∈ held ∧
      (bearing e.payload = true → s.Superseded e.id e.payload w.workspaceId ∨ w.Applies s.db e)
  | .duplicate payload => bearing payload = true → s.Recorded payload
  | .failed _ => True

/-- Receipts of entitlement-bearing events stand for settled events. -/
def BillingStore.Settles (s : BillingStore) : Prop :=
  ∀ r ∈ s.db.receipts, bearing r.payload = true → s.Settled r.stripeEventId r.payload

theorem BillingStore.Settles.recorded (h : s.Settles) {id : String} {payload : Json}
    (hid : payload.dictGet "id" = .ok (.str id)) (hreceived : s.db.isReceived id = true)
    (hsame : s.db.sameEvent (.str id) payload = true) (hbearing : bearing payload = true) :
    s.Recorded payload := by
  obtain ⟨r, hr, hrid⟩ := List.any_eq_true.mp hreceived
  have heq : r.stripeEventId = id := by simpa using hrid
  have hpayload : r.payload = payload := BillingDb.sameEvent_iff.mp hsame r hr (by rw [heq])
  refine ⟨r, hr, hpayload, heq ▸ hid, ?_⟩
  rw [← hpayload]
  exact h r hr (hpayload ▸ hbearing)

/-! ## Statement by statement -/

variable {d : Delivery}

theorem asserts_orFailed {next : Except BillingFailure Delivery}
    (h : ∀ d, next = .ok d → d.Asserts s held) : (orFailed next).Asserts s held := by
  unfold orFailed
  split
  · exact h _ rfl
  · trivial

theorem lookup_asserts (hsettles : s.Settles) {payload : Json}
    (hsmooth : (Delivery.lookup payload).smooth s.db = true) :
    (orFailed (lookupReceipt s.db payload)).Asserts s held := by
  refine asserts_orFailed fun d hd => ?_
  rcases lookupReceipt_ok hd with ⟨id, hid, hreceived, rfl⟩ | ⟨e, rfl, hreads⟩
  · intro hbearing
    have hsame : s.db.sameEvent (.str id) payload = true := by
      simpa [Delivery.smooth, hid, hbearing] using hsmooth
    exact hsettles.recorded hid hreceived hsame hbearing
  · exact hreads

theorem claim_asserts (hsettles : s.Settles) (hreads : e.Reads)
    (hsmooth : (Delivery.claim e).smooth s.db = true) :
    (claimReceipt s.db e).Asserts s held := by
  unfold claimReceipt
  split
  · rename_i hreceived
    intro hbearing
    have hcondition := Bool.and_eq_true_iff.mp (Delivery.smooth_of hsmooth rfl hbearing)
    exact hsettles.recorded hreads.1 hreceived hcondition.1 hbearing
  · rename_i hnew
    split
    · exact hreads
    · rename_i hunknown
      intro hbearing
      have hcondition := Bool.and_eq_true_iff.mp (Delivery.smooth_of hsmooth rfl hbearing)
      rw [Bool.eq_false_iff.mpr hnew, Bool.false_or] at hcondition
      exact absurd hcondition.2 hunknown

theorem branch_asserts (hreads : e.Reads) (hsmooth : (Delivery.branch e).smooth s.db = true) :
    (orFailed (enterBranch s.db e)).Asserts s held := by
  refine asserts_orFailed fun d hd => ?_
  have hunordered : ∀ {kind}, StripeEventType.ofName e.eventType = kind →
      kind.bearsEntitlement = false →
      bearing e.payload = false := by
    intro kind hkind hkinds
    rw [← Bool.not_eq_true]
    intro hbearing
    have hordered := hreads.ordered hbearing
    rw [ReadEvent.ordered, hkind, hkinds] at hordered
    cases hordered
  unfold enterBranch at hd
  simp only [bind, Except.bind, pure, Except.pure] at hd
  split at hd
  · rename_i hkind
    split at hd
    · cases hd
    split at hd
    · rename_i row hrow
      cases hd
      refine ⟨hreads, billingOf_workspaceId hrow, fun hordered => ?_⟩
      rw [ReadEvent.ordered, hkind] at hordered
      cases hordered
    · cases hd
      exact hreads
  · split at hd
    · cases hd
      exact ⟨hreads, fun row hrow => by cases hrow⟩
    · split at hd
      · cases hd
      split at hd
      · cases hd
        exact ⟨hreads, fun row hrow => by
          cases hrow
          rfl⟩
      · cases hd
        exact hreads
  · rename_i hkind
    split at hd
    · cases hd
    rename_i subscription hsubscription
    split at hd
    · cases hd
      exact ⟨hreads, fun row hrow => by cases hrow⟩
    · rename_i hfound
      cases hd
      refine ⟨hreads, ?_⟩
      rw [← Bool.not_eq_true]
      intro hbearing
      have hlinked := Delivery.smooth_of hsmooth rfl hbearing
      simp [ReadEvent.smooth, hkind, hsubscription, hfound] at hlinked
  · rename_i hkind
    cases hd
    exact ⟨hreads, hunordered hkind rfl⟩

theorem byCustomer_asserts (hreads : e.Reads) :
    (orFailed (findByCustomer s.db e)).Asserts s held := by
  refine asserts_orFailed fun d hd => ?_
  unfold findByCustomer at hd
  simp only [bind, Except.bind, pure, Except.pure] at hd
  split at hd
  · cases hd
  split at hd
  · cases hd
    exact ⟨hreads, fun row hrow => by
      cases hrow
      rfl⟩
  · cases hd

theorem lockRow_asserts {v : Nat} {loaded : Option WorkspaceBilling} {held' : List BillingLock}
    (hreads : e.Reads) (hloaded : ∀ row, loaded = some row → row.workspaceId = v)
    (hlocks : (s.db.billingOf v).isSome = true → .row v ∈ held') :
    (afterLock s.db e v loaded).Asserts s held' := by
  unfold afterLock
  split
  · rename_i row hrow
    refine ⟨hreads, ?_, fun _ => hlocks (by rw [hrow]; rfl)⟩
    cases loaded with
    | none => exact billingOf_workspaceId hrow
    | some found => exact hloaded found rfl
  · exact hreads

theorem insertRow_asserts {v : Nat} (hreads : e.Reads)
    (hsmooth : (Delivery.insertRow e v).smooth s.db = true) (hlock : .row v ∈ held) :
    (afterInsert s.db e v).Asserts s held := by
  unfold afterInsert
  split
  · rename_i hrefused
    intro hbearing
    obtain ⟨hfree, haccepted⟩ := Bool.and_eq_true_iff.mp (Delivery.smooth_of hsmooth rfl hbearing)
    rw [Option.isNone_iff_eq_none] at hfree haccepted
    simp [hfree, haccepted] at hrefused
  · exact ⟨hreads, rfl, fun _ => hlock⟩

theorem decide_asserts {v : Nat} {loaded : WorkspaceBilling} (hreads : e.Reads)
    (hid : loaded.workspaceId = v) (hlock : e.ordered = true → .row v ∈ held)
    (hsmooth : (Delivery.decide e v loaded).smooth s.db = true) :
    (orFailed (decideRow s.db e v loaded)).Asserts s held := by
  refine asserts_orFailed fun d hd => ?_
  unfold decideRow at hd
  simp only [bind, Except.bind, pure, Except.pure] at hd
  split at hd
  · cases hd
  rename_i superseded hsuperseded
  split at hd
  · rename_i hyes
    cases hd
    rw [hyes] at hsuperseded
    obtain ⟨hordered, hfact⟩ := ReadEvent.superseded_of hsuperseded
    exact ⟨hreads, hid, hid, hlock hordered, fun _ => .inl hfact⟩
  · rename_i hno
    split at hd
    · cases hd
    rename_i row hrow
    cases hd
    rw [Bool.not_eq_true] at hno
    rw [hno] at hsuperseded
    refine ⟨hreads, hid, (ReadEvent.describe_workspaceId hrow).trans hid, hlock,
      fun hbearing => ⟨?_, hrow⟩⟩
    have hunchanged := Delivery.smooth_of hsmooth rfl hbearing
    simpa [ReadEvent.smooth, hsuperseded] using hunchanged

theorem flush_asserts {w : BillingWrite} (h : (Delivery.flush e w).Asserts s held)
    (hsmooth : (Delivery.flush e w).smooth s.db = true) {held' : List BillingLock}
    (hlock : .row w.workspaceId ∈ held') :
    (flushWrite s.db e w).Asserts s held' := by
  obtain ⟨hreads, hloaded, hrow, -, happlies⟩ := h
  unfold flushWrite
  split
  · rename_i hrefused
    intro hbearing
    have haccepted : (w.refused s.db).isNone = true := Delivery.smooth_of hsmooth rfl hbearing
    rw [Option.isNone_iff_eq_none] at haccepted
    simp [haccepted] at hrefused
  · exact ⟨hreads, hloaded, hrow, hlock, fun hbearing => .inr (happlies hbearing)⟩

/-- **A statement establishes the next assertion.** -/
theorem Delivery.next_asserts {d' : Delivery} {held' : List BillingLock} (hsettles : s.Settles)
    (h : d.Asserts s held) (hsmooth : d.smooth s.db = true)
    (hnext : d.next s.db held = some (held', d')) :
    d'.Asserts s held' := by
  cases d with
  | lookup payload =>
    cases hnext
    exact lookup_asserts hsettles hsmooth
  | claim e =>
    cases hnext
    exact claim_asserts hsettles h hsmooth
  | branch e =>
    cases hnext
    exact branch_asserts h hsmooth
  | byCustomer e =>
    cases hnext
    exact byCustomer_asserts h
  | lockRow e v loaded =>
    dsimp only [Delivery.next] at hnext
    split at hnext
    · cases hnext
      exact lockRow_asserts h.1 h.2 fun _ => List.mem_cons_self
    · rename_i hnone
      cases hnext
      exact lockRow_asserts h.1 h.2 fun hsome => absurd hsome hnone
  | insertRow e v =>
    cases hnext
    exact insertRow_asserts h hsmooth List.mem_cons_self
  | decide e v loaded =>
    cases hnext
    exact decide_asserts h.1 h.2.1 h.2.2 hsmooth
  | flush e w =>
    cases hnext
    exact flush_asserts h hsmooth List.mem_cons_self
  | processed e v write => cases hnext
  | duplicate payload => cases hnext
  | failed failure => cases hnext

/-! ## The commit -/

theorem BillingWrite.Applies.takesEffect {w : BillingWrite} (h : w.Applies db e)
    (hid : w.row.workspaceId = w.loaded.workspaceId) : e.takesEffect w db = true := by
  unfold ReadEvent.takesEffect
  rw [h.1, h.2]
  simp [BillingWrite.over_loaded hid]

/-- **What a processed event leaves**: its receipt, and its effect unless it was superseded. -/
theorem processed_recorded (h : (Delivery.processed e workspaceId write).Asserts s held)
    (hbearing : bearing e.payload = true) :
    (commitDelivery e workspaceId write s).Recorded e.payload := by
  cases write with
  | none =>
    rw [h.2] at hbearing
    cases hbearing
  | some w =>
    obtain ⟨hreads, hloaded, hrow, -, hsettles⟩ := h
    refine ⟨e.receipt workspaceId, ?_, rfl, hreads.1, ⟨e.id, w.workspaceId, e.takesEffect w s.db⟩,
      ?_, rfl, ?_⟩
    · rw [commitDelivery_receipts]
      exact List.mem_append_right _ List.mem_cons_self
    · exact List.mem_append_right _ List.mem_cons_self
    · rcases hsettles hbearing with hsuperseded | happlies
      · exact .inr hsuperseded.commit
      · exact .inl (happlies.takesEffect (hrow.trans hloaded.symm))

/-- What another delivery knows stays true, as far as rows are concerned because it holds their
locks. -/
theorem asserts_commit {d' : Delivery} {held' : List BillingLock}
    (h : (Delivery.processed e workspaceId write).Asserts s held) (hother : d'.Asserts s held')
    (hexclusive : ∀ k ∈ held, k ∉ held') :
    d'.Asserts (commitDelivery e workspaceId write s) held' := by
  have happlies : ∀ {w : BillingWrite} {e' : ReadEvent}, .row w.workspaceId ∈ held' →
      w.Applies s.db e' →
      w.Applies (commitDelivery e workspaceId write s).db e' := by
    intro w e' hlock hw
    refine ⟨?_, hw.2⟩
    have hrows : (commitDelivery e workspaceId write s).db.billingOf w.workspaceId =
        s.db.billingOf w.workspaceId := by
      refine commitDelivery_rows fun written hwritten => ?_
      subst hwritten
      exact ⟨h.2.2.1, fun heq => hexclusive _ h.2.2.2.1 (heq ▸ hlock)⟩
    rw [← hw.1]
    unfold BillingDb.rowOrNew
    rw [hrows]
  cases d' with
  | lookup payload => trivial
  | claim e' => exact hother
  | branch e' => exact hother
  | byCustomer e' => exact hother
  | lockRow e' v loaded => exact hother
  | insertRow e' v => exact hother
  | decide e' v loaded => exact hother
  | flush e' w =>
    obtain ⟨hreads, hloaded, hrow, hlock, hw⟩ := hother
    exact ⟨hreads, hloaded, hrow, hlock, fun hbearing =>
      happlies (hlock (hreads.ordered hbearing)) (hw hbearing)⟩
  | processed e' v write' =>
    cases write' with
    | none => exact hother
    | some w =>
      obtain ⟨hreads, hloaded, hrow, hlock, hw⟩ := hother
      exact ⟨hreads, hloaded, hrow, hlock, fun hbearing =>
        (hw hbearing).imp BillingStore.Superseded.commit (happlies hlock)⟩
  | duplicate payload => exact fun hbearing => (hother hbearing).commit
  | failed failure => trivial

theorem settles_commit (hsettles : s.Settles)
    (h : (Delivery.processed e workspaceId write).Asserts s held) :
    (commitDelivery e workspaceId write s).Settles := by
  intro r hr hbearing
  rw [commitDelivery_receipts] at hr
  rcases List.mem_append.mp hr with hr | hr
  · exact (hsettles r hr hbearing).commit
  · rw [List.mem_singleton.mp hr] at hbearing ⊢
    have hreads : e.Reads := by
      cases write with
      | none => exact h.1
      | some w => exact h.1
    obtain ⟨r', -, -, hid, hsettled⟩ := processed_recorded h hbearing
    have hsame : r'.stripeEventId = e.id := by
      have heq := hid.symm.trans hreads.1
      injection heq with heq
      injection heq
    rw [hsame] at hsettled
    exact hsettled

/-! ## Runs -/

theorem webhook_outline :
    Outline webhook (fun w a => deliversSmoothly w a = true) BillingStore.Settles
      Delivery.Asserts where
  starts := by
    intro w payload _ _
    trivial
  runs := by
    intro w x held locals hw hx hok hnext _
    have hsmooth : x.locals.smooth w.store.db = true := by
      have hcondition : (w.running.get? x.id).all (·.locals.smooth w.store.db) = true := hok
      have hfound : w.running.get? x.id = some x := Table.get?_of_mem hx
      rw [hfound] at hcondition
      exact hcondition
    exact Delivery.next_asserts hw.store (hw.running x hx) hsmooth hnext
  commits := by
    intro w x u hw hx _ hcommit
    obtain ⟨id, held, d⟩ := x
    cases d with
    | processed e workspaceId write =>
      cases hcommit
      have hasserts := hw.running _ hx
      refine ⟨settles_commit hw.store hasserts, fun y hy hne => ?_⟩
      exact asserts_commit hasserts (hw.running y hy) (hw.exclusive _ hx y hy (Ne.symm hne))
    | duplicate payload =>
      cases hcommit
      exact ⟨hw.store, fun y hy _ => hw.running y hy⟩
    | _ => cases hcommit
  others := by
    intro w event
    cases event

theorem settles_startingAt (db : BillingDb) : (BillingStore.startingAt db).Settles := by
  intro r hr _
  exact ⟨⟨r.stripeEventId, r.workspaceId.getD 0, true⟩, List.mem_map.mpr ⟨r, hr, rfl⟩, rfl,
    .inl rfl⟩

/-- **No acknowledged event is lost** in any interleaving of deliveries whose steps meet the
condition, from any database. -/
theorem acknowledged_events_kept {w : World BillingStore BillingLock Delivery}
    (hreach : Reach webhook.Steps (fun w a => deliversSmoothly w a = true)
    ⟨BillingStore.startingAt db, ∅⟩ w) : Acknowledges w := by
  have hw := webhook_outline.sound (World.Holds.idle (settles_startingAt db)) hreach
  refine ⟨hw.store, fun x hx e workspaceId write hx' hbearing => ?_, fun x hx payload hx' => ?_,
    fun x hx failure hx' => ?_⟩
  · have hasserts := hw.running x hx
    rw [hx'] at hasserts
    exact processed_recorded hasserts hbearing
  · have hasserts := hw.running x hx
    rw [hx'] at hasserts
    exact hasserts
  · have hfound : w.running.get? x.id = some x := Table.get?_of_mem hx
    simp [Code.step, hfound, hx', webhook, Delivery.commit]

/-! ## One event twice, and one that is not stored -/

/-- A workspace linked to a subscription. -/
def linkedBilling : BillingDb where
  workspaces := [1]
  billing := [{ workspaceId := 1, stripeSubscriptionId := some "sub_1", plan := "pro"
                status := "active" }]

def linkedWorld : World BillingStore BillingLock Delivery := ⟨.startingAt linkedBilling, ∅⟩

/-- Two deliveries of the event at once: the second waits for the first one's receipt. -/
def deliveredTwice (e : StripeEvent) : List (Action Json Empty) :=
  [.start e.payload, .start e.payload, .run 1] ++ List.replicate 6 (.run 0) ++
    [.run 1, .commit 0, .run 1]

theorem acknowledged_events_kept_twice :
    Acknowledges (replay webhook.step linkedWorld
        (deliveredTwice (subscriptionUpdated "sub_1" "evt_1" "past_due" 1 (Eq.refl true)))) ∧
      (replay webhook.step linkedWorld (deliveredTwice
        (subscriptionUpdated "sub_1" "evt_1" "past_due" 1 (Eq.refl true)))).store.effects =
          [⟨"evt_1", 1, true⟩] := by
  have hadmits : admits webhook.step deliversSmoothly linkedWorld
      (deliveredTwice (subscriptionUpdated "sub_1" "evt_1" "past_due" 1 (Eq.refl true))) = true := by
    decide +kernel
  exact ⟨acknowledged_events_kept (reach_replay _ _ hadmits), by decide +kernel⟩

/-- An update to a status that the table does not list. -/
def pausedEvent : StripeEvent := subscriptionUpdated "sub_1" "evt_1" "paused" 1 (Eq.refl true)

/-- The event is answered as a duplicate, and leaves nothing. -/
theorem unstorable_event_lost :
    ¬ ∀ (db : BillingDb) (w : World BillingStore BillingLock Delivery),
        Reach webhook.Steps (fun _ _ => True) ⟨BillingStore.startingAt db, ∅⟩ w →
          Acknowledges w := by
  intro h
  have hacknowledges := h linkedBilling _
    (reach_any (.start pausedEvent.payload :: List.replicate 6 (.run 0)) linkedWorld)
  have hanswered : ∃ x ∈ (replay webhook.step linkedWorld
      (.start pausedEvent.payload :: List.replicate 6 (.run 0))).running.rows,
      x.locals = .duplicate pausedEvent.payload := by
    decide +kernel
  obtain ⟨x, hx, hlocals⟩ := hanswered
  obtain ⟨r, hr, -⟩ := hacknowledges.duplicate x hx pausedEvent.payload hlocals (by decide)
  have hnone : (replay webhook.step linkedWorld
      (.start pausedEvent.payload :: List.replicate 6 (.run 0))).store.db.receipts.length = 0 := by
    decide +kernel
  rw [List.length_eq_zero_iff.mp hnone] at hr
  cases hr

end ContentOrchestrator

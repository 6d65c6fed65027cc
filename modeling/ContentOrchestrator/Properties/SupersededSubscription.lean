import ContentOrchestrator.Billing.Deliveries
import ContentOrchestrator.Lib.Transition

/-! # A superseded subscription

A workspace has moved from one subscription to another. The events of the old one leave
it alone as long as each of them is superseded where it is delivered; the run is then,
as far as the workspace goes, the run of the new subscription's events. -/

namespace ContentOrchestrator

open Lib

variable {db now : BillingDb} {e : StripeEvent} {old new : String} {w : Nat}

/-- The workspace is linked to the new subscription, and nobody to the old one. -/
structure BillingDb.Moved (db : BillingDb) (old new : String) (w : Nat) : Prop where
  sound : db.Sound
  linked : ∃ row, db.billingOf w = some row ∧ row.stripeSubscriptionId = some new
  unlinked : ∀ row ∈ db.billing, row.stripeSubscriptionId ≠ some old

/-- An event of the old or the new subscription, about the workspace if it names one. -/
structure StripeEvent.Concerns (e : StripeEvent) (s : String) (w : Nat) : Prop where
  subject : e.subject = some s
  workspace : ∀ id, e.workspaceId = some id → id = w

/-- An event of the old subscription changes no row and does not raise the mark of the workspace: it
is superseded where it would be applied, and a failed payment that names the workspace is no later
than what is recorded. -/
def StripeEvent.keepsOut (w : Nat) (db : BillingDb) (e : StripeEvent) : Bool :=
  db.isReceived e.id ||
    match e.kind with
    | .subscription =>
      (e.workspaceIn db).all fun x =>
        isSuperseded (latestAppliedEventCreated db x e.id) e.created e.isGranting
    | _ =>
      e.workspaceId.isNone || e.created.all fun c =>
        (latestAppliedEventCreated db w e.id).any fun m => decide (c ≤ m)

def StripeEvent.isOf (s : String) (e : StripeEvent) : Bool := e.subject == some s

/-- Events of the old subscription keep out. -/
def keepsOutOld (old : String) (w : Nat) (db : BillingDb) (e : StripeEvent) : Bool :=
  !e.isOf old || e.keepsOut w db

/-- The databases differ in receipts of the old subscription only, which do not count for the
workspace. -/
structure BillingDb.Agrees (w : Nat) (foreign : String → Prop) (a b : BillingDb) : Prop where
  billing : a.billing = b.billing
  workspaces : a.workspaces = b.workspaces
  received : ∀ id, ¬ foreign id → a.isReceived id = b.isReceived id
  latest : ∀ id, a.isReceived id = false → b.isReceived id = false →
    latestAppliedEventCreated a w id = latestAppliedEventCreated b w id

theorem StripeEvent.subject_eq_some {s : String} :
    e.subject = some s ↔ e.kind = .subscription ∧ e.field "id" = .str s ∨
      e.kind = .paymentFailed ∧ e.field "subscription" = .str s := by
  unfold StripeEvent.subject
  cases e.kind with
  | subscription => simp [text?_eq_some]
  | paymentFailed => simp [text?_eq_some]
  | checkoutCompleted => simp
  | ignored => simp

theorem BillingDb.Moved.exists_workspace (h : db.Moved old new w) {s : String}
    (he : e.Concerns s w) :
    ∀ id, e.workspaceId = some id → id ∈ db.workspaces := by
  intro id hid
  obtain ⟨row, hrow, -⟩ := h.linked
  obtain ⟨hmem, hw⟩ := mem_of_billingOf hrow
  rw [he.workspace id hid, ← hw]
  exact (h.sound.accepted row hmem).workspace

theorem BillingDb.Moved.record (h : db.Moved old new w) (x : Option Nat) :
    (db.record e x).Moved old new w where
  sound := h.sound.record x
  linked := h.linked
  unlinked := h.unlinked

theorem BillingDb.Moved.setBilling (h : db.Moved old new w) {row' : WorkspaceBilling}
    (haccepted : Accepted db row') (hid : row'.workspaceId = w)
    (hlinked : row'.stripeSubscriptionId = some new) (hne : old ≠ new) :
    (db.setBilling row').Moved old new w where
  sound := h.sound.setBilling haccepted
  linked := by
    obtain ⟨row, hrow, -⟩ := h.linked
    exact ⟨row', hid ▸ billingOf_setBilling (hid.symm ▸ hrow), hlinked⟩
  unlinked := by
    intro row hrow
    rcases mem_setBilling hrow with rfl | ⟨hold, -⟩
    · rw [hlinked]
      exact fun heq => hne (Option.some.inj heq).symm
    · exact h.unlinked row hold

/-! ## Events of the old subscription -/

/-- The workspace of an event that names none, or names this one, has a row. -/
theorem BillingDb.Moved.row_of (h : now.Moved old new w) (he : e.Concerns old w) {x : Nat}
    (hfound : e.workspaceIn now = some x) : ∃ row, now.billingOf x = some row := by
  unfold StripeEvent.workspaceIn at hfound
  cases hmeta : e.workspaceId with
  | some id =>
    rw [hmeta] at hfound
    cases hfound
    obtain ⟨row, hrow, -⟩ := h.linked
    exact ⟨row, he.workspace x hmeta ▸ hrow⟩
  | none =>
    rw [hmeta] at hfound
    obtain ⟨row, hrow, rfl⟩ := Option.map_eq_some_iff.mp hfound
    have hmem : row ∈ now.billing := by
      rcases Option.or_eq_some_iff.mp hrow with hsub | ⟨-, hcustomer⟩
      · obtain ⟨s, -, hs⟩ := Option.bind_eq_some_iff.mp hsub
        exact List.mem_of_find?_eq_some hs
      · obtain ⟨c, -, hc⟩ := Option.bind_eq_some_iff.mp hcustomer
        exact List.mem_of_find?_eq_some hc
    exact ⟨row, h.sound.billingOf hmem⟩

/-- What an event that keeps out does: nothing, or a receipt that leaves the workspace's mark. -/
theorem deliver_keepsOut (h : now.Moved old new w) (he : e.Concerns old w)
    (hout : e.keepsOut w now = true) :
    deliverEvent now e.payload = now ∨
      ∃ x, deliverEvent now e.payload = now.record e x ∧
        ∀ id, now.isReceived id = false →
          latestAppliedEventCreated (now.record e x) w id = latestAppliedEventCreated now w id := by
  by_cases hreceived : now.isReceived e.id = true
  · exact .inl (deliverEvent_received hreceived)
  have hnew : now.isReceived e.id = false := Bool.eq_false_iff.mpr hreceived
  have hexists := h.exists_workspace he
  -- an event no later than the mark does not raise it
  have hstays : ∀ c m (x : Option Nat), e.created = some c →
      latestAppliedEventCreated now w e.id = some m → c ≤ m →
      ∀ id, now.isReceived id = false →
        latestAppliedEventCreated (now.record e x) w id = latestAppliedEventCreated now w id := by
    intro c m x hc hm hle id hid
    have hsame : latestAppliedEventCreated now w id = some m :=
      (latest_of_unreceived hid hnew).trans hm
    rw [hsame]
    exact latest_record_le hc hsame hle x
  unfold StripeEvent.keepsOut at hout
  rw [hnew, Bool.false_or] at hout
  rcases StripeEvent.subject_eq_some.mp he.subject with ⟨hkind, -⟩ | ⟨hkind, hsubject⟩
  · rw [hkind] at hout
    cases hfound : e.workspaceIn now with
    | none => exact .inl (deliverEvent_unmapped hkind hnew hfound)
    | some x =>
      simp only [hfound, Option.all_some] at hout
      obtain ⟨row, hrow⟩ := h.row_of he hfound
      have hdelivered := deliverEvent_subscription hkind hnew hexists hfound hrow
      rw [if_pos hout] at hdelivered
      refine .inr ⟨some x, hdelivered, fun id hid => ?_⟩
      cases hcreated : e.created with
      | none => exact latest_record_uncounted (.inr hcreated)
      | some c =>
        rw [hcreated] at hout
        obtain ⟨m, hm, hcase⟩ := isSuperseded_some.mp hout
        have hle : c ≤ m := hcase.elim Int.le_of_lt fun htie => Int.le_of_eq htie.1
        by_cases hx : x = w
        · rw [hx] at hm ⊢
          exact hstays c m (some w) hcreated hm hle id hid
        · refine latest_record_uncounted (.inl ?_)
          rw [← Bool.not_eq_true, countsFor_iff]
          exact fun hcounts => hx (Option.some.inj hcounts.1)
  · rw [hkind] at hout
    have hfailed : e.failedRow now = none := by
      cases hrow : e.failedRow now with
      | none => rfl
      | some row =>
        unfold StripeEvent.failedRow at hrow
        rw [hsubject] at hrow
        have hsub : row.stripeSubscriptionId = some old := by
          simpa using (List.find?_eq_some_iff_append.mp hrow).1
        exact absurd hsub (h.unlinked row (List.mem_of_find?_eq_some hrow))
    refine .inr ⟨e.workspaceId, deliverEvent_paymentFailed_unlinked hkind hnew hexists hfailed,
      fun id hid => ?_⟩
    cases hmeta : e.workspaceId with
    | none =>
      refine latest_record_uncounted (.inl ?_)
      rw [← Bool.not_eq_true, countsFor_iff]
      exact fun hcounts => by cases hcounts.1
    | some x =>
      cases hcreated : e.created with
      | none => exact latest_record_uncounted (.inr hcreated)
      | some c =>
        simp only [hmeta, hcreated, Option.isNone_some, Bool.false_or, Option.all_some,
          Option.any_eq_true, decide_eq_true_eq] at hout
        obtain ⟨m, hm, hle⟩ := hout
        exact hstays c m (some x) hcreated hm hle id hid

/-! ## Events of the new subscription -/

variable {foreign : String → Prop} {a b : BillingDb}

theorem refusal_congr (hbilling : a.billing = b.billing) (hworkspaces : a.workspaces = b.workspaces)
    (row : WorkspaceBilling) : refusal a row = refusal b row := by
  unfold refusal
  rw [hbilling, hworkspaces]

theorem BillingDb.Agrees.billingOf (h : BillingDb.Agrees w foreign a b) (x : Nat) :
    a.billingOf x = b.billingOf x := by
  unfold BillingDb.billingOf
  rw [h.billing]

theorem BillingDb.Agrees.record (h : BillingDb.Agrees w foreign a b) (x : Option Nat) :
    BillingDb.Agrees w foreign (a.record e x) (b.record e x) where
  billing := h.billing
  workspaces := h.workspaces
  received id hid := by rw [isReceived_record, isReceived_record, h.received id hid]
  latest id ha hb := by
    rw [isReceived_record, Bool.or_eq_false_iff] at ha hb
    exact latest_record_congr (h.latest id ha.1 hb.1) x

theorem BillingDb.Agrees.setBilling (h : BillingDb.Agrees w foreign a b) (row : WorkspaceBilling) :
    BillingDb.Agrees w foreign (a.setBilling row) (b.setBilling row) where
  billing := by
    unfold BillingDb.setBilling
    rw [h.billing]
  workspaces := h.workspaces
  received := h.received
  latest := h.latest

/-- **An event of the new subscription** does the same on either side. -/
theorem BillingDb.Agrees.deliver (h : BillingDb.Agrees w foreign a b) (ha : a.Moved old new w)
    (hb : b.Moved old new w) (hne : old ≠ new) (he : e.Concerns new w) (hforeign : ¬ foreign e.id) :
    BillingDb.Agrees w foreign (deliverEvent a e.payload) (deliverEvent b e.payload) ∧
      (deliverEvent a e.payload).Moved old new w ∧ (deliverEvent b e.payload).Moved old new w := by
  by_cases hreceived : a.isReceived e.id = true
  · rw [deliverEvent_received hreceived,
      deliverEvent_received (h.received e.id hforeign ▸ hreceived)]
    exact ⟨h, ha, hb⟩
  have hanew : a.isReceived e.id = false := Bool.eq_false_iff.mpr hreceived
  have hbnew : b.isReceived e.id = false := h.received e.id hforeign ▸ hanew
  have hlatest := h.latest e.id hanew hbnew
  obtain ⟨row, harow, hlinked⟩ := ha.linked
  have hbrow : b.billingOf w = some row := h.billingOf w ▸ harow
  obtain ⟨hamem, hid⟩ := mem_of_billingOf harow
  have hbmem : row ∈ b.billing := h.billing ▸ hamem
  have hafound := ha.sound.bySubscription hamem hlinked
  have hbfound := hb.sound.bySubscription hbmem hlinked
  rcases StripeEvent.subject_eq_some.mp he.subject with ⟨hkind, hsubject⟩ | ⟨hkind, hsubject⟩
  · have hworkspaceIn : ∀ {c : BillingDb}, c.bySubscription new = some row →
        e.workspaceIn c = some w := by
      intro c hfound
      unfold StripeEvent.workspaceIn
      cases hmeta : e.workspaceId with
      | some id => rw [he.workspace id hmeta]
      | none => simp [hsubject, Json.text?, hfound, hid]
    rw [deliverEvent_subscription hkind hanew (ha.exists_workspace he) (hworkspaceIn hafound) harow,
      deliverEvent_subscription hkind hbnew (hb.exists_workspace he) (hworkspaceIn hbfound) hbrow,
        hlatest]
    by_cases hsuperseded :
      isSuperseded (latestAppliedEventCreated b w e.id) e.created e.isGranting = true
    · rw [if_pos hsuperseded, if_pos hsuperseded]
      exact ⟨h.record _, ha.record _, hb.record _⟩
    rw [if_neg hsuperseded, if_neg hsuperseded]
    cases hmirror : row.mirror (.obj e.fields) e.status with
    | error failure => exact ⟨h, ha, hb⟩
    | ok row' =>
      obtain ⟨hid', -, -, hsubscription, -⟩ := mirror_ok hmirror
      have hlinked' : row'.stripeSubscriptionId =
          some new := linkedSubscription_same hlinked (hsubject ▸ hsubscription)
      simp only
      rw [refusal_congr h.billing h.workspaces]
      by_cases hrefusal : refusal b row' = none
      · rw [if_pos hrefusal, if_pos hrefusal]
        have haccepted : Accepted a row' :=
          refusal_eq_none.mp ((refusal_congr h.billing h.workspaces row').trans hrefusal)
        exact ⟨(h.setBilling row').record _,
          (ha.setBilling haccepted (hid'.trans hid) hlinked' hne).record _,
          (hb.setBilling (refusal_eq_none.mp hrefusal) (hid'.trans hid) hlinked' hne).record _⟩
      · rw [if_neg hrefusal, if_neg hrefusal]
        exact ⟨h, ha, hb⟩
  · have hfailed : ∀ {c : BillingDb}, c.bySubscription new = some row →
        e.failedRow c = some row := by
      intro c hfound
      unfold StripeEvent.failedRow
      simp [hsubject, Json.text?, hfound]
    rw [deliverEvent_paymentFailed hkind hanew (ha.exists_workspace he) (hfailed hafound) hid harow,
      deliverEvent_paymentFailed hkind hbnew (hb.exists_workspace he) (hfailed hbfound) hid hbrow,
        hlatest,
      refusal_congr h.billing h.workspaces]
    by_cases hsuperseded : isSuperseded (latestAppliedEventCreated b w e.id) e.created false = true
    · rw [if_pos hsuperseded, if_pos hsuperseded]
      exact ⟨h.record _, ha.record _, hb.record _⟩
    rw [if_neg hsuperseded, if_neg hsuperseded]
    by_cases hrefusal : refusal b { row with status := "past_due" } = none
    · rw [if_pos hrefusal, if_pos hrefusal]
      have haccepted : Accepted a { row with status := "past_due" } :=
        refusal_eq_none.mp ((refusal_congr h.billing h.workspaces _).trans hrefusal)
      exact ⟨(h.setBilling _).record _, (ha.setBilling haccepted hid hlinked hne).record _,
        (hb.setBilling (refusal_eq_none.mp hrefusal) hid hlinked hne).record _⟩
    · rw [if_neg hrefusal, if_neg hrefusal]
      exact ⟨h, ha, hb⟩

/-! ## Runs -/

/-- **The run is that of the new subscription's events** as far as the workspace goes. -/
theorem deliverEvents_agrees (hne : old ≠ new) {events : List StripeEvent}
    (hevents : ∀ e ∈ events, e.Concerns old w ∨ e.Concerns new w)
    (hforeign : ∀ e ∈ events, e.Concerns new w → ¬ foreign e.id)
    (hold : ∀ e ∈ events, e.Concerns old w → foreign e.id)
    (hok : admits (fun db (e : StripeEvent) => deliverEvent db e.payload) (keepsOutOld old w) a
      events = true) (h : BillingDb.Agrees w foreign a b) (ha : a.Moved old new w)
    (hb : b.Moved old new w) :
    BillingDb.Agrees w foreign (deliverEvents a events)
      (deliverEvents b (events.filter (StripeEvent.isOf new))) ∧
      (deliverEvents a events).Moved old new w := by
  induction events generalizing a b with
  | nil => exact ⟨h, ha⟩
  | cons e rest ih =>
    obtain ⟨hfirst, hrest⟩ := Bool.and_eq_true_iff.mp hok
    have hlater := fun b' => ih (b := b') (fun d hd => hevents d (List.mem_cons_of_mem _ hd))
      (fun d hd => hforeign d (List.mem_cons_of_mem _ hd))
        (fun d hd => hold d (List.mem_cons_of_mem _ hd)) hrest
    rcases hevents e List.mem_cons_self with he | he
    · have hout : e.keepsOut w a = true := by
        simpa [keepsOutOld, StripeEvent.isOf, he.subject] using hfirst
      have hskip : ¬ e.isOf new = true := by
        rw [StripeEvent.isOf, he.subject]
        simpa using hne
      rw [List.filter_cons_of_neg hskip]
      have hside : BillingDb.Agrees w foreign (deliverEvent a e.payload) b ∧
          (deliverEvent a e.payload).Moved old new w := by
        rcases deliver_keepsOut ha he hout with hsame | ⟨x, hrecord, hmark⟩
        · rw [hsame]
          exact ⟨h, ha⟩
        · rw [hrecord]
          refine ⟨⟨h.billing, h.workspaces, fun id hid => ?_, fun id hida hidb => ?_⟩, ha.record x⟩
          · have hother : (e.id == id) = false := by
              rw [beq_eq_false_iff_ne]
              exact fun heq => hid (heq ▸ hold e List.mem_cons_self he)
            rw [isReceived_record, hother, Bool.or_false, h.received id hid]
          · rw [isReceived_record, Bool.or_eq_false_iff] at hida
            rw [hmark id hida.1]
            exact h.latest id hida.1 hidb
      exact hlater b hside.1 hside.2 hb
    · have hkept : e.isOf new = true := by
        rw [StripeEvent.isOf, he.subject]
        exact beq_self_eq_true _
      rw [List.filter_cons_of_pos hkept]
      obtain ⟨hagrees, hamoved, hbmoved⟩ := h.deliver ha hb hne he
        (hforeign e List.mem_cons_self he)
      exact hlater _ hagrees hamoved hbmoved

/-- **A superseded subscription stays out** where its events keep out: after any number of
deliveries the workspace is linked to the new subscription, and its row is the one that
subscription's events lead to. -/
theorem superseded_stays_out (hne : old ≠ new) (hmoved : db.Moved old new w)
    {events : List StripeEvent} (hevents : ∀ e ∈ events, e.Concerns old w ∨ e.Concerns new w)
    (hids : ∀ e ∈ events, ∀ e' ∈ events, e.Concerns old w → e'.Concerns new w → e.id ≠ e'.id)
    (hok : admits (fun db (e : StripeEvent) => deliverEvent db e.payload) (keepsOutOld old w) db
    events = true) :
    ∀ n, (∃ row, (deliverEvents db (events.take n)).billingOf w = some row ∧
      row.stripeSubscriptionId = some new) ∧
      (deliverEvents db (events.take n)).billingOf w =
        (deliverEvents db ((events.take n).filter (StripeEvent.isOf new))).billingOf w := by
  intro n
  have hmem : ∀ e ∈ events.take n, e ∈ events := fun e he => List.mem_of_mem_take he
  have hstart : BillingDb.Agrees w (fun id => ∃ e ∈ events, e.Concerns old w ∧ e.id = id) db db :=
    ⟨rfl, rfl, fun _ _ => rfl, fun _ _ _ => rfl⟩
  obtain ⟨hagrees, hlinked⟩ := deliverEvents_agrees hne (fun e he => hevents e (hmem e he))
    (fun e he hnew => by
      rintro ⟨d, hd, hdold, hid⟩
      exact hids d hd e (hmem e he) hdold hnew hid)
    (fun e he hold => ⟨e, hmem e he, hold, rfl⟩) (admits_take hok n) hstart hmoved hmoved
  exact ⟨hlinked.linked, hagrees.billingOf w⟩

/-! ## A late cancellation of the old subscription -/

/-- The workspace is on its second subscription, for the same customer. -/
def renewedDb : BillingDb where
  workspaces := [1]
  billing := [{ workspaceId := 1, stripeCustomerId := some "cus_1"
                stripeSubscriptionId := some "sub_2", plan := "pro", status := "active" }]
  receipts := [{ stripeEventId := "evt_1", eventType := "customer.subscription.created"
                 workspaceId := some 1, payload := .obj [("created", .num (.int 5))] }]

theorem renewedDb_moved : renewedDb.Moved "sub_1" "sub_2" 1 where
  sound := by
    refine ⟨fun a ha b hb _ => ?_, fun row hrow => refusal_eq_none.mp ?_⟩
    · rw [List.mem_singleton.mp ha, List.mem_singleton.mp hb]
    · rw [List.mem_singleton.mp hrow]
      decide
  linked := ⟨_, rfl, rfl⟩
  unlinked row hrow := by
    rw [List.mem_singleton.mp hrow]
    decide

/-- The end of a subscription, with its customer. -/
def subscriptionDeleted (subscriptionId id : String) (created : Int) (named : id != "") :
    StripeEvent where
  payload := .obj [("id", .str id), ("type", .str "customer.subscription.deleted"),
    ("created", .num (.int created)),
    ("data", .obj [("object", .obj [("id", .str subscriptionId), ("status", .str "canceled"),
      ("customer", .str "cus_1")])])]
  id := id
  eventType := "customer.subscription.deleted"
  fields := [("id", .str subscriptionId), ("status", .str "canceled"), ("customer", .str "cus_1")]
  workspaceId := none
  hasId := rfl
  hasType := rfl
  named := ⟨bne_iff_ne.mp named, by decide⟩
  data := .obj [("object", .obj [("id", .str subscriptionId), ("status", .str "canceled"),
    ("customer", .str "cus_1")])]
  hasData := rfl
  obj := .obj [("id", .str subscriptionId), ("status", .str "canceled"), ("customer", .str "cus_1")]
  hasObject := rfl
  readsObject := rfl
  hasWorkspace := rfl

theorem concerns_deleted {subscriptionId id : String} {created : Int} {hid : id != ""} :
    (subscriptionDeleted subscriptionId id created hid).Concerns subscriptionId 1 :=
  ⟨rfl, fun _ h => by cases h⟩

theorem concerns_updated {subscriptionId id status : String} {created : Int} {hid : id != ""} :
    (subscriptionUpdated subscriptionId id status created hid).Concerns subscriptionId 1 :=
  ⟨rfl, fun _ h => by cases h⟩

/-- The old subscription's cancellation comes late, then the new one lapses. -/
def lateCancellation : List StripeEvent :=
  [subscriptionDeleted "sub_1" "evt_2" 4 (Eq.refl true),
   subscriptionUpdated "sub_2" "evt_3" "past_due" 6 (Eq.refl true)]

theorem superseded_stays_out_late :
    (∃ row, (deliverEvents renewedDb (lateCancellation.take 2)).billingOf 1 = some row ∧
        row.stripeSubscriptionId = some "sub_2") ∧
      (deliverEvents renewedDb (lateCancellation.take 2)).billingOf 1 =
        (deliverEvents renewedDb
          ((lateCancellation.take 2).filter (StripeEvent.isOf "sub_2"))).billingOf 1 := by
  refine superseded_stays_out (show "sub_1" ≠ "sub_2" by decide) renewedDb_moved (fun e he => ?_)
    (fun e he e' he' hold hnew => ?_)
    (by decide +kernel) 2
  · rcases List.mem_cons.mp he with rfl | he
    · exact .inl concerns_deleted
    · rw [List.mem_singleton.mp he]
      exact .inr concerns_updated
  · rcases List.mem_cons.mp he with rfl | he
    · rcases List.mem_cons.mp he' with rfl | he'
      · exact absurd hnew.subject (by decide)
      · rw [List.mem_singleton.mp he']
        decide
    · rw [List.mem_singleton.mp he] at hold
      exact absurd hold.subject (by decide)

/-- A cancellation newer than what is recorded is applied to the workspace of its customer. -/
theorem old_subscription_revokes :
    ¬ ∀ (db : BillingDb) (old new : String) (w : Nat) (events : List StripeEvent), old ≠ new →
      db.Moved old new w →
      (∀ e ∈ events, e.Concerns old w ∨ e.Concerns new w) →
      (∀ e ∈ events, ∀ e' ∈ events, e.Concerns old w → e'.Concerns new w → e.id ≠ e'.id) →
      ∀ n, (∃ row, (deliverEvents db (events.take n)).billingOf w = some row ∧
        row.stripeSubscriptionId = some new) ∧
        (deliverEvents db (events.take n)).billingOf w =
          (deliverEvents db ((events.take n).filter (StripeEvent.isOf new))).billingOf w := by
  intro hclaim
  have hrevoked :
      (deliverEvents renewedDb [subscriptionDeleted "sub_1" "evt_2" 6 (Eq.refl true)]).billingOf 1 =
      some { workspaceId := 1, stripeCustomerId := some "cus_1"
             stripeSubscriptionId := some "sub_1"
             status := "canceled" } := by
    decide +kernel
  have hcase := hclaim renewedDb "sub_1" "sub_2" 1
    [subscriptionDeleted "sub_1" "evt_2" 6 (Eq.refl true)] (by decide)
    renewedDb_moved (fun e he => by rw [List.mem_singleton.mp he]; exact .inl concerns_deleted)
    (fun e _ e' he' _ hnew => by
      rw [List.mem_singleton.mp he'] at hnew
      exact absurd hnew.subject (by decide)) 1
  obtain ⟨row, hrow, hlinked⟩ := hcase.1
  have hsame := hrevoked.symm.trans hrow
  cases hsame
  exact absurd hlinked (by decide)

end ContentOrchestrator

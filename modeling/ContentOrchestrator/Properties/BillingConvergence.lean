import ContentOrchestrator.Billing.Deliveries
import ContentOrchestrator.Lib.LatestWins
import ContentOrchestrator.Lib.Transition
import Mathlib.Order.Basic
import Mathlib.Data.Int.Order.Basic

/-! # Billing events converge

The events of one subscription, delivered in any order and any number of times, leave
the workspace with one entitlement: the row shows what the register of the latest event
holds, and an event the table refuses is as if it had not come. -/

namespace ContentOrchestrator

open Lib

variable {db : BillingDb} {e : StripeEvent} {s : String} {w : Nat}

/-- An event of the subscription, about the workspace if it names one, with an integer timestamp. -/
structure StripeEvent.IsAbout (e : StripeEvent) (s : String) (w : Nat) : Prop where
  subject : e.kind = .subscription ∧ e.field "id" = .str s ∨
    e.kind = .paymentFailed ∧ e.field "subscription" = .str s
  timed : ∃ c, e.created = some c
  workspace : ∀ id, e.workspaceId = some id → id = w

def StripeEvent.time (e : StripeEvent) : Int := e.created.getD 0

def billingContest : Contest StripeEvent Int := ⟨StripeEvent.time, StripeEvent.isGranting⟩

theorem StripeEvent.IsAbout.created (h : e.IsAbout s w) : e.created = some e.time := by
  obtain ⟨c, hc⟩ := h.timed
  rw [StripeEvent.time, hc]
  rfl

theorem StripeEvent.IsAbout.bears (h : e.IsAbout s w) : e.kind.bearsEntitlement = true := by
  rcases h.subject with ⟨hkind, -⟩ | ⟨hkind, -⟩
  · rw [hkind]
    rfl
  · rw [hkind]
    rfl

/-- The workspace is linked to the subscription. -/
structure BillingDb.Linked (db : BillingDb) (s : String) (w : Nat) : Prop where
  sound : db.Sound
  linked : ∃ row, db.billingOf w = some row ∧ row.stripeSubscriptionId = some s

/-- Finitely many distinct events of one subscription, none of them received yet. -/
structure BillingDb.Awaits (db : BillingDb) (s : String) (w : Nat) (events : List StripeEvent) :
    Prop where
  about : ∀ e ∈ events, e.IsAbout s w
  distinct : ∀ e ∈ events, ∀ e' ∈ events, e.id = e'.id → e = e'
  fresh : ∀ e ∈ events, db.isReceived e.id = false

/-- Every event is delivered, in some order, at least once. -/
def Covers (events deliveries : List StripeEvent) : Prop := ∀ e, e ∈ deliveries ↔ e ∈ events

def IsNewest (events : List StripeEvent) (e : StripeEvent) : Prop :=
  e ∈ events ∧ ∀ e' ∈ events, e'.time ≤ e.time

/-- **Convergence**, as it is claimed. -/
structure BillingDb.Converges (db : BillingDb) (w : Nat) (events : List StripeEvent) : Prop where
  same : ∀ ds ds', Covers events ds → Covers events ds' →
    isEntitled ((deliverEvents db ds).billingOf w) true =
      isEntitled ((deliverEvents db ds').billingOf w) true
  refused : ∀ ds, Covers events ds → ∀ e, IsNewest events e → e.isGranting = false →
    isEntitled ((deliverEvents db ds).billingOf w) true = false
  status : ∀ ds, Covers events ds → ∀ e, IsNewest events e →
    (∀ e' ∈ events, e'.time = e.time → e' = e) →
    ∃ row, (deliverEvents db ds).billingOf w = some row ∧ row.status = e.status

/-- Whatever acceptable row the workspace has, the row that the subscription event describes is
accepted. -/
def StripeEvent.IsStorable (db : BillingDb) (w : Nat) (e : StripeEvent) : Prop :=
  e.kind = .subscription → ∀ row, row.workspaceId = w → Accepted db row →
    ∃ row', row.mirror (.obj e.fields) e.status = .ok row' ∧ Accepted db row'

/-- The newest events can be stored, and are newer than what is recorded for the workspace. -/
structure BillingDb.NewestFit (db : BillingDb) (w : Nat) (events : List StripeEvent) : Prop where
  storable : ∀ e, IsNewest events e → e.IsStorable db w
  newer : ∀ e, IsNewest events e → ∀ m, latestAppliedEventCreated db w e.id = some m → m < e.time

/-! ## What the row shows -/

/-- The row shows the event that rules. -/
def WorkspaceBilling.Shows (row : WorkspaceBilling) (r : Register StripeEvent Int) : Prop :=
  ∀ a, r.ruling = some a → row.status = a.status ∧ isEntitled (some row) true = a.isGranting

/-- The database after deliveries from `events`, of which `recorded` have left a receipt. -/
structure BillingDb.Follows (db : BillingDb) (s : String) (w : Nat)
    (events recorded : List StripeEvent) (r : Register StripeEvent Int) (now : BillingDb) :
    Prop where
  sound : now.Sound
  workspaces : now.workspaces = db.workspaces
  others : ∀ b, b.workspaceId ≠ w → (b ∈ now.billing ↔ b ∈ db.billing)
  row : ∃ row, now.billingOf w = some row ∧ row.stripeSubscriptionId = some s ∧ row.Shows r
  drawn : ∀ e ∈ recorded, e ∈ events
  received : ∀ id, now.isReceived id = true ↔ db.isReceived id = true ∨ ∃ e ∈ recorded, e.id = id
  mark : ∀ id, now.isReceived id = false → latestAppliedEventCreated now w id = r.mark
  start : ∃ start, (∀ id, db.isReceived id = false → latestAppliedEventCreated db w id = start) ∧
    billingContest.Rules start recorded r

variable {events recorded : List StripeEvent} {r : Register StripeEvent Int} {now : BillingDb}

theorem follows_start (events : List StripeEvent) (hdb : db.Linked s w) {id : String}
    (hid : db.isReceived id = false) :
    db.Follows s w events [] { mark := latestAppliedEventCreated db w id } db where
  sound := hdb.sound
  workspaces := rfl
  others _ _ := Iff.rfl
  row := by
    obtain ⟨row, hrow, hlinked⟩ := hdb.linked
    exact ⟨row, hrow, hlinked, fun a ha => by cases ha⟩
  drawn _ h := by cases h
  received _ := by simp
  mark _ h := latest_of_unreceived h hid
  start := ⟨_, fun _ h => latest_of_unreceived h hid, billingContest.rules_start _⟩

/-- A superseded event changes no more than the receipts. -/
theorem isSuperseded_iff_yields (habout : e.IsAbout s w) (mark : Option Int) :
    isSuperseded mark e.created e.isGranting = true ↔ billingContest.Yields mark e := by
  rw [habout.created, isSuperseded_some]
  exact Iff.rfl

/-- The database with the event's receipt, and the row it leaves. -/
theorem BillingDb.Follows.record (h : db.Follows s w events recorded r now) {now' : BillingDb}
    {row : WorkspaceBilling} (he : e ∈ events) (habout : e.IsAbout s w) (hsound : now'.Sound)
    (hworkspaces : now'.workspaces = now.workspaces)
    (hothers : ∀ b, b.workspaceId ≠ w → (b ∈ now'.billing ↔ b ∈ now.billing))
    (hreceipts : now'.receipts = now.receipts) (hrow : now'.billingOf w = some row)
    (hlinked : row.stripeSubscriptionId = some s) (hnew : now.isReceived e.id = false)
    (hshows : row.Shows (billingContest.receive r e)) :
    db.Follows s w events (recorded ++ [e]) (billingContest.receive r e)
      (now'.record e (some w)) := by
  have hsame : ∀ id, latestAppliedEventCreated now' w id = latestAppliedEventCreated now w id := by
    intro id
    unfold latestAppliedEventCreated
    rw [hreceipts]
  have hreceived' : ∀ id, now'.isReceived id = now.isReceived id := by
    intro id
    unfold BillingDb.isReceived
    rw [hreceipts]
  refine ⟨hsound.record _, hworkspaces.trans h.workspaces, fun b hb =>
    (hothers b hb).trans (h.others b hb),
    ⟨row, hrow, hlinked, hshows⟩, fun a ha => ?_, fun id => ?_, fun id hid => ?_, ?_⟩
  · rcases List.mem_append.mp ha with ha | ha
    · exact h.drawn a ha
    · exact List.mem_singleton.mp ha ▸ he
  · rw [isReceived_record, hreceived', Bool.or_eq_true, h.received id]
    simp only [beq_iff_eq, List.mem_append, List.mem_singleton, or_assoc]
    constructor
    · rintro (hold | ⟨a, ha, hid⟩ | hid)
      · exact .inl hold
      · exact .inr ⟨a, .inl ha, hid⟩
      · exact .inr ⟨e, .inr rfl, hid⟩
    · rintro (hold | ⟨a, ha | rfl, hid⟩)
      · exact .inl hold
      · exact .inr (.inl ⟨a, ha, hid⟩)
      · exact .inr (.inr hid)
  · rw [isReceived_record, hreceived', Bool.or_eq_false_iff] at hid
    have hne : e.id ≠ id := by simpa using hid.2
    have hmark : latestAppliedEventCreated now' w id = r.mark := (hsame id).trans (h.mark id hid.1)
    unfold Contest.receive
    by_cases hyields : billingContest.Yields r.mark e
    · rw [if_pos hyields]
      obtain ⟨m, hm, hcase⟩ := hyields
      have hle : e.time ≤ m := hcase.elim Int.le_of_lt fun htie => Int.le_of_eq htie.1
      rw [hm] at hmark ⊢
      exact latest_record_le habout.created hmark hle _
    · rw [if_neg hyields]
      refine latest_record_ge habout.bears hne habout.created fun m hm => ?_
      rw [hmark] at hm
      exact Int.not_lt.mp fun hlt => hyields ⟨m, hm, .inl hlt⟩
  · obtain ⟨start, hstart, hrules⟩ := h.start
    exact ⟨start, hstart, hrules.receive e⟩

/-- An event that yields leaves its receipt. -/
theorem BillingDb.Follows.yields (h : db.Follows s w events recorded r now) (he : e ∈ events)
    (habout : e.IsAbout s w) (hnew : now.isReceived e.id = false)
    (hyields : billingContest.Yields r.mark e) :
    db.Follows s w events (recorded ++ [e]) (billingContest.receive r e)
      (now.record e (some w)) := by
  obtain ⟨row, hrow, hlinked, hshows⟩ := h.row
  refine h.record he habout h.sound rfl (fun _ _ => Iff.rfl) rfl hrow hlinked hnew ?_
  unfold Contest.receive
  rw [if_pos hyields]
  exact hshows

/-- An event that rules leaves its receipt and the row it describes. -/
theorem BillingDb.Follows.rules (h : db.Follows s w events recorded r now) (he : e ∈ events)
    (habout : e.IsAbout s w) (hnew : now.isReceived e.id = false)
    (hrules : ¬ billingContest.Yields r.mark e) {row' : WorkspaceBilling}
    (haccepted : Accepted now row') (hid : row'.workspaceId = w)
    (hlinked : row'.stripeSubscriptionId = some s) (hstatus : row'.status = e.status)
    (hentitled : isEntitled (some row') true = e.isGranting) :
    db.Follows s w events (recorded ++ [e]) (billingContest.receive r e)
      ((now.setBilling row').record e (some w)) := by
  obtain ⟨row, hrow, -, -⟩ := h.row
  have hrow' : (now.setBilling row').billingOf w =
      some row' := hid ▸ billingOf_setBilling (hid.symm ▸ hrow)
  refine h.record he habout (h.sound.setBilling haccepted) rfl (fun b hb => ?_) rfl hrow' hlinked
    hnew ?_
  · constructor
    · intro hin
      rcases mem_setBilling hin with rfl | ⟨hold, -⟩
      · exact absurd hid hb
      · exact hold
    · intro hin
      exact List.mem_map.mpr ⟨b, hin, if_neg (hid.symm ▸ hb)⟩
  · unfold Contest.receive
    rw [if_neg hrules]
    intro a ha
    cases ha
    exact ⟨hstatus, hentitled⟩

/-- What one delivery leads to: the event is recorded and the row shows what then rules, or nothing
changes; what can be stored is recorded. -/
def BillingDb.Follows.Next (db : BillingDb) (s : String) (w : Nat)
    (events recorded : List StripeEvent) (e : StripeEvent) (next : BillingDb) : Prop :=
  ∃ recorded' r', db.Follows s w events recorded' r' next ∧ (∀ a ∈ recorded, a ∈ recorded') ∧
    (e.IsStorable db w → e ∈ recorded')

theorem BillingDb.Follows.next (h : db.Follows s w events (recorded ++ [e]) r now) :
    BillingDb.Follows.Next db s w events recorded e now :=
  ⟨_, _, h, fun _ ha => List.mem_append_left _ ha, fun _ =>
    List.mem_append_right _ (List.mem_singleton.mpr rfl)⟩

/-- The rows of the other workspaces are those of the start. -/
theorem BillingDb.Follows.accepted_iff (h : db.Follows s w events recorded r now)
    {row : WorkspaceBilling} (hid : row.workspaceId = w) : Accepted now row ↔ Accepted db row := by
  constructor
  · intro haccepted
    exact haccepted.of_others h.workspaces.symm fun b hb hne => (h.others b (hid ▸ hne)).mpr hb
  · intro haccepted
    exact haccepted.of_others h.workspaces fun b hb hne => (h.others b (hid ▸ hne)).mp hb

theorem BillingDb.Follows.subscription (h : db.Follows s w events recorded r now) (he : e ∈ events)
    (habout : e.IsAbout s w) (hnew : now.isReceived e.id = false) (hkind : e.kind = .subscription)
    (hsubject : e.field "id" = .str s) :
    BillingDb.Follows.Next db s w events recorded e (deliverEvent now e.payload) := by
  obtain ⟨row, hrow, hlinked, -⟩ := h.row
  obtain ⟨hmem, hid⟩ := mem_of_billingOf hrow
  have haccepted : Accepted now row := h.sound.accepted row hmem
  have hexists : ∀ id, e.workspaceId = some id → id ∈ now.workspaces := by
    intro id hworkspace
    rw [habout.workspace id hworkspace, ← hid]
    exact haccepted.workspace
  have hw : e.workspaceIn now = some w := by
    unfold StripeEvent.workspaceIn
    cases hmeta : e.workspaceId with
    | some id => rw [habout.workspace id hmeta]
    | none => simp [hsubject, Json.text?, h.sound.bySubscription hmem hlinked, hid]
  have hyields := isSuperseded_iff_yields habout r.mark
  rw [deliverEvent_subscription hkind hnew hexists hw hrow, h.mark e.id hnew]
  by_cases hsuperseded : isSuperseded r.mark e.created e.isGranting = true
  · rw [if_pos hsuperseded]
    exact (h.yields he habout hnew (hyields.mp hsuperseded)).next
  rw [if_neg hsuperseded]
  have hrules : ¬ billingContest.Yields r.mark e := fun hyield => hsuperseded (hyields.mpr hyield)
  -- a storable event is not refused
  have hstored : e.IsStorable db w →
      ∃ row', row.mirror (.obj e.fields) e.status = .ok row' ∧ Accepted db row' :=
    fun hstorable => hstorable hkind row hid ((h.accepted_iff hid).mp haccepted)
  cases hmirror : row.mirror (.obj e.fields) e.status with
  | error failure =>
    refine ⟨recorded, r, h, fun _ ha => ha, fun hstorable => ?_⟩
    obtain ⟨row', hok, -⟩ := hstored hstorable
    rw [hmirror] at hok
    cases hok
  | ok row' =>
    obtain ⟨hid', hstatus, -, hsubscription, -⟩ := mirror_ok hmirror
    have hw' : row'.workspaceId = w := hid'.trans hid
    have hlinked' : row'.stripeSubscriptionId =
        some s := linkedSubscription_same hlinked (hsubject ▸ hsubscription)
    simp only
    by_cases hrefusal : refusal now row' = none
    · rw [if_pos hrefusal]
      exact (h.rules he habout hnew hrules (refusal_eq_none.mp hrefusal) hw' hlinked' hstatus
        (mirror_entitles hmirror)).next
    · rw [if_neg hrefusal]
      refine ⟨recorded, r, h, fun _ ha => ha, fun hstorable => ?_⟩
      obtain ⟨row'', hok, haccepted'⟩ := hstored hstorable
      rw [hmirror] at hok
      cases hok
      exact absurd (refusal_eq_none.mpr ((h.accepted_iff hw').mpr haccepted')) hrefusal

theorem BillingDb.Follows.payment (h : db.Follows s w events recorded r now) (he : e ∈ events)
    (habout : e.IsAbout s w) (hnew : now.isReceived e.id = false) (hkind : e.kind = .paymentFailed)
    (hsubject : e.field "subscription" = .str s) :
    BillingDb.Follows.Next db s w events recorded e (deliverEvent now e.payload) := by
  obtain ⟨row, hrow, hlinked, -⟩ := h.row
  obtain ⟨hmem, hid⟩ := mem_of_billingOf hrow
  have haccepted : Accepted now row := h.sound.accepted row hmem
  have hexists : ∀ id, e.workspaceId = some id → id ∈ now.workspaces := by
    intro id hworkspace
    rw [habout.workspace id hworkspace, ← hid]
    exact haccepted.workspace
  have hstatus : e.status = "past_due" := by
    unfold StripeEvent.status
    rw [hkind]
  have hgranting : e.isGranting = false := by
    unfold StripeEvent.isGranting
    rw [hstatus]
    simp [activeStatuses]
  have hfailed : e.failedRow now = some row := by
    unfold StripeEvent.failedRow
    simp [hsubject, Json.text?, h.sound.bySubscription hmem hlinked]
  have hworkspace : e.workspaceId.or (some w) = some w := by
    cases hmeta : e.workspaceId with
    | none => rfl
    | some id => rw [habout.workspace id hmeta]; rfl
  rw [deliverEvent_paymentFailed hkind hnew hexists hfailed hid hrow, h.mark e.id hnew, hworkspace,
    ← hgranting]
  by_cases hsuperseded : isSuperseded r.mark e.created e.isGranting = true
  · rw [if_pos hsuperseded]
    exact (h.yields he habout hnew ((isSuperseded_iff_yields habout r.mark).mp hsuperseded)).next
  rw [if_neg hsuperseded]
  have hpastDue : Accepted now { row with status := "past_due" } :=
    ⟨haccepted.workspace,
      haccepted.plan, by simp [statusNames], haccepted.customer, haccepted.subscription⟩
  rw [if_pos (refusal_eq_none.mpr hpastDue)]
  exact (h.rules he habout hnew
    (fun hyield => hsuperseded ((isSuperseded_iff_yields habout r.mark).mpr hyield)) hpastDue hid
    hlinked hstatus.symm ((pastDue_entitles row).trans hgranting.symm)).next

/-- **One delivery.** -/
theorem BillingDb.Follows.deliver (h : db.Follows s w events recorded r now)
    (hdb : db.Awaits s w events) (he : e ∈ events) :
    BillingDb.Follows.Next db s w events recorded e (deliverEvent now e.payload) := by
  have habout := hdb.about e he
  by_cases hreceived : now.isReceived e.id = true
  · rw [deliverEvent_received hreceived]
    refine ⟨recorded, r, h, fun _ ha => ha, fun _ => ?_⟩
    rcases (h.received e.id).mp hreceived with hold | ⟨a, ha, hid⟩
    · rw [hdb.fresh e he] at hold
      cases hold
    · exact hdb.distinct a (h.drawn a ha) e he hid ▸ ha
  have hnew : now.isReceived e.id = false := Bool.eq_false_iff.mpr hreceived
  rcases habout.subject with ⟨hkind, hsubject⟩ | ⟨hkind, hsubject⟩
  · exact h.subscription he habout hnew hkind hsubject
  · exact h.payment he habout hnew hkind hsubject

/-- **A run of deliveries.** -/
theorem deliverEvents_follows (hdb : db.Awaits s w events) {ds : List StripeEvent}
    (hds : ∀ e ∈ ds, e ∈ events) (h : db.Follows s w events recorded r now) :
    ∃ recorded' r', db.Follows s w events recorded' r' (deliverEvents now ds) ∧
      (∀ a ∈ recorded, a ∈ recorded') ∧
      ∀ e ∈ ds, e.IsStorable db w → e ∈ recorded' := by
  induction ds generalizing now recorded r with
  | nil => exact ⟨recorded, r, h, fun _ ha => ha, fun _ he => by cases he⟩
  | cons d rest ih =>
    obtain ⟨recorded₁, r₁, hfirst, hkept, hstored⟩ := h.deliver hdb (hds d List.mem_cons_self)
    obtain ⟨recorded₂, r₂, hlast, hkept', hstored'⟩ :=
      ih (fun e he => hds e (List.mem_cons_of_mem _ he)) hfirst
    refine ⟨recorded₂, r₂, hlast, fun a ha => hkept' a (hkept a ha), fun e he hstorable => ?_⟩
    rcases List.mem_cons.mp he with rfl | he
    · exact hkept' e (hstored hstorable)
    · exact hstored' e he hstorable

theorem exists_newest (h : events ≠ []) : ∃ e, IsNewest events e := by
  induction events with
  | nil => exact absurd rfl h
  | cons first rest ih =>
    by_cases hrest : rest = []
    · refine ⟨first, List.mem_cons_self, fun e he => ?_⟩
      rw [hrest] at he
      rw [List.mem_singleton.mp he]
    · obtain ⟨a, ha, hall⟩ := ih hrest
      by_cases hle : first.time ≤ a.time
      · refine ⟨a, List.mem_cons_of_mem _ ha, fun e he => ?_⟩
        rcases List.mem_cons.mp he with rfl | he
        · exact hle
        · exact hall e he
      · refine ⟨first, List.mem_cons_self, fun e he => ?_⟩
        rcases List.mem_cons.mp he with rfl | he
        · exact Int.le_refl _
        · exact Int.le_trans (hall e he) (Int.le_of_lt (Int.not_le.mp hle))

/-- The outcome depends on the newest events only. -/
theorem deliverEvents_verdict (hlinked : db.Linked s w) (hdb : db.Awaits s w events)
    (hfit : db.NewestFit w events) {newest : StripeEvent} (hnewest : IsNewest events newest)
    {ds : List StripeEvent} (hds : Covers events ds) :
    ∃ row a, (deliverEvents db ds).billingOf w = some row ∧ IsNewest events a ∧
      row.status = a.status ∧
      isEntitled (some row) true = a.isGranting ∧
      (a.isGranting = true ↔ ∀ e, IsNewest events e → e.isGranting = true) := by
  have hid := hdb.fresh newest hnewest.1
  obtain ⟨recorded, r, h, -, hstored⟩ :=
    deliverEvents_follows hdb (fun e he => (hds e).mp he) (follows_start events hlinked hid)
  -- every newest event has left its receipt
  have hrecorded : ∀ e, IsNewest events e → e ∈ recorded := fun e he =>
    hstored e ((hds e).mpr he.1) (hfit.storable e he)
  obtain ⟨start, hstart, hrules⟩ := h.start
  obtain ⟨a, ha, hruling, htime, hgrants⟩ := hrules.verdict (hrecorded newest hnewest)
    (fun e he => hnewest.2 e (h.drawn e he))
    (fun m hm => hfit.newer newest hnewest m ((hstart newest.id hid).trans hm))
  have hsame : a.time = newest.time := htime
  have hnew : IsNewest events a := ⟨h.drawn a ha, fun e' he' => hsame ▸ hnewest.2 e' he'⟩
  obtain ⟨row, hrow, -, hshows⟩ := h.row
  obtain ⟨hstatus, hentitled⟩ := hshows a hruling
  refine ⟨row, a, hrow, hnew, hstatus, hentitled, hgrants.trans ?_⟩
  constructor
  · intro hall e he
    exact hall e (hrecorded e he) (Int.le_antisymm (hnewest.2 e he.1) (he.2 newest hnewest.1))
  · intro hall e he heq
    exact hall e ⟨h.drawn e he, fun e' he' =>
      (show e.time = newest.time from heq) ▸ hnewest.2 e' he'⟩

/-- **Billing events converge** if the newest can be stored and nothing as new is recorded. -/
theorem billing_converges (hlinked : db.Linked s w) (hdb : db.Awaits s w events)
    (hfit : db.NewestFit w events) :
    db.Converges w events := by
  have hverdict : ∀ newest, IsNewest events newest → ∀ ds, Covers events ds → ∃ row a,
      (deliverEvents db ds).billingOf w = some row ∧ IsNewest events a ∧ row.status = a.status ∧
      isEntitled (some row) true = a.isGranting ∧
      (a.isGranting = true ↔ ∀ e, IsNewest events e → e.isGranting = true) :=
    fun newest hnewest ds hds => deliverEvents_verdict hlinked hdb hfit hnewest hds
  refine ⟨fun ds ds' hds hds' => ?_, fun ds hds e he hrefuses => ?_, fun ds hds e he hunique => ?_⟩
  · cases hevents : events with
    | nil =>
      subst hevents
      have hnone : ∀ {ds}, Covers [] ds → ds = [] :=
          fun hds => List.eq_nil_iff_forall_not_mem.mpr fun e he => by
        cases (hds e).mp he
      rw [hnone hds, hnone hds']
    | cons first rest =>
      obtain ⟨newest, hnewest⟩ : ∃ newest,
        IsNewest events newest := exists_newest (by simp [hevents])
      obtain ⟨row, a, hrow, -, -, hentitled, hgrants⟩ := hverdict newest hnewest ds hds
      obtain ⟨row', a', hrow', -, -, hentitled', hgrants'⟩ := hverdict newest hnewest ds' hds'
      rw [hrow, hrow', hentitled, hentitled', Bool.eq_iff_iff, hgrants, hgrants']
  · obtain ⟨row, a, hrow, -, -, hentitled, hgrants⟩ := hverdict e he ds hds
    rw [hrow, hentitled, ← Bool.not_eq_true, hgrants]
    intro hall
    rw [hall e he] at hrefuses
    cases hrefuses
  · obtain ⟨row, a, hrow, ha, hstatus, -, -⟩ := hverdict e he ds hds
    have hsame : a = e := hunique a ha.1 (Int.le_antisymm (he.2 a ha.1) (ha.2 e he.1))
    exact ⟨row, hrow, hsame ▸ hstatus⟩

/-! ## An event that is refused -/

def linkedDb : BillingDb :=
  { workspaces := [1], billing := [{ workspaceId := 1, stripeSubscriptionId := some "sub_1" }] }

theorem linkedDb_linked : linkedDb.Linked "sub_1" 1 where
  sound := by
    refine ⟨fun a ha b hb _ => ?_, fun row hrow => refusal_eq_none.mp ?_⟩
    · rw [List.mem_singleton.mp ha, List.mem_singleton.mp hb]
    · rw [List.mem_singleton.mp hrow]
      decide
  linked := ⟨_, rfl, rfl⟩

def activated : StripeEvent := subscriptionUpdated "sub_1" "evt_1" "active" 1 (Eq.refl true)

def paused : StripeEvent := subscriptionUpdated "sub_1" "evt_2" "paused" 2 (Eq.refl true)

def chargeFailed : StripeEvent := invoicePaymentFailed "sub_1" "evt_3" 3 (Eq.refl true)

theorem isAbout_updated {id status : String} {created : Int} {hid : id != ""} :
    (subscriptionUpdated "sub_1" id status created hid).IsAbout "sub_1" 1 :=
  ⟨.inl ⟨rfl, rfl⟩, ⟨created, rfl⟩, fun _ h => by cases h⟩

/-- An activation and a later failed payment leave the workspace without entitlement, in either
order. -/
theorem billing_converges_unpaid : linkedDb.Converges 1 [activated, chargeFailed] := by
  have hawaits : linkedDb.Awaits "sub_1" 1 [activated, chargeFailed] := by
    refine ⟨fun e he => ?_, fun e he e' he' hid => ?_, fun e _ => rfl⟩
    · rcases List.mem_cons.mp he with rfl | he
      · exact isAbout_updated
      · rw [List.mem_singleton.mp he]
        exact ⟨.inr ⟨rfl, rfl⟩, ⟨3, rfl⟩, fun _ h => by cases h⟩
    · rcases List.mem_cons.mp he with rfl | he
      · rcases List.mem_cons.mp he' with rfl | he'
        · rfl
        · rw [List.mem_singleton.mp he'] at hid
          exact absurd hid (by decide)
      · rw [List.mem_singleton.mp he] at hid ⊢
        rcases List.mem_cons.mp he' with rfl | he'
        · exact absurd hid (by decide)
        · rw [List.mem_singleton.mp he']
  have hnewest : ∀ e, IsNewest [activated, chargeFailed] e → e = chargeFailed := by
    rintro e ⟨hmem, hall⟩
    rcases List.mem_cons.mp hmem with rfl | hmem
    · exact absurd (hall chargeFailed (by simp)) (by decide)
    · exact List.mem_singleton.mp hmem
  refine billing_converges linkedDb_linked hawaits ⟨fun e he hkind => ?_, fun e he m hm => ?_⟩
  · rw [hnewest e he] at hkind
    exact absurd hkind (by decide)
  · cases hm

/-- A pause is no status the table knows: it is answered as a duplicate, and the workspace stays
entitled. -/
theorem pause_keeps_entitlement :
    ¬ ∀ (db : BillingDb) (s : String) (w : Nat) (events : List StripeEvent), db.Linked s w →
      db.Awaits s w events →
      db.Converges w events := by
  intro hclaim
  have hawaits : linkedDb.Awaits "sub_1" 1 [activated, paused] := by
    refine ⟨fun e he => ?_, fun e he e' he' hid => ?_, fun e _ => rfl⟩
    · rcases List.mem_cons.mp he with rfl | he
      · exact isAbout_updated
      · rw [List.mem_singleton.mp he]
        exact isAbout_updated
    · rcases List.mem_cons.mp he with rfl | he
      · rcases List.mem_cons.mp he' with rfl | he'
        · rfl
        · rw [List.mem_singleton.mp he'] at hid
          exact absurd hid (by decide)
      · rw [List.mem_singleton.mp he] at hid ⊢
        rcases List.mem_cons.mp he' with rfl | he'
        · exact absurd hid (by decide)
        · rw [List.mem_singleton.mp he']
  have hnewest : IsNewest [activated, paused] paused := by
    refine ⟨by simp, fun e he => ?_⟩
    rcases List.mem_cons.mp he with rfl | he
    · decide
    · rw [List.mem_singleton.mp he]
  have hentitled : isEntitled ((deliverEvents linkedDb [activated, paused]).billingOf 1) true =
      true := by decide +kernel
  have hrefused := (hclaim linkedDb "sub_1" 1 _ linkedDb_linked hawaits).refused [activated,
      paused] (fun _ => Iff.rfl)
    paused hnewest (by decide)
  rw [hentitled] at hrefused
  cases hrefused

end ContentOrchestrator

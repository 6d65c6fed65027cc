import ContentOrchestrator.Orchestration.RelayRefinement

/-! # Runs of the relay

A step of the relay publishes a fresh message or delivers one, and a relay pass is a run of
such deliveries or leaves nothing. -/

namespace ContentOrchestrator

open Lib Lib.Delivery

variable {subs : Subscriptions} {s : RelayState}

def loggedOf (s : RelayState) : Logged String Aggregate String := ⟨relayOf s.db, s.calls⟩

/-- The bookkeeping every run of the relay keeps. -/
structure RelayReady (s : RelayState) : Prop where
  owned : CheckpointsOwned s.db
  sound : (loggedOf s).Sound

theorem IsFreshRelay.ready (hfresh : IsFreshRelay s) : RelayReady s := by
  have hmark : ∀ name aggregate, lastSequence s.db name aggregate = 0 := by
    intro name aggregate
    unfold lastSequence checkpointFor
    rw [hfresh.checkpoints]
    cases consumerNamed s.db name <;> rfl
  refine ⟨fun checkpoint hmem => ?_, fun c k hhandled => ?_, fun c p hpositive => ?_⟩
  · rw [hfresh.checkpoints] at hmem
    exact absurd hmem Table.mem_empty
  · have hnone : (⟨c, k, true⟩ : Attempt String) ∈ s.calls := hhandled
    rw [hfresh.calls] at hnone
    cases hnone
  · have hzero : (relayOf s.db).mark c p = 0 := hmark c p
    have hpositive : 0 < (relayOf s.db).mark c p := hpositive
    omega

/-! ## Emitting -/

theorem sequence_lt_next {db : Db} {e : OutboxEvent} (he : e ∈ db.outbox) :
    e.sequence < nextSequence db e.aggregate := by
  have hle : ∀ (l : List Nat) (n : Nat), n ≤ l.foldl max n ∧ ∀ x ∈ l, x ≤ l.foldl max n := by
    intro l
    induction l with
    | nil => exact fun n => ⟨Nat.le_refl n, fun x hx => absurd hx List.not_mem_nil⟩
    | cons first rest ih =>
      intro n
      obtain ⟨hstart, hrest⟩ := ih (max n first)
      refine ⟨Nat.le_trans (Nat.le_max_left n first) hstart, fun x hx => ?_⟩
      rcases List.mem_cons.mp hx with rfl | hx
      · exact Nat.le_trans (Nat.le_max_right n x) hstart
      · exact hrest x hx
  have hselected : e.sequence ∈ (db.outbox.select fun f => f.aggregate == e.aggregate).map
      (·.sequence) :=
    List.mem_map_of_mem (Table.mem_select.mpr ⟨he, beq_self_eq_true e.aggregate⟩)
  exact Nat.lt_succ_of_le ((hle _ 0).2 _ hselected)

/-- The message an emission publishes. -/
def emitted (db : Db) (eventType : String) (aggregate : Aggregate) : Message Aggregate String where
  kind := eventType
  partition := aggregate
  sequence := nextSequence db aggregate

theorem step_emit {occurredAt workspaceId : Nat} {eventType : String} {aggregate : Aggregate}
    {gate : Option Nat} :
    loggedOf (relayStep subs s (.emit occurredAt eventType workspaceId aggregate gate)) =
      (loggedOf s).publish s.db.outbox.next (emitted s.db eventType aggregate) := by
  refine congrArg (fun r => (⟨r, s.calls⟩ : Logged String Aggregate String)) ?_
  refine Relay.ext (funext fun j => ?_) rfl rfl rfl
  simp only [relayStep, relayOf, emit, Relay.setMessage, Table.get?_insert]
  by_cases hj : j = s.db.outbox.next
  · subst hj
    simp [OutboxEvent.message, emitted, OutboxEventStatus.delivery, nextSequence]
  · simp only [hj, if_false]
    rfl

theorem emitted_fresh {eventType : String} {aggregate : Aggregate} :
    Fresh s.db.outbox.next (emitted s.db eventType aggregate) (relayOf s.db) := by
  refine ⟨?_, rfl, Nat.succ_pos _, fun j n hn hpartition => ?_⟩
  · simp [relayOf, Table.get?_next]
  · obtain ⟨e, he, rfl⟩ := message_of_relayOf hn
    have hlt := sequence_lt_next (Table.get?_eq_some.mp he).1
    have hpartition : e.aggregate = aggregate := hpartition
    rw [hpartition] at hlt
    exact hlt

/-! ## Delivering -/

section Dispatch

variable {k : Nat} {e : OutboxEvent} {reaction : Reaction}

theorem callsOf_called (he : s.db.outbox.get? k = some e) :
    callsOf subs reaction e s.db =
      ((relayOf s.db).called subs.subscribers k).map fun c => ⟨c, k, reaction.succeeds c⟩ := by
  have hid : e.id = k := (Table.get?_eq_some.mp he).2
  have hfor : subs.entries.filter (e.isFor s.db) =
      subs.entries.filter ((relayOf s.db).isOffered subs.subscribers.takes e.message ∘ Prod.fst) :=
    List.filter_congr fun entry hentry => isFor_iff hentry
  unfold callsOf Relay.called
  rw [relayOf_messages he, hfor, hid]
  simp only [Subscriptions.subscribers, List.filter_map, List.map_map]
  rfl

/-- A delivery of a pending event that is not aborted. -/
theorem step_dispatch (hready : RelayReady s) (he : s.db.outbox.get? k = some e)
    (hpending : e.status = .pending) (hgoes : isAborted subs reaction e s.db = false) :
    loggedOf (relayStep subs s (.dispatch k reaction)) =
        (loggedOf s).deliver subs.subscribers reaction.succeeds k ∧
      CheckpointsOwned (relayStep subs s (.dispatch k reaction)).db := by
  unfold relayStep
  simp only [he, hpending, if_true]
  split
  · rename_i u db hrun
    obtain ⟨hview, howned, -⟩ := dispatchOne_delivers hready.owned he hrun
    refine ⟨?_, howned⟩
    unfold loggedOf Logged.deliver
    rw [hview, callsOf_called he]
  · rename_i error db hrun
    rw [dispatchOne_raises hready.owned he hrun] at hgoes
    cases hgoes

theorem step_aborted (hready : RelayReady s) (he : s.db.outbox.get? k = some e)
    (habort : isAborted subs reaction e s.db = true) :
    relayStep subs s (.dispatch k reaction) = s := by
  unfold relayStep
  simp only [he]
  split
  · split
    · rename_i u db hrun
      obtain ⟨-, -, hgoes⟩ := dispatchOne_delivers hready.owned he hrun
      rw [habort] at hgoes
      cases hgoes
    · rfl
  · rfl

/-- The delivery is carried out: the event is pending, and no handler ends the transaction. -/
def isCarriedOut (subs : Subscriptions) (reaction : Reaction) (event : OutboxEvent) (db : Db) :
    Bool :=
  event.status == .pending && !isAborted subs reaction event db

/-- **What a step of the relay does.** -/
inductive Stepped (subs : Subscriptions) (s : RelayState) : RelayOp → RelayState → Prop
  | published {occurredAt workspaceId : Nat} {eventType : String} {aggregate : Aggregate}
      {gate : Option Nat}
      {t : RelayState}
      (logged : loggedOf t = (loggedOf s).publish s.db.outbox.next
        (emitted s.db eventType aggregate))
      (owned : CheckpointsOwned t.db) :
      Stepped subs s (.emit occurredAt eventType workspaceId aggregate gate) t
  | delivered {k : Nat} {reaction : Reaction} {e : OutboxEvent} {t : RelayState}
      (found : s.db.outbox.get? k = some e)
      (carried : isCarriedOut subs reaction e s.db = true)
      (logged : loggedOf t = (loggedOf s).deliver subs.subscribers reaction.succeeds k)
      (owned : CheckpointsOwned t.db) : Stepped subs s (.dispatch k reaction) t
  | skipped {k : Nat} {reaction : Reaction} {t : RelayState}
      (idle : ∀ e, s.db.outbox.get? k = some e →
        isCarriedOut subs reaction e s.db = false) (same : t = s) :
      Stepped subs s (.dispatch k reaction) t

theorem relayStep_stepped (hready : RelayReady s) (op : RelayOp) :
    Stepped subs s op (relayStep subs s op) := by
  cases op with
  | emit occurredAt eventType workspaceId aggregate gate => exact .published step_emit hready.owned
  | dispatch k reaction =>
    cases he : s.db.outbox.get? k with
    | none =>
      have hsame : relayStep subs s (.dispatch k reaction) = s := by simp only [relayStep, he]
      refine .skipped (fun e hfound => ?_) hsame
      rw [he] at hfound
      cases hfound
    | some e =>
      by_cases hpending : e.status = .pending
      · cases habort : isAborted subs reaction e s.db with
        | false =>
          obtain ⟨hlogged, howned⟩ := step_dispatch hready he hpending habort
          exact .delivered he (by simp [isCarriedOut, hpending, habort]) hlogged howned
        | true =>
          refine .skipped (fun e' he' => ?_) (step_aborted hready he habort)
          rw [he, Option.some_inj] at he'
          subst he'
          simp [isCarriedOut, habort]
      · have hsame : relayStep subs s (.dispatch k reaction) =
            s := by simp only [relayStep, he, hpending, if_false]
        refine .skipped (fun e' he' => ?_) hsame
        rw [he, Option.some_inj] at he'
        subst he'
        simp [isCarriedOut, hpending]

theorem carriedOut_pending (hcarried : isCarriedOut subs reaction e s.db = true) :
    e.message.status = .pending := by
  unfold isCarriedOut at hcarried
  simp only [Bool.and_eq_true, beq_iff_eq] at hcarried
  exact (pending_iff e).mpr hcarried.1

/-- The bookkeeping is kept by every step. -/
theorem relayStep_ready (hready : RelayReady s) (op : RelayOp) :
    RelayReady (relayStep subs s op) := by
  cases relayStep_stepped hready op with
  | published hlogged howned => exact ⟨howned, hlogged ▸ publish_sound emitted_fresh hready.sound⟩
  | delivered he hcarried hlogged howned =>
    exact ⟨howned, hlogged ▸ deliver_sound (relayOf_messages he) (carriedOut_pending hcarried)
      hready.sound⟩
  | skipped _ hsame => exact hsame.symm ▸ hready

end Dispatch

/-! ## A relay pass -/

/-- The deliveries of a pass, in its order. -/
def passOps (reactions : Nat → Reaction) (events : List Nat) : List RelayOp :=
  events.map fun eventId => .dispatch eventId (reactions eventId)

/-- The event is pending in the view of the relay. -/
def IsPendingAt (db : Db) (k : Nat) : Prop :=
  ∃ m, (relayOf db).messages k = some m ∧ m.status = .pending

theorem dispatchEach_runs {reactions : Nat → Reaction} {events : List Nat}
    (hunique : events.Nodup) :
    ∀ {s : RelayState} {t : Db} {u : Unit}, RelayReady s → (∀ k ∈ events, IsPendingAt s.db k) →
      Returns (dispatchEach subs reactions events) s.db u t →
      (replay (relayStep subs) s (passOps reactions events)).db = t := by
  induction events with
  | nil =>
    intro s t u _ _ h
    exact (returns_pure.mp h).2
  | cons k rest ih =>
    intro s t u hready hpending h
    obtain ⟨hk, hrest⟩ := List.nodup_cons.mp hunique
    obtain ⟨m, hm, hwaits⟩ := hpending k List.mem_cons_self
    obtain ⟨e, he, rfl⟩ := message_of_relayOf hm
    simp only [dispatchEach, returns_bind] at h
    obtain ⟨_, db, hfirst, hlater⟩ := h
    obtain ⟨hview, -, -⟩ := dispatchOne_delivers hready.owned he hfirst
    have hstep : (relayStep subs s (.dispatch k (reactions k))).db = db := by
      have hrun : (dispatchOne (subs.registry (reactions k)) k).run s.db = .ok () db := hfirst
      simp only [relayStep, he, (pending_iff e).mp hwaits, if_true, hrun]
    obtain ⟨m', hdelivered⟩ : ∃ m',
      Delivered subs.subscribers (reactions k).succeeds k e.message (relayOf s.db)
        ((relayOf s.db).deliver subs.subscribers (reactions k).succeeds k) m' :=
          deliver_delivered hm hwaits
    rw [← hview, ← hstep] at hdelivered
    rw [← hstep] at hlater
    refine ih hrest (relayStep_ready hready _) (fun j hj => ?_) hlater
    obtain ⟨n, hn, hwaits'⟩ := hpending j (List.mem_cons_of_mem _ hj)
    have hjk : j ≠ k := fun heq => hk (heq ▸ hj)
    exact ⟨n, (hdelivered.others j hjk).trans hn, hwaits'⟩

theorem mem_pendingEvents {db : Db} {batchSize : Nat} {locked : List Nat} {e : OutboxEvent}
    (he : e ∈ pendingEvents db batchSize locked) : e ∈ db.outbox ∧ e.status = .pending := by
  have hsorted := List.mem_of_mem_filter (List.mem_of_mem_take he)
  obtain ⟨hmem, hpending⟩ := Table.mem_select.mp ((List.mem_insertionSort _).mp hsorted)
  exact ⟨hmem, by simpa using hpending⟩

theorem pendingEvents_nodup {db : Db} {batchSize : Nat} {locked : List Nat} :
    ((pendingEvents db batchSize locked).map (·.id)).Nodup := by
  have hselect : ((db.outbox.select (·.status == .pending)).map (·.id)).Nodup :=
    db.outbox.nodup.sublist (List.filter_sublist.map _)
  have hsorted : (((db.outbox.select (·.status == .pending)).insertionSort fun a b =>
      a.occurredAt ≤ b.occurredAt).map (·.id)).Nodup :=
    ((List.perm_insertionSort _ _).map _).nodup_iff.mpr hselect
  exact hsorted.sublist (((List.take_sublist _ _).trans List.filter_sublist).map _)

/-- **A relay pass** is a run of the deliveries of its batch, or it is rolled back. -/
theorem pollAndDispatch_runs (hready : RelayReady s) (batchSize : Nat) (locked : List Nat)
    (reactions : Nat → Reaction) :
    atomically (pollAndDispatch subs batchSize locked reactions) s.db =
        (replay (relayStep subs) s
          (passOps reactions ((pendingEvents s.db batchSize locked).map (·.id)))).db ∨
      atomically (pollAndDispatch subs batchSize locked reactions) s.db = s.db := by
  rcases atomically_cases (pollAndDispatch subs batchSize locked reactions) s.db with
    ⟨n, h⟩ | ⟨-, h⟩
  · refine .inl ?_
    generalize atomically (pollAndDispatch subs batchSize locked reactions) s.db = t at h ⊢
    unfold pollAndDispatch at h
    simp only [returns_bind, returns_get, returns_pure] at h
    obtain ⟨_, _, ⟨rfl, rfl⟩, _, _, heach, -, rfl⟩ := h
    refine (dispatchEach_runs pendingEvents_nodup hready (fun k hk => ?_) heach).symm
    obtain ⟨e, he, rfl⟩ := List.mem_map.mp hk
    obtain ⟨hmem, hpending⟩ := mem_pendingEvents he
    exact ⟨e.message, relayOf_messages (Table.get?_of_mem hmem), (pending_iff e).mpr hpending⟩
  · exact .inr h

end ContentOrchestrator

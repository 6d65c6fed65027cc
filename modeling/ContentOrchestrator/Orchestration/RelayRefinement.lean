import ContentOrchestrator.Orchestration.RelaySystem

/-! # The relay refines delivery by high-water marks

The outbox, the consumers, their checkpoints and the dead letters are read as an abstract
relay: the event is the message, the aggregate its partition, the checkpoint the mark.
Each statement of a delivery is one operation of the abstract relay, and so is the whole
delivery. -/

namespace ContentOrchestrator

open Lib Lib.Delivery

def OutboxEventStatus.delivery : OutboxEventStatus → Delivery.Status
  | .pending => .pending
  | .dispatched => .dispatched
  | .poison => .poison

def OutboxEvent.message (e : OutboxEvent) : Message Aggregate String where
  kind := e.eventType
  partition := e.aggregate
  sequence := e.sequence
  status := e.status.delivery
  failures := e.deliveryAttempts

/-- The event is dead-lettered for the consumer. -/
def isDeadLettered (db : Db) (name : String) (eventId : Nat) : Bool :=
  decide (0 < db.deadLetters.count fun d =>
    d.relatedId == .event eventId && d.jobType == "event_consumer:" ++ name)

def relayOf (db : Db) : Relay String Aggregate String where
  messages eventId := (db.outbox.get? eventId).map OutboxEvent.message
  mark := lastSequence db
  limit := maxDeliveryAttempts db
  deadLettered := isDeadLettered db

/-- Every checkpoint is some consumer's: the foreign key. -/
def CheckpointsOwned (db : Db) : Prop :=
  ∀ checkpoint ∈ db.checkpoints, ∃ consumer ∈ db.consumers, consumer.id = checkpoint.consumerId

def Subscriptions.subscribers (subs : Subscriptions) : Subscribers String String where
  names := subs.entries.map Prod.fst
  takes name eventType := (subs.entries.lookup name).any (·.contains eventType)
  unique := subs.unique

variable {s t db : Db}

theorem relayOf_messages (he : db.outbox.get? k = some e) :
    (relayOf db).messages k = some e.message := by
  simp [relayOf, he]

theorem message_of_relayOf {k : Nat} {m : Message Aggregate String}
    (hm : (relayOf db).messages k = some m) :
    ∃ e, db.outbox.get? k = some e ∧ e.message = m := Option.map_eq_some_iff.mp hm

theorem pending_iff (e : OutboxEvent) : e.message.status = .pending ↔ e.status = .pending := by
  unfold OutboxEvent.message
  cases e.status <;> simp [OutboxEventStatus.delivery]

theorem poison_iff (e : OutboxEvent) : e.message.status = .poison ↔ e.status = .poison := by
  unfold OutboxEvent.message
  cases e.status <;> simp [OutboxEventStatus.delivery]

/-! ## The tables under the marks -/

theorem consumerNamed_mem {name : String} {row : EventConsumer}
    (h : consumerNamed db name = some row) :
    row ∈ db.consumers ∧ row.name = name := by
  obtain ⟨hmem, hname⟩ := Table.mem_select.mp (List.mem_of_mem_head? h)
  exact ⟨hmem, by simpa using hname⟩

theorem checkpointFor_mem {consumerId : Nat} {aggregate : Aggregate} {row : ConsumerCheckpoint}
    (h : checkpointFor db consumerId aggregate = some row) :
    row ∈ db.checkpoints ∧ row.consumerId = consumerId ∧ row.aggregate = aggregate := by
  obtain ⟨hmem, hkey⟩ := Table.mem_select.mp (List.mem_of_mem_head? h)
  exact ⟨hmem, by simpa using hkey⟩

theorem lastSequence_of_rows {name : String} {aggregate : Aggregate} {row : EventConsumer}
    {checkpoint : ConsumerCheckpoint} (hrow : consumerNamed db name = some row)
    (hcheckpoint : checkpointFor db row.id aggregate = some checkpoint) :
    lastSequence db name aggregate = checkpoint.lastSequence := by
  simp [lastSequence, hrow, hcheckpoint]

/-- No checkpoint belongs to a consumer yet to be created. -/
theorem checkpointFor_next (howned : CheckpointsOwned db) (aggregate : Aggregate) :
    checkpointFor db db.consumers.next aggregate = none := by
  cases h : checkpointFor db db.consumers.next aggregate with
  | none => rfl
  | some checkpoint =>
    obtain ⟨hmem, hconsumer, -⟩ := checkpointFor_mem h
    obtain ⟨consumer, hc, hid⟩ := howned checkpoint hmem
    have hlt : consumer.id < db.consumers.next := Table.key_lt hc
    omega

/-- Reading the tables of the relay. -/
structure SameRelay (s t : Db) : Prop where
  view : relayOf t = relayOf s
  outbox : t.outbox = s.outbox
  owned : CheckpointsOwned s → CheckpointsOwned t

theorem SameRelay.refl (s : Db) : SameRelay s s := ⟨rfl, rfl, id⟩

theorem SameRelay.trans {u : Db} (h : SameRelay s t) (h' : SameRelay t u) : SameRelay s u :=
  ⟨h'.view.trans h.view, h'.outbox.trans h.outbox, fun howned => h'.owned (h.owned howned)⟩

/-- A consumer registered now has passed nothing. -/
theorem register_sameRelay {name : String} (howned : CheckpointsOwned s) :
    SameRelay s
      { s with consumers := s.consumers.insert ⟨fun id => { id, name }, fun _ => rfl⟩ } := by
  have hconsumer : ∀ name', consumerNamed
      { s with consumers := s.consumers.insert ⟨fun id => { id, name }, fun _ => rfl⟩ } name' =
      (consumerNamed s name').or (if name = name' then some { id := s.consumers.next, name }
        else none) := by
    intro name'
    simp only [consumerNamed, Table.head?_select_insert, beq_iff_eq]
  refine ⟨?_, rfl, fun _ checkpoint hmem => ?_⟩
  · refine Relay.ext rfl (funext fun name' => funext fun aggregate => ?_) (funext fun name' => ?_)
      rfl
    · simp only [relayOf, lastSequence, hconsumer]
      cases hrow : consumerNamed s name' with
      | some row => rfl
      | none =>
        by_cases hname : name = name'
        · have hunpassed := checkpointFor_next howned aggregate
          simp only [checkpointFor] at hunpassed
          simp [hname, checkpointFor, hunpassed]
        · simp [hname]
    · simp only [relayOf, maxDeliveryAttempts, hconsumer]
      cases hrow : consumerNamed s name' with
      | some row => rfl
      | none => by_cases hname : name = name' <;> simp [hname]
  · obtain ⟨consumer, hc, hid⟩ := howned checkpoint hmem
    exact ⟨consumer, Table.mem_insert.mpr (.inl hc), hid⟩

theorem getOrCreateConsumer_sameRelay {name : String} {row : EventConsumer}
    (howned : CheckpointsOwned s) (h : Returns (getOrCreateConsumer name) s row t) :
    SameRelay s t ∧ consumerNamed t name = some row := by
  unfold getOrCreateConsumer at h
  simp only [returns_bind, returns_get] at h
  obtain ⟨_, _, ⟨rfl, rfl⟩, h⟩ := h
  split at h
  · rename_i found hfound
    simp only [returns_pure] at h
    obtain ⟨rfl, rfl⟩ := h
    exact ⟨.refl s, hfound⟩
  · rename_i hnone
    simp only [returns_bind, returns_modify, returns_pure] at h
    obtain ⟨_, _, rfl, rfl, rfl⟩ := h
    refine ⟨register_sameRelay howned, ?_⟩
    simp only [consumerNamed, Table.head?_select_insert, beq_self_eq_true, if_true, hnone,
      Option.none_or]

/-- A checkpoint opened now has passed nothing. -/
theorem open_sameRelay {name : String} {row : EventConsumer} {aggregate : Aggregate}
    (hrow : consumerNamed s name = some row) :
    SameRelay s { s with
      checkpoints := s.checkpoints.insert ⟨fun id =>
        { id, consumerId := row.id, aggregate, lastSequence := 0 }, fun _ => rfl⟩ } := by
  refine ⟨?_, rfl, fun howned checkpoint hmem => ?_⟩
  · refine Relay.ext rfl (funext fun name' => funext fun other => ?_) rfl rfl
    simp only [relayOf, lastSequence, consumerNamed]
    cases (s.consumers.select fun c => c.name == name').head? with
    | none => rfl
    | some row' =>
      simp only [checkpointFor, Table.head?_select_insert]
      cases hfound :
        (s.checkpoints.select fun c => c.consumerId == row'.id && c.aggregate == other).head? with
      | some checkpoint => rfl
      | none => split <;> rfl
  · rcases Table.mem_insert.mp hmem with hold | rfl
    · exact howned checkpoint hold
    · exact ⟨row, (consumerNamed_mem hrow).1, rfl⟩

theorem getOrCreateCheckpoint_sameRelay {name : String} {row : EventConsumer}
    {aggregate : Aggregate} {checkpoint : ConsumerCheckpoint}
    (hrow : consumerNamed s name = some row)
    (h : Returns (getOrCreateCheckpoint row.id aggregate) s checkpoint t) :
    SameRelay s t ∧ consumerNamed t name = some row ∧
      checkpointFor t row.id aggregate = some checkpoint := by
  unfold getOrCreateCheckpoint at h
  simp only [returns_bind, returns_get] at h
  obtain ⟨_, _, ⟨rfl, rfl⟩, h⟩ := h
  split at h
  · rename_i found hfound
    simp only [returns_pure] at h
    obtain ⟨rfl, rfl⟩ := h
    exact ⟨.refl s, hrow, hfound⟩
  · rename_i hnone
    simp only [returns_bind, returns_modify, returns_pure] at h
    obtain ⟨_, _, rfl, rfl, rfl⟩ := h
    refine ⟨open_sameRelay hrow, hrow, ?_⟩
    simp only [checkpointFor, Table.head?_select_insert, beq_self_eq_true, Bool.and_self, if_true,
      hnone, Option.none_or]

/-- The rows a consumer's turn works on, and how far its checkpoint is. -/
theorem consumer_rows {name : String} {row : EventConsumer} {aggregate : Aggregate}
    {checkpoint : ConsumerCheckpoint} {u : Db} (howned : CheckpointsOwned s)
    (hrow : Returns (getOrCreateConsumer name) s row t)
    (hcheckpoint : Returns (getOrCreateCheckpoint row.id aggregate) t checkpoint u) :
    SameRelay s u ∧ row.name = name ∧ consumerNamed u row.name = some row ∧
      checkpointFor u row.id aggregate = some checkpoint ∧
        lastSequence s name aggregate = checkpoint.lastSequence := by
  obtain ⟨hsame, hrow⟩ := getOrCreateConsumer_sameRelay howned hrow
  obtain ⟨hsame', hrow, hcheckpoint⟩ := getOrCreateCheckpoint_sameRelay hrow hcheckpoint
  have hname : row.name = name := (consumerNamed_mem hrow).2
  have hmark : (relayOf u).mark = (relayOf s).mark := congrArg Relay.mark (hsame.trans hsame').view
  refine ⟨hsame.trans hsame', hname, hname.symm ▸ hrow, hcheckpoint, ?_⟩
  rw [← lastSequence_of_rows hrow hcheckpoint]
  exact (congrFun (congrFun hmark name) aggregate).symm

/-! ## Statements as operations of the abstract relay -/

theorem relayOf_advance {name : String} {row : EventConsumer} {aggregate : Aggregate}
    {checkpoint : ConsumerCheckpoint} {n : Nat} (hrow : consumerNamed s name = some row)
    (hcheckpoint : checkpointFor s row.id aggregate = some checkpoint) :
    relayOf (advanceCheckpoint checkpoint.id n s) = (relayOf s).advance name aggregate n := by
  obtain ⟨hmem, hconsumer, haggregate⟩ := checkpointFor_mem hcheckpoint
  obtain ⟨hrowmem, hname⟩ := consumerNamed_mem hrow
  refine Relay.ext rfl (funext fun name' => funext fun other => ?_) rfl rfl
  simp only [relayOf, Relay.advance, lastSequence, advanceCheckpoint, consumerNamed, checkpointFor]
  cases hrow' : (s.consumers.select fun c => c.name == name').head? with
  | none =>
    rw [if_neg]
    rintro ⟨rfl, -⟩
    rw [consumerNamed, hrow'] at hrow
    cases hrow
  | some row' =>
    obtain ⟨hrowmem', hname'⟩ := consumerNamed_mem hrow'
    simp only
    rw [Table.head?_select_modify fun _ => rfl]
    cases hfound :
      (s.checkpoints.select fun c => c.consumerId == row'.id && c.aggregate == other).head? with
    | none =>
      rw [if_neg]
      · rfl
      · rintro ⟨rfl, rfl⟩
        rw [consumerNamed, hrow', Option.some_inj] at hrow
        subst hrow
        rw [checkpointFor, hfound] at hcheckpoint
        cases hcheckpoint
    | some checkpoint' =>
      obtain ⟨hmem', hconsumer', haggregate'⟩ := checkpointFor_mem hfound
      -- the first checkpoint of another consumer or aggregate is another row
      by_cases hkey : Keyed.key checkpoint' = checkpoint.id
      · have hsame : checkpoint' = checkpoint := Table.eq_of_key hmem' hmem hkey
        subst hsame
        have hrows : row' = row := Table.eq_of_key hrowmem' hrowmem
            (hconsumer'.symm.trans hconsumer)
        subst hrows
        rw [if_pos ⟨hname'.symm.trans hname, haggregate'.symm.trans haggregate⟩]
        simp [hkey]
      · rw [if_neg]
        · simp [hkey]
        · rintro ⟨rfl, rfl⟩
          rw [consumerNamed, hrow', Option.some_inj] at hrow
          subst hrow
          rw [checkpointFor, hfound, Option.some_inj] at hcheckpoint
          subst hcheckpoint
          exact hkey rfl

theorem relayOf_modifyEvent {k : Nat} {e : OutboxEvent} {u : Update OutboxEvent}
    (he : s.outbox.get? k = some e) :
    relayOf (modifyEvent k u s) = (relayOf s).setMessage k (u.apply e).message := by
  refine Relay.ext (funext fun j => ?_) rfl rfl rfl
  simp only [relayOf, Relay.setMessage, modifyEvent, Table.get?_modify]
  by_cases hj : j = k
  · subst hj
    simp [he]
  · simp [hj]

theorem relayOf_routeToDeadLetter {workspaceId attempts k : Nat} {name reason : String} :
    relayOf (routeToDeadLetter workspaceId "outbox_events" (.event k)
        ("event_consumer:" ++ name) reason attempts s) =
      (relayOf s).deadLetter name k := by
  refine Relay.ext rfl rfl rfl (funext fun name' => funext fun j => ?_)
  have hnew :
      (Ref.event k == Ref.event j && "event_consumer:" ++ name == "event_consumer:" ++ name') =
        (decide (name' = name) && decide (j = k)) := by
    rw [Bool.eq_iff_iff]
    simp only [Bool.and_eq_true, beq_iff_eq, decide_eq_true_eq, Ref.event.injEq,
      String.append_right_inj]
    constructor
    · intro h
      exact ⟨h.2.symm, h.1.symm⟩
    · intro h
      exact ⟨h.2.symm, h.1.symm⟩
  simp only [relayOf, Relay.deadLetter, isDeadLettered, routeToDeadLetter, Table.count_insert, hnew]
  cases hletter : (decide (name' = name) && decide (j = k)) <;> simp

/-! ## A delivery -/

section Delivery

variable {subs : Subscriptions} {reaction : Reaction} {k : Nat} {e : OutboxEvent}
  {entry : String × List String}

theorem lookup_of_mem {entries : List (String × List String)}
    (hunique : (entries.map Prod.fst).Nodup) (hentry : entry ∈ entries) :
    entries.lookup entry.1 = some entry.2 := by
  induction entries with
  | nil => cases hentry
  | cons first rest ih =>
    obtain ⟨hfirst, hrest⟩ := List.nodup_cons.mp hunique
    rcases List.mem_cons.mp hentry with rfl | hlater
    · exact List.lookup_cons_self
    · have hne : (entry.1 == first.1) = false := by
        rw [beq_eq_false_iff_ne]
        rintro heq
        exact hfirst (heq ▸ List.mem_map_of_mem hlater)
      rw [List.lookup_cons, hne]
      exact ih hrest hlater

theorem takes_entry (hentry : entry ∈ subs.entries) (eventType : String) :
    subs.subscribers.takes entry.1 eventType = entry.2.contains eventType := by
  have hlookup : subs.entries.lookup entry.1 = some entry.2 := lookup_of_mem subs.unique hentry
  simp [Subscriptions.subscribers, hlookup]

/-- Whom the event is for is what the abstract relay offers. -/
theorem isFor_iff (hentry : entry ∈ subs.entries) :
    e.isFor s entry = (relayOf s).isOffered subs.subscribers.takes e.message entry.1 := by
  simp only [Relay.isOffered, OutboxEvent.message, takes_entry hentry]
  rfl

theorem lookup_handler (entry : String × List String) (eventType : String) :
    (reaction.consumer entry).handlers.lookup eventType =
      if entry.2.contains eventType then some (reaction.handler entry.1) else none := by
  unfold Reaction.consumer
  induction entry.2 with
  | nil => rfl
  | cons first rest ih =>
    simp only [List.map_cons, List.lookup_cons, ih, List.contains_cons]
    cases eventType == first <;> rfl

theorem recordFailure_fail {row : EventConsumer} {error : OrchestrationError} {b : Bool}
    (hrow : consumerNamed s row.name = some row) (he : s.outbox.get? k = some e)
    (h : Returns (recordFailure k row error) s b t) :
    ((relayOf s).fail row.name k e.message) = (b, relayOf t) ∧ t.checkpoints = s.checkpoints ∧
      t.consumers = s.consumers := by
  have hfailed : (s.outbox.modify k OutboxEvent.failAttempt).get? k =
      some (OutboxEvent.failAttempt.apply e) := by
    simp [Table.get?_modify, he]
  have hlimit : (relayOf s).limit row.name = row.maxDeliveryAttempts := by
    simp [relayOf, maxDeliveryAttempts, hrow]
  unfold recordFailure loadEvent at h
  simp only [returns_bind, returns_modify, returns_get, returns_require] at h
  obtain ⟨_, _, rfl, event, _, ⟨_, _, ⟨rfl, rfl⟩, hevent, rfl⟩, h⟩ := h
  have hevent : event = OutboxEvent.failAttempt.apply e := by
    simp only [modifyEvent] at hevent
    rw [hfailed] at hevent
    exact (Option.some_inj.mp hevent).symm
  subst hevent
  unfold Relay.fail
  rw [hlimit]
  split at h
  · rename_i hexhausted
    simp only [returns_bind, returns_modify, returns_pure] at h
    obtain ⟨_, _, rfl, _, _, rfl, rfl, rfl⟩ := h
    have hexhausted : row.maxDeliveryAttempts ≤ e.message.failures + 1 := hexhausted
    rw [if_pos hexhausted]
    refine ⟨?_, rfl, rfl⟩
    rw [relayOf_routeToDeadLetter, relayOf_modifyEvent hfailed, relayOf_modifyEvent he]
    congr 2
    exact Relay.ext (funext fun j => by by_cases hj : j = k <;> simp [Relay.setMessage, hj]; rfl)
      rfl rfl rfl
  · rename_i hleft
    simp only [returns_pure] at h
    obtain ⟨rfl, rfl⟩ := h
    have hleft : ¬ row.maxDeliveryAttempts ≤ e.message.failures + 1 := hleft
    rw [if_neg hleft]
    refine ⟨?_, rfl, rfl⟩
    rw [relayOf_modifyEvent he]
    rfl

/-- What a consumer whose handler is due leaves behind. -/
theorem handle_turn {row : EventConsumer} {checkpoint : ConsumerCheckpoint} {b : Bool}
    (hrow : consumerNamed s row.name = some row)
    (hcheckpoint : checkpointFor s row.id e.aggregate = some checkpoint)
    (he : s.outbox.get? k = some e) (howned : CheckpointsOwned s)
    (h : Returns (tryCatch
      (do
        reaction.handler row.name e
        modify (advanceCheckpoint checkpoint.id e.sequence)
        return false)
      fun error => if error.abortsTransaction then throw error
        else recordFailure k row error) s b t) :
    (if reaction.succeeds row.name then (false, (relayOf s).advance row.name e.aggregate e.sequence)
      else (relayOf s).fail row.name k e.message) = (b, relayOf t) ∧ CheckpointsOwned t ∧
      reaction.aborts row.name = false := by
  unfold Reaction.handler at h
  unfold Reaction.succeeds Reaction.aborts
  cases hreaction : reaction row.name with
  | none =>
    simp only [hreaction] at h
    rcases returns_tryCatch.mp h with h | ⟨error, u, hraise, -⟩
    · simp only [returns_bind, returns_pure, returns_modify] at h
      obtain ⟨_, _, ⟨_, rfl⟩, _, _, rfl, rfl, rfl⟩ := h
      refine ⟨?_, fun cp hmem => ?_, rfl⟩
      · rw [relayOf_advance hrow hcheckpoint]
        rfl
      · obtain ⟨old, hold, hcp⟩ := Table.mem_modify.mp hmem
        obtain ⟨consumer, hconsumer, hid⟩ := howned old hold
        refine ⟨consumer, hconsumer, hid.trans ?_⟩
        rw [← hcp]
        split <;> rfl
    · simp only [raises_bind, raises_pure, raises_modify, false_or, and_false,
        exists_false] at hraise
  | some error =>
    simp only [hreaction] at h
    rcases returns_tryCatch.mp h with h | ⟨error', u, hraise, h⟩
    · simp only [returns_bind, returns_throw, false_and, exists_false] at h
    · simp only [raises_bind, raises_throw, returns_throw, false_and, exists_false,
        or_false] at hraise
      obtain ⟨rfl, rfl⟩ := hraise
      split at h
      · simp only [returns_throw] at h
      · rename_i hgoes
        obtain ⟨hfail, hcheckpoints, hconsumers⟩ := recordFailure_fail hrow he h
        refine ⟨hfail, ?_, by simpa using hgoes⟩
        unfold CheckpointsOwned
        rw [hcheckpoints, hconsumers]
        exact howned

/-- **A consumer's turn** is an offer of the abstract relay, unless its handler ends the
transaction. -/
theorem deliverTo_turn {b : Bool} (howned : CheckpointsOwned s) (hentry : entry ∈ subs.entries)
    (he : s.outbox.get? k = some e) (h : Returns (deliverTo k (reaction.consumer entry)) s b t) :
    (relayOf s).offer subs.subscribers.takes reaction.succeeds k entry.1 = (b, relayOf t) ∧
    CheckpointsOwned t ∧
      (e.isFor s entry && reaction.aborts entry.1) = false := by
  have hfor : e.isFor s entry = (relayOf s).isOffered subs.subscribers.takes e.message entry.1 :=
    isFor_iff hentry
  unfold Relay.offer
  rw [relayOf_messages he]
  simp only
  rw [← hfor]
  unfold deliverTo loadEvent at h
  simp only [returns_bind, returns_get, returns_require] at h
  obtain ⟨event, _, ⟨_, _, ⟨rfl, rfl⟩, hevent, rfl⟩, h⟩ := h
  rw [he, Option.some_inj] at hevent
  subst hevent
  rw [lookup_handler] at h
  cases htakes : entry.2.contains e.eventType with
  | false =>
    have hnot : e.isFor s entry = false := by simp only [OutboxEvent.isFor, htakes, Bool.false_and]
    simp only [htakes, Bool.false_eq_true, if_false, returns_pure] at h
    obtain ⟨rfl, rfl⟩ := h
    rw [hnot]
    exact ⟨rfl, howned, rfl⟩
  | true =>
    simp only [htakes, if_true, returns_bind] at h
    obtain ⟨row, s₁, hrow, checkpoint, s₂, hcheckpoint, h⟩ := h
    obtain ⟨hsame, hname, hrow, hcheckpoint, hlast⟩ := consumer_rows howned hrow hcheckpoint
    have hname : row.name = entry.1 := hname
    have hlast : lastSequence s entry.1 e.aggregate = checkpoint.lastSequence := hlast
    split at h
    · rename_i hpassed
      have hnot : e.isFor s entry = false := by
        simp only [OutboxEvent.isFor, htakes, hlast, Bool.true_and, decide_eq_false_iff_not]
        omega
      simp only [returns_pure] at h
      obtain ⟨rfl, rfl⟩ := h
      rw [hnot, hsame.view]
      exact ⟨rfl, hsame.owned howned, rfl⟩
    · rename_i hdue
      have hcalled : e.isFor s entry = true := by
        simp only [OutboxEvent.isFor, htakes, hlast, Bool.true_and, decide_eq_true_eq]
        omega
      rw [← hname] at h
      obtain ⟨hturn, howned', hgoes⟩ :=
        handle_turn hrow hcheckpoint (hsame.outbox ▸ he) (hsame.owned howned) h
      rw [hname] at hturn hgoes
      rw [hsame.view] at hturn
      rw [hcalled, hgoes]
      exact ⟨hturn, howned', rfl⟩

theorem getOrCreateConsumer_not_raises {name : String} {error : OrchestrationError} :
    ¬ Raises (getOrCreateConsumer name) s error t := by
  unfold getOrCreateConsumer
  simp only [raises_bind, raises_get, returns_get, false_or]
  rintro ⟨_, _, ⟨rfl, rfl⟩, h⟩
  split at h
  · simp only [raises_pure] at h
  · simp only [raises_bind, raises_modify, raises_pure, and_false, exists_false, or_self] at h

theorem getOrCreateCheckpoint_not_raises {consumerId : Nat} {aggregate : Aggregate}
    {error : OrchestrationError} :
    ¬ Raises (getOrCreateCheckpoint consumerId aggregate) s error t := by
  unfold getOrCreateCheckpoint
  simp only [raises_bind, raises_get, returns_get, false_or]
  rintro ⟨_, _, ⟨rfl, rfl⟩, h⟩
  split at h
  · simp only [raises_pure] at h
  · simp only [raises_bind, raises_modify, raises_pure, and_false, exists_false, or_self] at h

theorem recordFailure_not_raises {row : EventConsumer} {error error' : OrchestrationError}
    (he : s.outbox.get? k = some e) : ¬ Raises (recordFailure k row error) s error' t := by
  have hfailed : (modifyEvent k OutboxEvent.failAttempt s).outbox.get? k ≠ none := by
    simp [modifyEvent, Table.get?_modify, he]
  unfold recordFailure loadEvent
  simp only [raises_bind, raises_modify, returns_modify, raises_get, returns_get, raises_require,
    false_or]
  rintro ⟨_, _, rfl, (⟨_, _, ⟨rfl, rfl⟩, hnone, -⟩ | ⟨_, _, -, h⟩)⟩
  · exact hfailed hnone
  · split at h
    · simp only [raises_bind, raises_modify, raises_pure, and_false, exists_false, or_self] at h
    · simp only [raises_pure] at h

/-- Only a handler that is due can end the transaction. -/
theorem deliverTo_raises {error : OrchestrationError} (howned : CheckpointsOwned s)
    (he : s.outbox.get? k = some e) (h : Raises (deliverTo k (reaction.consumer entry)) s error t) :
    (e.isFor s entry && reaction.aborts entry.1) = true := by
  unfold deliverTo loadEvent at h
  simp only [raises_bind, raises_get, returns_bind, returns_get, raises_require, returns_require,
    false_or] at h
  rcases h with ⟨_, _, ⟨rfl, rfl⟩, hnone, -⟩ | ⟨event, _, ⟨_, _, ⟨rfl, rfl⟩, hevent, rfl⟩, h⟩
  · rw [he] at hnone
    cases hnone
  rw [he, Option.some_inj] at hevent
  subst hevent
  rw [lookup_handler] at h
  cases htakes : entry.2.contains e.eventType with
  | false => simp only [htakes, Bool.false_eq_true, if_false, raises_pure] at h
  | true =>
    simp only [htakes, if_true, raises_bind, getOrCreateConsumer_not_raises,
      getOrCreateCheckpoint_not_raises, false_or] at h
    obtain ⟨row, s₁, hrow, checkpoint, s₂, hcheckpoint, h⟩ := h
    obtain ⟨hsame, -, -, -, hlast⟩ := consumer_rows howned hrow hcheckpoint
    have hlast : lastSequence s entry.1 e.aggregate = checkpoint.lastSequence := hlast
    split at h
    · simp only [raises_pure] at h
    · rename_i hdue
      have hcalled : e.isFor s entry = true := by
        simp only [OutboxEvent.isFor, htakes, hlast, Bool.true_and, decide_eq_true_eq]
        omega
      obtain ⟨error', u, hraise, h⟩ := raises_tryCatch.mp h
      unfold Reaction.handler at hraise
      unfold Reaction.aborts
      cases hreaction : reaction entry.1 with
      | none =>
        simp only [hreaction, raises_bind, raises_pure, raises_modify, false_or, and_false,
          exists_false] at hraise
      | some own =>
        simp only [hreaction, raises_bind, raises_throw, returns_throw, false_and, exists_false,
          or_false] at hraise
        obtain ⟨rfl, rfl⟩ := hraise
        split at h
        · rename_i haborts
          simp [hcalled, haborts]
        · exact absurd h (recordFailure_not_raises (hsame.outbox ▸ he))

/-- A turn leaves what the event is to the other consumers. -/
theorem turn_elsewhere {b : Bool} (he : s.outbox.get? k = some e)
    (h : (relayOf s).offer subs.subscribers.takes reaction.succeeds k entry.1 = (b, relayOf t)) :
    ∃ e', t.outbox.get? k = some e' ∧
      ∀ other ∈ subs.entries, other.1 ≠ entry.1 → e'.isFor t other = e.isFor s other := by
  obtain ⟨m', hturn⟩ : ∃ m',
    Offered subs.subscribers.takes reaction.succeeds k [entry.1] e.message (relayOf s)
      ((relayOf s).offer subs.subscribers.takes reaction.succeeds k entry.1).2
      ((relayOf s).offer subs.subscribers.takes reaction.succeeds k entry.1).1 m' :=
    offer_offered (relayOf_messages he)
  rw [h] at hturn
  obtain ⟨e', he', rfl⟩ := message_of_relayOf hturn.message
  refine ⟨e', he', fun other hother hne => ?_⟩
  rw [isFor_iff hother, isFor_iff hother]
  refine isOffered_congr hturn.same ?_
  rw [hturn.mark, if_neg]
  exact fun hmarked => hne (List.mem_singleton.mp hmarked.1)

theorem aborts_elsewhere {first : String × List String} {rest : List (String × List String)}
    {e' : OutboxEvent} (hfirst : first.1 ∉ rest.map Prod.fst) (hrest : ∀ x ∈ rest, x ∈ subs.entries)
    (helse : ∀ x ∈ subs.entries, x.1 ≠ first.1 → e'.isFor t x = e.isFor s x) :
    rest.any (fun x => e'.isFor t x && reaction.aborts x.1) = rest.any fun x =>
      e.isFor s x && reaction.aborts x.1 := by
  have hsame : ∀ x ∈ rest, e'.isFor t x = e.isFor s x := by
    intro x hx
    refine helse x (hrest x hx) ?_
    rintro heq
    exact hfirst (heq ▸ List.mem_map_of_mem hx)
  rw [Bool.eq_iff_iff, List.any_eq_true, List.any_eq_true]
  constructor
  · rintro ⟨x, hx, habort⟩
    exact ⟨x, hx, hsame x hx ▸ habort⟩
  · rintro ⟨x, hx, habort⟩
    exact ⟨x, hx, (hsame x hx).symm ▸ habort⟩

/-- The consumers' turns, one after the other. -/
theorem deliverAll_offers {entries : List (String × List String)}
    (hentries : ∀ x ∈ entries, x ∈ subs.entries) (hunique : (entries.map Prod.fst).Nodup) :
    ∀ {s t : Db} {e : OutboxEvent} {b : Bool}, CheckpointsOwned s → s.outbox.get? k = some e →
      Returns (deliverAll k (entries.map reaction.consumer)) s b t →
      (relayOf s).offerAll subs.subscribers.takes reaction.succeeds k (entries.map Prod.fst) =
        (b, relayOf t) ∧
        CheckpointsOwned t ∧ entries.any (fun x => e.isFor s x && reaction.aborts x.1) = false := by
  induction entries with
  | nil =>
    intro s t e b howned he h
    obtain ⟨rfl, rfl⟩ := returns_pure.mp h
    exact ⟨rfl, howned, rfl⟩
  | cons first rest ih =>
    intro s t e b howned he h
    obtain ⟨hfirst, hrest⟩ := List.nodup_cons.mp hunique
    have hentry : first ∈ subs.entries := hentries first List.mem_cons_self
    simp only [List.map_cons, deliverAll, returns_bind, returns_pure] at h
    obtain ⟨b₁, s₁, hturn, b₂, s₂, hlater, rfl, rfl⟩ := h
    obtain ⟨hview, howned₁, hgoes⟩ := deliverTo_turn howned hentry he hturn
    obtain ⟨e₁, he₁, helse⟩ := turn_elsewhere he hview
    have hothers : ∀ x ∈ rest, x ∈ subs.entries := fun x hx =>
        hentries x (List.mem_cons_of_mem _ hx)
    obtain ⟨hviews, howned₂, hgo⟩ := ih hothers hrest howned₁ he₁ hlater
    refine ⟨?_, howned₂, ?_⟩
    · simp only [List.map_cons, Relay.offerAll, hview, hviews]
    · rw [List.any_cons, hgoes, Bool.false_or, ← aborts_elsewhere hfirst hothers helse]
      exact hgo

theorem deliverAll_raises {entries : List (String × List String)}
    (hentries : ∀ x ∈ entries, x ∈ subs.entries) (hunique : (entries.map Prod.fst).Nodup) :
    ∀ {s t : Db} {e : OutboxEvent} {error : OrchestrationError}, CheckpointsOwned s →
      s.outbox.get? k = some e →
      Raises (deliverAll k (entries.map reaction.consumer)) s error t →
      entries.any (fun x => e.isFor s x && reaction.aborts x.1) = true := by
  induction entries with
  | nil =>
    intro s t e error howned he h
    exact absurd h raises_pure
  | cons first rest ih =>
    intro s t e error howned he h
    obtain ⟨hfirst, hrest⟩ := List.nodup_cons.mp hunique
    have hentry : first ∈ subs.entries := hentries first List.mem_cons_self
    simp only [List.map_cons, deliverAll, raises_bind, raises_pure, and_false, exists_false,
      or_false] at h
    have hothers : ∀ x ∈ rest, x ∈ subs.entries := fun x hx =>
        hentries x (List.mem_cons_of_mem _ hx)
    rw [List.any_cons, Bool.or_eq_true]
    rcases h with hturn | ⟨b₁, s₁, hturn, hlater⟩
    · exact .inl (deliverTo_raises howned he hturn)
    · obtain ⟨hview, howned₁, -⟩ := deliverTo_turn howned hentry he hturn
      obtain ⟨e₁, he₁, helse⟩ := turn_elsewhere he hview
      rw [← aborts_elsewhere hfirst hothers helse]
      exact .inr (ih hothers hrest howned₁ he₁ hlater)

/-- **A delivery** of the code is one of the abstract relay. -/
theorem dispatchOne_delivers {u : Unit} (howned : CheckpointsOwned s)
    (he : s.outbox.get? k = some e) (h : Returns (dispatchOne (subs.registry reaction) k) s u t) :
    relayOf t = (relayOf s).deliver subs.subscribers reaction.succeeds k ∧ CheckpointsOwned t ∧
      isAborted subs reaction e s = false := by
  unfold dispatchOne loadEvent Subscriptions.registry at h
  simp only [returns_bind, returns_get, returns_require] at h
  obtain ⟨b, s₁, hall, event, _, ⟨_, _, ⟨rfl, rfl⟩, hevent, rfl⟩, h⟩ := h
  obtain ⟨hview, howned₁, hgo⟩ := deliverAll_offers (fun _ hx => hx) subs.unique howned he hall
  unfold Relay.deliver Subscriptions.subscribers Relay.settle
  unfold Subscriptions.subscribers at hview
  simp only at hview ⊢
  rw [hview]
  simp only [relayOf_messages hevent]
  split at h
  · rename_i hsettled
    simp only [returns_modify] at h
    subst h
    have hdone : event.message.status ≠ .poison ∧ b = false := by
      rw [ne_eq, poison_iff]
      simpa using hsettled
    rw [if_pos hdone, relayOf_modifyEvent hevent]
    exact ⟨rfl, howned₁, hgo⟩
  · rename_i hstays
    simp only [returns_pure] at h
    obtain ⟨-, rfl⟩ := h
    have hopen : ¬ (event.message.status ≠ .poison ∧ b = false) := by
      rw [ne_eq, poison_iff]
      simpa using hstays
    rw [if_neg hopen]
    exact ⟨rfl, howned₁, hgo⟩

theorem dispatchOne_raises {error : OrchestrationError} (howned : CheckpointsOwned s)
    (he : s.outbox.get? k = some e)
    (h : Raises (dispatchOne (subs.registry reaction) k) s error t) :
    isAborted subs reaction e s = true := by
  unfold dispatchOne loadEvent Subscriptions.registry at h
  simp only [raises_bind, raises_get, returns_bind, returns_get, raises_require, returns_require,
    false_or] at h
  rcases h with hall | ⟨b, s₁, hall, hlate⟩
  · exact deliverAll_raises (fun _ hx => hx) subs.unique howned he hall
  · obtain ⟨hview, -, -⟩ := deliverAll_offers (fun _ hx => hx) subs.unique howned he hall
    obtain ⟨m', hoffered⟩ : ∃ m',
      Offered subs.subscribers.takes reaction.succeeds k (subs.entries.map Prod.fst)
        e.message (relayOf s) ((relayOf s).offerAll subs.subscribers.takes reaction.succeeds k _).2
        ((relayOf s).offerAll subs.subscribers.takes reaction.succeeds k _).1 m' :=
      offerAll_offered subs.unique (relayOf_messages he)
    rw [hview] at hoffered
    obtain ⟨e', he', -⟩ := message_of_relayOf hoffered.message
    rcases hlate with ⟨_, _, ⟨rfl, rfl⟩, hnone, -⟩ | ⟨event, _, -, h⟩
    · rw [he'] at hnone
      cases hnone
    · split at h
      · simp only [raises_modify] at h
      · simp only [raises_pure] at h

end Delivery

end ContentOrchestrator

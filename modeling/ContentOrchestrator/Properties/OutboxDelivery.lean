import ContentOrchestrator.Orchestration.RelayRuns

/-! # Nothing emitted is lost

A consumer's checkpoint is one number for each aggregate, so a consumer that succeeds on an
event also passes what is numbered before it. A run loses nothing exactly when no consumer
succeeds on an event while an earlier one of the aggregate is still pending for it. -/

namespace ContentOrchestrator

open Lib Lib.Delivery

/-- **No loss**: every consumer of the event's type has handled it, or will still be called for it,
or the event has been dead-lettered. -/
def IsLossless (subs : Subscriptions) (s : RelayState) : Prop :=
  ∀ event ∈ s.db.outbox, ∀ entry ∈ subs.entries, entry.2.contains event.eventType = true →
    ⟨entry.1, event.id, true⟩ ∈ s.calls ∨
    (event.status = .pending ∧ lastSequence s.db entry.1 event.aggregate < event.sequence) ∨
    (event.status = .poison ∧ ∃ name, isDeadLettered s.db name event.id = true)

/-- An earlier event of the aggregate is still pending for the consumer. -/
def isOvertaken (db : Db) (event : OutboxEvent) (entry : String × List String) : Bool :=
  decide (0 < db.outbox.count fun earlier =>
    earlier.id != event.id && earlier.aggregate == event.aggregate &&
      decide (earlier.sequence ≤ event.sequence) &&
      earlier.isFor db entry && earlier.status == .pending)

/-- No consumer succeeds on the event ahead of an earlier one. -/
def succeedsInOrder (subs : Subscriptions) (reaction : Reaction) (event : OutboxEvent) (db : Db) :
    Bool :=
  subs.entries.all fun entry =>
    !(event.isFor db entry && reaction.succeeds entry.1) || !isOvertaken db event entry

/-- The step is not a delivery ahead of order. -/
def inOrder (subs : Subscriptions) (s : RelayState) : RelayOp → Bool
  | .emit .. => true
  | .dispatch eventId reaction =>
    (s.db.outbox.get? eventId).all fun event =>
      !isCarriedOut subs reaction event s.db || succeedsInOrder subs reaction event s.db

variable {subs : Subscriptions} {s : RelayState}

theorem entry_of_name {name : String} (hname : name ∈ subs.subscribers.names) :
    ∃ entry ∈ subs.entries, entry.1 = name := List.mem_map.mp hname

theorem name_of_entry {entry : String × List String} (hentry : entry ∈ subs.entries) :
    entry.1 ∈ subs.subscribers.names := List.mem_map_of_mem hentry

/-- Losing nothing is a property of the abstract relay. -/
theorem isLossless_iff : IsLossless subs s ↔ (loggedOf s).Lossless subs.subscribers := by
  constructor
  · intro h k m hm c hc htakes
    obtain ⟨e, he, rfl⟩ := message_of_relayOf hm
    obtain ⟨hmem, rfl⟩ := Table.get?_eq_some.mp he
    obtain ⟨entry, hentry, rfl⟩ := entry_of_name hc
    rw [takes_entry hentry] at htakes
    rw [pending_iff, poison_iff]
    exact h e hmem entry hentry htakes
  · intro h e hmem entry hentry htakes
    rw [← pending_iff, ← poison_iff]
    rw [← takes_entry hentry] at htakes
    exact h e.id e.message (relayOf_messages (Table.get?_of_mem hmem)) entry.1
      (name_of_entry hentry) htakes

theorem isOvertaken_iff {e : OutboxEvent} {entry : String × List String} :
    isOvertaken s.db e entry = true ↔
      ∃ earlier ∈ s.db.outbox, earlier.id ≠ e.id ∧ earlier.aggregate = e.aggregate ∧
        earlier.sequence ≤ e.sequence ∧
        earlier.isFor s.db entry = true ∧ earlier.status = .pending := by
  unfold isOvertaken
  rw [decide_eq_true_eq, Table.count_pos]
  simp only [Bool.and_eq_true, bne_iff_ne, beq_iff_eq, decide_eq_true_eq, and_assoc]

theorem succeedsInOrder_iff {k : Nat} {e : OutboxEvent} {reaction : Reaction}
    (he : s.db.outbox.get? k = some e) :
    succeedsInOrder subs reaction e s.db = true ↔
      InOrder subs.subscribers reaction.succeeds k (loggedOf s) := by
  have hid : e.id = k := (Table.get?_eq_some.mp he).2
  unfold succeedsInOrder
  rw [List.all_eq_true]
  constructor
  · intro h m hm c hc hoffered hok j n hj hn hpartition hle hnext hwaits
    rw [loggedOf, relayOf_messages he, Option.some_inj] at hm
    subst hm
    obtain ⟨entry, hentry, rfl⟩ := entry_of_name hc
    obtain ⟨earlier, hearlier, rfl⟩ := message_of_relayOf hn
    obtain ⟨hmem, rfl⟩ := Table.get?_eq_some.mp hearlier
    have hfor : e.isFor s.db entry = true := (isFor_iff hentry).trans hoffered
    have hpasses : isOvertaken s.db e entry = true :=
      isOvertaken_iff.mpr ⟨earlier, hmem, hid ▸ hj, hpartition, hle, (isFor_iff hentry).trans hnext,
        (pending_iff earlier).mp hwaits⟩
    have hcheck := h entry hentry
    simp [hfor, hok, hpasses] at hcheck
  · intro h entry hentry
    cases hcalled : (e.isFor s.db entry && reaction.succeeds entry.1) with
    | false => rfl
    | true =>
      obtain ⟨hfor, hok⟩ := Bool.and_eq_true_iff.mp hcalled
      cases hpasses : isOvertaken s.db e entry with
      | false => rfl
      | true =>
        obtain ⟨earlier, hmem, hne, haggregate, hle, hnext, hwaits⟩ := isOvertaken_iff.mp hpasses
        have hoffered : (relayOf s.db).isOffered subs.subscribers.takes e.message entry.1 = true :=
          (isFor_iff hentry).symm.trans hfor
        have hwaits : earlier.message.status = .pending := (pending_iff earlier).mpr hwaits
        exact absurd hwaits (h e.message (relayOf_messages he) entry.1 (name_of_entry hentry)
          hoffered hok
          earlier.id earlier.message (hid ▸ hne) (relayOf_messages (Table.get?_of_mem hmem))
            haggregate hle
          ((isFor_iff hentry).symm.trans hnext))

/-- **A step loses nothing exactly when it is not a delivery ahead of order.** -/
theorem step_lossless (hready : RelayReady s) (hs : IsLossless subs s) (op : RelayOp) :
    IsLossless subs (relayStep subs s op) ↔ inOrder subs s op = true := by
  rw [isLossless_iff] at hs ⊢
  cases relayStep_stepped hready op with
  | published hlogged _ =>
    rw [hlogged]
    exact ⟨fun _ => rfl, fun _ => publish_lossless emitted_fresh hready.sound hs⟩
  | delivered he hcarried hlogged _ =>
    rw [hlogged, deliver_lossless (relayOf_messages he) (carriedOut_pending hcarried) hready.sound
      hs, ← succeedsInOrder_iff he]
    simp only [inOrder, he, Option.all_some, hcarried, Bool.not_true, Bool.false_or]
  | skipped hidle hsame =>
    rw [hsame]
    refine ⟨fun _ => ?_, fun _ => hs⟩
    simp only [inOrder, Option.all_eq_true]
    intro e he
    rw [hidle e he]
    rfl

theorem IsFreshRelay.lossless (hfresh : IsFreshRelay s) : IsLossless subs s := by
  intro event hmem
  rw [hfresh.outbox] at hmem
  exact absurd hmem Table.mem_empty

/-- **Delivery is lossless in every state of a run exactly when every delivery of the run is in
order.** -/
theorem outbox_lossless (subs : Subscriptions) (s : RelayState) (hfresh : IsFreshRelay s)
    (ops : List RelayOp) :
    (∀ n, IsLossless subs (replay (relayStep subs) s (ops.take n))) ↔
      admits (relayStep subs) (inOrder subs) s ops = true := by
  refine throughout_iff_admits ?_ ?_ ops s hfresh.ready hfresh.lossless
  · intro s op hready
    exact relayStep_ready hready op
  · intro s op hready hs
    exact step_lossless hready hs op

/-! ## A run that loses an event -/

def controllerOnly : Subscriptions where
  entries := [("pipeline-controller", [EventType.reviewApproved, EventType.reviewRejected])]
  unique := by decide

def allSucceed : Reaction := fun _ => none

def allFail : Reaction := fun _ => some (.runtimeError "database is busy")

def relayStart : RelayState := ⟨{}, []⟩

def emitApproval : RelayOp := .emit 0 EventType.reviewApproved 0 (.pipelineRun 0) none

theorem relayStart_fresh : IsFreshRelay relayStart := ⟨rfl, rfl, rfl, rfl⟩

/-- Two events in order, the first with a failure that is retried. -/
def failsOnce : List RelayOp :=
  [emitApproval, .dispatch 0 allFail, emitApproval, .dispatch 0 allSucceed, .dispatch 1 allSucceed]

theorem outbox_lossless_retried :
    admits (relayStep controllerOnly) (inOrder controllerOnly) relayStart failsOnce = true ∧
      ∀ n, IsLossless controllerOnly
        (replay (relayStep controllerOnly) relayStart (failsOnce.take n)) := by
  have hadmits : admits (relayStep controllerOnly) (inOrder controllerOnly) relayStart failsOnce =
      true := by decide
  exact ⟨hadmits, (outbox_lossless controllerOnly relayStart relayStart_fresh failsOnce).mpr
    hadmits⟩

/-- The handler fails on the first event of a run and succeeds on the second: the checkpoint has
then passed the first, which the next pass marks as dispatched. -/
def overtaken : List RelayOp :=
  [emitApproval, emitApproval, .dispatch 0 allFail, .dispatch 1 allSucceed, .dispatch 0 allSucceed]

/-- **An event is dispatched that its only consumer never handled.** -/
theorem overtaken_lost :
    ¬ IsLossless controllerOnly (replay (relayStep controllerOnly) relayStart overtaken) := by
  let lost : OutboxEvent :=
    { id := 0, workspaceId := 0, eventType := EventType.reviewApproved, aggregate := .pipelineRun 0
      sequence := 1
      status := .dispatched, deliveryAttempts := 1, occurredAt := 0 }
  have hmem : lost ∈ (replay (relayStep controllerOnly) relayStart overtaken).db.outbox.rows := by
    decide
  have hcalls : ⟨"pipeline-controller", 0, true⟩ ∉
      (replay (relayStep controllerOnly) relayStart overtaken).calls := by
    decide
  intro hlossless
  rcases hlossless lost hmem ("pipeline-controller",
    [EventType.reviewApproved, EventType.reviewRejected])
    List.mem_cons_self (by decide) with hhandled | ⟨hpending, -⟩ | ⟨hpoison, -⟩
  · exact hcalls hhandled
  · cases hpending
  · cases hpoison

end ContentOrchestrator

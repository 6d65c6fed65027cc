import ContentOrchestrator.Orchestration.RelayRuns

/-! # Consumers and each other's failures

An event has one status and one counter of failed attempts for all its consumers. A run keeps
its consumers apart exactly when no delivery poisons an event while a consumer that fails in it
has attempts of its own left. -/

namespace ContentOrchestrator

open Lib Lib.Delivery

/-- How often the consumer itself has failed on the event. -/
def failuresOf (s : RelayState) (name : String) (eventId : Nat) : Nat :=
  s.calls.count ⟨name, eventId, false⟩

/-- **Isolation**: an event is pending for every consumer that has not passed it until that consumer
has used up its own attempts, and a consumer is dead-lettered for an event only then. -/
structure IsIsolated (subs : Subscriptions) (s : RelayState) : Prop where
  delivery : ∀ event ∈ s.db.outbox, ∀ entry ∈ subs.entries, event.isFor s.db entry = true →
    event.status = .pending ∨ maxDeliveryAttempts s.db entry.1 ≤ failuresOf s entry.1 event.id
  letters : ∀ name eventId, isDeadLettered s.db name eventId = true →
    maxDeliveryAttempts s.db name ≤ failuresOf s name eventId

/-- The consumers whose handler is called and fails, in turn order. -/
def failingConsumers (subs : Subscriptions) (reaction : Reaction) (event : OutboxEvent) (db : Db) :
    List String :=
  (subs.entries.filter fun entry => event.isFor db entry && !reaction.succeeds entry.1).map Prod.fst

/-- If the shared counter reaches the limit of a consumer that fails, then every consumer that fails
uses up its own attempts. -/
def poisonsForAll (subs : Subscriptions) (reaction : Reaction) (event : OutboxEvent)
    (s : RelayState) : Bool :=
  !exhausts (maxDeliveryAttempts s.db) event.deliveryAttempts
    (failingConsumers subs reaction event s.db) ||
    (failingConsumers subs reaction event s.db).all fun name =>
      decide (maxDeliveryAttempts s.db name ≤ failuresOf s name event.id + 1)

/-- The step does not poison an event that another consumer still has attempts for. -/
def keepsApart (subs : Subscriptions) (s : RelayState) : RelayOp → Bool
  | .emit .. => true
  | .dispatch eventId reaction =>
    (s.db.outbox.get? eventId).all fun event =>
      !isCarriedOut subs reaction event s.db || poisonsForAll subs reaction event s

variable {subs : Subscriptions} {s : RelayState}

theorem isIsolated_iff : IsIsolated subs s ↔ (loggedOf s).Isolated subs.subscribers := by
  constructor
  · intro h
    refine ⟨fun k m hm c hc hoffered => ?_, h.letters⟩
    obtain ⟨e, he, rfl⟩ := message_of_relayOf hm
    obtain ⟨hmem, rfl⟩ := Table.get?_eq_some.mp he
    obtain ⟨entry, hentry, rfl⟩ := List.mem_map.mp hc
    rw [pending_iff]
    exact h.delivery e hmem entry hentry ((isFor_iff hentry).trans hoffered)
  · intro h
    refine ⟨fun e hmem entry hentry hfor => ?_, h.letters⟩
    rw [← pending_iff]
    exact h.delivery e.id e.message (relayOf_messages (Table.get?_of_mem hmem)) entry.1
      (List.mem_map_of_mem hentry) ((isFor_iff hentry).symm.trans hfor)

theorem failingConsumers_eq {e : OutboxEvent} {reaction : Reaction} :
    failingConsumers subs reaction e s.db =
      (relayOf s.db).failing subs.subscribers.takes reaction.succeeds subs.subscribers.names
        e.message := by
  have hfilter : (subs.entries.filter fun entry =>
      e.isFor s.db entry && !reaction.succeeds entry.1) =
      subs.entries.filter ((fun c => (relayOf s.db).isOffered subs.subscribers.takes e.message c &&
        !reaction.succeeds c) ∘ Prod.fst) := by
    refine List.filter_congr fun entry hentry => ?_
    rw [isFor_iff hentry]
    rfl
  unfold failingConsumers Relay.failing
  rw [hfilter, ← List.filter_map]
  rfl

theorem poisonsForAll_iff {k : Nat} {e : OutboxEvent} {reaction : Reaction}
    (he : s.db.outbox.get? k = some e) :
    poisonsForAll subs reaction e s = true ↔
      PoisonsAlone subs.subscribers reaction.succeeds k (loggedOf s) := by
  have hid : e.id = k := (Table.get?_eq_some.mp he).2
  have hm : (loggedOf s).relay.messages k = some e.message := relayOf_messages he
  unfold poisonsForAll
  rw [failingConsumers_eq, Bool.or_eq_true, Bool.not_eq_true', List.all_eq_true]
  constructor
  · intro h m hm' hexhausted c hfails
    rw [hm, Option.some_inj] at hm'
    subst hm'
    rcases h with hleft | hall
    · have hexhausted : exhausts (maxDeliveryAttempts s.db) e.deliveryAttempts
        ((relayOf s.db).failing subs.subscribers.takes reaction.succeeds subs.subscribers.names
          e.message) = true :=
        hexhausted
      rw [hleft] at hexhausted
      cases hexhausted
    · have hown := of_decide_eq_true (hall c hfails)
      rw [hid] at hown
      exact hown
  · intro h
    cases hexhausted : exhausts (maxDeliveryAttempts s.db) e.deliveryAttempts
        ((relayOf s.db).failing subs.subscribers.takes reaction.succeeds subs.subscribers.names
          e.message) with
    | false => exact .inl rfl
    | true =>
      refine .inr fun c hfails => decide_eq_true ?_
      rw [hid]
      exact h e.message hm hexhausted c hfails

/-- **A step keeps consumers apart exactly when it poisons for nobody else.** -/
theorem step_isolated (hready : RelayReady s) (hs : IsIsolated subs s) (op : RelayOp) :
    IsIsolated subs (relayStep subs s op) ↔ keepsApart subs s op = true := by
  rw [isIsolated_iff] at hs ⊢
  cases relayStep_stepped hready op with
  | published hlogged _ =>
    rw [hlogged]
    exact ⟨fun _ => rfl, fun _ => publish_isolated emitted_fresh hs⟩
  | delivered he hcarried hlogged _ =>
    rw [hlogged, deliver_isolated (relayOf_messages he) (carriedOut_pending hcarried) hs,
      ← poisonsForAll_iff he]
    simp only [keepsApart, he, Option.all_some, hcarried, Bool.not_true, Bool.false_or]
  | skipped hidle hsame =>
    rw [hsame]
    refine ⟨fun _ => ?_, fun _ => hs⟩
    simp only [keepsApart, Option.all_eq_true]
    intro e he
    rw [hidle e he]
    rfl

theorem IsFreshRelay.isolated (hfresh : IsFreshRelay s) : IsIsolated subs s := by
  refine ⟨fun event hmem => ?_, fun name eventId hletter => ?_⟩
  · rw [hfresh.outbox] at hmem
    exact absurd hmem Table.mem_empty
  · unfold isDeadLettered at hletter
    rw [hfresh.deadLetters] at hletter
    exact absurd (of_decide_eq_true hletter) (Nat.lt_irrefl 0)

/-- **Consumers are kept apart in every state of a run exactly when no delivery of the run poisons
an event that a failing consumer still has attempts for.** -/
theorem consumers_isolated (subs : Subscriptions) (s : RelayState) (hfresh : IsFreshRelay s)
    (ops : List RelayOp) :
    (∀ n, IsIsolated subs (replay (relayStep subs) s (ops.take n))) ↔
      admits (relayStep subs) (keepsApart subs) s ops = true := by
  refine throughout_iff_admits ?_ ?_ ops s hfresh.ready hfresh.isolated
  · intro s op hready
    exact relayStep_ready hready op
  · intro s op hready hs
    exact step_isolated hready hs op

/-! ## A run in which one consumer uses up another's attempts -/

def twoConsumers : Subscriptions where
  entries := [("billing", ["content.created"]), ("search", ["content.created"])]
  unique := by decide

/-- Two registered consumers, with two delivery attempts each. -/
def twoRegistered : Db where
  consumers := ((∅ : Table EventConsumer).insert
    ⟨fun id => { id, name := "billing", maxDeliveryAttempts := 2 }, fun _ => rfl⟩).insert
    ⟨fun id => { id, name := "search", maxDeliveryAttempts := 2 }, fun _ => rfl⟩

def twoStart : RelayState := ⟨twoRegistered, []⟩

theorem twoStart_fresh : IsFreshRelay twoStart := ⟨rfl, rfl, rfl, rfl⟩

def emitCreated : RelayOp := .emit 0 "content.created" 0 (.workspace 0) none

def failsAt (name : String) : Reaction := fun other =>
  if other = name then some (.runtimeError "down") else none

/-- One consumer alone fails until it is dead-lettered. -/
def billingFails : List RelayOp :=
  [emitCreated, .dispatch 0 (failsAt "billing"), .dispatch 0 (failsAt "billing")]

theorem consumers_isolated_billing :
    admits (relayStep twoConsumers) (keepsApart twoConsumers) twoStart billingFails = true ∧
      ∀ n, IsIsolated twoConsumers
        (replay (relayStep twoConsumers) twoStart (billingFails.take n)) := by
  have hadmits : admits (relayStep twoConsumers) (keepsApart twoConsumers) twoStart billingFails =
      true := by decide
  exact ⟨hadmits, (consumers_isolated twoConsumers twoStart twoStart_fresh billingFails).mpr
    hadmits⟩

/-- Both fail in the first pass: the second failure brings the shared counter to the limit. -/
def bothFail : List RelayOp := [emitCreated, .dispatch 0 fun _ => some (.runtimeError "down")]

/-- **After one failure of its own a consumer gets the event no more.** -/
theorem shared_attempts_poison :
    ¬ IsIsolated twoConsumers (replay (relayStep twoConsumers) twoStart bothFail) := by
  let event : OutboxEvent :=
    { id := 0, workspaceId := 0, eventType := "content.created", aggregate := .workspace 0
      sequence := 1
      status := .poison, deliveryAttempts := 2, occurredAt := 0 }
  have hmem : event ∈ (replay (relayStep twoConsumers) twoStart bothFail).db.outbox.rows := by
    decide
  have hown :
      maxDeliveryAttempts (replay (relayStep twoConsumers) twoStart bothFail).db "billing" = 2 ∧
        failuresOf (replay (relayStep twoConsumers) twoStart bothFail) "billing" 0 = 1 := by decide
  have hfor : event.isFor (replay (relayStep twoConsumers) twoStart bothFail).db
      ("billing", ["content.created"]) = true := by decide
  intro hisolated
  rcases hisolated.delivery event hmem _ List.mem_cons_self hfor with hpending | hle
  · cases hpending
  · have hle :
        maxDeliveryAttempts (replay (relayStep twoConsumers) twoStart bothFail).db "billing" ≤
          failuresOf (replay (relayStep twoConsumers) twoStart bothFail) "billing" 0 := hle
    rw [hown.1, hown.2] at hle
    omega

end ContentOrchestrator

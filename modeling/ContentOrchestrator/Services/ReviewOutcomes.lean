import ContentOrchestrator.Services.ReviewDesk
import ContentOrchestrator.Orchestration.ControllerOutcomes

/-! # What a review decision can do

The verdict is delivered through the outbox inside the deciding transaction, and the
relay swallows a handler that raises. So the states a committed decision can leave are
those of the handler, normal exit or not; delivery itself touches no working table. -/

namespace ContentOrchestrator

open Lib

/-- Every dead letter about a run was there before, or one about the same run. -/
def LettersFrom (s t : Db) : Prop :=
  ∀ e ∈ t.deadLetters, ∀ runId, e.relatedId = .run runId →
    ∃ e₀ ∈ s.deadLetters, e₀.relatedId = .run runId

theorem LettersFrom.of_eq {s t : Db} (h : t.deadLetters = s.deadLetters) : LettersFrom s t :=
  fun e he _ href => ⟨e, h ▸ he, href⟩

theorem LettersFrom.trans {s t u : Db} (h : LettersFrom s t) (h' : LettersFrom t u) :
    LettersFrom s u := by
  intro e he runId href
  obtain ⟨e₁, he₁, href₁⟩ := h' e he runId href
  exact h e₁ he₁ runId href₁

/-- A letter about something else. -/
theorem LettersFrom.route {s : Db} {workspaceId attempts : Nat} {table jobType reason : String}
    {ref : Ref} (href : ∀ runId, ref ≠ .run runId) :
    LettersFrom s (routeToDeadLetter workspaceId table ref jobType reason attempts s) := by
  intro e he runId hrun
  rcases Table.mem_insert.mp he with he | rfl
  · exact ⟨e, he, hrun⟩
  · exact absurd hrun (href runId)

/-- The two states have the same working tables. -/
structure SameWork (s t : Db) : Prop where
  runs : t.runs = s.runs
  jobs : t.jobs = s.jobs
  assignments : t.assignments = s.assignments
  gates : t.gates = s.gates
  reservations : t.reservations = s.reservations
  workers : t.workers = s.workers
  config : t.config = s.config
  letters : LettersFrom s t

theorem SameWork.definitions {s t : Db} (h : SameWork s t) : t.definitions = s.definitions :=
  congrArg Configuration.definitions h.config

/-- The gate as the handler of a verdict sees it. -/
theorem SameWork.recorded_gate {s t : Db} {gateId reviewerId : Nat} {gate : ReviewGate}
    (h : SameWork (modifyGate gateId (ReviewGate.recordReviewer reviewerId) s) t)
    (found : s.gates.get? gateId = some gate) :
    t.gates.get? gateId = some ((ReviewGate.recordReviewer reviewerId).apply gate) := by
  rw [h.gates]
  exact Table.get?_modified _ found

theorem SameWork.refl (s : Db) : SameWork s s := ⟨rfl, rfl, rfl, rfl, rfl, rfl, rfl, .of_eq rfl⟩

theorem SameWork.trans {s t u : Db} (h : SameWork s t) (h' : SameWork t u) : SameWork s u :=
  ⟨h'.runs.trans h.runs, h'.jobs.trans h.jobs, h'.assignments.trans h.assignments,
    h'.gates.trans h.gates, h'.reservations.trans h.reservations, h'.workers.trans h.workers,
    h'.config.trans h.config, h.letters.trans h'.letters⟩

/-! ## The handler -/

/-- The run is back to work and the gate decided. -/
def resumeRun (gate : ReviewGate) (approved : Bool) (runId : Nat) (s : Db) : Db :=
  modifyRun runId PipelineRun.resume (modifyGate gate.id (ReviewGate.decide approved s.now) s)

def reviewTrigger (approved : Bool) : WorkflowTransitionTrigger :=
  if approved then .onReviewApproved else .onReviewRejected

/-- The verdict sets the run running: an approval does, and a rejection that has an edge. -/
def resumesRun (db : Db) (definitionId : Nat) (gate : ReviewGate) (approved : Bool) : Bool :=
  approved ||
    match findTransition db definitionId gate.stage .onReviewRejected [] with
    | .ok (some _) => true
    | _ => false

/-- What applying a verdict to an awaiting gate can do. -/
inductive Resumed (gate : ReviewGate) (approved : Bool) (s : Db) : Db → Prop
  | rejected {run : PipelineRun} (found : s.runs.get? gate.pipelineRunId = some run)
      (verdict : approved = false) :
      Resumed gate approved s
        (failRun run (modifyRun run.id PipelineRun.clearPause
          (modifyGate gate.id (ReviewGate.decide approved s.now) s)))
  | advanced {run : PipelineRun} {t : Db} (found : s.runs.get? gate.pipelineRunId = some run)
      (resumes : ∀ d, run.definitionId = some d → resumesRun s d gate approved = true)
      (advanced : Advanced run gate.stage (reviewTrigger approved) [] s.gates
        (resumeRun gate approved run.id s) t) : Resumed gate approved s t
  | stuck {run : PipelineRun} {t : Db} {e : OrchestrationError}
      (found : s.runs.get? gate.pipelineRunId = some run)
      (resumes : ∀ d, run.definitionId = some d → resumesRun s d gate approved = true)
      (raised : Raises (advanceOrFinish run gate.stage (reviewTrigger approved) [] s.gates)
        (resumeRun gate approved run.id s) e t) : Resumed gate approved s t
  | unrouted {run : PipelineRun} (found : s.runs.get? gate.pipelineRunId = some run)
      (verdict : approved = false) :
      Resumed gate approved s (modifyGate gate.id (ReviewGate.decide approved s.now) s)
  | unloaded : Resumed gate approved s s

theorem resumesRun_of_edge {run : PipelineRun} {gate : ReviewGate} {s : Db}
    {definitionId gateId now : Nat} {approved : Bool} {transition : WorkflowTransition}
    (hpin : run.definitionId = some definitionId)
    (hedge : findTransition (modifyGate gateId (ReviewGate.decide false now) s) definitionId
    gate.stage
      .onReviewRejected [] = .ok (some transition)) :
    ∀ d, run.definitionId = some d → resumesRun s d gate approved = true := by
  intro d hd
  rw [hpin] at hd
  cases hd
  have hsame : findTransition s definitionId gate.stage .onReviewRejected [] =
      .ok (some transition) := hedge
  rw [resumesRun, hsame]
  exact Bool.or_true approved

theorem resumeFromReview_leaves {gate : ReviewGate} {approved : Bool} {s t : Db}
    (h : Leaves (resumeFromReview gate approved) s t) : Resumed gate approved s t := by
  unfold resumeFromReview at h
  rcases h with ⟨u, h⟩ | ⟨e, h⟩
  · split at h
    · simp only [returns_pure] at h
      exact h.2 ▸ .unloaded
    simp only [returns_bind, returns_loadRun, returns_get, returns_modify] at h
    obtain ⟨run, _, ⟨hrun, rfl⟩, _, _, ⟨rfl, rfl⟩, _, _, rfl, h⟩ := h
    cases approved with
    | true =>
      simp only [if_true, returns_bind, returns_modify] at h
      obtain ⟨_, _, rfl, h⟩ := h
      exact .advanced hrun (fun _ _ => rfl) (advanceOrFinish_returns h)
    | false =>
      simp only [Bool.false_eq_true, if_false, returns_bind, returns_get, returns_liftExcept,
        definitionIdOf, returns_require] at h
      obtain ⟨_, _, ⟨rfl, rfl⟩, definitionId, _, ⟨hpin, rfl⟩, edge, _, ⟨hedge, rfl⟩, h⟩ := h
      cases edge with
      | none =>
        simp only [returns_bind, returns_modify] at h
        obtain ⟨_, _, rfl, rfl⟩ := h
        exact .rejected hrun rfl
      | some transition =>
        simp only [returns_bind, returns_modify] at h
        obtain ⟨_, _, rfl, h⟩ := h
        exact .advanced hrun (resumesRun_of_edge hpin hedge) (advanceOrFinish_returns h)
  · split at h
    · simp at h
    simp only [raises_bind, returns_loadRun, returns_get, raises_get, returns_modify,
      raises_modify, false_or] at h
    rcases h with h | ⟨run, _, ⟨hrun, rfl⟩, _, _, ⟨rfl, rfl⟩, _, _, rfl, h⟩
    · simp only [loadRun, raises_bind, returns_get, raises_get, raises_require, false_or] at h
      obtain ⟨_, _, ⟨rfl, rfl⟩, _, _, rfl⟩ := h
      exact .unloaded
    cases approved with
    | true =>
      simp only [if_true, raises_bind, raises_modify, returns_modify, false_or] at h
      obtain ⟨_, _, rfl, h⟩ := h
      exact .stuck hrun (fun _ _ => rfl) h
    | false =>
      simp only [Bool.false_eq_true, if_false, raises_bind, raises_get, returns_get,
        raises_liftExcept, returns_liftExcept, definitionIdOf, raises_require, returns_require,
        false_or] at h
      rcases h with ⟨_, _, ⟨rfl, rfl⟩, ⟨_, _, rfl⟩ | ⟨definitionId, _, ⟨hpin, rfl⟩, ⟨_, rfl⟩ | h⟩⟩
      · exact .unrouted hrun rfl
      · exact .unrouted hrun rfl
      · obtain ⟨edge, _, ⟨hedge, rfl⟩, h⟩ := h
        cases edge with
        | none => simp at h
        | some transition =>
          simp only [raises_bind, raises_modify, returns_modify, false_or] at h
          obtain ⟨_, _, rfl, h⟩ := h
          exact .stuck hrun (resumesRun_of_edge hpin hedge) h

/-! ## Delivery -/

theorem getOrCreateConsumer_sameWork {name : String} {s t : Db} {row : EventConsumer}
    (h : Returns (getOrCreateConsumer name) s row t) : SameWork s t := by
  unfold getOrCreateConsumer at h
  simp only [returns_bind, returns_get] at h
  obtain ⟨_, _, ⟨rfl, rfl⟩, h⟩ := h
  split at h
  · simp only [returns_pure] at h
    exact h.2 ▸ .refl s
  · simp only [returns_bind, returns_modify, returns_pure] at h
    obtain ⟨_, _, rfl, _, rfl⟩ := h
    exact ⟨rfl, rfl, rfl, rfl, rfl, rfl, rfl, .of_eq rfl⟩

theorem getOrCreateCheckpoint_sameWork {consumerId : Nat} {aggregate : Aggregate} {s t : Db}
    {row : ConsumerCheckpoint} (h : Returns (getOrCreateCheckpoint consumerId aggregate) s row t) :
    SameWork s t := by
  unfold getOrCreateCheckpoint at h
  simp only [returns_bind, returns_get] at h
  obtain ⟨_, _, ⟨rfl, rfl⟩, h⟩ := h
  split at h
  · simp only [returns_pure] at h
    exact h.2 ▸ .refl s
  · simp only [returns_bind, returns_modify, returns_pure] at h
    obtain ⟨_, _, rfl, _, rfl⟩ := h
    exact ⟨rfl, rfl, rfl, rfl, rfl, rfl, rfl, .of_eq rfl⟩

theorem recordFailure_sameWork {eventId : Nat} {consumer : EventConsumer}
    {error : OrchestrationError} {s t : Db} {b : Bool}
    (h : Returns (recordFailure eventId consumer error) s b t) : SameWork s t := by
  unfold recordFailure loadEvent at h
  simp only [returns_bind, returns_modify, returns_get, returns_require] at h
  obtain ⟨_, _, rfl, event, _, ⟨_, _, ⟨rfl, rfl⟩, _, rfl⟩, h⟩ := h
  split at h
  · simp only [returns_bind, returns_modify, returns_pure] at h
    obtain ⟨_, _, rfl, _, _, rfl, _, rfl⟩ := h
    refine ⟨rfl, rfl, rfl, rfl, rfl, rfl, rfl, ?_⟩
    -- The letter is about the event, not about a run.
    exact LettersFrom.trans (.of_eq rfl) (.route fun _ href => by cases href)
  · simp only [returns_pure] at h
    exact h.2 ▸ ⟨rfl, rfl, rfl, rfl, rfl, rfl, rfl, .of_eq rfl⟩

/-- Delivery either skips the handler or runs it, and adds only bookkeeping. -/
theorem deliverTo_returns {eventId : Nat} {consumer : Consumer} {s t : Db} {b : Bool}
    (h : Returns (deliverTo eventId consumer) s b t) :
    SameWork s t ∨ ∃ event handler s1 s2, s.outbox.get? eventId = some event ∧
      consumer.handlers.lookup event.eventType = some handler ∧
      SameWork s s1 ∧ Leaves (handler event) s1 s2 ∧ SameWork s2 t := by
  unfold deliverTo loadEvent at h
  simp only [returns_bind, returns_get, returns_require] at h
  obtain ⟨event, _, ⟨_, _, ⟨rfl, rfl⟩, hevent, rfl⟩, h⟩ := h
  split at h
  · simp only [returns_pure] at h
    exact .inl (h.2 ▸ .refl s)
  rename_i handler hlookup
  simp only [returns_bind] at h
  obtain ⟨row, s0, hrow, checkpoint, s1, hcheck, h⟩ := h
  have hsame := (getOrCreateConsumer_sameWork hrow).trans (getOrCreateCheckpoint_sameWork hcheck)
  split at h
  · simp only [returns_pure] at h
    exact .inl (h.2 ▸ hsame)
  refine .inr ⟨event, handler, s1, ?_⟩
  rcases returns_tryCatch.mp h with h | ⟨e, s2, hraise, h⟩
  · simp only [returns_bind, returns_modify, returns_pure] at h
    obtain ⟨u, s2, hhandler, _, _, rfl, _, rfl⟩ := h
    exact ⟨s2, hevent, hlookup, hsame, .inl ⟨u, hhandler⟩, rfl, rfl, rfl, rfl, rfl, rfl, rfl,
      .of_eq rfl⟩
  · split at h
    · simp at h
    · simp only [raises_bind, raises_modify, raises_pure, and_false, exists_false,
        or_false] at hraise
      exact ⟨s2, hevent, hlookup, hsame, .inr ⟨e, hraise⟩, recordFailure_sameWork h⟩

theorem dispatchOne_returns {eventId : Nat} {s t : Db} {u : Unit}
    (h : Returns (dispatchOne registry eventId) s u t) :
    SameWork s t ∨ ∃ event handler s1 s2, s.outbox.get? eventId = some event ∧
      (registry.flatMap (·.handlers)).lookup event.eventType = some handler ∧
      SameWork s s1 ∧ Leaves (handler event) s1 s2 ∧ SameWork s2 t := by
  unfold dispatchOne loadEvent registry at h
  simp only [deliverAll, returns_bind, returns_get, returns_require, returns_pure] at h
  obtain ⟨pending, _, ⟨b, s1, hdeliver, _, _, ⟨rfl, rfl⟩, rfl, rfl⟩, event, _,
    ⟨_, _, ⟨rfl, rfl⟩, _, rfl⟩, h⟩ := h
  have htail : SameWork s1 t := by
    split at h
    · simp only [returns_modify] at h
      exact h ▸ ⟨rfl, rfl, rfl, rfl, rfl, rfl, rfl, .of_eq rfl⟩
    · simp only [returns_pure] at h
      exact h.2 ▸ .refl s1
  rcases deliverTo_returns hdeliver with hsame | ⟨event, handler, s2, s3, he, hl, h1, h2, h3⟩
  · exact .inl (hsame.trans htail)
  · exact .inr ⟨event, handler, s2, s3, he, hl, h1, h2, h3.trans htail⟩

/-- The handler of a verdict applies it to the gate the event names. -/
theorem onReviewDecided_leaves {approved : Bool} {event : OutboxEvent} {gateId : Nat}
    {gate : ReviewGate} {s t : Db} (hid : event.reviewGateId = some gateId)
    (hgate : s.gates.get? gateId = some gate) (h : Leaves (onReviewDecided approved event) s t) :
    Leaves (resumeFromReview gate approved) s t := by
  unfold onReviewDecided at h
  rcases h with ⟨u, h⟩ | ⟨e, h⟩
  · simp only [hid, returns_bind, returns_require, returns_get, Option.some.injEq] at h
    obtain ⟨_, _, ⟨rfl, rfl⟩, _, _, ⟨rfl, rfl⟩, h⟩ := h
    rw [hgate] at h
    exact .inl ⟨u, h⟩
  · simp only [hid, raises_bind, raises_require, returns_require, raises_get, returns_get,
      reduceCtorEq, false_and, false_or, Option.some.injEq] at h
    obtain ⟨_, _, ⟨rfl, rfl⟩, _, _, ⟨rfl, rfl⟩, h⟩ := h
    rw [hgate] at h
    exact .inr ⟨e, h⟩

theorem awaiting_of_decidable {gate : ReviewGate} {approved : Bool} {expected : Option Nat}
    (h : assertDecidable gate approved expected = .ok ()) : gate.status = .awaiting := by
  by_contra hne
  simp [assertDecidable, hne, bind, Except.bind, throw, throwThe, MonadExceptOf.throw] at h

/-- A committed decision ran the handler of its verdict, which ended normally or raised. -/
theorem decideReviewGate_leaves {workspaceId gateId reviewerId : Nat} {approved : Bool}
    {expected : Option Nat} {s t : Db} {u : Unit}
    (h : Returns (decideReviewGate workspaceId gateId reviewerId approved expected) s u t) :
    ∃ gate s1 s2, s.gates.get? gateId = some gate ∧ gate.workspaceId = workspaceId ∧
      assertDecidable gate approved expected = .ok () ∧
      SameWork (modifyGate gateId (ReviewGate.recordReviewer reviewerId) s) s1 ∧
      Leaves (resumeFromReview ((ReviewGate.recordReviewer reviewerId).apply gate) approved) s1 s2 ∧
      SameWork s2 t ∧ ∃ decided, t.gates.get? gateId = some decided ∧
        decided.status ≠ .awaiting := by
  unfold decideReviewGate at h
  simp only [returns_bind, returns_get, returns_require] at h
  obtain ⟨_, _, ⟨rfl, rfl⟩, gate, _, ⟨hgate, rfl⟩, h⟩ := h
  have hid : gate.id = gateId := (Table.get?_eq_some.mp hgate).2
  split at h
  · simp at h
  rename_i hws
  simp only [returns_bind, returns_liftExcept, returns_get, returns_require] at h
  obtain ⟨_, _, ⟨hok, rfl⟩, eventId, s0, hsubmit, _, s3, hdispatch, _, _, ⟨rfl, rfl⟩, decided, _,
    ⟨hdecided, rfl⟩, h⟩ := h
  have hfinal : t = s3 ∧ decided.status ≠ .awaiting := by
    split at h
    · simp at h
    · rename_i hne
      simp only [returns_pure] at h
      exact ⟨h.2.symm, hne⟩
  obtain ⟨rfl, hdone⟩ := hfinal
  -- the verdict is recorded and published
  unfold submitReviewDecision at hsubmit
  have hawait : gate.status = .awaiting := by
    by_contra hne
    simp [hne] at hsubmit
  simp only [hawait, ne_eq, not_true_eq_false, if_false, returns_bind, returns_loadRun,
    returns_modify, returns_get, returns_pure] at hsubmit
  obtain ⟨run, _, ⟨_, rfl⟩, _, _, rfl, _, _, rfl, _, _, ⟨rfl, rfl⟩, _, _, rfl, rfl, rfl⟩ := hsubmit
  simp only [hid] at hdispatch
  rcases dispatchOne_returns hdispatch with hsame | ⟨event, handler, s1, s2, he, hl, h1, h2, h3⟩
  · -- an undelivered verdict leaves the gate awaiting, which the service refuses to commit
    exfalso
    have hgates := hsame.gates
    simp only [emit_frame, modifyGate_frame] at hgates
    rw [hgates, Table.get?_modify, if_pos rfl, hgate] at hdecided
    cases hdecided
    exact hdone hawait
  · have hevent : event.reviewGateId = some gateId ∧
        event.eventType = if approved then EventType.reviewApproved
          else EventType.reviewRejected := by
      have hnew := he
      simp only [emit, Table.get?_insert, if_true, Option.some.injEq] at hnew
      subst hnew
      exact ⟨by simp, rfl⟩
    have hhandler : handler = onReviewDecided approved := by
      rw [hevent.2] at hl
      cases approved <;> exact (Option.some.inj hl).symm
    have hgate1 : s1.gates.get? gateId =
        some ((ReviewGate.recordReviewer reviewerId).apply gate) := by
      rw [h1.gates]
      simp only [emit_frame, modifyGate_frame]
      exact Table.get?_modified _ hgate
    subst hhandler
    have hleaves := onReviewDecided_leaves hevent.1 hgate1 h2
    refine ⟨gate, s1, s2, hgate, by simpa using hws, hok, ?_, hleaves, h3, decided, hdecided, hdone⟩
    exact ⟨h1.runs, h1.jobs, h1.assignments, h1.gates, h1.reservations, h1.workers, h1.config,
      h1.letters⟩

/-- **A committed decision** applied its verdict to the awaiting gate, whether or not the run
could be moved on. -/
theorem decideReviewGate_returns {workspaceId gateId reviewerId : Nat} {approved : Bool}
    {expected : Option Nat} {s t : Db} {u : Unit}
    (h : Returns (decideReviewGate workspaceId gateId reviewerId approved expected) s u t) :
    ∃ gate s1 s2, s.gates.get? gateId = some gate ∧ gate.workspaceId = workspaceId ∧
      assertDecidable gate approved expected = .ok () ∧
      SameWork (modifyGate gateId (ReviewGate.recordReviewer reviewerId) s) s1 ∧
      Resumed ((ReviewGate.recordReviewer reviewerId).apply gate) approved s1 s2 ∧
      SameWork s2 t ∧ ∃ decided, t.gates.get? gateId = some decided ∧
        decided.status ≠ .awaiting := by
  obtain ⟨gate, s1, s2, hgate, hws, hok, hrecorded, hleaves, hbooked, hdecided⟩ :=
    decideReviewGate_leaves h
  exact ⟨gate, s1, s2, hgate, hws, hok, hrecorded, resumeFromReview_leaves hleaves, hbooked,
    hdecided⟩

end ContentOrchestrator

import ContentOrchestrator.System

/-! # What a failed delivery leaves behind

The handler of a verdict marks the gate before it looks for the way on, and the relay catches
what it raises without a savepoint. So a delivery that fails leaves the tables as they were
exactly when the way on exists, or the handler had nothing to apply; and a decision that is
reported as done has been applied exactly then. -/

namespace ContentOrchestrator

open Lib

/-- The tables a handler works on. -/
structure SameTables (s t : Db) : Prop where
  runs : t.runs = s.runs
  gates : t.gates = s.gates
  jobs : t.jobs = s.jobs
  assignments : t.assignments = s.assignments
  contentItems : t.contentItems = s.contentItems

theorem SameWork.tables {s t : Db} (h : SameWork s t) : SameTables s t :=
  ⟨h.runs, h.gates, h.jobs, h.assignments, congrArg Configuration.contentItems h.config⟩

/-- The run of the gate can be moved on: its definition has a way on for the verdict, or fails the
run by having no edge for a rejection. -/
def verdictRouted (db : Db) (run : PipelineRun) (gate : ReviewGate) (approved : Bool) : Bool :=
  match run.definitionId with
  | none => false
  | some definitionId =>
    if approved then (route db definitionId gate.stage .onReviewApproved []).isOk
    else
      match findTransition db definitionId gate.stage .onReviewRejected [] with
      | .error _ => false
      | .ok none => true
      | .ok (some _) => (route db definitionId gate.stage .onReviewRejected []).isOk

/-- Applying the verdict cannot fail after the gate is marked. -/
def gateRouted (db : Db) (gate : ReviewGate) (approved : Bool) : Bool :=
  gate.status != .awaiting || (db.runs.get? gate.pipelineRunId).all fun run =>
    verdictRouted db run gate approved

/-- The gate the event names, if any, can be left. -/
def eventRouted (db : Db) (event : OutboxEvent) (approved : Bool) : Bool :=
  ((event.reviewGateId.bind db.gates.get?).all fun gate => gateRouted db gate approved)

/-- The part of a delivery that runs the handler and records how it ended. -/
def runHandler (eventId : Nat) (event : OutboxEvent) (handler : Handler) (row : EventConsumer)
    (checkpointId : Nat) : Session Bool :=
  tryCatch
    (do
      handler event
      modify (advanceCheckpoint checkpointId event.sequence)
      return false)
    fun error => if error.abortsTransaction then throw error else recordFailure eventId row error

/-- A delivery runs the handler so, or skips it. -/
theorem deliverTo_runs (eventId : Nat) (consumer : Consumer) :
    deliverTo eventId consumer = (do
      let event ← loadEvent eventId
      match consumer.handlers.lookup event.eventType with
      | none => return false
      | some handler =>
        let row ← getOrCreateConsumer consumer.name
        let checkpoint ← getOrCreateCheckpoint row.id event.aggregate
        if event.sequence ≤ checkpoint.lastSequence then return false
        runHandler eventId event handler row checkpoint.id) := rfl

/-! ## The handler's exits -/

variable {s t : Db} {gate : ReviewGate} {approved : Bool}

theorem verdictRouted_congr {run : PipelineRun} (h : t.definitions = s.definitions) :
    verdictRouted t run gate approved = verdictRouted s run gate approved := by
  unfold verdictRouted route findTransition outgoing stageDef?
  rw [h]

/-- A run that is at work and has a gate on record fails to leave its stage only where there is no
way on. -/
theorem advanceOrFinish_raises_unrouted {run current : PipelineRun} {fromStage : ContentStage}
    {trigger : WorkflowTransitionTrigger} {stored : Table ReviewGate} {e : OrchestrationError}
    (hrun : s.runs.get? run.id = some current) (hopen : current.status.isTerminal = false)
    (hstored : ∃ g ∈ stored, g.isAwaitingFor run.id = true)
    (h : Raises (advanceOrFinish run fromStage trigger [] stored) s e t) :
    t = s ∧ ∀ definitionId, run.definitionId = some definitionId →
      (route s definitionId fromStage trigger []).isOk = false := by
  have hunrouted : ∀ definitionId, run.definitionId = some definitionId →
      (route s definitionId fromStage trigger []).isOk = false := fun _ hpin =>
    (advanceOrFinish_fails hpin hrun hopen (.inl hstored)).mp ⟨e, t, h⟩
  refine ⟨?_, hunrouted⟩
  rcases (advanceOrFinish_raises h).1 with hsame | ⟨definitionId, stageDef, hpin, hrouted, -⟩
  · exact hsame
  · have hfailed := hunrouted definitionId hpin
    rw [hrouted] at hfailed
    cases hfailed

theorem advanceOrFinish_returns_routed {run : PipelineRun} {fromStage : ContentStage}
    {trigger : WorkflowTransitionTrigger} {stored : Table ReviewGate} {u : Unit}
    (h : Returns (advanceOrFinish run fromStage trigger [] stored) s u t) :
    ∃ definitionId, run.definitionId = some definitionId ∧
      (route s definitionId fromStage trigger []).isOk = true := by
  unfold advanceOrFinish definitionIdOf at h
  simp only [returns_bind, returns_require, returns_get, returns_liftExcept] at h
  obtain ⟨definitionId, _, ⟨hpin, rfl⟩, _, _, ⟨rfl, rfl⟩, r, _, ⟨hr, rfl⟩, -⟩ := h
  exact ⟨definitionId, hpin, by rw [hr]; rfl⟩

/-- The run is set back to work and its gate is still on record as awaiting. -/
theorem resumed_at_work {run : PipelineRun} (hgate : s.gates.get? gate.id = some gate)
    (hawait : gate.status = .awaiting) (hrun : s.runs.get? gate.pipelineRunId = some run) :
    (resumeRun gate approved run.id s).runs.get? run.id = some (PipelineRun.resume.apply run) ∧
      ∃ g ∈ s.gates, g.isAwaitingFor run.id = true := by
  obtain ⟨hmem, hid⟩ := Table.get?_eq_some.mp hrun
  have hid : run.id = gate.pipelineRunId := hid
  refine ⟨?_, gate, (Table.get?_eq_some.mp hgate).1, ?_⟩
  · simp only [resumeRun, modifyRun_frame, modifyGate_frame, Table.get?_modify, if_true]
    rw [hid, hrun]
    rfl
  · simp [ReviewGate.isAwaitingFor, hawait, hid]

/-- **What a failing verdict leaves**: nothing, or the gate marked. -/
theorem resumeFromReview_raises {e : OrchestrationError} (hgate : s.gates.get? gate.id = some gate)
    (h : Raises (resumeFromReview gate approved) s e t) :
    gate.status = .awaiting ∧
      (s.runs.get? gate.pipelineRunId = none ∧ t = s ∨
        gateRouted s gate approved = false ∧ t.gates =
          s.gates.modify gate.id (ReviewGate.decide approved s.now)) := by
  unfold resumeFromReview at h
  split at h
  · simp at h
  rename_i hstatus
  have hawait : gate.status = .awaiting := by simpa using hstatus
  refine ⟨hawait, ?_⟩
  simp only [raises_bind, returns_loadRun, returns_get, raises_get, returns_modify,
    raises_modify, false_or] at h
  rcases h with h | ⟨run, _, ⟨hrun, rfl⟩, _, _, ⟨rfl, rfl⟩, _, _, rfl, h⟩
  · simp only [loadRun, raises_bind, returns_get, raises_get, raises_require, false_or] at h
    obtain ⟨_, _, ⟨rfl, rfl⟩, hnone, _, rfl⟩ := h
    exact .inl ⟨hnone, rfl⟩
  refine .inr ?_
  have hrouted : gateRouted s gate approved = verdictRouted s run gate approved := by
    simp [gateRouted, hawait, hrun]
  rw [hrouted]
  obtain ⟨hwork, hstored⟩ :
    (resumeRun gate approved run.id s).runs.get? run.id = some (PipelineRun.resume.apply run) ∧
      ∃ g ∈ s.gates, g.isAwaitingFor run.id = true := resumed_at_work hgate hawait hrun
  cases approved with
  | true =>
    simp only [if_true, raises_bind, raises_modify, returns_modify, false_or] at h
    obtain ⟨_, _, rfl, h⟩ := h
    obtain ⟨rfl, hunrouted⟩ := advanceOrFinish_raises_unrouted hwork rfl hstored h
    refine ⟨?_, rfl⟩
    unfold verdictRouted
    cases hpin : run.definitionId with
    | none => rfl
    | some definitionId => exact hunrouted definitionId hpin
  | false =>
    simp only [Bool.false_eq_true, if_false, raises_bind, raises_get, returns_get,
      raises_liftExcept, returns_liftExcept, definitionIdOf, raises_require, returns_require,
      false_or] at h
    unfold verdictRouted
    rcases h with
      ⟨_, _, ⟨rfl, rfl⟩, ⟨hpin, _, rfl⟩ | ⟨definitionId, _, ⟨hpin, rfl⟩, ⟨hedge, rfl⟩ | h⟩⟩
    · rw [hpin]
      exact ⟨rfl, by simp⟩
    · have hedge : findTransition s definitionId gate.stage .onReviewRejected [] = .error e := hedge
      simp only [hpin, Bool.false_eq_true, if_false, hedge]
      exact ⟨trivial, by simp⟩
    · obtain ⟨edge, _, ⟨hedge, rfl⟩, h⟩ := h
      cases edge with
      | none => simp at h
      | some transition =>
        simp only [raises_bind, raises_modify, returns_modify, false_or] at h
        obtain ⟨_, _, rfl, h⟩ := h
        obtain ⟨rfl, hunrouted⟩ := advanceOrFinish_raises_unrouted hwork rfl hstored h
        have hedge : findTransition s definitionId gate.stage .onReviewRejected [] =
            .ok (some transition) := hedge
        simp only [hpin, Bool.false_eq_true, if_false, hedge]
        exact ⟨hunrouted definitionId hpin, rfl⟩

theorem resumeFromReview_returns_routed {u : Unit}
    (h : Returns (resumeFromReview gate approved) s u t) :
    gateRouted s gate approved = true := by
  unfold resumeFromReview at h
  split at h
  · rename_i hstatus
    simp [gateRouted, hstatus]
  simp only [returns_bind, returns_loadRun, returns_get, returns_modify] at h
  obtain ⟨run, _, ⟨hrun, rfl⟩, _, _, ⟨rfl, rfl⟩, _, _, rfl, h⟩ := h
  unfold gateRouted
  rw [hrun, Option.all_some, Bool.or_eq_true]
  refine .inr ?_
  unfold verdictRouted
  cases approved with
  | true =>
    simp only [if_true, returns_bind, returns_modify] at h
    obtain ⟨_, _, rfl, h⟩ := h
    obtain ⟨definitionId, hpin, hok⟩ := advanceOrFinish_returns_routed h
    simp only [hpin, if_true]
    exact hok
  | false =>
    simp only [Bool.false_eq_true, if_false, returns_bind, returns_get, returns_liftExcept,
      definitionIdOf, returns_require] at h
    obtain ⟨_, _, ⟨rfl, rfl⟩, definitionId, _, ⟨hpin, rfl⟩, edge, _, ⟨hedge, rfl⟩, h⟩ := h
    have hedge : findTransition s definitionId gate.stage .onReviewRejected [] = .ok edge := hedge
    cases edge with
    | none => simp only [hpin, Bool.false_eq_true, if_false, hedge]
    | some transition =>
      simp only [returns_bind, returns_modify] at h
      obtain ⟨_, _, rfl, h⟩ := h
      obtain ⟨d, hd, hok⟩ := advanceOrFinish_returns_routed h
      rw [hpin, Option.some_inj] at hd
      subst hd
      simp only [hpin, Bool.false_eq_true, if_false, hedge]
      exact hok

/-! ## A delivery that fails -/

/-- The marked gate is not the gate it was. -/
theorem decide_gates_ne (hgate : s.gates.get? gate.id = some gate)
    (hawait : gate.status = .awaiting) (now : Nat) :
    s.gates.modify gate.id (ReviewGate.decide approved now) ≠ s.gates := by
  intro heq
  have hmarked : (s.gates.modify gate.id (ReviewGate.decide approved now)).get? gate.id =
      some ((ReviewGate.decide approved now).apply gate) := by
    exact Table.get?_modified _ hgate
  rw [heq, hgate, Option.some_inj] at hmarked
  have hstatus : gate.status = if approved then .approved else .rejected :=
    congrArg ReviewGate.status hmarked
  rw [hawait] at hstatus
  cases approved <;> cases hstatus

theorem onReviewDecided_raises {event : OutboxEvent} {e : OrchestrationError}
    (h : Raises (onReviewDecided approved event) s e t) :
    SameTables s t ↔ eventRouted s event approved = true := by
  unfold onReviewDecided at h
  unfold eventRouted
  simp only [raises_bind, raises_require, returns_require, raises_get, returns_get, false_or] at h
  rcases h with ⟨hnone, _, rfl⟩ | ⟨gateId, _, ⟨hid, rfl⟩, _, _, ⟨rfl, rfl⟩, h⟩
  · rw [hnone]
    exact ⟨fun _ => rfl, fun _ => ⟨rfl, rfl, rfl, rfl, rfl⟩⟩
  · rw [hid, Option.bind_some]
    split at h
    · rename_i gate hfound
      have hkey : gate.id = gateId := (Table.get?_eq_some.mp hfound).2
      have hgate : s.gates.get? gate.id = some gate := hkey.symm ▸ hfound
      rw [hfound, Option.all_some]
      obtain ⟨hawait, ⟨hrun, rfl⟩ | ⟨hunrouted, hgates⟩⟩ := resumeFromReview_raises hgate h
      · have hrouted : gateRouted t gate approved = true := by simp [gateRouted, hrun]
        exact ⟨fun _ => hrouted, fun _ => ⟨rfl, rfl, rfl, rfl, rfl⟩⟩
      · constructor
        · intro hsame
          exact absurd (hgates.symm.trans hsame.gates) (decide_gates_ne hgate hawait s.now)
        · intro hrouted
          rw [hunrouted] at hrouted
          cases hrouted
    · simp only [raises_pure] at h

/-- Recording a failed attempt is bookkeeping: the tables are what the handler left. -/
theorem runHandler_failed {eventId checkpointId : Nat} {event : OutboxEvent} {row : EventConsumer}
    {b : Bool} {handler : Handler} (hraises : ∃ e u, Raises (handler event) s e u)
    (h : Returns (runHandler eventId event handler row checkpointId) s b t) :
    ∃ e u, Raises (handler event) s e u ∧ SameWork u t := by
  obtain ⟨e, u, hraise⟩ := hraises
  refine ⟨e, u, hraise, ?_⟩
  rcases returns_tryCatch.mp h with h | ⟨e', u', hraise', h⟩
  · simp only [returns_bind] at h
    obtain ⟨_, _, hreturn, -⟩ := h
    cases hraise.symm.trans hreturn
  · simp only [raises_bind, raises_modify, raises_pure, and_false, exists_false,
      or_false] at hraise'
    cases hraise.symm.trans hraise'
    split at h
    · simp at h
    · exact recordFailure_sameWork h

theorem SameTables.of_work {u : Db} (h : SameWork t u) : SameTables s u ↔ SameTables s t := by
  constructor
  · intro hs
    have hw := h.tables
    exact ⟨hw.runs.symm.trans hs.runs, hw.gates.symm.trans hs.gates, hw.jobs.symm.trans hs.jobs,
      hw.assignments.symm.trans hs.assignments, hw.contentItems.symm.trans hs.contentItems⟩
  · intro hs
    have hw := h.tables
    exact ⟨hw.runs.trans hs.runs, hw.gates.trans hs.gates, hw.jobs.trans hs.jobs,
      hw.assignments.trans hs.assignments, hw.contentItems.trans hs.contentItems⟩

/-! ## A decision that is reported as done -/

/-- The verdict was recorded and the controller applied it to the end. -/
def IsApplied (gateId reviewerId : Nat) (approved : Bool) (s t : Db) : Prop :=
  ∃ gate s₁ s₂, s.gates.get? gateId = some gate ∧
    SameWork (modifyGate gateId (ReviewGate.recordReviewer reviewerId) s) s₁ ∧
    Returns (resumeFromReview ((ReviewGate.recordReviewer reviewerId).apply gate) approved) s₁
      () s₂ ∧ SameWork s₂ t

/-- The decided gate's run can be moved on. -/
def decisionRouted (db : Db) (gateId : Nat) (approved : Bool) : Bool :=
  (db.gates.get? gateId).all fun gate => gateRouted db gate approved

theorem gateRouted_recorded {reviewerId : Nat} {u : Db}
    (h : SameWork (modifyGate gate.id (ReviewGate.recordReviewer reviewerId) s) u) :
    gateRouted u ((ReviewGate.recordReviewer reviewerId).apply gate) approved =
      gateRouted s gate approved := by
  have hruns : u.runs = s.runs := h.runs
  have hdefinitions : u.definitions = s.definitions := h.definitions
  unfold gateRouted
  rw [hruns]
  cases hrun : s.runs.get? gate.pipelineRunId with
  | none => simp [ReviewGate.recordReviewer, hrun]
  | some run =>
    have hverdict : verdictRouted u run ((ReviewGate.recordReviewer reviewerId).apply gate)
        approved =
        verdictRouted s run gate approved := verdictRouted_congr hdefinitions
    simp [ReviewGate.recordReviewer, hrun] at hverdict ⊢
    rw [hverdict]

theorem IsApplied.routed {gateId reviewerId : Nat} (h : IsApplied gateId reviewerId approved s t) :
    decisionRouted s gateId approved = true := by
  obtain ⟨gate, s₁, s₂, hgate, hrecorded, hreturns, -⟩ := h
  obtain ⟨-, rfl⟩ := Table.get?_eq_some.mp hgate
  rw [decisionRouted, hgate, Option.all_some, ← gateRouted_recorded hrecorded]
  exact resumeFromReview_returns_routed hreturns

/-- **A failed delivery changes nothing but bookkeeping, and a decision is reported as done only
when it has been applied, exactly where the gate's run has a way on.** -/
theorem failed_delivery_clean (s : Db) (approved : Bool) :
    (∀ event eventId row checkpointId b t, (∃ e u, Raises (onReviewDecided approved event) s e u) →
      Returns (runHandler eventId event (onReviewDecided approved) row checkpointId) s b t →
        (SameTables s t ↔ eventRouted s event approved = true)) ∧
    (∀ workspaceId gateId reviewerId expected t,
      Returns (decideReviewGate workspaceId gateId reviewerId approved expected) s () t →
        (IsApplied gateId reviewerId approved s t ↔ decisionRouted s gateId approved = true)) := by
  refine ⟨fun event eventId row checkpointId b t hraises h => ?_,
    fun workspaceId gateId reviewerId expected t h => ?_⟩
  · obtain ⟨e, u, hraise, hwork⟩ := runHandler_failed hraises h
    rw [SameTables.of_work hwork]
    exact onReviewDecided_raises hraise
  · obtain ⟨gate, s₁, s₂, hgate, -, -, hrecorded, hleaves, hbooked, decided, hdecided, hdone⟩ :=
      decideReviewGate_leaves h
    obtain ⟨hmem, rfl⟩ := Table.get?_eq_some.mp hgate
    constructor
    · intro happlied
      exact happlied.routed
    · intro hok
      rw [decisionRouted, hgate, Option.all_some] at hok
      rcases hleaves with ⟨u, hreturns⟩ | ⟨e, hraises⟩
      · exact ⟨gate, s₁, s₂, hgate, hrecorded, hreturns, hbooked⟩
      · exfalso
        have hfound := hrecorded.recorded_gate hgate
        obtain ⟨hawait, ⟨-, rfl⟩ | ⟨hunrouted, -⟩⟩ := resumeFromReview_raises hfound hraises
        · rw [hbooked.gates] at hdecided
          have hsame : decided = (ReviewGate.recordReviewer reviewerId).apply gate :=
            Option.some_inj.mp (hdecided.symm.trans hfound)
          exact hdone (hsame ▸ hawait)
        · rw [gateRouted_recorded hrecorded, hok] at hunrouted
          cases hunrouted

/-! ## A decision that is reported as done and not applied -/

/-- The review stage is left on approval only through an edge that is not there. -/
def deadEndDb : Db :=
  { demoDb with
    definitions := demoDefinition demoStages (demoTransitions.take 2) demoStages_unique }

def approve : Session Unit := decideReviewGate 0 0 7 true none

/-- Where the edge exists, the approval is applied. -/
theorem failed_delivery_clean_approved :
    IsApplied 0 7 true (replay step demoDb gateHistory)
      (atomically approve (replay step demoDb gateHistory)) :=
  ((failed_delivery_clean (replay step demoDb gateHistory) true).2 0 0 7 none _
    (returns_of_commits (by decide +kernel))).mpr (by decide +kernel)

/-- **The approval is reported as done and its delivery failed; the gate is marked all the same, and
the run stays at its review.** -/
theorem approval_half_applied :
    commits approve (replay step deadEndDb gateHistory) = true ∧
    ((atomically approve (replay step deadEndDb gateHistory)).outbox.get? 9).map
    (·.deliveryAttempts) = some 1 ∧
    ¬ SameTables (replay step deadEndDb gateHistory)
      (atomically approve (replay step deadEndDb gateHistory)) ∧
    ¬ IsApplied 0 7 true (replay step deadEndDb gateHistory)
      (atomically approve (replay step deadEndDb gateHistory)) := by
  have hbefore : ((replay step deadEndDb gateHistory).gates.get? 0).map (·.status) =
      some .awaiting := by
    decide +kernel
  have hafter : ((atomically approve (replay step deadEndDb gateHistory)).gates.get? 0).map
      (·.status) =
      some .approved := by decide +kernel
  have hunrouted : decisionRouted (replay step deadEndDb gateHistory) 0 true = false := by
    decide +kernel
  refine ⟨by decide +kernel, by decide +kernel, fun hsame => ?_, fun happlied => ?_⟩
  · rw [hsame.gates, hbefore] at hafter
    cases hafter
  · rw [happlied.routed] at hunrouted
    cases hunrouted

end ContentOrchestrator

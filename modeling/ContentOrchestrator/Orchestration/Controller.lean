import ContentOrchestrator.Orchestration.Spend
import ContentOrchestrator.Orchestration.Workflow

/-! # Execution controller

Advances a run through its workflow, reacts to stage results, opens and resolves
review gates, and ends runs. A function takes the run as its caller loaded it and
uses only the columns that never change from that value; status and cursor are
read afresh. The session never flushes on a query, so the search for an awaiting
gate sees the gates of the last flush: the callers pass that table. -/

namespace ContentOrchestrator

open Lib

/-! ## Row updates -/

namespace PipelineRun

/-- A final status with its completion time. -/
def finish (status : PipelineRunStatus) (now : Nat) : Update PipelineRun :=
  ⟨fun r => { r with status, completedAt := some now }, fun _ => rfl⟩

def setStatus (status : PipelineRunStatus) : Update PipelineRun :=
  ⟨fun r => { r with status }, fun _ => rfl⟩

def moveTo (stage : ContentStage) : Update PipelineRun :=
  ⟨fun r => { r with currentStage := stage }, fun _ => rfl⟩

def clearPause : Update PipelineRun := ⟨fun r => { r with pauseReason := none }, fun _ => rfl⟩

/-- A decided review puts the run back to work. -/
def resume : Update PipelineRun :=
  ⟨fun r => { r with status := .running, pauseReason := none }, fun _ => rfl⟩

def pauseForReview : Update PipelineRun :=
  ⟨fun r => { r with status := .paused, pauseReason := some .reviewGate }, fun _ => rfl⟩

/-- The definition is pinned and the cursor set to its first stage. -/
def pin (definitionId : Nat) (stage : ContentStage) (now : Nat) : Update PipelineRun :=
  ⟨fun r => { r with definitionId := some definitionId, currentStage := stage,
                     startedAt := some now }, fun _ => rfl⟩

end PipelineRun

def StageAssignment.cancel (now : Nat) : Update StageAssignment :=
  ⟨fun a => { a with status := .cancelled, updatedAt := now }, fun _ => rfl⟩

namespace ReviewGate

def decide (approved : Bool) (now : Nat) : Update ReviewGate :=
  ⟨fun g => { g with status := if approved then .approved else .rejected, decidedAt := some now },
    fun _ => rfl⟩

def recordReviewer (reviewerId : Nat) : Update ReviewGate :=
  ⟨fun g => { g with decidedBy := some reviewerId }, fun _ => rfl⟩

def escalate (timeoutAt : Nat) : Update ReviewGate :=
  ⟨fun g => { g with status := .escalated, escalationLevel := g.escalationLevel + 1,
                     timeoutAt := some timeoutAt }, fun _ => rfl⟩

def timeOut : Update ReviewGate := ⟨fun g => { g with status := .timedOut }, fun _ => rfl⟩

end ReviewGate

def modifyRun (runId : Nat) (u : Update PipelineRun) (db : Db) : Db :=
  { db with runs := db.runs.modify runId u }

def modifyGate (gateId : Nat) (u : Update ReviewGate) (db : Db) : Db :=
  { db with gates := db.gates.modify gateId u }

/-- The identity-mapped run row. -/
def loadRun (runId : Nat) : Session PipelineRun := do
  require ((← get).runs.get? runId) (.valueError "pipeline run not found")

@[simp] theorem returns_loadRun {runId : Nat} {s t : Db} {run : PipelineRun} :
    Returns (loadRun runId) s run t ↔ s.runs.get? runId = some run ∧ s = t := by
  simp [loadRun, and_comm]

/-! ## Run lifecycle -/

/-- The queue row of a stage: a first attempt is a stage job, a later one a retry. -/
def stageJob (run : PipelineRun) (stageKey : ContentStage) (attempt : Nat)
    (runAfter : Option Nat) (db : Db) : NewRow JobSchedule where
  make id :=
    { id, workspaceId := run.workspaceId
      jobType := if attempt = 0 then .stage else .retry
      refTable := stageKey.value, refId := .run run.id
      runAfter := runAfter.getD db.now, attempt
      priority := workspacePriority db run.workspaceId, createdAt := db.now }
  key_make _ := rfl

def enqueueStage (run : PipelineRun) (stageKey : ContentStage) (attempt : Nat)
    (runAfter : Option Nat) (db : Db) : Db :=
  { db with jobs := db.jobs.insert (stageJob run stageKey attempt runAfter db) }

def WorkflowDefinition.firstStage (definition : WorkflowDefinition) : Option WorkflowStage :=
  (definition.stages.insertionSort fun s t => s.ordinal ≤ t.ordinal).head?

/-- Pin the definition and queue its first stage. -/
def startRun (run : PipelineRun) (definition : WorkflowDefinition) : Session Unit := do
  match definition.firstStage with
  | none => throw (.valueError "workflow_definitions has no stages")
  | some first =>
    modify fun db => modifyRun run.id (PipelineRun.pin definition.id first.stageKey db.now) db
    modify (enqueueStage run first.stageKey 0 none)

/-- The run is complete. -/
def succeedRun (run : PipelineRun) (stage : ContentStage) (db : Db) : Db :=
  emitForRun EventType.pipelineSucceeded run
    (modifyRun run.id (PipelineRun.moveTo stage)
      (modifyRun run.id (PipelineRun.finish .succeeded db.now) db))

/-- Fail the run and release its open reservations. -/
def failRun (run : PipelineRun) (db : Db) : Db :=
  releaseAllReservations run
    (emitForRun EventType.pipelineFailed run
      (modifyRun run.id (PipelineRun.finish .failed db.now) db))

def newGate (run : PipelineRun) (item : ContentItem) (stageKey : ContentStage)
    (timeoutSeconds : Nat) (db : Db) : NewRow ReviewGate where
  make id :=
    { id, workspaceId := run.workspaceId, pipelineRunId := run.id
      contentVersionId := item.currentVersionId, stage := stageKey
      requestedAt := db.now, timeoutAt := some (db.now + seconds timeoutSeconds) }
  key_make _ := rfl

def reviewTimeoutJob (workspaceId gateId runAfter : Nat) (db : Db) : NewRow JobSchedule where
  make id :=
    { id, workspaceId, jobType := .reviewTimeout, refTable := "review_gates"
      refId := .gate gateId, runAfter, createdAt := db.now }
  key_make _ := rfl

/-- A new gate with its timeout job; the run waits. -/
def openReviewGate (run : PipelineRun) (item : ContentItem) (stageKey : ContentStage)
    (timeoutSeconds : Nat) (db : Db) : Db :=
  emit EventType.reviewRequested run.workspaceId (.pipelineRun run.id) (some db.gates.next)
    { db with
      runs := db.runs.modify run.id PipelineRun.pauseForReview
      gates := db.gates.insert (newGate run item stageKey timeoutSeconds db)
      jobs := db.jobs.insert
        (reviewTimeoutJob run.workspaceId db.gates.next (db.now + seconds timeoutSeconds) db) }

def ReviewGate.isAwaitingFor (runId : Nat) (g : ReviewGate) : Bool :=
  g.pipelineRunId == runId && g.status == .awaiting

/-- **Open the human review gate.** A run that already has an awaiting gate in the
database keeps that one and is left as it is. -/
def pauseForReview (run : PipelineRun) (stageKey : ContentStage) (timeoutSeconds : Nat)
    (storedGates : Table ReviewGate) : Session Nat := do
  let current ← loadRun run.id
  if current.status.isTerminal then
    throw (.valueError "cannot open review gate on terminal run")
  match (storedGates.select (·.isAwaitingFor run.id)).head? with
  | some existing => return existing.id
  | none =>
    let db ← get
    let item ← require (db.contentItems.get? run.contentItemId)
      (.valueError "pipeline run has no content item")
    modify (openReviewGate run item stageKey timeoutSeconds)
    return db.gates.next

/-- Where leaving a stage leads. -/
inductive Route
  | finish (stage : ContentStage)
  | gate (stage : WorkflowStage)
  | work (stage : WorkflowStage)

/-- The first matching transition and its stage row decide; without a transition a terminal
stage completes the run, and anything else is a workflow authoring error. -/
def route (db : Db) (definitionId : Nat) (fromStage : ContentStage)
    (trigger : WorkflowTransitionTrigger) (context : List (String × Json)) :
    Except OrchestrationError Route := do
  match ← findTransition db definitionId fromStage trigger context with
  | none =>
    match stageDef? db definitionId fromStage with
    | none => throw (.valueError ("workflow_stages has no row for stage " ++ fromStage.value))
    | some currentStageDef =>
      if currentStageDef.isTerminal then return .finish fromStage
      throw (.valueError ("no matching transition from stage=" ++ fromStage.value))
  | some transition =>
    match stageDef? db definitionId transition.toStage with
    | none =>
      throw (.valueError ("workflow_stages has no row for stage " ++ transition.toStage.value))
    | some toStageDef =>
      if toStageDef.isTerminal then return .finish transition.toStage
      if toStageDef.isReviewGate then return .gate toStageDef
      return .work toStageDef

/-- **Leave a stage** along its route: complete the run, open a gate or queue the next stage. -/
def advanceOrFinish (run : PipelineRun) (fromStage : ContentStage)
    (trigger : WorkflowTransitionTrigger) (context : List (String × Json))
    (storedGates : Table ReviewGate) : Session Unit := do
  let definitionId ← definitionIdOf run
  match ← liftExcept (route (← get) definitionId fromStage trigger context) with
  | .finish stage => modify (succeedRun run stage)
  | .gate stageDef =>
    modify (modifyRun run.id (PipelineRun.moveTo stageDef.stageKey))
    let _ ← pauseForReview run stageDef.stageKey stageDef.timeoutSeconds storedGates
  | .work stageDef =>
    modify (modifyRun run.id (PipelineRun.moveTo stageDef.stageKey))
    modify (enqueueStage run stageDef.stageKey 0 none)

/-- A finished stage advances the run, unless the run is already terminal. -/
def handleStageSuccess (run : PipelineRun) (stage : ContentStage)
    (resultContext : List (String × Json)) : Session Unit := do
  let current ← loadRun run.id
  if current.status.isTerminal then return
  let db ← get
  advanceOrFinish run stage .onSuccess resultContext db.gates

/-! ## Failure and cancellation -/

def compensationJob (run : PipelineRun) (stageKey : ContentStage) (db : Db) :
    NewRow JobSchedule where
  make id :=
    { id, workspaceId := run.workspaceId, jobType := .compensation, refTable := stageKey.value
      refId := .run run.id, runAfter := db.now, createdAt := db.now }
  key_make _ := rfl

def enqueueCompensation (run : PipelineRun) (stageKey : ContentStage) (db : Db) : Db :=
  { db with jobs := db.jobs.insert (compensationJob run stageKey db) }

/-- Queue the compensation stages of what had succeeded, latest first. -/
def triggerCompensation (run : PipelineRun) : Session Unit := do
  modify (modifyRun run.id (PipelineRun.setStatus .compensating))
  let db ← get
  let definitionId ← definitionIdOf run
  let completed := (db.stageRuns.select fun s =>
    s.pipelineRunId == run.id && s.status == .succeeded).insertionSort
      fun s t => t.completedAt.getD 0 ≤ s.completedAt.getD 0
  forM completed fun stageRun => do
    let stageDef ← getStageDef definitionId stageRun.stage
    match stageDef.compensationStageKey with
    | some key => modify (enqueueCompensation run key)
    | none => pure ()
  modify (modifyRun run.id (PipelineRun.setStatus .failed))

/-- **A failed stage** is retried while its error is transient and attempts remain; else it
is dead-lettered and the run fails. -/
def handleStageFailure (run : PipelineRun) (stage : ContentStage) (attemptNumber : Nat)
    (errorMessage : String) (jitter : Nat) : Session Unit := do
  modify (emitForRun EventType.stageFailed run)
  let stageDef ← getStageDef (← definitionIdOf run) stage
  if isRetryable errorMessage ∧ attemptNumber < stageDef.maxAttempts then
    let delay := computeBackoff (attemptNumber + 1) stageDef.backoffBaseSeconds
      stageDef.backoffMultiplier stageDef.backoffMaxSeconds jitter
    modify fun db => enqueueStage run stage attemptNumber (some (db.now + delay)) db
  else
    modify (routeToDeadLetter run.workspaceId "pipeline_runs" (.run run.id)
      ("stage:" ++ stage.formatted) errorMessage attemptNumber)
    modify (failRun run)
    if stageDef.compensationStageKey.isSome then
      triggerCompensation run

def handleStageTimeout (runId : Nat) (stageText : String) (jitter : Nat) : Session Unit := do
  let db ← get
  match db.runs.get? runId with
  | none => return
  | some run =>
    if run.currentStage.value ≠ stageText ∨ run.status ≠ .running then return
    let attempts := db.stageRuns.count fun s =>
      s.pipelineRunId == runId && s.stage == run.currentStage
    handleStageFailure run run.currentStage (attempts + 1) "timeout" jitter

def StageAssignment.isLiveOf (runId : Nat) (a : StageAssignment) : Bool :=
  a.pipelineRunId == runId && a.status.isLive

/-- Idempotent: a terminal run is left alone. -/
def cancelRun (run : PipelineRun) (db : Db) : Db :=
  if run.status.isTerminal then db
  else
    emitForRun EventType.pipelineCancelled run
      (releaseAllReservations run
        (modifyRun run.id (PipelineRun.finish .cancelled db.now)
          { db with assignments := db.assignments.modifyWhere (·.isLiveOf run.id)
                                     (StageAssignment.cancel db.now) }))

/-! ## Human review -/

/-- **A decision is applied.** A rejection without its own edge fails the run; any other
decision sets the run running and leaves the gate's stage. -/
def resumeFromReview (gate : ReviewGate) (approved : Bool) : Session Unit := do
  if gate.status ≠ .awaiting then return
  let run ← loadRun gate.pipelineRunId
  let stored := (← get).gates
  modify fun db => modifyGate gate.id (ReviewGate.decide approved db.now) db
  if approved then
    modify (modifyRun run.id PipelineRun.resume)
    advanceOrFinish run gate.stage .onReviewApproved [] stored
  else
    let db ← get
    match ← liftExcept (findTransition db (← definitionIdOf run) gate.stage .onReviewRejected
      []) with
    | none =>
      modify (modifyRun run.id PipelineRun.clearPause)
      modify (failRun run)
    | some _ =>
      modify (modifyRun run.id PipelineRun.resume)
      advanceOrFinish run gate.stage .onReviewRejected [] stored

def defaultReviewTimeoutHours : Nat := 48

/-- First timeout: the gate escalates and is re-armed. -/
def escalateGate (gate : ReviewGate) (db : Db) : Db :=
  let newTimeout := db.now + hours defaultReviewTimeoutHours
  emit EventType.reviewEscalated gate.workspaceId (.pipelineRun gate.pipelineRunId) (some gate.id)
    { db with
      gates := db.gates.modify gate.id (ReviewGate.escalate newTimeout)
      jobs := db.jobs.insert (reviewTimeoutJob gate.workspaceId gate.id newTimeout db) }

/-- A later timeout: the gate is closed and its run fails. -/
def timeOutGate (gate : ReviewGate) (db : Db) : Db :=
  let closed := emit EventType.reviewTimedOut gate.workspaceId (.pipelineRun gate.pipelineRunId)
    (some gate.id) (modifyGate gate.id ReviewGate.timeOut db)
  match db.runs.get? gate.pipelineRunId with
  | none => closed
  | some run => failRun run closed

def handleReviewTimeout (gateId : Nat) (db : Db) : Db :=
  match db.gates.get? gateId with
  | none => db
  | some gate =>
    if gate.status ≠ .awaiting then db
    else if gate.escalationLevel = 0 then escalateGate gate db
    else timeOutGate gate db

/-- Record the reviewer's decision and publish it; returns the event. -/
def submitReviewDecision (gate : ReviewGate) (reviewerId : Nat) (approved : Bool) :
    Session Nat := do
  if gate.status ≠ .awaiting then
    throw (.valueError "review_gate is not awaiting a decision")
  let run ← loadRun gate.pipelineRunId
  modify (modifyGate gate.id (ReviewGate.recordReviewer reviewerId))
  modify fun db =>
    { db with
      decisions := db.decisions.insert ⟨fun id =>
        { id, workspaceId := gate.workspaceId, contentItemId := run.contentItemId
          reviewerId, approved }, fun _ => rfl⟩ }
  let db ← get
  modify (emit (if approved then EventType.reviewApproved else EventType.reviewRejected)
    gate.workspaceId (.pipelineRun gate.pipelineRunId) (some gate.id))
  return db.outbox.next

/-! ## What each operation does to the tables -/

@[simp] theorem modifyRun_frame {runId : Nat} {u : Update PipelineRun} {db : Db} :
    (modifyRun runId u db).runs = db.runs.modify runId u ∧
    (modifyRun runId u db).jobs = db.jobs ∧
    (modifyRun runId u db).assignments = db.assignments ∧
    (modifyRun runId u db).gates = db.gates ∧
    (modifyRun runId u db).reservations = db.reservations ∧
    (modifyRun runId u db).definitions = db.definitions := by
  simp [modifyRun]

@[simp] theorem modifyGate_frame {gateId : Nat} {u : Update ReviewGate} {db : Db} :
    (modifyGate gateId u db).runs = db.runs ∧
    (modifyGate gateId u db).jobs = db.jobs ∧
    (modifyGate gateId u db).assignments = db.assignments ∧
    (modifyGate gateId u db).gates = db.gates.modify gateId u ∧
    (modifyGate gateId u db).reservations = db.reservations ∧
    (modifyGate gateId u db).definitions = db.definitions := by
  simp [modifyGate]

@[simp] theorem enqueueStage_frame {run : PipelineRun} {stageKey : ContentStage} {attempt : Nat}
    {runAfter : Option Nat} {db : Db} :
    (enqueueStage run stageKey attempt runAfter db).runs = db.runs ∧
    (enqueueStage run stageKey attempt runAfter db).jobs =
      db.jobs.insert (stageJob run stageKey attempt runAfter db) ∧
    (enqueueStage run stageKey attempt runAfter db).assignments = db.assignments ∧
    (enqueueStage run stageKey attempt runAfter db).gates = db.gates ∧
    (enqueueStage run stageKey attempt runAfter db).reservations = db.reservations ∧
    (enqueueStage run stageKey attempt runAfter db).definitions = db.definitions := by
  simp [enqueueStage]

@[simp] theorem succeedRun_frame {run : PipelineRun} {stage : ContentStage} {db : Db} :
    (succeedRun run stage db).runs =
      (db.runs.modify run.id (PipelineRun.finish .succeeded db.now)).modify run.id
        (PipelineRun.moveTo stage) ∧
    (succeedRun run stage db).jobs = db.jobs ∧
    (succeedRun run stage db).assignments = db.assignments ∧
    (succeedRun run stage db).gates = db.gates ∧
    (succeedRun run stage db).reservations = db.reservations ∧
    (succeedRun run stage db).definitions = db.definitions := by
  simp [succeedRun]

@[simp] theorem failRun_frame {run : PipelineRun} {db : Db} :
    (failRun run db).runs = db.runs.modify run.id (PipelineRun.finish .failed db.now) ∧
    (failRun run db).jobs = db.jobs ∧
    (failRun run db).assignments = db.assignments ∧
    (failRun run db).gates = db.gates ∧
    (failRun run db).reservations =
      db.reservations.modifyWhere (·.isOpenOf run.id) SpendReservation.release ∧
    (failRun run db).definitions = db.definitions := by
  simp [failRun]

@[simp] theorem openReviewGate_frame {run : PipelineRun} {item : ContentItem}
    {stageKey : ContentStage} {timeoutSeconds : Nat} {db : Db} :
    (openReviewGate run item stageKey timeoutSeconds db).runs =
      db.runs.modify run.id PipelineRun.pauseForReview ∧
    (openReviewGate run item stageKey timeoutSeconds db).jobs =
      db.jobs.insert (reviewTimeoutJob run.workspaceId db.gates.next
        (db.now + seconds timeoutSeconds) db) ∧
    (openReviewGate run item stageKey timeoutSeconds db).assignments = db.assignments ∧
    (openReviewGate run item stageKey timeoutSeconds db).gates =
      db.gates.insert (newGate run item stageKey timeoutSeconds db) ∧
    (openReviewGate run item stageKey timeoutSeconds db).reservations = db.reservations ∧
    (openReviewGate run item stageKey timeoutSeconds db).definitions = db.definitions := by
  simp [openReviewGate]

@[simp] theorem enqueueCompensation_frame {run : PipelineRun} {stageKey : ContentStage} {db : Db} :
    (enqueueCompensation run stageKey db).runs = db.runs ∧
    (enqueueCompensation run stageKey db).jobs = db.jobs.insert (compensationJob run stageKey db) ∧
    (enqueueCompensation run stageKey db).assignments = db.assignments ∧
    (enqueueCompensation run stageKey db).gates = db.gates ∧
    (enqueueCompensation run stageKey db).reservations = db.reservations ∧
    (enqueueCompensation run stageKey db).definitions = db.definitions := by
  simp [enqueueCompensation]

@[simp] theorem escalateGate_frame {gate : ReviewGate} {db : Db} :
    (escalateGate gate db).runs = db.runs ∧
    (escalateGate gate db).jobs =
      db.jobs.insert
        (reviewTimeoutJob gate.workspaceId gate.id (db.now + hours defaultReviewTimeoutHours) db) ∧
    (escalateGate gate db).assignments = db.assignments ∧
    (escalateGate gate db).gates =
      db.gates.modify gate.id (ReviewGate.escalate (db.now + hours defaultReviewTimeoutHours)) ∧
    (escalateGate gate db).reservations = db.reservations ∧
    (escalateGate gate db).definitions = db.definitions := by
  simp [escalateGate]


end ContentOrchestrator

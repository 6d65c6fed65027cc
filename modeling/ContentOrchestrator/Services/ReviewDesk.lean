import ContentOrchestrator.Orchestration.Relay
import ContentOrchestrator.Orchestration.Scheduler

/-! # Services over the engine: review decisions and operator actions

The human verdict on a gate goes through the outbox and is delivered in the same
transaction. The operator's retry walks the pending dead letters first and then the
recently failed assignments; it reads the queue as it stood at the start, since
nothing is flushed on the way. -/

namespace ContentOrchestrator

open Lib

/-- What a verdict must satisfy before it is recorded. -/
def assertDecidable (gate : ReviewGate) (approved : Bool) (expectedContentVersionId : Option Nat) :
    Except OrchestrationError Unit := do
  if gate.status ≠ .awaiting then
    throw (.valueError "review gate is not awaiting a decision")
  if approved ∧ gate.contentVersionId = none then
    throw (.valueError "review gate has no content version on record; it cannot be approved")
  if expectedContentVersionId.isSome ∧ expectedContentVersionId ≠ gate.contentVersionId then
    throw (.valueError
      "review gate content has changed since it was loaded; refresh and try again")

/-- **Decide a review gate.** Reported as done only if the gate no longer waits. -/
def decideReviewGate (workspaceId gateId reviewerId : Nat) (approved : Bool)
    (expectedContentVersionId : Option Nat) : Session Unit := do
  let gate ← require ((← get).gates.get? gateId) .reviewGateNotFound
  if gate.workspaceId ≠ workspaceId then throw .reviewGateNotFound
  liftExcept (assertDecidable gate approved expectedContentVersionId)
  let event ← submitReviewDecision gate reviewerId approved
  dispatchOne registry event
  let decided ← require ((← get).gates.get? gateId) .reviewGateNotFound
  if decided.status = .awaiting then throw .reviewGateDelivery

/-! ## Operator retry -/

/-- A retry job of the operator: due at once, base priority zero. -/
def enqueueOperatorRetry (workspaceId : Nat) (runId : Nat) (stageKey : String) (attempt : Nat)
    (db : Db) : Db :=
  { db with
    jobs := db.jobs.insert ⟨fun id =>
      { id, workspaceId, jobType := .retry, refTable := stageKey, refId := .run runId
        runAfter := db.now, attempt, createdAt := db.now }, fun _ => rfl⟩ }

def resolveDeadLetter (entryId : Nat) (db : Db) : Db :=
  { db with
    deadLetters := db.deadLetters.modify entryId
      ⟨fun e => { e with status := .resolved }, fun _ => rfl⟩ }

/-- A failed run is set running again. -/
def reviveRun (run : PipelineRun) (db : Db) : Db :=
  if run.status = .failed then modifyRun run.id (PipelineRun.setStatus .running) db else db

/-- The run and the stage text a dead letter is about: its own job type for a run, the
assignment's stage for an assignment. -/
def deadLetterTarget (db : Db) (entry : DeadLetterJob) : Option (PipelineRun × String) :=
  match entry.relatedId with
  | .run runId => (db.runs.get? runId).map fun run => (run, entry.jobType)
  | .assignment assignmentId => do
    let a ← db.assignments.get? assignmentId
    let run ← db.runs.get? a.pipelineRunId
    return (run, a.stage.value)
  | _ => none

def PipelineRun.isSettled (run : PipelineRun) : Bool :=
  run.status == .succeeded || run.status == .cancelled

def retryDeadLetter (workspaceId : Nat) (db : Db) (entry : DeadLetterJob) : Db :=
  match deadLetterTarget db entry with
  | none => db
  | some (run, stageKey) =>
    if run.workspaceId ≠ workspaceId then db
    else if run.isSettled then resolveDeadLetter entry.id db
    else
      resolveDeadLetter entry.id
        (enqueueOperatorRetry workspaceId run.id stageKey entry.attemptCount (reviveRun run db))

/-- The run had a waiting retry when the request began. -/
def hasStoredRetry (stored : Db) (workspaceId runId : Nat) : Bool :=
  0 < stored.jobs.count fun j =>
    j.workspaceId == workspaceId && j.refId == .run runId && j.jobType == .retry &&
      j.status == .pending

def retryFailedAssignment (stored : Db) (workspaceId : Nat) (db : Db) (a : StageAssignment) : Db :=
  if hasStoredRetry stored workspaceId a.pipelineRunId then db
  else
    match db.runs.get? a.pipelineRunId with
    | none => db
    | some run =>
      if run.workspaceId ≠ workspaceId then db
      else if run.isSettled then db
      else
        enqueueOperatorRetry workspaceId run.id a.stage.value a.attemptNumber (reviveRun run db)

/-- The failed assignments of the last seven days, fifty at most. -/
def recentFailures (db : Db) (workspaceId : Nat) : List StageAssignment :=
  (db.assignments.select fun a =>
    a.workspaceId == workspaceId && a.status == .failed &&
      decide (db.now ≤ a.updatedAt + days 7)).take 50

def pendingDeadLetters (db : Db) (workspaceId : Nat) : List DeadLetterJob :=
  db.deadLetters.select fun e => e.workspaceId == workspaceId && e.status == .pending

/-- **Operator retry of everything that failed.** -/
def retryFailedJobs (workspaceId : Nat) (stored : Db) : Db :=
  let afterDeadLetters :=
    (pendingDeadLetters stored workspaceId).foldl (retryDeadLetter workspaceId) stored
  (recentFailures stored workspaceId).foldl (retryFailedAssignment stored workspaceId)
    afterDeadLetters

end ContentOrchestrator

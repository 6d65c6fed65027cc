import ContentOrchestrator.Model.Schema

/-! # Transactional outbox, dead letters and retry policy

`emit` and `routeToDeadLetter` write into the caller's transaction and touch no
other table, which is what their frame lemmas say. The sequence of an aggregate
is one above the largest it has. Jitter is a value the caller supplies: the
backoff draw is any value up to the capped exponential. -/

namespace ContentOrchestrator

open Lib

namespace EventType

def pipelineCancelled := "pipeline.cancelled"
def pipelineFailed := "pipeline.failed"
def pipelineSucceeded := "pipeline.succeeded"
def stageAssigned := "stage.assigned"
def stageReassigned := "stage.reassigned"
def stageCompleted := "stage.completed"
def stageFailed := "stage.failed"
def reviewRequested := "review.requested"
def reviewApproved := "review.approved"
def reviewRejected := "review.rejected"
def reviewTimedOut := "review.timed_out"
def reviewEscalated := "review.escalated"
def spendReserved := "spend.reserved"
def spendCommitted := "spend.committed"
def spendReleased := "spend.released"
def spendBudgetExceeded := "spend.budget_exceeded"
def backpressureEntered := "backpressure.entered"
def backpressureCleared := "backpressure.cleared"

end EventType

/-- `COALESCE(MAX(sequence), 0) + 1` over the aggregate's events. -/
def nextSequence (db : Db) (aggregate : Aggregate) : Nat :=
  ((db.outbox.select fun e => e.aggregate == aggregate).map (·.sequence)).foldl max 0 + 1

/-- One pending event in the caller's transaction. -/
def emit (eventType : String) (workspaceId : Nat) (aggregate : Aggregate)
    (reviewGateId : Option Nat) (db : Db) : Db :=
  { db with
    outbox := db.outbox.insert ⟨fun id =>
      { id, workspaceId, eventType, aggregate, reviewGateId
        sequence := nextSequence db aggregate, occurredAt := db.now }, fun _ => rfl⟩ }

/-- An event about a run. -/
abbrev emitForRun (eventType : String) (run : PipelineRun) (db : Db) : Db :=
  emit eventType run.workspaceId (.pipelineRun run.id) none db

@[simp] theorem emit_frame {eventType : String} {workspaceId : Nat} {aggregate : Aggregate}
    {gate : Option Nat} {db : Db} :
    (emit eventType workspaceId aggregate gate db).now = db.now ∧
    (emit eventType workspaceId aggregate gate db).settings = db.settings ∧
    (emit eventType workspaceId aggregate gate db).definitions = db.definitions ∧
    (emit eventType workspaceId aggregate gate db).workspaces = db.workspaces ∧
    (emit eventType workspaceId aggregate gate db).spendCaps = db.spendCaps ∧
    (emit eventType workspaceId aggregate gate db).runs = db.runs ∧
    (emit eventType workspaceId aggregate gate db).jobs = db.jobs ∧
    (emit eventType workspaceId aggregate gate db).assignments = db.assignments ∧
    (emit eventType workspaceId aggregate gate db).gates = db.gates ∧
    (emit eventType workspaceId aggregate gate db).reservations = db.reservations ∧
    (emit eventType workspaceId aggregate gate db).spendLogs = db.spendLogs ∧
    (emit eventType workspaceId aggregate gate db).deadLetters = db.deadLetters :=
  ⟨rfl, rfl, rfl, rfl, rfl, rfl, rfl, rfl, rfl, rfl, rfl, rfl⟩

/-! ## Retry policy -/

/-- `min(base * multiplier ** (attempt - 1), max)`, in seconds. -/
def backoffLimit (attempt baseSeconds multiplier maxSeconds : Nat) : Nat :=
  min (baseSeconds * multiplier ^ (max attempt 1 - 1)) maxSeconds

/-- Full jitter: any draw up to the capped delay. -/
def computeBackoff (attempt baseSeconds multiplier maxSeconds jitter : Nat) : Nat :=
  min jitter (seconds (backoffLimit attempt baseSeconds multiplier maxSeconds))

def retryableMarkers : List String :=
  ["timeout", "timed out", "connection reset", "connection refused", "temporarily unavailable",
    "lease lost", "rate limit", "503", "429"]

/-- A known-transient marker occurs in the lowered message. No marker is touched by
lowering beyond ASCII. -/
def isRetryable (errorMessage : String) : Bool :=
  let lowered := errorMessage.toList.map Char.toLower
  retryableMarkers.any fun marker => lowered.tails.any fun t => marker.toList.isPrefixOf t

example : isRetryable "Upstream Rate Limit hit" = true := by decide

/-- The dead-letter record of a permanent failure. -/
def routeToDeadLetter (workspaceId : Nat) (relatedTable : String) (relatedId : Ref)
    (jobType failureReason : String) (attemptCount : Nat) (db : Db) : Db :=
  { db with
    deadLetters := db.deadLetters.insert ⟨fun id =>
      { id, workspaceId, relatedTable, relatedId, jobType, failureReason, attemptCount },
      fun _ => rfl⟩ }

@[simp] theorem routeToDeadLetter_frame {workspaceId : Nat} {table : String} {ref : Ref}
    {jobType reason : String} {attempts : Nat} {db : Db} :
    (routeToDeadLetter workspaceId table ref jobType reason attempts db).now = db.now ∧
    (routeToDeadLetter workspaceId table ref jobType reason attempts db).settings = db.settings ∧
    (routeToDeadLetter workspaceId table ref jobType reason attempts db).definitions
      = db.definitions ∧
    (routeToDeadLetter workspaceId table ref jobType reason attempts db).runs = db.runs ∧
    (routeToDeadLetter workspaceId table ref jobType reason attempts db).jobs = db.jobs ∧
    (routeToDeadLetter workspaceId table ref jobType reason attempts db).assignments
      = db.assignments ∧
    (routeToDeadLetter workspaceId table ref jobType reason attempts db).gates = db.gates ∧
    (routeToDeadLetter workspaceId table ref jobType reason attempts db).reservations
      = db.reservations :=
  ⟨rfl, rfl, rfl, rfl, rfl, rfl, rfl, rfl⟩

/-! ## Priority -/

def basePriorityForTier (settings : Settings) (priorityTier : Int) : Int :=
  priorityTier * settings.workspaceTierPriorityWeight

/-- The base priority of a workspace; an unknown workspace has tier 0. -/
def workspacePriority (db : Db) (workspaceId : Nat) : Int :=
  basePriorityForTier db.settings ((db.workspaces.get? workspaceId).elim 0 (·.priorityTier))

/-- `LEAST(max, FLOOR(age / interval) * step)`, zero for a non-positive interval. -/
def ageBoost (settings : Settings) (createdAt now : Nat) : Nat :=
  if settings.assignmentAgeBoostIntervalSeconds = 0 then 0
  else
    min settings.assignmentAgeBoostMax
      ((now - createdAt) / seconds settings.assignmentAgeBoostIntervalSeconds
        * settings.assignmentAgeBoostPerInterval)

def effectivePriority (db : Db) (assignment : StageAssignment) : Int :=
  assignment.priority + ageBoost db.settings assignment.createdAt db.now

end ContentOrchestrator

import ContentOrchestrator.Lib.Table
import ContentOrchestrator.Lib.Session
import ContentOrchestrator.Model.Enums
import ContentOrchestrator.Model.Clock
import ContentOrchestrator.Model.Json

/-! # The orchestration schema

One structure per table, with the columns the engine reads or decides by; tracing
columns are left out. Row ids are the table's own keys, amounts are
ten-thousandths of a dollar, clock readings are microseconds. `Db` is what a
transaction sees, and `Session` is a transaction body over it. -/

namespace ContentOrchestrator

open Lib

/-- A polymorphic reference column: ids of different tables never coincide. -/
inductive Ref
  | run (id : Nat)
  | assignment (id : Nat)
  | job (id : Nat)
  | gate (id : Nat)
  | event (id : Nat)
deriving DecidableEq, Repr

structure Settings where
  defaultStageEstimateUsd : Nat := 100
  assignmentLeaseSeconds : Nat := 60
  assignmentMaxLeaseSeconds : Nat := 900
  assignmentDefaultMaxAttempts : Nat := 3
  assignmentAgeBoostIntervalSeconds : Nat := 60
  assignmentAgeBoostPerInterval : Nat := 1
  assignmentAgeBoostMax : Nat := 100
  workspaceTierPriorityWeight : Nat := 10
  workerOfflineAfterSeconds : Nat := 90
  claimCandidateBatchSize : Nat := 32
  queueSoftLimitDefault : Nat := 50
  queueHardLimitDefault : Nat := 200

structure Workspace where
  id : Nat
  priorityTier : Int := 0

structure ContentItem where
  id : Nat
  workspaceId : Nat
  topic : String := ""
  currentVersionId : Option Nat := none
  /-- A tombstone; the row itself is never deleted. -/
  deletedAt : Option Nat := none

structure WorkflowStage where
  stageKey : ContentStage
  ordinal : Int := 0
  maxAttempts : Nat := 3
  backoffBaseSeconds : Nat := 5
  backoffMultiplier : Nat := 2
  backoffMaxSeconds : Nat := 300
  timeoutSeconds : Nat := 600
  isReviewGate : Bool := false
  isTerminal : Bool := false
  compensationStageKey : Option ContentStage := none

structure WorkflowTransition where
  fromStage : ContentStage
  toStage : ContentStage
  trigger : WorkflowTransitionTrigger
  condition : Option (List (String × Json)) := none
  priority : Int := 0

/-- One immutable version of a workflow, with its stage and transition rows in storage order. -/
structure WorkflowDefinition where
  id : Nat
  workspaceId : Nat := 0
  name : String := ""
  version : Nat := 1
  isActive : Bool := true
  stages : List WorkflowStage
  transitions : List WorkflowTransition
  /-- `uq_workflow_stage_per_definition` -/
  unique : (stages.map (·.stageKey)).Nodup

structure PipelineRun where
  id : Nat
  workspaceId : Nat
  contentItemId : Nat
  idempotencyKey : Option String := none
  currentStage : ContentStage := .idea
  status : PipelineRunStatus := .running
  startedAt : Option Nat := none
  completedAt : Option Nat := none
  pauseReason : Option PauseReason := none
  definitionId : Option Nat := none
deriving DecidableEq, Repr

structure PipelineStageRun where
  id : Nat
  workspaceId : Nat
  pipelineRunId : Nat
  stage : ContentStage
  attemptNumber : Nat
  status : StageRunStatus
  completedAt : Option Nat
deriving DecidableEq, Repr

structure JobSchedule where
  id : Nat
  workspaceId : Nat
  jobType : JobType
  /-- For stage and retry jobs the text of the stage. -/
  refTable : String
  refId : Ref
  runAfter : Nat
  status : JobScheduleStatus := .pending
  leaseExpiresAt : Option Nat := none
  attempt : Nat := 0
  priority : Int := 0
  createdAt : Nat
deriving DecidableEq, Repr

/-- The text `"{run}:{stage}:{attempt}"`, by its parts. -/
structure IdempotencyKey where
  pipelineRunId : Nat
  stage : String
  attemptNumber : Nat
deriving DecidableEq, Repr

structure StageAssignment where
  id : Nat
  workspaceId : Nat
  pipelineRunId : Nat
  stage : ContentStage
  attemptNumber : Nat := 1
  workerId : Option Nat := none
  status : StageAssignmentStatus := .pending
  idempotencyKey : IdempotencyKey
  leaseExpiresAt : Option Nat := none
  leaseStartedAt : Option Nat := none
  leaseExtensionCount : Nat := 0
  dispatchedAt : Option Nat := none
  acknowledgedAt : Option Nat := none
  completedAt : Option Nat := none
  result : Option (List (String × Json)) := none
  claimedBy : Option Nat := none
  claimedAt : Option Nat := none
  claimCount : Nat := 0
  claimToken : Option Nat := none
  priority : Int := 0
  provider : Option String := none
  createdAt : Nat
  updatedAt : Nat

structure ReviewGate where
  id : Nat
  workspaceId : Nat
  pipelineRunId : Nat
  contentVersionId : Option Nat
  stage : ContentStage
  status : ReviewGateStatus := .awaiting
  requestedAt : Nat
  timeoutAt : Option Nat
  decidedAt : Option Nat := none
  decidedBy : Option Nat := none
  escalationLevel : Nat := 0
deriving DecidableEq, Repr

structure ReviewDecision where
  id : Nat
  workspaceId : Nat
  contentItemId : Nat
  reviewerId : Nat
  approved : Bool
deriving DecidableEq, Repr

structure SpendReservation where
  id : Nat
  workspaceId : Nat
  pipelineRunId : Nat
  provider : String
  stage : ContentStage
  estimatedCostUsd : Nat
  status : ReservationStatus := .reserved
  createdAt : Nat
deriving DecidableEq, Repr

structure SpendLog where
  id : Nat
  workspaceId : Nat
  provider : String
  stage : ContentStage
  costUsd : Nat
  occurredAt : Nat
deriving DecidableEq, Repr

structure SpendCap where
  id : Nat
  workspaceId : Nat
  /-- `none` is the workspace-wide cap. -/
  provider : Option String
  dailyCapUsd : Nat
  monthlyCapUsd : Nat
deriving DecidableEq, Repr

structure WorkerRegistration where
  id : Nat
  workspaceId : Option Nat := none
  supportedStages : List String
  status : WorkerStatus := .offline
  maxConcurrency : Nat := 1
  currentLoad : Nat := 0
  healthScore : Int := 100
  lastHeartbeatAt : Option Nat := none
  drain : Bool := false
  deregisteredAt : Option Nat := none
deriving DecidableEq, Repr

structure WorkspaceConcurrencyLimit where
  id : Nat
  workspaceId : Nat
  maxConcurrentAssignments : Nat := 10
  maxPerSchedulerTick : Nat := 5
  queueSoftLimit : Nat := 50
  queueHardLimit : Nat := 200
deriving DecidableEq, Repr

structure WorkspaceBackpressureState where
  id : Nat
  workspaceId : Nat
  state : BackpressureState
  pendingDepth : Nat := 0
  enteredAt : Option Nat := none
  updatedAt : Nat
deriving DecidableEq, Repr

structure ProviderConcurrencyBudget where
  id : Nat
  workspaceId : Nat
  provider : String
  maxConcurrent : Nat
deriving DecidableEq, Repr

structure DeadLetterJob where
  id : Nat
  workspaceId : Nat
  relatedTable : String
  relatedId : Ref
  jobType : String
  failureReason : String
  attemptCount : Nat
  status : DeadLetterStatus := .pending
deriving DecidableEq, Repr

inductive Aggregate
  | pipelineRun (id : Nat)
  | workspace (id : Nat)
deriving DecidableEq, Repr

structure OutboxEvent where
  id : Nat
  workspaceId : Nat
  eventType : String
  aggregate : Aggregate
  sequence : Nat
  /-- `payload["review_gate_id"]`, the only payload key a consumer reads. -/
  reviewGateId : Option Nat := none
  status : OutboxEventStatus := .pending
  deliveryAttempts : Nat := 0
  occurredAt : Nat
deriving DecidableEq, Repr

structure EventConsumer where
  id : Nat
  name : String
  maxDeliveryAttempts : Nat := 10
deriving DecidableEq, Repr

structure ConsumerCheckpoint where
  id : Nat
  consumerId : Nat
  aggregate : Aggregate
  lastSequence : Nat
deriving DecidableEq, Repr

instance : Keyed Workspace := ⟨(·.id)⟩
instance : Keyed ContentItem := ⟨(·.id)⟩
instance : Keyed WorkflowDefinition := ⟨(·.id)⟩
instance : Keyed PipelineRun := ⟨(·.id)⟩
instance : Keyed PipelineStageRun := ⟨(·.id)⟩
instance : Keyed JobSchedule := ⟨(·.id)⟩
instance : Keyed StageAssignment := ⟨(·.id)⟩
instance : Keyed ReviewGate := ⟨(·.id)⟩
instance : Keyed ReviewDecision := ⟨(·.id)⟩
instance : Keyed SpendReservation := ⟨(·.id)⟩
instance : Keyed SpendLog := ⟨(·.id)⟩
instance : Keyed SpendCap := ⟨(·.id)⟩
instance : Keyed WorkerRegistration := ⟨(·.id)⟩
instance : Keyed WorkspaceConcurrencyLimit := ⟨(·.id)⟩
instance : Keyed WorkspaceBackpressureState := ⟨(·.id)⟩
instance : Keyed ProviderConcurrencyBudget := ⟨(·.id)⟩
instance : Keyed DeadLetterJob := ⟨(·.id)⟩
instance : Keyed OutboxEvent := ⟨(·.id)⟩
instance : Keyed EventConsumer := ⟨(·.id)⟩
instance : Keyed ConsumerCheckpoint := ⟨(·.id)⟩

/-- What one transaction sees: the clock, the configuration and every table. -/
structure Db where
  now : Nat := 0
  settings : Settings := {}
  workspaces : Table Workspace := ∅
  contentItems : Table ContentItem := ∅
  definitions : Table WorkflowDefinition := ∅
  workers : Table WorkerRegistration := ∅
  concurrencyLimits : Table WorkspaceConcurrencyLimit := ∅
  backpressureStates : Table WorkspaceBackpressureState := ∅
  providerBudgets : Table ProviderConcurrencyBudget := ∅
  spendCaps : Table SpendCap := ∅
  runs : Table PipelineRun := ∅
  stageRuns : Table PipelineStageRun := ∅
  jobs : Table JobSchedule := ∅
  assignments : Table StageAssignment := ∅
  gates : Table ReviewGate := ∅
  decisions : Table ReviewDecision := ∅
  reservations : Table SpendReservation := ∅
  spendLogs : Table SpendLog := ∅
  deadLetters : Table DeadLetterJob := ∅
  outbox : Table OutboxEvent := ∅
  consumers : Table EventConsumer := ∅
  checkpoints : Table ConsumerCheckpoint := ∅

/-- The clock, the settings, the tables the engine only reads, and the workspace every worker is
pinned to. -/
structure Configuration where
  now : Nat
  settings : Settings
  workspaces : Table Workspace
  contentItems : Table ContentItem
  definitions : Table WorkflowDefinition
  concurrencyLimits : Table WorkspaceConcurrencyLimit
  backpressureStates : Table WorkspaceBackpressureState
  providerBudgets : Table ProviderConcurrencyBudget
  spendCaps : Table SpendCap
  pins : Nat → Option (Option Nat)

/-- The pin of a registered worker. -/
def Db.pins (db : Db) (workerId : Nat) : Option (Option Nat) :=
  (db.workers.get? workerId).map (·.workspaceId)

/-- What does not move a worker's pin leaves all pins alone. -/
theorem pins_modify {workers : Table WorkerRegistration} {k : Nat} {u : Update WorkerRegistration}
    (hu : ∀ w, (u.apply w).workspaceId = w.workspaceId) (workerId : Nat) :
    ((workers.modify k u).get? workerId).map (·.workspaceId) =
      (workers.get? workerId).map (·.workspaceId) := by
  rw [Table.get?_modify]
  split
  · rename_i hk
    rw [hk]
    cases workers.get? k with
    | none => rfl
    | some w => exact congrArg some (hu w)
  · rfl

def Db.config (db : Db) : Configuration where
  now := db.now
  settings := db.settings
  workspaces := db.workspaces
  contentItems := db.contentItems
  definitions := db.definitions
  concurrencyLimits := db.concurrencyLimits
  backpressureStates := db.backpressureStates
  providerBudgets := db.providerBudgets
  spendCaps := db.spendCaps
  pins := db.pins

/-- A transaction body. -/
abbrev Session (α : Type) := EStateM OrchestrationError Db α

/-- `session.get` of a row that must exist, raising otherwise. -/
def require {α : Type} (row : Option α) (error : OrchestrationError) : Session α :=
  match row with
  | some a => pure a
  | none => throw error

@[simp] theorem returns_require {α : Type} {row : Option α} {error : OrchestrationError} {s t : Db}
    {a : α} : Returns (require row error) s a t ↔ row = some a ∧ s = t := by
  cases row <;> simp [require]

theorem raises_require {α : Type} {row : Option α} {error e : OrchestrationError} {s t : Db} :
    Raises (require row error) s e t ↔ row = none ∧ error = e ∧ s = t := by
  cases row <;> simp [require]

end ContentOrchestrator

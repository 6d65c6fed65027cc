import ContentOrchestrator.Orchestration.Controller

/-! # Dispatcher: worker selection, assignments and leases

`dispatchStage` answers with a typed outcome: over the concurrency limit, held or
skipped for the run's status, already dispatched under the same key, waiting for
a worker, or assigned. Rows another transaction has locked are skipped by the
worker query; which ones is an input. -/

namespace ContentOrchestrator

open Lib

/-! ## Provider concurrency budgets -/

def StageAssignment.isInFlightIn (workspaceId : Nat) (a : StageAssignment) : Bool :=
  a.workspaceId == workspaceId && a.status.inFlight

/-- No provider or no budget row means no limit. -/
def hasProviderCapacity (db : Db) (workspaceId : Nat) (provider : Option String) : Bool :=
  match provider with
  | none => true
  | some provider =>
    if provider.isEmpty then true
    else
      match (db.providerBudgets.select fun b =>
          b.workspaceId == workspaceId && b.provider == provider).head? with
      | none => true
      | some budget =>
        decide ((db.assignments.count fun a =>
          a.isInFlightIn workspaceId && a.provider == some provider) < budget.maxConcurrent)

/-! ## Worker selection -/

def WorkerRegistration.isEligible (stage : String) (minHealthScore : Int) (w : WorkerRegistration) :
    Bool :=
  (w.status == .online || w.status == .busy) && !w.drain && w.deregisteredAt.isNone &&
    decide (minHealthScore ≤ w.healthScore) && w.supportedStages.contains stage &&
    decide (w.currentLoad < w.maxConcurrency)

/-- Health first, then load, then the least recent heartbeat, never heard from first. -/
def WorkerRegistration.ranksBefore (a b : WorkerRegistration) : Bool :=
  decide (b.healthScore < a.healthScore) ||
    (a.healthScore == b.healthScore &&
      (decide (a.currentLoad < b.currentLoad) ||
        (a.currentLoad == b.currentLoad &&
          match a.lastHeartbeatAt, b.lastHeartbeatAt with
          | none, _ => true
          | some _, none => false
          | some s, some t => decide (s ≤ t))))

def selectWorker (db : Db) (stage : String) (lockedWorkers : List Nat) :
    Option WorkerRegistration :=
  ((db.workers.select (·.isEligible stage 50)).insertionSort fun a b => a.ranksBefore b).find?
      fun w =>
    !lockedWorkers.contains w.id

/-- One more assignment; a full worker is busy. -/
def WorkerRegistration.takeSlot : Update WorkerRegistration :=
  ⟨fun w =>
    { w with
      currentLoad := w.currentLoad + 1
      status := if w.maxConcurrency ≤ w.currentLoad + 1 then .busy else w.status }, fun _ => rfl⟩

/-- One assignment less; a busy worker with room is online again. -/
def WorkerRegistration.submitSlot : Update WorkerRegistration :=
  ⟨fun w =>
    if 0 < w.currentLoad then
      { w with
        currentLoad := w.currentLoad - 1
        status := if w.status = .busy ∧ w.currentLoad - 1 < w.maxConcurrency then .online
                  else w.status }
    else w, fun w => by split <;> rfl⟩

/-! ## Dispatch -/

inductive DispatchOutcome
  | dispatched | idempotent | noWorker | backpressure | spendHold | skipped
deriving DecidableEq, Repr

structure DispatchResult where
  outcome : DispatchOutcome
  assignment : Option Nat := none
deriving DecidableEq, Repr

structure DispatchRequest where
  workspaceId : Nat
  pipelineRunId : Nat
  stage : String
  attemptNumber : Nat
  provider : Option String := none
  priority : Option Int := none
  lockedWorkers : List Nat := []

def defaultMaxConcurrentAssignments : Nat := 10

def maxConcurrentAssignments (db : Db) (workspaceId : Nat) : Nat :=
  match (db.concurrencyLimits.select fun l => l.workspaceId == workspaceId).head? with
  | some limit => limit.maxConcurrentAssignments
  | none => defaultMaxConcurrentAssignments

/-- The workspace has as many assignments in flight as it may have. -/
def atConcurrencyLimit (db : Db) (workspaceId : Nat) : Bool :=
  decide (maxConcurrentAssignments db workspaceId ≤
    db.assignments.count fun a => a.isInFlightIn workspaceId)

/-- What the run's status says about dispatching it; `none` lets it through. -/
def statusOutcome (run : PipelineRun) : Option DispatchOutcome :=
  if run.status.isTerminal then some .skipped
  else if run.status = .paused then
    if run.pauseReason = some .spendHold then some .spendHold else some .skipped
  else none

def assignmentByKey (db : Db) (workspaceId : Nat) (key : IdempotencyKey) : Option StageAssignment :=
  (db.assignments.select fun a => a.workspaceId == workspaceId && a.idempotencyKey == key).head?

def DispatchRequest.key (q : DispatchRequest) : IdempotencyKey :=
  ⟨q.pipelineRunId, q.stage, q.attemptNumber⟩

def draftDeskProvider : String := "draft_desk"

/-- `provider or "draft_desk"`. -/
def effectiveProvider (provider : Option String) : String :=
  match provider with
  | some p => if p.isEmpty then draftDeskProvider else p
  | none => draftDeskProvider

def newAssignment (q : DispatchRequest) (stage : ContentStage) (worker : Option WorkerRegistration)
    (priority : Int) (db : Db) : NewRow StageAssignment where
  make id :=
    let lease := db.now + seconds db.settings.assignmentLeaseSeconds
    { id, workspaceId := q.workspaceId, pipelineRunId := q.pipelineRunId, stage
      attemptNumber := q.attemptNumber, workerId := worker.map (·.id)
      status := if worker.isSome then .dispatched else .pending
      idempotencyKey := q.key
      leaseExpiresAt := worker.map fun _ => lease
      leaseStartedAt := worker.map fun _ => db.now
      dispatchedAt := worker.map fun _ => db.now
      priority, provider := some (effectiveProvider q.provider)
      createdAt := db.now, updatedAt := db.now }
  key_make _ := rfl

/-- The new assignment row, with the worker's slot and the event. -/
def createAssignment (q : DispatchRequest) (stage : ContentStage)
    (worker : Option WorkerRegistration) (priority : Int) (db : Db) : Db :=
  emit EventType.stageAssigned q.workspaceId (.pipelineRun q.pipelineRunId) none
    { db with
      assignments := db.assignments.insert (newAssignment q stage worker priority db)
      workers := match worker with
        | some w => db.workers.modify w.id WorkerRegistration.takeSlot
        | none => db.workers }

/-- **Select a worker and create the assignment.** Spend is reserved only when a worker is
assigned; a row without one waits for a claim. -/
def dispatchStage (q : DispatchRequest) : Session DispatchResult := do
  let db ← get
  if atConcurrencyLimit db q.workspaceId then return ⟨.backpressure, none⟩
  let run := db.runs.get? q.pipelineRunId
  match run.bind statusOutcome with
  | some outcome => return ⟨outcome, none⟩
  | none =>
    let priority := q.priority.getD (workspacePriority db q.workspaceId)
    let worker :=
      if hasProviderCapacity db q.workspaceId q.provider then
        selectWorker db q.stage q.lockedWorkers
      else none
    match assignmentByKey db q.workspaceId q.key with
    | some already => return ⟨.idempotent, some already.id⟩
    | none =>
      let stage ← require (ContentStage.ofValue? q.stage) (.dataError q.stage)
      -- the foreign key refuses a row of an unknown run
      let run ← require run (.integrityError "stage_assignments_pipeline_run_id_fkey")
      if worker.isSome then
        match ← reserveSpend run stage (effectiveProvider q.provider)
            db.settings.defaultStageEstimateUsd with
        | none => return ⟨.spendHold, none⟩
        | some _ =>
          let assignmentId := (← get).assignments.next
          modify (createAssignment q stage worker priority)
          return ⟨.dispatched, some assignmentId⟩
      else
        modify (createAssignment q stage none priority)
        return ⟨.noWorker, some db.assignments.next⟩

/-! ## Lease lifecycle -/

def loadAssignment (assignmentId : Nat) : Session StageAssignment := do
  require ((← get).assignments.get? assignmentId) (.valueError "assignment not found")

@[simp] theorem returns_loadAssignment {assignmentId : Nat} {s t : Db} {a : StageAssignment} :
    Returns (loadAssignment assignmentId) s a t ↔
      s.assignments.get? assignmentId = some a ∧ s = t := by
  simp [loadAssignment, and_comm]

/-- The lease has run out, or there is none. -/
def StageAssignment.leaseExpired (now : Nat) (a : StageAssignment) : Bool :=
  a.leaseExpiresAt.all fun t => decide (t < now)

/-- Raise unless the worker may extend this lease. -/
def assertLeaseExtendable (db : Db) (a : StageAssignment) (workerId leaseSeconds : Nat) :
    Except OrchestrationError Unit := do
  if a.workerId ≠ some workerId then throw .leaseNotOwned
  if !a.status.inFlight then throw (.leaseConflict "invalid_status")
  if a.leaseExpired db.now then throw (.leaseConflict "lease_expired")
  let started := a.leaseStartedAt.getD (a.dispatchedAt.getD db.now)
  if started + seconds db.settings.assignmentMaxLeaseSeconds < db.now + seconds leaseSeconds then
    throw (.leaseConflict "max_lease_exceeded")

/-- The lease runs for the given time from now. -/
def StageAssignment.extendLease (now leaseSeconds : Nat) : Update StageAssignment :=
  ⟨fun a =>
    { a with
      leaseExpiresAt := some (now + seconds leaseSeconds)
      leaseStartedAt := some (a.leaseStartedAt.getD (a.dispatchedAt.getD now))
      leaseExtensionCount := a.leaseExtensionCount + 1, updatedAt := now }, fun _ => rfl⟩

def StageAssignment.acknowledged (now : Nat) : Update StageAssignment :=
  ⟨fun a => { a with status := .acknowledged, acknowledgedAt := some now, updatedAt := now },
    fun _ => rfl⟩

/-- Dispatched to acknowledged. Without a worker id nothing is checked. -/
def acknowledge (assignmentId : Nat) (leaseSeconds workerId : Option Nat) : Session Unit := do
  let a ← loadAssignment assignmentId
  let db ← get
  let leaseSeconds := leaseSeconds.getD db.settings.assignmentLeaseSeconds
  match workerId with
  | some workerId =>
    liftExcept (assertLeaseExtendable db a workerId leaseSeconds)
    if a.status ≠ .dispatched then throw (.leaseConflict "invalid_status")
  | none => pure ()
  modify fun db =>
    { db with
      assignments :=
        (db.assignments.modify assignmentId (StageAssignment.acknowledged db.now)).modify
          assignmentId (StageAssignment.extendLease db.now leaseSeconds) }

def renewLease (assignmentId : Nat) (leaseSeconds workerId : Option Nat) : Session Unit := do
  let a ← loadAssignment assignmentId
  let db ← get
  let leaseSeconds := leaseSeconds.getD db.settings.assignmentLeaseSeconds
  match workerId with
  | some workerId => liftExcept (assertLeaseExtendable db a workerId leaseSeconds)
  | none => pure ()
  modify fun db =>
    { db with
      assignments := db.assignments.modify assignmentId
        (StageAssignment.extendLease db.now leaseSeconds) }

/-! ## Submission -/

def StageAssignment.complete (success : Bool) (result : Option (List (String × Json))) (now : Nat) :
    Update StageAssignment :=
  ⟨fun a =>
    { a with
      status := if success then .completed else .failed
      completedAt := some now, result, leaseExpiresAt := none, leaseStartedAt := none
      updatedAt := now }, fun _ => rfl⟩

/-- The checks of a submission. -/
def assertSubmittable (db : Db) (a : StageAssignment) (workerId : Option Nat) :
    Except OrchestrationError Unit := do
  if workerId.isSome ∧ a.workerId ≠ workerId then throw .leaseNotOwned
  if !a.status.inFlight then throw (.leaseConflict "invalid_status")
  if workerId.isSome ∧ a.leaseExpired db.now then throw (.leaseConflict "lease_expired")

/-- The assignment is closed and its worker's slot given back. -/
def closeAssignment (a : StageAssignment) (success : Bool) (result : Option (List (String × Json)))
    (db : Db) : Db :=
  { db with
    assignments := db.assignments.modify a.id (StageAssignment.complete success result db.now)
    workers := match a.workerId with
      | some w => db.workers.modify w WorkerRegistration.submitSlot
      | none => db.workers }

/-- `uq_stage_run_attempt` allows one row for an attempt. -/
def stageRunExists (db : Db) (a : StageAssignment) : Bool :=
  (db.stageRuns.select fun s =>
    s.pipelineRunId == a.pipelineRunId && s.stage == a.stage &&
      s.attemptNumber == a.attemptNumber).isEmpty = false

def recordStageRun (a : StageAssignment) (success : Bool) (db : Db) : Db :=
  { db with
    stageRuns := db.stageRuns.insert ⟨fun id =>
      { id, workspaceId := a.workspaceId, pipelineRunId := a.pipelineRunId, stage := a.stage
        attemptNumber := a.attemptNumber
        status := if success then .succeeded else .failed
        completedAt := some db.now }, fun _ => rfl⟩ }

/-- The newest open reservation of a stage. -/
def newestOpenReservation (db : Db) (runId : Nat) (stage : ContentStage) :
    Option SpendReservation :=
  ((db.reservations.select (·.isOpenFor runId stage)).insertionSort fun v w =>
    w.createdAt ≤ v.createdAt).head?

/-- The cost a worker reports, or the default estimate where it reports none or nonsense. -/
def reportedCost (settings : Settings) (result : Option (List (String × Json))) : Decimal :=
  let fallback := Decimal.ofGrid settings.defaultStageEstimateUsd
  match (result.getD []).lookup "estimated_cost_usd" with
  | none | some .null => fallback
  | some reported => (Decimal.ofJson? reported).getD fallback

/-- **Report a stage outcome**: close the assignment, record the attempt, settle the open
reservation and let the controller move the run. -/
def submitResult (assignmentId : Nat) (success : Bool) (result : Option (List (String × Json)))
    (errorMessage : String) (workerId : Option Nat) (jitter : Nat) : Session Unit := do
  let a ← loadAssignment assignmentId
  liftExcept (assertSubmittable (← get) a workerId)
  modify (closeAssignment a success result)
  match (← get).runs.get? a.pipelineRunId with
  | none => return
  | some run =>
    if stageRunExists (← get) a then throw (.integrityError "uq_stage_run_attempt")
    modify (recordStageRun a success)
    if success then
      modify (emit EventType.stageCompleted a.workspaceId (.pipelineRun a.pipelineRunId) none)
    let db ← get
    let reservation := newestOpenReservation db run.id a.stage
    if success then
      match reservation with
      | some v => commitSpend run v (reportedCost db.settings result)
      | none => pure ()
      handleStageSuccess run a.stage (result.getD [])
    else
      match reservation with
      | some v => modify (releaseSpend run v)
      | none => pure ()
      handleStageFailure run a.stage a.attemptNumber errorMessage jitter

/-! ## What each operation does to the tables -/

@[simp] theorem createAssignment_frame {q : DispatchRequest} {stage : ContentStage}
    {worker : Option WorkerRegistration} {priority : Int} {db : Db} :
    (createAssignment q stage worker priority db).runs = db.runs ∧
    (createAssignment q stage worker priority db).jobs = db.jobs ∧
    (createAssignment q stage worker priority db).assignments =
      db.assignments.insert (newAssignment q stage worker priority db) ∧
    (createAssignment q stage worker priority db).gates = db.gates ∧
    (createAssignment q stage worker priority db).reservations = db.reservations ∧
    (createAssignment q stage worker priority db).definitions = db.definitions := by
  simp [createAssignment]

@[simp] theorem closeAssignment_frame {a : StageAssignment} {success : Bool}
    {result : Option (List (String × Json))} {db : Db} :
    (closeAssignment a success result db).runs = db.runs ∧
    (closeAssignment a success result db).jobs = db.jobs ∧
    (closeAssignment a success result db).assignments =
      db.assignments.modify a.id (StageAssignment.complete success result db.now) ∧
    (closeAssignment a success result db).gates = db.gates ∧
    (closeAssignment a success result db).reservations = db.reservations ∧
    (closeAssignment a success result db).definitions = db.definitions := by
  simp [closeAssignment]

@[simp] theorem recordStageRun_frame {a : StageAssignment} {success : Bool} {db : Db} :
    (recordStageRun a success db).runs = db.runs ∧
    (recordStageRun a success db).jobs = db.jobs ∧
    (recordStageRun a success db).assignments = db.assignments ∧
    (recordStageRun a success db).gates = db.gates ∧
    (recordStageRun a success db).reservations = db.reservations ∧
    (recordStageRun a success db).definitions = db.definitions := by
  simp [recordStageRun]

end ContentOrchestrator

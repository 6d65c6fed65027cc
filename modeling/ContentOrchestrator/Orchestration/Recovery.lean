import ContentOrchestrator.Orchestration.Dispatcher

/-! # Lease recovery and worker claiming

Every crash, stale worker or expired lease comes down to `recoverAssignment` on one
in-flight row: it is requeued for another attempt, or failed and dead-lettered once
its attempts are used up. A claim takes one waiting row for a worker, after the
worker's own eligibility, the provider budgets and the spend gate. -/

namespace ContentOrchestrator

open Lib

/-! ## Recovery -/

inductive RecoveryResultKind
  | requeued | deadLettered | skipped
deriving DecidableEq, Repr

namespace StageAssignment

/-- Clears lease and claim fields, as every recovery does. -/
def clearLeaseAndClaim (a : StageAssignment) : StageAssignment :=
  { a with
    workerId := none, leaseExpiresAt := none, leaseStartedAt := none, leaseExtensionCount := 0
    dispatchedAt := none, acknowledgedAt := none, claimedBy := none, claimedAt := none
    claimToken := none }

/-- Attempts are used up. -/
def exhaust (now : Nat) : Update StageAssignment :=
  ⟨fun a =>
    { a.clearLeaseAndClaim with status := .failed, completedAt := some now, updatedAt := now },
    fun _ => rfl⟩

/-- Back to waiting, one attempt further, under the key of that attempt. -/
def requeue (now : Nat) : Update StageAssignment :=
  ⟨fun a =>
    { a.clearLeaseAndClaim with
      status := .pending, attemptNumber := a.attemptNumber + 1
      idempotencyKey := ⟨a.pipelineRunId, a.stage.value, a.attemptNumber + 1⟩
      updatedAt := now }, fun _ => rfl⟩

end StageAssignment

def WorkerRegistration.releaseSlot : Update WorkerRegistration :=
  ⟨fun w =>
    { w with
      currentLoad := w.currentLoad - 1
      status := if w.status = .busy ∧ w.currentLoad - 1 < w.maxConcurrency then .online
                else w.status }, fun _ => rfl⟩

def releaseWorkerSlot (workerId : Option Nat) (db : Db) : Db :=
  match workerId with
  | some w => { db with workers := db.workers.modify w WorkerRegistration.releaseSlot }
  | none => db

/-- The stage's own bound, or the default where run, definition or stage row is missing. -/
def resolveMaxAttempts (db : Db) (a : StageAssignment) : Nat :=
  match ((db.runs.get? a.pipelineRunId).bind (·.definitionId)).bind
      fun definitionId => stageDef? db definitionId a.stage with
  | some stageDef => stageDef.maxAttempts
  | none => db.settings.assignmentDefaultMaxAttempts

/-- The row gets another attempt. -/
def canRequeue (db : Db) (a : StageAssignment) : Bool :=
  decide (a.attemptNumber + 1 ≤ resolveMaxAttempts db a)

/-- The exhausted branch: fail the row, dead-letter it, fail a run that is still going. -/
def deadLetterAssignment (a : StageAssignment) (reason : RecoveryReason) (db : Db) : Db :=
  let failed := routeToDeadLetter a.workspaceId "stage_assignments" (.assignment a.id)
    ("stage:" ++ a.stage.formatted)
    ("recovery exhausted (" ++ reason.value ++ ") after " ++ toString a.attemptNumber ++
      " attempts")
    a.attemptNumber
    { db with assignments := db.assignments.modify a.id (StageAssignment.exhaust db.now) }
  match db.runs.get? a.pipelineRunId with
  | some run => if run.status.isTerminal then failed else failRun run failed
  | none => failed

/-- The requeue branch: an unowned row holds no budget. -/
def requeueAssignment (a : StageAssignment) (db : Db) : Db :=
  let released :=
    match db.runs.get? a.pipelineRunId with
    | some run => releaseStageReservations run a.stage db
    | none => db
  emit EventType.stageReassigned a.workspaceId (.pipelineRun a.pipelineRunId) none
    { released with
      assignments := released.assignments.modify a.id (StageAssignment.requeue db.now) }

/-- **Recover one locked assignment.** -/
def recoverAssignment (assignmentId : Nat) (reason : RecoveryReason) :
    Session RecoveryResultKind := do
  let a ← loadAssignment assignmentId
  if !a.status.inFlight then return .skipped
  modify (releaseWorkerSlot a.workerId)
  let db ← get
  if canRequeue db a then
    -- the new key must be free in the workspace
    if (assignmentByKey db a.workspaceId
        ⟨a.pipelineRunId, a.stage.value, a.attemptNumber + 1⟩).isSome then
      throw (.integrityError "uq_stage_assignments_workspace_idem")
    modify (requeueAssignment a)
    return .requeued
  else
    modify (deadLetterAssignment a reason)
    return .deadLettered

/-! ## Claiming -/

structure ClaimResult where
  assignment : Option Nat
  outcome : ClaimOutcome
  reason : String
deriving DecidableEq, Repr

/-- Why a worker may not claim at all, in the order of the checks. -/
def WorkerRegistration.refusal (db : Db) (w : WorkerRegistration) : Option ClaimResult :=
  if w.drain then some ⟨none, .ineligible, "worker is draining"⟩
  else if w.deregisteredAt.isSome ∨ w.status ≠ .online then
    some ⟨none, .ineligible, "worker status is not online"⟩
  else if w.lastHeartbeatAt.all fun t =>
      decide (seconds db.settings.workerOfflineAfterSeconds ≤ db.now - t) then
    some ⟨none, .ineligible, "heartbeat is stale"⟩
  else if w.maxConcurrency ≤ w.currentLoad then
    some ⟨none, .capacity, "worker at maximum concurrency"⟩
  else if w.supportedStages.isEmpty then some ⟨none, .noWork, "worker supports no stages"⟩
  else none

def WorkerRegistration.serves (w : WorkerRegistration) (workspaceId : Nat) : Bool :=
  w.workspaceId.all (· == workspaceId)

/-- The row already held under this token. -/
def heldByToken (db : Db) (w : WorkerRegistration) (claimToken : Option Nat) :
    Option StageAssignment :=
  claimToken.bind fun token =>
    (db.assignments.select fun a =>
      a.claimedBy == some w.id && a.claimToken == some token && a.status == .dispatched &&
        w.serves a.workspaceId).head?

def StageAssignment.isClaimableBy (w : WorkerRegistration) (stages : List ContentStage)
    (a : StageAssignment) : Bool :=
  a.status == .pending && stages.contains a.stage && w.serves a.workspaceId

/-- The next candidate by effective priority, then age, over unskipped and unlocked rows. -/
def nextCandidate (db : Db) (w : WorkerRegistration) (stages : List ContentStage)
    (excluded : List Nat) : Option StageAssignment :=
  ((db.assignments.select fun a =>
      a.isClaimableBy w stages && !excluded.contains a.id).insertionSort fun a b =>
    effectivePriority db b < effectivePriority db a ∨
      (effectivePriority db a = effectivePriority db b ∧ a.createdAt ≤ b.createdAt)).head?

/-- The candidate loop: rows over their provider budget are skipped, and remembered. -/
def searchCandidate (db : Db) (w : WorkerRegistration) (stages : List ContentStage) :
    Nat → List Nat → Bool → Option StageAssignment × Bool
  | 0, _, sawBlock => (none, sawBlock)
  | n + 1, excluded, sawBlock =>
    match nextCandidate db w stages excluded with
    | none => (none, sawBlock)
    | some row =>
      if hasProviderCapacity db row.workspaceId row.provider then (some row, sawBlock)
      else searchCandidate db w stages n (row.id :: excluded) true

def claimCandidate (db : Db) (w : WorkerRegistration) (stages : List ContentStage)
    (lockedAssignments : List Nat) : Option StageAssignment × Bool :=
  searchCandidate db w stages db.settings.claimCandidateBatchSize lockedAssignments false

def StageAssignment.grant (workerId : Nat) (claimToken : Option Nat) (now leaseSeconds : Nat) :
    Update StageAssignment :=
  ⟨fun a =>
    { a with
      status := .dispatched, workerId := some workerId, claimedBy := some workerId
      claimedAt := some now, dispatchedAt := some now
      leaseExpiresAt := some (now + seconds leaseSeconds), leaseStartedAt := some now
      leaseExtensionCount := 0, claimCount := a.claimCount + 1, claimToken, updatedAt := now },
    fun _ => rfl⟩

/-- Ownership passes to the worker. -/
def grantAssignment (a : StageAssignment) (workerId : Nat) (claimToken : Option Nat) (db : Db) :
    Db :=
  emit EventType.stageAssigned a.workspaceId (.pipelineRun a.pipelineRunId) none
    { db with
      assignments := db.assignments.modify a.id
        (StageAssignment.grant workerId claimToken db.now db.settings.assignmentLeaseSeconds)
      workers := db.workers.modify workerId WorkerRegistration.takeSlot }

/-- The spend gate of a claim: an open reservation is kept, else one must be granted. -/
def claimReservation (a : StageAssignment) : Session Bool := do
  let db ← get
  match db.runs.get? a.pipelineRunId with
  | none => return true
  | some run =>
    match (db.reservations.select (·.isOpenFor a.pipelineRunId a.stage)).head? with
    | some _ => return true
    | none =>
      let reservation ← reserveSpend run a.stage (effectiveProvider a.provider)
        db.settings.defaultStageEstimateUsd
      return reservation.isSome

/-- **Claim one waiting assignment for a worker.** -/
def claimAssignment (workerId : Nat) (claimToken : Option Nat) (lockedAssignments : List Nat) :
    Session ClaimResult := do
  let db ← get
  match db.workers.get? workerId with
  | none => return ⟨none, .ineligible, "worker not found"⟩
  | some worker =>
    match heldByToken db worker claimToken with
    | some held => return ⟨some held.id, .granted, "idempotent replay"⟩
    | none =>
      match worker.refusal db with
      | some refusal => return refusal
      | none =>
        let stages ← require (worker.supportedStages.mapM ContentStage.ofValue?)
          (.dataError "supported_stages")
        match claimCandidate db worker stages lockedAssignments with
        | (none, true) => return ⟨none, .capacity, "provider budget exhausted"⟩
        | (none, false) => return ⟨none, .noWork, "no eligible assignment"⟩
        | (some row, _) =>
          if ← claimReservation row then
            modify (grantAssignment row workerId claimToken)
            return ⟨some row.id, .granted, "claimed"⟩
          else
            return ⟨none, .capacity, "workspace spend cap reached"⟩

/-! ## What each operation does to the tables -/

@[simp] theorem releaseWorkerSlot_frame {workerId : Option Nat} {db : Db} :
    (releaseWorkerSlot workerId db).runs = db.runs ∧
    (releaseWorkerSlot workerId db).jobs = db.jobs ∧
    (releaseWorkerSlot workerId db).assignments = db.assignments ∧
    (releaseWorkerSlot workerId db).gates = db.gates ∧
    (releaseWorkerSlot workerId db).reservations = db.reservations ∧
    (releaseWorkerSlot workerId db).definitions = db.definitions := by
  cases workerId <;> simp [releaseWorkerSlot]

theorem requeueAssignment_frame {a : StageAssignment} {db : Db} :
    (requeueAssignment a db).runs = db.runs ∧
    (requeueAssignment a db).jobs = db.jobs ∧
    (requeueAssignment a db).assignments =
      db.assignments.modify a.id (StageAssignment.requeue db.now) ∧
    (requeueAssignment a db).gates = db.gates ∧
    (requeueAssignment a db).deadLetters = db.deadLetters := by
  unfold requeueAssignment
  cases db.runs.get? a.pipelineRunId <;> simp [releaseStageReservations]

/-- The run may fail with the attempt; the rest is the same for any run. -/
theorem deadLetterAssignment_frame {a : StageAssignment} {reason : RecoveryReason} {db : Db} :
    (deadLetterAssignment a reason db).jobs = db.jobs ∧
    (deadLetterAssignment a reason db).assignments =
      db.assignments.modify a.id (StageAssignment.exhaust db.now) ∧
    (deadLetterAssignment a reason db).gates = db.gates ∧
    ∃ text, (deadLetterAssignment a reason db).deadLetters =
      (routeToDeadLetter a.workspaceId "stage_assignments" (.assignment a.id)
        ("stage:" ++ a.stage.formatted) text a.attemptNumber db).deadLetters := by
  unfold deadLetterAssignment
  split
  · split
    · exact ⟨rfl, rfl, rfl, _, rfl⟩
    · refine ⟨by simp, by simp, by simp, ?_⟩
      simp only [failRun, releaseAllReservations, releaseEach_deadLetters]
      exact ⟨_, rfl⟩
  · exact ⟨rfl, rfl, rfl, _, rfl⟩

@[simp] theorem grantAssignment_frame {a : StageAssignment} {workerId : Nat}
    {claimToken : Option Nat} {db : Db} :
    (grantAssignment a workerId claimToken db).runs = db.runs ∧
    (grantAssignment a workerId claimToken db).jobs = db.jobs ∧
    (grantAssignment a workerId claimToken db).assignments =
      db.assignments.modify a.id
        (StageAssignment.grant workerId claimToken db.now db.settings.assignmentLeaseSeconds) ∧
    (grantAssignment a workerId claimToken db).gates = db.gates ∧
    (grantAssignment a workerId claimToken db).reservations = db.reservations ∧
    (grantAssignment a workerId claimToken db).definitions = db.definitions := by
  simp [grantAssignment]

end ContentOrchestrator

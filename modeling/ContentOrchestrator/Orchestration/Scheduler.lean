import ContentOrchestrator.Orchestration.Recovery

/-! # Scheduler

Leases due queue rows round-robin over the workspaces, reaps leases that ran out,
and carries out the intention a leased row stands for. Rows locked by another
scheduler are skipped; which ones is an input. -/

namespace ContentOrchestrator

open Lib

def defaultMaxPerWorkspacePerTick : Nat := 5
def leaseSeconds : Nat := 30
/-- Bounds the reschedule loop of a stage that cannot be placed. -/
def noWorkerMaxRetries : Nat := 20
def noWorkerRetryBaseSeconds : Nat := 5
def noWorkerRetryMaxSeconds : Nat := 120
def spendHoldRetrySeconds : Nat := 60

namespace JobSchedule

def isDue (now : Nat) (j : JobSchedule) : Bool := j.status == .pending && decide (j.runAfter ≤ now)

/-- The row carries a stage of a run. -/
def isStageJob (j : JobSchedule) : Bool := j.jobType == .stage || j.jobType == .retry

def isActive (j : JobSchedule) : Bool := j.status == .pending || j.status == .leased

def lease (now : Nat) : Update JobSchedule :=
  ⟨fun j => { j with status := .leased, leaseExpiresAt := some (now + seconds leaseSeconds) },
    fun _ => rfl⟩

/-- A lease that ran out costs an attempt. -/
def reap : Update JobSchedule :=
  ⟨fun j => { j with status := .pending, leaseExpiresAt := none, attempt := j.attempt + 1 },
    fun _ => rfl⟩

/-- Wait again, attempts untouched. -/
def park (runAfter : Nat) : Update JobSchedule :=
  ⟨fun j => { j with status := .pending, runAfter, leaseExpiresAt := none }, fun _ => rfl⟩

/-- Wait again after an unsuccessful pass. -/
def reschedule (runAfter : Nat) : Update JobSchedule :=
  ⟨fun j =>
    { j with status := .pending, runAfter, leaseExpiresAt := none, attempt := j.attempt + 1 },
    fun _ => rfl⟩

def retire : Update JobSchedule :=
  ⟨fun j => { j with status := .cancelled, leaseExpiresAt := none }, fun _ => rfl⟩

/-- The last unsuccessful pass; the lease columns stay as they were. -/
def exhaust : Update JobSchedule :=
  ⟨fun j => { j with status := .cancelled, attempt := j.attempt + 1 }, fun _ => rfl⟩

def done : Update JobSchedule := ⟨fun j => { j with status := .done }, fun _ => rfl⟩

/-- The run a stage job is about. -/
def runId? (j : JobSchedule) : Option Nat :=
  match j.refId with
  | .run id => some id
  | _ => none

end JobSchedule

theorem isActive_of_leased {j : JobSchedule} (h : j.status = .leased) : j.isActive = true := by
  simp [JobSchedule.isActive, h]

def modifyJob (jobId : Nat) (u : Update JobSchedule) (db : Db) : Db :=
  { db with jobs := db.jobs.modify jobId u }

/-! ## Leasing -/

/-- A throttled workspace gets half its allowance, never none. -/
def effectiveSchedulerTickLimit (db : Db) (workspaceId configured : Nat) : Nat :=
  match (db.backpressureStates.select fun s => s.workspaceId == workspaceId).head? with
  | some s => if s.state = .throttled then max 1 (configured / 2) else configured
  | none => configured

def fairnessLimit (db : Db) (workspaceId : Nat) : Nat :=
  effectiveSchedulerTickLimit db workspaceId
    (match (db.concurrencyLimits.select fun l => l.workspaceId == workspaceId).head? with
      | some limit => limit.maxPerSchedulerTick
      | none => defaultMaxPerWorkspacePerTick)

/-- Due rows, highest priority first, oldest first within a priority; three batches are fetched. -/
def dueJobs (db : Db) (batchSize : Nat) (lockedJobs : List Nat) : List JobSchedule :=
  (((db.jobs.select fun j => j.isDue db.now).insertionSort fun a b =>
      b.priority < a.priority ∨ (a.priority = b.priority ∧ a.runAfter ≤ b.runAfter)).filter fun j =>
    !lockedJobs.contains j.id).take (batchSize * 3)

/-- A workspace's turn in the round: its allowed jobs not yet leased. -/
structure TickQueue where
  workspaceId : Nat
  remaining : List JobSchedule

/-- Group by workspace in order of first appearance, cut to the workspace's allowance. -/
def tickQueues (db : Db) (candidates : List JobSchedule) : List TickQueue :=
  ((candidates.map (·.workspaceId)).reverse.dedup.reverse).map fun workspaceId =>
    ⟨workspaceId,
      (candidates.filter fun j => j.workspaceId == workspaceId).take (fairnessLimit db workspaceId)⟩

/-- One round: at most one job of each workspace, while the batch has room. -/
def tickRound : Nat → List TickQueue → List JobSchedule × List TickQueue
  | _, [] => ([], [])
  | 0, queues => ([], queues)
  | room + 1, queue :: rest =>
    match queue.remaining with
    | [] =>
      let (leased, rest) := tickRound (room + 1) rest
      (leased, queue :: rest)
    | job :: jobs =>
      let (leased, rest) := tickRound room rest
      (job :: leased, { queue with remaining := jobs } :: rest)

/-- Rounds until the batch is full or every queue is empty; each round leases a job, so the
number of candidates bounds their number. -/
def tickRounds : Nat → Nat → List TickQueue → List JobSchedule
  | 0, _, _ => []
  | rounds + 1, room, queues =>
    if room = 0 ∨ queues.all (·.remaining.isEmpty) then []
    else
      let (leased, queues) := tickRound room queues
      leased ++ tickRounds rounds (room - leased.length) queues

/-- The jobs one tick leases. -/
def selectLeases (db : Db) (batchSize : Nat) (lockedJobs : List Nat) : List JobSchedule :=
  let candidates := dueJobs db batchSize lockedJobs
  tickRounds candidates.length batchSize (tickQueues db candidates)

/-- The tick leases this row. -/
def isPolled (batchSize : Nat) (lockedJobs : List Nat) (db : Db) (j : JobSchedule) : Bool :=
  ((selectLeases db batchSize lockedJobs).map (·.id)).contains j.id && j.isDue db.now

def pollAndLease (batchSize : Nat) (lockedJobs : List Nat) (db : Db) : Db :=
  { db with
    jobs := db.jobs.modifyWhere (isPolled batchSize lockedJobs db) (JobSchedule.lease db.now) }

def JobSchedule.leaseExpired (now : Nat) (j : JobSchedule) : Bool :=
  j.status == .leased && j.leaseExpiresAt.any fun t => decide (t < now)

/-- The reaper takes this row back. -/
def isReaped (batchSize : Nat) (lockedJobs : List Nat) (db : Db) (j : JobSchedule) : Bool :=
  ((((db.jobs.select (·.leaseExpired db.now)).filter fun j =>
    !lockedJobs.contains j.id).take batchSize).map (·.id)).contains j.id && j.leaseExpired db.now

/-- The job-lease reaper. -/
def reapExpiredLeases (batchSize : Nat) (lockedJobs : List Nat) (db : Db) : Db :=
  { db with jobs := db.jobs.modifyWhere (isReaped batchSize lockedJobs db) JobSchedule.reap }

/-! ## Processing -/

def StageAssignment.isLiveFor (runId : Nat) (stage : ContentStage) (a : StageAssignment) : Bool :=
  a.pipelineRunId == runId && a.stage == stage && a.status.isLive

/-- The run's reservations are released and the stage's live assignments cancelled. -/
def abandonStage (run : PipelineRun) (stage : ContentStage) (db : Db) : Db :=
  let freed := releaseAllReservations run db
  { freed with
    assignments := freed.assignments.modifyWhere (·.isLiveFor run.id stage)
      (StageAssignment.cancel db.now) }

/-- The ceiling is reached: give up the job and its stage, and dead-letter the job. -/
def exhaustJob (job : JobSchedule) : Session Unit := do
  modify (modifyJob job.id JobSchedule.exhaust)
  match job.runId?.bind (← get).runs.get? with
  | none => pure ()
  | some run =>
    let stage ← require (ContentStage.ofValue? job.refTable) (.dataError job.refTable)
    modify (abandonStage run stage)
  modify (routeToDeadLetter job.workspaceId "job_schedule" (.job job.id)
    ("stage_dispatch:" ++ job.refTable) "no eligible worker available after repeated attempts"
    (job.attempt + 1))

/-- The next unsuccessful pass is the last one. -/
def JobSchedule.atCeiling (job : JobSchedule) : Bool :=
  decide (noWorkerMaxRetries ≤ job.attempt + 1)

/-- A pass that placed nothing: reschedule with backoff, or give up at the ceiling. -/
def rescheduleJob (job : JobSchedule) (jitter : Nat) : Session Unit := do
  if job.atCeiling then exhaustJob job
  else
    let delay := computeBackoff (job.attempt + 1) noWorkerRetryBaseSeconds 2
      noWorkerRetryMaxSeconds jitter
    modify fun db => modifyJob job.id (JobSchedule.reschedule (db.now + delay)) db

/-- The dispatch a stage job asks for: attempts are counted from zero on the job. -/
def JobSchedule.request (job : JobSchedule) (runId : Nat) (lockedWorkers : List Nat) :
    DispatchRequest where
  workspaceId := job.workspaceId
  pipelineRunId := runId
  stage := job.refTable
  attemptNumber := job.attempt + 1
  lockedWorkers := lockedWorkers

/-- How the scheduler settles a stage job after its dispatch. -/
def settleStageJob (job : JobSchedule) (result : DispatchResult) (jitter : Nat) : Session Unit :=
  match result.outcome, result.assignment with
  | .spendHold, _ => modify fun db =>
      modifyJob job.id (JobSchedule.park (db.now + seconds spendHoldRetrySeconds)) db
  | .skipped, _ => modify (modifyJob job.id JobSchedule.retire)
  | .dispatched, _ | .idempotent, _ | .noWorker, some _ =>
    modify (modifyJob job.id JobSchedule.done)
  | .noWorker, none | .backpressure, _ => rescheduleJob job jitter

/-- **Execute the intention of a leased queue row.** -/
def processLeasedJob (job : JobSchedule) (lockedWorkers : List Nat) (jitter : Nat) :
    Session Unit := do
  match job.jobType with
  | .stage | .retry =>
    -- a stage row refers to its run; any other id finds no run row
    let runId ← require job.runId? (.integrityError "stage_assignments_pipeline_run_id_fkey")
    let result ← dispatchStage (job.request runId lockedWorkers)
    settleStageJob job result jitter
  | .stageTimeout =>
    match job.runId? with
    | some runId => handleStageTimeout runId job.refTable jitter
    | none => pure ()
    modify (modifyJob job.id JobSchedule.done)
  | .reviewTimeout =>
    match job.refId with
    | .gate gateId => modify (handleReviewTimeout gateId)
    | _ => pure ()
    modify (modifyJob job.id JobSchedule.done)
  | .compensation => modify (modifyJob job.id JobSchedule.done)
  | .recurring =>
    throw (.notImplemented "recurring job_type has no policy defined in Milestone 4")

/-! ## What each operation does to the tables -/

@[simp] theorem modifyJob_frame {jobId : Nat} {u : Update JobSchedule} {db : Db} :
    (modifyJob jobId u db).runs = db.runs ∧
    (modifyJob jobId u db).jobs = db.jobs.modify jobId u ∧
    (modifyJob jobId u db).assignments = db.assignments ∧
    (modifyJob jobId u db).gates = db.gates ∧
    (modifyJob jobId u db).reservations = db.reservations ∧
    (modifyJob jobId u db).definitions = db.definitions := by
  simp [modifyJob]

@[simp] theorem abandonStage_frame {run : PipelineRun} {stage : ContentStage} {db : Db} :
    (abandonStage run stage db).runs = db.runs ∧
    (abandonStage run stage db).jobs = db.jobs ∧
    (abandonStage run stage db).assignments =
      db.assignments.modifyWhere (·.isLiveFor run.id stage) (StageAssignment.cancel db.now) ∧
    (abandonStage run stage db).gates = db.gates ∧
    (abandonStage run stage db).reservations =
      db.reservations.modifyWhere (·.isOpenOf run.id) SpendReservation.release ∧
    (abandonStage run stage db).definitions = db.definitions := by
  simp [abandonStage]

end ContentOrchestrator

import ContentOrchestrator.Lib.Interleaving
import ContentOrchestrator.Orchestration.AssignmentMoves

/-! # Scheduler ticks and claims side by side

A scheduler tick is one transaction for all the jobs it leased: for each it counts what
the workspace has in flight, picks a worker, looks for a row under the same key,
reserves the spend and inserts the assignment. A claim locks its worker's row, looks
for a row it holds under the same token, and then takes one candidate after the other,
each under a savepoint, until one has room in its provider's budget. What neither waits
for (acks, renewals, submissions, recoveries, cancellations, reviews) is one moment. -/

namespace ContentOrchestrator

open Lib

/-! ## What a transaction has written -/

/-- A write that touches no assignment and no setting. -/
structure QuietWrite where
  apply : Db → Db
  assignments : ∀ db, (apply db).assignments = db.assignments
  config : ∀ db, (apply db).config = db.config

/-- A candidate becomes the claiming worker's. -/
structure Grant where
  assignmentId : Nat
  update : Update StageAssignment

/-- The uncommitted writes: rows of other transactions cancelled, one granted, and new rows as they
stand now, their keys still to be given out. -/
structure OwnWrites where
  quiet : List QuietWrite := []
  cancelled : List Nat := []
  granted : Option Grant := none
  created : List StageAssignment := []

/-- The row under its key. -/
def StageAssignment.asNew (a : StageAssignment) : NewRow
    StageAssignment := ⟨fun id => { a with id }, fun _ => rfl⟩

/-- The rows of others, with the transaction's changes. -/
def OwnWrites.changed (o : OwnWrites) (now : Nat) (t : Table StageAssignment) :
    Table StageAssignment :=
  let kept := t.modifyWhere (fun a => o.cancelled.contains a.id) (StageAssignment.cancel now)
  match o.granted with
  | some g => kept.modify g.assignmentId g.update
  | none => kept

def insertAll (rows : List StageAssignment) (t : Table StageAssignment) : Table StageAssignment :=
  rows.foldl (fun t a => t.insert a.asNew) t

/-- The database as the transaction sees it, and as its commit leaves it. -/
def OwnWrites.apply (o : OwnWrites) (db : Db) : Db :=
  { o.quiet.foldl (fun db q => q.apply db) db with
    assignments := insertAll o.created (o.changed db.now db.assignments) }

def OwnWrites.quietly (o : OwnWrites) (writes : List QuietWrite) : OwnWrites :=
  { o with quiet := o.quiet ++ writes }

theorem releaseStageReservations_assignments (run : PipelineRun) (stage : ContentStage) (db : Db) :
    (releaseStageReservations run stage db).assignments = db.assignments := by
  simp

theorem releaseAllReservations_assignments (run : PipelineRun) (db : Db) :
    (releaseAllReservations run db).assignments = db.assignments := by
  simp

theorem pauseForSpend_assignments (run : PipelineRun) (db : Db) :
    (pauseForSpend run db).assignments = db.assignments := by
  simp

theorem openReservation_assignments (run : PipelineRun) (stage : ContentStage) (provider : String)
    (estimate : Nat) (db : Db) :
    (openReservation run stage provider estimate db).assignments = db.assignments := by
  simp

namespace QuietWrite

def job (jobId : Nat) (u : Update JobSchedule) : QuietWrite :=
  ⟨modifyJob jobId u, fun _ => rfl, fun _ => rfl⟩

def reviewTimeout (gateId : Nat) : QuietWrite :=
  ⟨handleReviewTimeout gateId, fun _ => handleReviewTimeout_assignments, fun _ =>
    handleReviewTimeout_config⟩

def releaseStage (run : PipelineRun) (stage : ContentStage) : QuietWrite :=
  ⟨releaseStageReservations run stage, releaseStageReservations_assignments run stage,
    fun _ => by simp⟩

def releaseRun (run : PipelineRun) : QuietWrite :=
  ⟨releaseAllReservations run, releaseAllReservations_assignments run, fun _ => by simp⟩

def pause (run : PipelineRun) : QuietWrite :=
  ⟨pauseForSpend run, pauseForSpend_assignments run, fun _ => by simp⟩

def reserve (run : PipelineRun) (stage : ContentStage) (provider : String) (estimate : Nat) :
    QuietWrite :=
  ⟨openReservation run stage provider estimate,
    openReservation_assignments run stage provider estimate,
    fun _ => by simp⟩

def takeSlot (workerId : Nat) : QuietWrite :=
  ⟨fun db => { db with workers := db.workers.modify workerId WorkerRegistration.takeSlot },
    fun _ => rfl,
    fun db => takeSlot_config db workerId⟩

def announce (workspaceId runId : Nat) : QuietWrite :=
  ⟨emit EventType.stageAssigned workspaceId (.pipelineRun runId) none, fun _ => rfl, fun _ => rfl⟩

def deadLetter (job : JobSchedule) : QuietWrite :=
  ⟨routeToDeadLetter job.workspaceId "job_schedule" (.job job.id)
    ("stage_dispatch:" ++ job.refTable) "no eligible worker available after repeated attempts"
    (job.attempt + 1), fun _ => rfl, fun _ => rfl⟩

end QuietWrite

/-! ## Locks -/

inductive RowLock
  | worker (id : Nat)
  | assignment (id : Nat)
  | job (id : Nat)
  | budget (id : Nat)
  /-- The entry of a key in its unique index. -/
  | key (workspaceId : Nat) (key : IdempotencyKey)
deriving DecidableEq, Repr

/-- The rows of a table that other transactions have locked. -/
def lockedRows {α : Type} [Keyed α] (taken : RowLock → Bool) (lock : Nat → RowLock) (t : Table α) :
    List Nat :=
  (t.rows.map Keyed.key).filter fun id => taken (lock id)

/-! ## A scheduler tick -/

/-- What the tick does next with the first of its jobs. -/
inductive TickPoint
  | poll (batchSize : Nat)
  | count
  | status
  | worker
  | key (worker : Option WorkerRegistration)
  | reserve (worker : Option WorkerRegistration)
  | insert (run : PipelineRun) (stage : ContentStage) (worker : Option WorkerRegistration)
  /-- The unsuccessful pass was the last one. -/
  | giveUp

structure Tick where
  /-- The draw of the backoff. -/
  jitter : Nat
  point : TickPoint
  jobs : List JobSchedule := []
  own : OwnWrites := {}

namespace Tick

/-- The first job is settled by these writes. -/
def settle (t : Tick) (writes : List QuietWrite) : Tick :=
  { t with point := .count, jobs := t.jobs.tail, own := t.own.quietly writes }

/-- How the tick settles the job after its dispatch came to nothing new. -/
def settleBy (t : Tick) (db : Db) (job : JobSchedule) : DispatchOutcome → Tick
  | .spendHold => t.settle [.job job.id (JobSchedule.park (db.now + seconds spendHoldRetrySeconds))]
  | .skipped => t.settle [.job job.id JobSchedule.retire]
  | .backpressure =>
    if job.atCeiling then { t with point := .giveUp }
    else
      t.settle [.job job.id (JobSchedule.reschedule (db.now +
        computeBackoff (job.attempt + 1) noWorkerRetryBaseSeconds 2 noWorkerRetryMaxSeconds
          t.jitter))]
  | _ => t.settle [.job job.id JobSchedule.done]

/-- The due rows nobody else has locked are locked, and some of them leased. -/
def poll (t : Tick) (db : Db) (taken : RowLock → Bool) (held : List RowLock) (batchSize : Nat) :
    List RowLock × Tick :=
  let locked := lockedRows taken RowLock.job db.jobs
  let jobs := selectLeases db batchSize locked
  ((dueJobs db batchSize locked).map (fun j => RowLock.job j.id) ++ held,
    { t with
      point := .count, jobs
      own := t.own.quietly (jobs.map fun j => .job j.id (JobSchedule.lease db.now)) })

/-- A job that is no stage job is carried out at once. -/
def carryOut (t : Tick) (job : JobSchedule) : Option Tick :=
  match job.jobType, job.refId with
  | .reviewTimeout, .gate gateId =>
    some (t.settle [.reviewTimeout gateId, .job job.id JobSchedule.done])
  | .reviewTimeout, _ | .compensation, _ => some (t.settle [.job job.id JobSchedule.done])
  -- a recurring job raises, and nobody enqueues a stage timeout
  | _, _ => none

/-- The stage's live assignments are cancelled, and the job is dead-lettered. -/
def giveUp (t : Tick) (view : Db) (db : Db) (held : List RowLock) (job : JobSchedule) :
    Option (List RowLock × Tick) :=
  match job.runId?.bind view.runs.get? with
  | none => some (held, t.settle [.job job.id JobSchedule.exhaust, .deadLetter job])
  | some run =>
    match ContentStage.ofValue? job.refTable with
    | none => none
    | some stage =>
      let rows := (db.assignments.select (·.isLiveFor run.id stage)).map (·.id)
      let t' := t.settle [.job job.id JobSchedule.exhaust, .releaseRun run, .deadLetter job]
      some (rows.map RowLock.assignment ++ held,
        { t' with
          own := { t'.own with
            cancelled := t.own.cancelled ++ rows
            created := t.own.created.map fun a =>
              if a.isLiveFor run.id stage then (StageAssignment.cancel db.now).apply a else a } })

/-- The next statement. -/
def next (t : Tick) (db : Db) (taken : RowLock → Bool) (held : List RowLock) :
    Option (List RowLock × Tick) :=
  let view := t.own.apply db
  match t.point, t.jobs with
  | .poll batchSize, _ => some (t.poll view taken held batchSize)
  | _, [] => none
  | .count, job :: _ =>
    if !job.isStageJob then (t.carryOut job).map (held, ·)
    else if job.runId?.isNone then none
    else if atConcurrencyLimit view job.workspaceId then
      some (held, t.settleBy db job .backpressure)
    else some (held, { t with point := .status })
  | .status, job :: _ =>
    match (job.runId?.bind view.runs.get?).bind statusOutcome with
    | some outcome => some (held, t.settleBy db job outcome)
    | none => some (held, { t with point := .worker })
  | .worker, job :: _ =>
    -- `provider` is not passed on, so no budget is looked at
    match selectWorker view job.refTable (lockedRows taken RowLock.worker db.workers) with
    | some w => some (.worker w.id :: held, { t with point := .key (some w) })
    | none => some (held, { t with point := .key none })
  | .key worker, job :: _ =>
    match job.runId? with
    | none => none
    | some runId =>
      match assignmentByKey view job.workspaceId ⟨runId, job.refTable, job.attempt + 1⟩ with
      | some _ => some (held, t.settleBy db job .idempotent)
      | none => some (held, { t with point := .reserve worker })
  | .reserve worker, job :: _ =>
    match job.runId?.bind view.runs.get?, ContentStage.ofValue? job.refTable with
    | some run, some stage =>
      match worker with
      | none => some (held, { t with point := .insert run stage none })
      | some w =>
        let released := releaseStageReservations run stage view
        match exceededCap released run.workspaceId draftDeskProvider
          db.settings.defaultStageEstimateUsd with
        | some _ =>
          some (held,
            ({ t with own := t.own.quietly [.releaseStage run stage, .pause run] }).settleBy
            db job .spendHold)
        | none =>
          some (held, { t with
            point := .insert run stage (some w)
            own := t.own.quietly [.releaseStage run stage,
              .reserve run stage draftDeskProvider db.settings.defaultStageEstimateUsd] })
    -- the foreign key refuses a row of an unknown run
    | _, _ => none
  | .insert run stage worker, job :: _ =>
    let q := job.request run.id []
    -- the unique index lets one row in under a key, after those who have it locked
    if (assignmentByKey view q.workspaceId q.key).isSome then none
    else
      let row := (newAssignment q stage worker (workspacePriority db q.workspaceId) db).make 0
      let t' := t.settle ((worker.toList.map fun w => .takeSlot w.id) ++
        [.announce job.workspaceId run.id, .job job.id JobSchedule.done])
      some (.key q.workspaceId q.key :: held,
        { t' with own := { t'.own with created := t.own.created ++ [row] } })
  | .giveUp, job :: _ => t.giveUp view db held job

/-- Every leased job is settled. -/
def finished (t : Tick) : Bool :=
  match t.point with
  | .poll _ => false
  | _ => t.jobs.isEmpty

end Tick

/-! ## A claim -/

def budgetOf (db : Db) (workspaceId : Nat) (provider : Option String) :
    Option ProviderConcurrencyBudget :=
  provider.bind fun p =>
    if p.isEmpty then none
    else (db.providerBudgets.select fun b => b.workspaceId == workspaceId && b.provider == p).head?

/-- Where the search for a candidate stands. -/
structure Search where
  worker : WorkerRegistration
  stages : List ContentStage
  tries : Nat
  skipped : List Nat := []
  sawBlock : Bool := false

inductive ClaimPoint
  | worker
  | lookup (worker : WorkerRegistration)
  | candidate (search : Search)
  | budget (search : Search) (row : StageAssignment) (savepoint : List RowLock)
  | count (search : Search) (row : StageAssignment) (savepoint : List RowLock)
  | reserve (row : StageAssignment)
  | done (result : ClaimResult)

structure Claiming where
  workerId : Nat
  claimToken : Option Nat
  point : ClaimPoint := .worker
  own : OwnWrites := {}

namespace Claiming

def finish (c : Claiming) (result : ClaimResult) : Claiming := { c with point := .done result }

/-- The spend gate, and the grant if it lets the claim through. -/
def settleSpend (c : Claiming) (db : Db) (row : StageAssignment) : Claiming :=
  let grant : Grant :=
    ⟨row.id, StageAssignment.grant c.workerId c.claimToken db.now
      db.settings.assignmentLeaseSeconds⟩
  let granted (writes : List QuietWrite) : Claiming :=
    { c with
      point := .done ⟨some row.id, .granted, "claimed"⟩
      own := { c.own with
        quiet := writes ++ [.takeSlot c.workerId, .announce row.workspaceId row.pipelineRunId]
        granted := some grant } }
  match db.runs.get? row.pipelineRunId with
  | none => granted []
  | some run =>
    if (db.reservations.select (·.isOpenFor row.pipelineRunId row.stage)).isEmpty then
      let released := releaseStageReservations run row.stage db
      let provider := effectiveProvider row.provider
      match exceededCap released run.workspaceId provider db.settings.defaultStageEstimateUsd with
      | some _ =>
        { c with
          point := .done ⟨none, .capacity, "workspace spend cap reached"⟩
          own := { c.own with quiet := [.releaseStage run row.stage, .pause run] } }
      | none =>
        granted [.releaseStage run row.stage,
          .reserve run row.stage provider db.settings.defaultStageEstimateUsd]
    else granted []

/-- The next statement. -/
def next (c : Claiming) (db : Db) (taken : RowLock → Bool) (held : List RowLock) :
    Option (List RowLock × Claiming) :=
  match c.point with
  | .worker =>
    match db.workers.get? c.workerId with
    | none => some (held, c.finish ⟨none, .ineligible, "worker not found"⟩)
    | some w => some (.worker c.workerId :: held, { c with point := .lookup w })
  | .lookup w =>
    match heldByToken db w c.claimToken with
    | some row => some (held, c.finish ⟨some row.id, .granted, "idempotent replay"⟩)
    | none =>
      match w.refusal db, w.supportedStages.mapM ContentStage.ofValue? with
      | some refusal, _ => some (held, c.finish refusal)
      | none, some stages =>
        some (held,
          { c with
            point := .candidate ⟨w, stages, db.settings.claimCandidateBatchSize, [], false⟩ })
      | none, none => none
  | .candidate search =>
    let nothing : Claiming := c.finish
      (if search.sawBlock then ⟨none, .capacity, "provider budget exhausted"⟩
      else ⟨none, .noWork, "no eligible assignment"⟩)
    match search.tries with
    | 0 => some (held, nothing)
    | tries + 1 =>
      let locked := lockedRows taken RowLock.assignment db.assignments
      match nextCandidate db search.worker search.stages (search.skipped ++ locked) with
      | none => some (held, nothing)
      | some row =>
        some (.assignment row.id :: held,
          { c with point := .budget { search with tries } row held })
  | .budget search row savepoint =>
    match budgetOf db row.workspaceId row.provider with
    | none => some (held, { c with point := .reserve row })
    | some budget =>
      some (.budget budget.id :: held, { c with point := .count search row savepoint })
  | .count search row savepoint =>
    if hasProviderCapacity db row.workspaceId row.provider then
      some (held, { c with point := .reserve row })
    else
      -- rolled back to the savepoint: both locks are given up
      some (held.filter (· ∈ savepoint),
        { c with
          point := .candidate
            { search with skipped := row.id :: search.skipped, sawBlock := true } })
  | .reserve row => some (held, c.settleSpend db row)
  | .done _ => none

end Claiming

/-! ## The system -/

inductive Contender
  | tick (t : Tick)
  | claim (c : Claiming)

def Contender.own : Contender → OwnWrites
  | tick t => t.own
  | claim c => c.own

inductive ContenderRequest
  | tick (batchSize jitter : Nat)
  | claim (workerId : Nat) (claimToken : Option Nat)
deriving DecidableEq, Repr

/-- Neither a claim nor the work of a tick. -/
def Op.isBackground : Op → Bool
  | .claim _ _ _ | .processJob _ _ _ => false
  | _ => true

abbrev BackgroundOp := { op : Op // op.isBackground = true }

/-- The rows an operation locks: the assignment it names and its worker, and all live rows of a run
it cancels. -/
def lockedBy (db : Db) : Op → List RowLock
  | .ack id _ _ | .renew id _ _ => [.assignment id]
  | .submit id _ _ _ _ _ | .recover id _ =>
    .assignment id :: ((db.assignments.get? id).bind (·.workerId)).toList.map RowLock.worker
  | .cancelRun runId => (db.assignments.select (·.isLiveOf runId)).map fun a => .assignment a.id
  | _ => []

def contention : Code Db RowLock Contender ContenderRequest BackgroundOp where
  start
    | .tick batchSize jitter => .tick { jitter, point := .poll batchSize }
    | .claim workerId claimToken => .claim { workerId, claimToken }
  next db taken held
    | .tick t => (t.next db taken held).map fun r => (r.1, .tick r.2)
    | .claim c => (c.next db taken held).map fun r => (r.1, .claim r.2)
  commit
    | .tick t => if t.finished then some t.own.apply else none
    | .claim c =>
      match c.point with
      | .done _ => some c.own.apply
      | _ => none
  needs op db := lockedBy db op.val
  apply op db := step db op.val

/-! ## Two runs, and a worker that claims -/

def startFirst : BackgroundOp := ⟨.startRun 0 0 0, rfl⟩

/-- Two runs are started while a claim holds the only worker; a tick finds no worker for either and
leaves two pending assignments. -/
def waitingRuns : List (Action ContenderRequest BackgroundOp) :=
  [.other startFirst, .other startFirst, .start (.claim 0 (some 7)), .run 0,
    .start (.tick 10 0)] ++ List.replicate 13 (.run 1) ++ [.commit 1]

/-- From the replay lookup to the commit. -/
def restOfClaim (id : Nat) : List (Action ContenderRequest BackgroundOp) :=
  List.replicate 5 (.run id) ++ [.commit id]

def firstClaim : List (Action ContenderRequest BackgroundOp) := restOfClaim 0

def secondClaim (claimToken : Option Nat) : List (Action ContenderRequest BackgroundOp) :=
  [.start (.claim 0 claimToken), .run 2] ++ restOfClaim 2

end ContentOrchestrator

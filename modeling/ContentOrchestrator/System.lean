import ContentOrchestrator.Lib.Transition
import ContentOrchestrator.Orchestration.EngineOutcomes
import ContentOrchestrator.Services.ReviewOutcomes

/-! # The system: every operation as one transaction

An operation either commits its whole effect or changes nothing. What the engine does
not decide (which rows are locked elsewhere, the jitter drawn, the tokens clients send)
is part of the operation, and so is everything that happens around the engine: time
passing and changes of workers, caps, limits and content. -/

namespace ContentOrchestrator

open Lib

/-- The tables the engine reads but other parts of the product write. -/
structure Environment where
  settings : Settings
  workspaces : Table Workspace
  contentItems : Table ContentItem
  workers : Table WorkerRegistration
  concurrencyLimits : Table WorkspaceConcurrencyLimit
  backpressureStates : Table WorkspaceBackpressureState
  providerBudgets : Table ProviderConcurrencyBudget
  spendCaps : Table SpendCap

/-- The environment as it stands. -/
def Db.environment (db : Db) : Environment where
  settings := db.settings
  workspaces := db.workspaces
  contentItems := db.contentItems
  workers := db.workers
  concurrencyLimits := db.concurrencyLimits
  backpressureStates := db.backpressureStates
  providerBudgets := db.providerBudgets
  spendCaps := db.spendCaps

/-- Time passes, and the environment may change. -/
def applyEnvironment (elapsed : Nat) (environment : Option Environment) (db : Db) : Db :=
  let e := environment.getD db.environment
  { db with
    now := db.now + elapsed, settings := e.settings, workspaces := e.workspaces
    contentItems := e.contentItems, workers := e.workers
    concurrencyLimits := e.concurrencyLimits, backpressureStates := e.backpressureStates
    providerBudgets := e.providerBudgets, spendCaps := e.spendCaps }

inductive Op
  | startRun (workspaceId contentItemId definitionId : Nat)
  | poll (batchSize : Nat) (lockedJobs : List Nat)
  | processJob (jobId : Nat) (lockedWorkers : List Nat) (jitter : Nat)
  | reapJobs (batchSize : Nat) (lockedJobs : List Nat)
  | claim (workerId : Nat) (claimToken : Option Nat) (lockedAssignments : List Nat)
  | ack (assignmentId : Nat) (leaseSeconds : Option Nat) (workerId : Nat)
  | renew (assignmentId : Nat) (leaseSeconds : Option Nat) (workerId : Nat)
  | submit (assignmentId : Nat) (success : Bool) (result : Option (List (String × Json)))
      (errorMessage : String) (workerId : Option Nat) (jitter : Nat)
  | recover (assignmentId : Nat) (reason : RecoveryReason)
  | decide (workspaceId gateId reviewerId : Nat) (approved : Bool) (expected : Option Nat)
  | cancelRun (runId : Nat)
  | retryFailedJobs (workspaceId : Nat)
  | change (elapsed : Nat) (environment : Option Environment)

def Op.isOperatorRetry : Op → Bool
  | .retryFailedJobs _ => true
  | _ => false

/-- A new run of a content item, as its creator inserts it. -/
def createRun (workspaceId contentItemId : Nat) (db : Db) : Db :=
  { db with runs := db.runs.insert ⟨fun id => { id, workspaceId, contentItemId }, fun _ => rfl⟩ }

/-- Create the run row and start it on a definition. -/
def createAndStartRun (workspaceId contentItemId definitionId : Nat) : Session Unit := do
  let db ← get
  let definition ← require (db.definitions.get? definitionId) (.valueError "unknown definition")
  modify (createRun workspaceId contentItemId)
  let run ← loadRun db.runs.next
  startRun run definition

/-- The scheduler processes the rows it leased. -/
def processJob (jobId : Nat) (lockedWorkers : List Nat) (jitter : Nat) : Session Unit := do
  let job ← require ((← get).jobs.get? jobId) (.valueError "unknown job")
  if job.status ≠ .leased then throw (.valueError "job is not leased")
  processLeasedJob job lockedWorkers jitter

/-- The transaction body of an operation. -/
def Op.body : Op → Session Unit
  | startRun workspaceId contentItemId definitionId =>
    createAndStartRun workspaceId contentItemId definitionId
  | poll batchSize lockedJobs => modify (pollAndLease batchSize lockedJobs)
  | processJob jobId lockedWorkers jitter =>
    ContentOrchestrator.processJob jobId lockedWorkers jitter
  | reapJobs batchSize lockedJobs => modify (reapExpiredLeases batchSize lockedJobs)
  | claim workerId claimToken lockedAssignments => do
    let _ ← claimAssignment workerId claimToken lockedAssignments
  | ack assignmentId leaseSeconds workerId => acknowledge assignmentId leaseSeconds (some workerId)
  | renew assignmentId leaseSeconds workerId => renewLease assignmentId leaseSeconds (some workerId)
  | submit assignmentId success result errorMessage workerId jitter =>
    submitResult assignmentId success result errorMessage workerId jitter
  | recover assignmentId reason => do
    let _ ← recoverAssignment assignmentId reason
  | decide workspaceId gateId reviewerId approved expected =>
    decideReviewGate workspaceId gateId reviewerId approved expected
  | cancelRun runId => do
    let run ← loadRun runId
    modify (ContentOrchestrator.cancelRun run)
  | retryFailedJobs workspaceId => modify (ContentOrchestrator.retryFailedJobs workspaceId)
  | change elapsed environment => modify (applyEnvironment elapsed environment)

/-- **One transaction.** -/
def step (db : Db) (op : Op) : Db := atomically op.body db

/-- The system as a transition relation. -/
def Steps (s : Db) (op : Op) (t : Db) : Prop := step s op = t

/-- The engine has not run yet: configuration and definitions are arbitrary. -/
structure Db.Fresh (db : Db) : Prop where
  runs : db.runs = ∅
  jobs : db.jobs = ∅
  assignments : db.assignments = ∅
  gates : db.gates = ∅
  reservations : db.reservations = ∅
  stageRuns : db.stageRuns = ∅
  spendLogs : db.spendLogs = ∅
  deadLetters : db.deadLetters = ∅

/-! ## A small workspace

One workspace with one content item, one online worker, a workspace-wide spend cap and
one workflow; the histories shown below the general results start here. -/

/-- One row, made from its key. -/
def oneRow {α : Type} [Keyed α] (make : Nat → α) (h : ∀ k, Keyed.key (make k) = k) : Table α :=
  (∅ : Table α).insert ⟨make, h⟩

def demoDefinition (stages : List WorkflowStage) (transitions : List WorkflowTransition)
    (unique : (stages.map (·.stageKey)).Nodup) : Table WorkflowDefinition :=
  oneRow (fun id => { id, stages, transitions, unique }) fun _ => rfl

/-- Two stages of work, a review and the end. -/
def demoStages : List WorkflowStage :=
  [{ stageKey := .idea }, { stageKey := .scripting, ordinal := 1 },
   { stageKey := .review, ordinal := 2, isReviewGate := true },
   { stageKey := .published, ordinal := 3, isTerminal := true }]

def demoTransitions : List WorkflowTransition :=
  [{ fromStage := .idea, toStage := .scripting, trigger := .onSuccess },
   { fromStage := .scripting, toStage := .review, trigger := .onSuccess },
   { fromStage := .review, toStage := .published, trigger := .onReviewApproved }]

theorem demoStages_unique : (demoStages.map (·.stageKey)).Nodup := by decide

def demoDb : Db where
  workspaces := oneRow (fun id => { id }) fun _ => rfl
  contentItems := oneRow
    (fun id => { id, workspaceId := 0, currentVersionId := some 0 }) fun _ => rfl
  definitions := demoDefinition demoStages demoTransitions demoStages_unique
  workers := oneRow
    (fun id => { id, supportedStages := ["idea", "scripting"], status := .online
                 maxConcurrency := 3, lastHeartbeatAt := some 0 }) fun _ => rfl
  spendCaps := oneRow
    (fun id =>
      { id, workspaceId := 0, provider := none, dailyCapUsd := 10000, monthlyCapUsd := 10000 })
    fun _ => rfl

theorem demoDb_fresh : demoDb.Fresh := ⟨rfl, rfl, rfl, rfl, rfl, rfl, rfl, rfl⟩

/-- One assignment in flight is all the workspace may have. -/
def narrowDb : Db :=
  { demoDb with
    concurrencyLimits := oneRow (fun id => { id, workspaceId := 0, maxConcurrentAssignments := 1 })
      fun _ => rfl }

theorem narrowDb_fresh : narrowDb.Fresh := ⟨rfl, rfl, rfl, rfl, rfl, rfl, rfl, rfl⟩

/-- Only time passes. -/
def elapse (duration : Nat) : Op := .change duration none

/-- Two runs on one slot; the first is at work, and the job of the second is leased. -/
def occupiedHistory : List Op :=
  [.startRun 0 0 0, .startRun 0 0 0, .poll 10 [], .processJob 0 [] 0, .ack 0 none 0]

/-- The second run's job comes up again and again while the first run is at work. -/
def limitedPasses : Nat → List Op
  | 0 => []
  | n + 1 => .processJob 1 [] 0 :: elapse (seconds 130) :: .poll 10 [] :: limitedPasses n

/-- Both stages are worked on, and the run stops at its gate. -/
def gateHistory : List Op :=
  [.startRun 0 0 0, .poll 10 [], .processJob 0 [] 0, .submit 0 true none "" (some 0) 0,
   .poll 10 [], .processJob 1 [] 0, .submit 1 true none "" (some 0) 0]

/-- What a committed operation did, in terms of its parts. -/
inductive Effect : Op → Db → Db → Prop
  | started {s : Db} {workspaceId contentItemId definitionId : Nat}
      {definition : WorkflowDefinition}
      {first : WorkflowStage} {run : PipelineRun}
      (defined : s.definitions.get? definitionId = some definition)
      (opens : definition.firstStage = some first)
      (row : run = { id := s.runs.next, workspaceId, contentItemId }) :
      Effect (.startRun workspaceId contentItemId definitionId) s
        (enqueueStage run first.stageKey 0 none
          (modifyRun run.id (PipelineRun.pin definition.id first.stageKey s.now)
            (createRun workspaceId contentItemId s)))
  | polled {s : Db} {batchSize : Nat} {lockedJobs : List Nat} :
      Effect (.poll batchSize lockedJobs) s (pollAndLease batchSize lockedJobs s)
  | processed {s t : Db} {jobId jitter : Nat} {lockedWorkers : List Nat} {job : JobSchedule}
      (found : s.jobs.get? jobId = some job) (leased : job.status = .leased)
      (done : Processed job lockedWorkers s t) :
      Effect (.processJob jobId lockedWorkers jitter) s t
  | reaped {s : Db} {batchSize : Nat} {lockedJobs : List Nat} :
      Effect (.reapJobs batchSize lockedJobs) s (reapExpiredLeases batchSize lockedJobs s)
  | claimed {s t : Db} {workerId : Nat} {claimToken : Option Nat} {locked : List Nat}
      (done : Claimed workerId claimToken locked s t) :
        Effect (.claim workerId claimToken locked) s t
  | acknowledged {s : Db} {assignmentId workerId duration : Nat} {leaseSeconds : Option Nat}
      {a : StageAssignment} (found : s.assignments.get? assignmentId = some a)
      (held : a.status = .dispatched) :
      Effect (.ack assignmentId leaseSeconds workerId) s
        { s with
          assignments := (s.assignments.modify assignmentId
            (StageAssignment.acknowledged s.now)).modify assignmentId
              (StageAssignment.extendLease s.now duration) }
  | renewed {s : Db} {assignmentId workerId duration : Nat} {leaseSeconds : Option Nat}
      {a : StageAssignment} (found : s.assignments.get? assignmentId = some a)
      (held : a.status.inFlight = true) :
      Effect (.renew assignmentId leaseSeconds workerId) s
        { s with
          assignments := s.assignments.modify assignmentId
            (StageAssignment.extendLease s.now duration) }
  | submitted {s t : Db} {assignmentId jitter : Nat} {success : Bool}
      {result : Option (List (String × Json))} {message : String} {workerId : Option Nat}
      {a : StageAssignment} (found : s.assignments.get? assignmentId = some a)
      (held : a.status.inFlight = true) (admitted : assertSubmittable s a workerId = .ok ())
      (done : Submitted a result message s success t) :
      Effect (.submit assignmentId success result message workerId jitter) s t
  | recovered {s t : Db} {assignmentId : Nat} {reason : RecoveryReason} {a : StageAssignment}
      (found : s.assignments.get? assignmentId = some a) (done : Recovered a reason s t) :
      Effect (.recover assignmentId reason) s t
  | decided {s s1 s2 t : Db} {workspaceId gateId reviewerId : Nat} {approved : Bool}
      {expected : Option Nat} {gate decided : ReviewGate}
      (found : s.gates.get? gateId = some gate) (owned : gate.workspaceId = workspaceId)
      (admitted : assertDecidable gate approved expected = .ok ())
      (recorded : SameWork (modifyGate gateId (ReviewGate.recordReviewer reviewerId) s) s1)
      (applied : Resumed ((ReviewGate.recordReviewer reviewerId).apply gate) approved s1 s2)
      (booked : SameWork s2 t) (result : t.gates.get? gateId = some decided)
      (settled : decided.status ≠ .awaiting) :
      Effect (.decide workspaceId gateId reviewerId approved expected) s t
  | cancelled {s : Db} {runId : Nat} {run : PipelineRun} (found : s.runs.get? runId = some run) :
      Effect (.cancelRun runId) s (cancelRun run s)
  | retried {s : Db} {workspaceId : Nat} :
      Effect (.retryFailedJobs workspaceId) s (retryFailedJobs workspaceId s)
  | changed {s : Db} {elapsed : Nat} {environment : Option Environment} :
      Effect (.change elapsed environment) s (applyEnvironment elapsed environment s)

/-- **What one transaction can do**: nothing, or the effect of its operation. -/
theorem step_cases (db : Db) (op : Op) : step db op = db ∨ Effect op db (step db op) := by
  rcases atomically_cases op.body db with ⟨u, h⟩ | ⟨_, h⟩
  · refine .inr ?_
    change Returns op.body db u (step db op) at h
    generalize step db op = t at h
    cases op with
    | startRun workspaceId contentItemId definitionId =>
      simp only [Op.body, createAndStartRun, returns_bind, returns_get, returns_require,
        returns_modify, returns_loadRun] at h
      obtain ⟨_, _, ⟨rfl, rfl⟩, definition, _, ⟨hdef, rfl⟩, _, _, rfl, run, _, ⟨hrun, rfl⟩, h⟩ := h
      obtain ⟨first, hfirst, rfl⟩ := startRun_returns h
      have hrow : run = { id := db.runs.next, workspaceId, contentItemId } := by
        simp only [createRun, Table.get?_insert, if_true, Option.some.injEq] at hrun
        exact hrun.symm
      exact .started hdef hfirst hrow
    | poll batchSize lockedJobs =>
      simp only [Op.body, returns_modify] at h
      exact h ▸ .polled
    | processJob jobId lockedWorkers jitter =>
      simp only [Op.body, processJob, returns_bind, returns_get, returns_require] at h
      obtain ⟨_, _, ⟨rfl, rfl⟩, job, _, ⟨hjob, rfl⟩, h⟩ := h
      split at h
      · simp at h
      · rename_i hleased
        exact .processed hjob (by simpa using hleased) (processLeasedJob_returns h)
    | reapJobs batchSize lockedJobs =>
      simp only [Op.body, returns_modify] at h
      exact h ▸ .reaped
    | claim workerId claimToken locked =>
      simp only [Op.body, returns_bind, returns_pure] at h
      obtain ⟨r, _, h, _, rfl⟩ := h
      exact .claimed (claimAssignment_returns h)
    | ack assignmentId leaseSeconds workerId =>
      obtain ⟨a, duration, hfound, hstatus, rfl⟩ := acknowledge_returns h
      exact .acknowledged hfound hstatus
    | renew assignmentId leaseSeconds workerId =>
      obtain ⟨a, duration, hfound, hstatus, rfl⟩ := renewLease_returns h
      exact .renewed hfound hstatus
    | submit assignmentId success result message workerId jitter =>
      obtain ⟨a, hfound, hheld, hadmitted, hdone⟩ := submitResult_returns h
      exact .submitted hfound hheld hadmitted hdone
    | recover assignmentId reason =>
      simp only [Op.body, returns_bind, returns_pure] at h
      obtain ⟨kind, _, h, _, rfl⟩ := h
      obtain ⟨a, hfound, hdone⟩ := recoverAssignment_returns h
      exact .recovered hfound hdone
    | decide workspaceId gateId reviewerId approved expected =>
      obtain ⟨gate, s1, s2, hgate, hws, hok, h1, h2, h3, decided, hdecided, hne⟩ :=
        decideReviewGate_returns h
      exact .decided hgate hws hok h1 h2 h3 hdecided hne
    | cancelRun runId =>
      simp only [Op.body, returns_bind, returns_loadRun, returns_modify] at h
      obtain ⟨run, _, ⟨hrun, rfl⟩, rfl⟩ := h
      exact .cancelled hrun
    | retryFailedJobs workspaceId =>
      simp only [Op.body, returns_modify] at h
      exact h ▸ .retried
    | change elapsed environment =>
      simp only [Op.body, returns_modify] at h
      exact h ▸ .changed
  · exact .inl h

end ContentOrchestrator

import ContentOrchestrator.Lib.Interleaving
import ContentOrchestrator.Services.DraftRuns

/-! # Requests for content jobs side by side

A request looks its key up and answers with the job it finds; otherwise it provisions
the workflow, inserts the run, reserves the draft's spend and writes the rest of the
job, all of it seen by others at the commit. A row is inserted under its unique index:
a transaction waits there for another that holds the same entry, and fails once that
one has committed. The engine and the desk's other services go on in between. -/

namespace ContentOrchestrator

open Lib

structure JobRequest where
  workspaceId : Nat
  topic : String
  script : Script
  idempotencyKey : Option String
deriving DecidableEq, Repr

/-- The job a request answered with, and whether it created it. -/
structure JobAnswer where
  workspaceId : Nat
  idempotencyKey : Option String
  runId : Nat
  contentItemId : Nat
  created : Bool
deriving DecidableEq, Repr

/-- The committed tables, and the answers so far. -/
structure JobStore where
  desk : Desk
  answers : List JobAnswer := []

/-- The entries of `uq_workflow_definition_version` and `uq_pipeline_runs_workspace_idem`. -/
inductive JobLock
  | workflow (workspaceId : Nat)
  | run (workspaceId : Nat) (idempotencyKey : String)
deriving DecidableEq, Repr

/-- The statement of a request that comes next, or its end. -/
inductive JobPoint
  | lookup (r : JobRequest)
  | gateOf (r : JobRequest) (existing : PipelineRun)
  | itemOf (r : JobRequest) (existing : PipelineRun) (gate : Option ReviewGate)
  | answered (r : JobRequest) (existing : PipelineRun)
  | findWorkflow (r : JobRequest)
  | insertWorkflow (r : JobRequest)
  | insertRun (r : JobRequest)
  | reserve (r : JobRequest)
  | drafted (r : JobRequest)
  | failed (error : OrchestrationError)

def PipelineRun.isUnder (workspaceId : Nat) (idempotencyKey : String) (run : PipelineRun) : Bool :=
  run.workspaceId == workspaceId && run.idempotencyKey == some idempotencyKey

def WorkflowDefinition.isDeskOf (workspaceId : Nat) (w : WorkflowDefinition) : Bool :=
  w.workspaceId == workspaceId && w.name == deskWorkflowName && w.version == deskWorkflowVersion

def JobPoint.next (db : Db) (held : List JobLock) : JobPoint → Option (List JobLock × JobPoint)
  | .lookup r =>
    match r.idempotencyKey with
    | none => some (held, .findWorkflow r)
    | some key =>
      match scalarOneOrNone (db.runs.select (·.isUnder r.workspaceId key)) with
      | .error error => some (held, .failed error)
      | .ok (some existing) => some (held, .gateOf r existing)
      | .ok none => some (held, .findWorkflow r)
  | .gateOf r existing =>
    match scalarOneOrNone (db.gates.select (·.pipelineRunId == existing.id)) with
    | .error error => some (held, .failed error)
    | .ok gate => some (held, .itemOf r existing gate)
  | .itemOf r existing gate =>
    if gate.isNone ∨ (db.contentItems.get? existing.contentItemId).isNone then
      some (held, .failed
        (.valueError "idempotent content job is missing review gate or content item"))
    else some (held, .answered r existing)
  | .findWorkflow r =>
    match scalarOneOrNone (db.definitions.select (·.isDeskOf r.workspaceId)) with
    | .error error => some (held, .failed error)
    | .ok (some _) => some (held, .insertRun r)
    | .ok none => some (held, .insertWorkflow r)
  | .insertWorkflow r =>
    some (.workflow r.workspaceId :: held,
      if (db.definitions.select (·.isDeskOf r.workspaceId)).isEmpty then .insertRun r
      else .failed (.integrityError "uq_workflow_definition_version"))
  | .insertRun r =>
    match r.idempotencyKey with
    | none => some (held, .reserve r)
    | some key =>
      some (.run r.workspaceId key :: held,
        if (db.runs.select (·.isUnder r.workspaceId key)).isEmpty then .reserve r
        else .failed (.integrityError "uq_pipeline_runs_workspace_idem"))
  | .reserve r =>
    match exceededCap db r.workspaceId draftDeskProvider db.settings.defaultStageEstimateUsd with
    | some _ => some (held, .failed .spendBudgetExceeded)
    | none => some (held, .drafted r)
  | .answered _ _ | .drafted _ | .failed _ => none

/-! ## The commit -/

/-- The reservation was granted when it was made, so the budget has room for it. -/
def grantedCaps (workspaceId : Nat) (db : Db) : Table SpendCap :=
  let used (since : Nat) := spendCommittedPlusReserved db workspaceId (some draftDeskProvider) since
  oneRow (fun id =>
    { id, workspaceId, provider := some draftDeskProvider
      dailyCapUsd := used (utcDayStart db.now) + db.settings.defaultStageEstimateUsd
      monthlyCapUsd := used (utcMonthStart db.now) + db.settings.defaultStageEstimateUsd }) fun _ =>
        rfl

/-- Everything the request has written, over what is committed by now. -/
def commitDraft (r : JobRequest) (s : JobStore) : JobStore :=
  let drafted := insertDraft r.workspaceId r.topic r.script s.desk
  match (runDraft r.workspaceId s.desk.db.contentItems.next s.desk.versions.next
    r.idempotencyKey).run
      { drafted.db with spendCaps := grantedCaps r.workspaceId s.desk.db } with
  | .ok _ db =>
    { desk := { drafted with db := { db with spendCaps := s.desk.db.spendCaps } }
      answers := s.answers ++
        [⟨r.workspaceId, r.idempotencyKey, s.desk.db.runs.next, s.desk.db.contentItems.next,
          true⟩] }
  | .error _ _ => s

/-- A request that found its job has written nothing. -/
def commitAnswer (r : JobRequest) (existing : PipelineRun) (s : JobStore) : JobStore :=
  { s with
    answers := s.answers ++
      [⟨r.workspaceId, r.idempotencyKey, existing.id, existing.contentItemId, false⟩] }

/-- A failed request is rolled back. -/
def JobPoint.commit : JobPoint → Option (JobStore → JobStore)
  | .answered r existing => some (commitAnswer r existing)
  | .drafted r => some (commitDraft r)
  | _ => none

/-- The requests; in between, the engine and the desk's other services, each in one transaction. -/
def contentJobs :
    Code JobStore JobLock JobPoint JobRequest { op : DeskOp // op.isOther = true } where
  start := .lookup
  next s _ held point := point.next s.desk.db held
  commit := JobPoint.commit
  needs _ _ := []
  apply op s := { s with desk := deskStep s.desk op.val }

end ContentOrchestrator

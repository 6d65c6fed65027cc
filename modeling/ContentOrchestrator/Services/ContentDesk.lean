import ContentOrchestrator.Services.ReviewDesk

/-! # The content desk: drafts, versions and their review gate

The desk's own tables stand beside the engine's: content versions, which no service
changes once they are written, and the publication attestations. A draft is created
with its run already at the gate; an edit of content under review is a new version that
the item and the waiting gate move to together. -/

namespace ContentOrchestrator

open Lib

structure Script where
  hook : Option String := none
  body : Option String := none
  cta : Option String := none
deriving DecidableEq, Repr

structure ContentVersion where
  id : Nat
  workspaceId : Nat
  contentItemId : Nat
  script : Script
deriving DecidableEq, Repr

structure PublicationEligibility where
  id : Nat
  workspaceId : Nat
  contentItemId : Nat
  platform : String
  syntheticMediaDisclosed : Bool := false
  rightsConfirmedBy : Option Nat := none
  rightsConfirmedAt : Option Nat := none
  originalityFingerprint : Option String := none
  reviewGateId : Option Nat := none
deriving DecidableEq, Repr

instance : Keyed ContentVersion := ⟨(·.id)⟩
instance : Keyed PublicationEligibility := ⟨(·.id)⟩

/-- The engine's tables and the desk's. -/
structure Desk where
  db : Db
  versions : Table ContentVersion := ∅
  eligibility : Table PublicationEligibility := ∅

abbrev DeskSession (α : Type) := EStateM OrchestrationError Desk α

/-- A call into the engine. -/
abbrev engine {α : Type} (x : Session α) : DeskSession α :=
  within Desk.db (fun db d => { d with db }) x

/-- `scalar_one_or_none` -/
def scalarOneOrNone {α : Type} : List α → Except OrchestrationError (Option α)
  | [] => .ok none
  | [row] => .ok (some row)
  | _ => .error .multipleResultsFound

def ContentItem.setVersion (versionId : Nat) : Update ContentItem :=
  ⟨fun i => { i with currentVersionId := some versionId }, fun _ => rfl⟩

def ReviewGate.setVersion (versionId : Nat) : Update ReviewGate :=
  ⟨fun g => { g with contentVersionId := some versionId }, fun _ => rfl⟩

def modifyItem (itemId : Nat) (u : Update ContentItem) (db : Db) : Db :=
  { db with contentItems := db.contentItems.modify itemId u }

/-- A new item with its first version, which becomes its current one. -/
def insertDraft (workspaceId : Nat) (topic : String) (script : Script) (d : Desk) : Desk :=
  { d with
    db := modifyItem d.db.contentItems.next (ContentItem.setVersion d.versions.next)
      { d.db with
        contentItems := d.db.contentItems.insert ⟨fun id =>
          { id, workspaceId, topic }, fun _ => rfl⟩ }
    versions := d.versions.insert ⟨fun id =>
      { id, workspaceId, contentItemId := d.db.contentItems.next, script }, fun _ => rfl⟩ }

/-! ## Creating a content job -/

def deskWorkflowName := "agency_content_desk"

def deskWorkflowVersion := 1

def deskStages : List WorkflowStage :=
  [{ stageKey := .scripting, ordinal := 1, maxAttempts := 1, timeoutSeconds := 600 },
   { stageKey := .review, ordinal := 2, isReviewGate := true,
     timeoutSeconds := defaultReviewTimeoutHours * 3600 },
   { stageKey := .published, ordinal := 3, isTerminal := true, timeoutSeconds := 60 }]

def deskTransitions : List WorkflowTransition :=
  [{ fromStage := .scripting, toStage := .review, trigger := .onSuccess, priority := 100 },
   { fromStage := .review, toStage := .published, trigger := .onReviewApproved, priority := 100 }]

def deskDefinition (workspaceId : Nat) : NewRow WorkflowDefinition where
  make id :=
    { id, workspaceId, name := deskWorkflowName, version := deskWorkflowVersion
      stages := deskStages
      transitions := deskTransitions, unique := by decide }
  key_make _ := rfl

def WorkflowDefinition.activate : Update WorkflowDefinition :=
  ⟨fun w => { w with isActive := true }, fun _ => rfl⟩

/-- The workspace's desk workflow, provisioned on first use. -/
def ensureDeskWorkflow (workspaceId : Nat) : Session WorkflowDefinition := do
  let db ← get
  let rows := db.definitions.select fun w =>
    w.workspaceId == workspaceId && w.name == deskWorkflowName && w.version == deskWorkflowVersion
  match ← liftExcept (scalarOneOrNone rows) with
  | some existing =>
    modify fun db =>
      { db with definitions := db.definitions.modify existing.id WorkflowDefinition.activate }
    return WorkflowDefinition.activate.apply existing
  | none =>
    modify fun db => { db with definitions := db.definitions.insert (deskDefinition workspaceId) }
    return (deskDefinition workspaceId).make db.definitions.next

/-- The run of a draft, at the scripting stage. -/
def createDeskRun (workspaceId contentItemId : Nat) (idempotencyKey : Option String) (db : Db) :
    Db :=
  { db with
    runs := db.runs.insert ⟨fun id =>
      { id, workspaceId, contentItemId, idempotencyKey, currentStage := .scripting },
        fun _ => rfl⟩ }

/-- Queue rows of a stage the desk completed itself. -/
def JobSchedule.isOrphanOf (runId : Nat) (stage : ContentStage) (j : JobSchedule) : Bool :=
  j.refId == .run runId && j.isStageJob && j.refTable == stage.value && j.isActive

theorem JobSchedule.key_cancelled (j : JobSchedule) :
    Keyed.key { j with status := .cancelled, leaseExpiresAt := none } = Keyed.key j :=
  rfl

def JobSchedule.cancelOrphan : Update JobSchedule :=
  ⟨fun j => { j with status := .cancelled, leaseExpiresAt := none }, JobSchedule.key_cancelled⟩

/-- A run already created under the key, with everything its answer needs. -/
def checkExistingJob (run : PipelineRun) : Session Unit := do
  let db ← get
  let gate ← liftExcept (scalarOneOrNone (db.gates.select (·.pipelineRunId == run.id)))
  if gate.isNone ∨ (db.contentItems.get? run.contentItemId).isNone then
    throw (.valueError "idempotent content job is missing review gate or content item")

/-- `str` of an amount on the money grid: at least one decimal, no trailing zeros. -/
def gridText (amount : Nat) : String :=
  let digits := (toString (10000 + amount % 10000)).toList.tail
  let trimmed := (digits.reverse.dropWhile (· == '0')).reverse
  toString (amount / 10000) ++ "." ++ (if trimmed.isEmpty then "0" else String.ofList trimmed)

example : gridText 100 = "0.01" ∧ gridText 20000 = "2.0" := by decide +kernel

/-- Drive the draft's run from its first stage into the gate. The scripting stage is the
draft itself, so it is reserved, completed and settled here. -/
def runDraft (workspaceId contentItemId versionId : Nat) (idempotencyKey : Option String) :
    Session Unit := do
  let definition ← ensureDeskWorkflow workspaceId
  modify (createDeskRun workspaceId contentItemId idempotencyKey)
  let db ← get
  let runId := db.runs.next - 1
  let created ← loadRun runId
  startRun created definition
  let run ← loadRun runId
  let estimate := db.settings.defaultStageEstimateUsd
  match ← reserveSpend run .scripting draftDeskProvider estimate with
  | none => throw .spendBudgetExceeded
  | some reservationId =>
    handleStageSuccess run .scripting
      [("draft_version_id", .str (toString versionId)),
       ("estimated_cost_usd", .str (gridText estimate)), ("provider", .str draftDeskProvider)]
    let reservation ← require ((← get).reservations.get? reservationId)
      (.valueError "reservation lost")
    commitSpend run reservation (Decimal.ofGrid estimate)
    modify fun db =>
      { db with
        jobs := db.jobs.modifyWhere (·.isOrphanOf runId .scripting) JobSchedule.cancelOrphan }
    match ← liftExcept (scalarOneOrNone ((← get).gates.select (·.pipelineRunId == runId))) with
    | none => throw (.runtimeError "content job failed to enter Human Review Gate")
    | some gate =>
      if gate.status ≠ .awaiting then
        throw (.runtimeError "content job failed to enter Human Review Gate")

/-- **Create a content job.** A repeated key answers with the job it already made. -/
def createContentJob (workspaceId : Nat) (topic : String) (script : Script)
    (idempotencyKey : Option String) : DeskSession Unit := do
  let d ← get
  let sameKey := d.db.runs.select fun r =>
    idempotencyKey.isSome && r.workspaceId == workspaceId && r.idempotencyKey == idempotencyKey
  match ← engine (liftExcept (scalarOneOrNone sameKey)) with
  | some existing => engine (checkExistingJob existing)
  | none =>
    modify (insertDraft workspaceId topic script)
    engine (runDraft workspaceId d.db.contentItems.next d.versions.next idempotencyKey)

/-! ## Editing content under review -/

/-- Omitted fields keep the current version's value. -/
def Script.over (edit : Script) (current : Option ContentVersion) : Script where
  hook := edit.hook.orElse fun _ => current.bind (·.script.hook)
  body := edit.body.orElse fun _ => current.bind (·.script.body)
  cta := edit.cta.orElse fun _ => current.bind (·.script.cta)

/-- The item and the gate move to a new version. -/
def writeEdit (workspaceId gateId : Nat) (item : ContentItem) (script : Script) (d : Desk) : Desk :=
  { d with
    versions := d.versions.insert ⟨fun id =>
      { id, workspaceId, contentItemId := item.id, script }, fun _ => rfl⟩
    db := modifyGate gateId (ReviewGate.setVersion d.versions.next)
      (modifyItem item.id (ContentItem.setVersion d.versions.next) d.db) }

/-- **Edit the content of a waiting gate**, against the version the editor loaded. -/
def editReviewGateContent (workspaceId gateId expectedContentVersionId : Nat) (edit : Script) :
    DeskSession Unit := do
  let d ← get
  let gate ← engine (require (d.db.gates.get? gateId) .reviewGateNotFound)
  if gate.workspaceId ≠ workspaceId then throw .reviewGateNotFound
  if gate.status ≠ .awaiting then throw (.valueError "review gate is not awaiting a decision")
  if gate.contentVersionId ≠ some expectedContentVersionId then
    throw (.valueError "review gate content has changed since it was loaded; refresh and try again")
  let run ← engine (require (d.db.runs.get? gate.pipelineRunId)
    (.valueError "review_gate missing pipeline run / content item"))
  let item ← engine (require (d.db.contentItems.get? run.contentItemId)
    (.valueError "review_gate missing content item"))
  modify (writeEdit workspaceId gateId item
    (edit.over (item.currentVersionId.bind d.versions.get?)))

end ContentOrchestrator

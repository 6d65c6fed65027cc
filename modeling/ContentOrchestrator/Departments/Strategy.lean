import ContentOrchestrator.Departments.Research

/-! # The strategy department

A brief is drafted on opportunities whose latest audit passed, once for each structural
fingerprint. Its auditor looks the research audits up again and then at the brief's own
states; the writer may go on with what it passed last. -/

namespace ContentOrchestrator

def BriefField.all : List BriefField :=
  [.targetAudience, .targetPlatform, .contentFormat, .creativeAngle, .coreMessage, .hookDirection,
   .ctaDirection, .businessGoal, .successMetric, .commercialGoal, .recommendedLength,
   .recommendedPostingWindow]

def BriefField.name : BriefField → String
  | targetAudience => "target_audience"
  | targetPlatform => "target_platform"
  | contentFormat => "content_format"
  | creativeAngle => "creative_angle"
  | coreMessage => "core_message"
  | hookDirection => "hook_direction"
  | ctaDirection => "cta_direction"
  | businessGoal => "business_goal"
  | successMetric => "success_metric"
  | commercialGoal => "commercial_goal"
  | recommendedLength => "recommended_length"
  | recommendedPostingWindow => "recommended_posting_window"

/-- The fields a fingerprint reads. -/
def BriefField.structural : List BriefField :=
  [.targetPlatform, .contentFormat, .creativeAngle, .hookDirection, .ctaDirection, .businessGoal]

namespace Departments

open Lib

variable (lib : StandardLibrary)

def maxStrategyText := 10000

def maxObjective := 1000

/-- `_safe_text` raises a `ValueError`. -/
def guardText (value field : String) (maximum : Nat) : DepartmentSession String :=
  match safeText value field maximum with
  | .ok text => pure text
  | .error e => throw (.valueError e.message)

/-- `_structural_fingerprint` -/
def structuralFingerprint (sourceOpportunityIds : List Nat) (objective : String)
    (text : BriefField → Option String) : String :=
  lib.sha256 (String.intercalate "\n"
    ((sourceOpportunityIds.map toString).insertionSort (· ≤ ·) ++
      (objective :: BriefField.structural.map fun field => (text field).getD "").map fun part =>
        lib.lower (stripped part)))

structure FixtureBrief where
  objective : Option String := none
  text : BriefField → Option String := fun _ => none
  evidenceSummary : Option String := none
  reasoning : Option String := none
  costState : Option String := none
  capabilityState : Option String := none
  businessContextState : Option String := none
  performanceDataState : Option String := none
  repetitionState : Option String := none
  repetitionReasons : List String := []

/-- `_require_research_pass` -/
def requireResearchPass (workspaceId : Nat) : List Nat → DepartmentSession (List Opportunity)
  | [] => pure []
  | opportunityId :: rest => do
    tryCatch (strategistGate workspaceId opportunityId) fun e =>
      match e with
      | .researchGate detail => throw (.strategyGate detail)
      | e => throw e
    let opportunity ← demand (getOpportunity workspaceId opportunityId (← get).research)
      (.strategyGate "source opportunity not found")
    let others ← requireResearchPass workspaceId rest
    return opportunity :: others

def insertStrategyRun (row : NewRow StrategyRun) (d : Departments) : Departments :=
  { d with strategy.runs := d.strategy.runs.insert row }

def modifyStrategyRun (runId : Nat) (u : Update StrategyRun) (d : Departments) : Departments :=
  { d with strategy.runs := d.strategy.runs.modify runId u }

def insertBrief (row : NewRow StrategyBrief) (d : Departments) : Departments :=
  { d with strategy.briefs := d.strategy.briefs.insert row }

def modifyBrief (briefId : Nat) (u : Update StrategyBrief) (d : Departments) : Departments :=
  { d with strategy.briefs := d.strategy.briefs.modify briefId u }

/-- `create_manual_run`: the request is stored, and no provider is configured. -/
def createManualStrategyRun (workspaceId : Nat) (objective : String) (opportunityIds : List Nat)
    (profileComplete : Bool) : DepartmentSession Nat := do
  let _ ← guardText objective "strategy objective" maxObjective
  let _ ← requireResearchPass workspaceId opportunityIds
  let d ← get
  modify (insertStrategyRun ⟨fun id =>
    { id, workspaceId, status := .providerNotConfigured, sourceOpportunityIds := opportunityIds
      businessContextState := if profileComplete then "complete" else "incomplete"
      lastError := some (if profileComplete then "STRATEGY PROVIDER NOT CONFIGURED" else
        "STRATEGY PROVIDER NOT CONFIGURED; BUSINESS CONTEXT INCOMPLETE") }, fun _ => rfl⟩)
  return d.strategy.runs.next

/-- Each optional text that is given goes through the guard. -/
def guardOptional (text : BriefField → Option String) : List BriefField → DepartmentSession Unit
  | [] => pure ()
  | field :: rest => do
    match text field with
    | none => pure ()
    | some value =>
      let _ ← guardText value field.name maxStrategyText
    guardOptional text rest

def StrategyRun.duplicate : Update StrategyRun :=
  ⟨fun r => { r with status := .duplicate, lastError := some "DUPLICATE — REUSE OR REVISE" },
    fun _ => rfl⟩

def StrategyRun.briefed : Update StrategyRun :=
  ⟨fun r => { r with status := .succeeded, briefsCreated := 1 }, fun _ => rfl⟩

def insertBriefOpportunity (row : NewRow StrategyBriefOpportunity) (d : Departments) :
    Departments :=
  { d with strategy.briefOpportunities := d.strategy.briefOpportunities.insert row }

/-- The opportunities a brief draws on. -/
def linkOpportunities (workspaceId briefId : Nat) (opportunities : List Opportunity)
    (d : Departments) : Departments :=
  opportunities.foldl (fun d opportunity => insertBriefOpportunity ⟨fun id =>
    { id, workspaceId, strategyBriefId := briefId, opportunityId := opportunity.id },
    fun _ => rfl⟩ d) d

/-- The drafted brief. -/
def briefRow (workspaceId runId : Nat) (objective evidenceSummary reasoning fingerprint : String)
    (fixture : FixtureBrief) : NewRow StrategyBrief where
  make id :=
    { id, workspaceId, strategyRunId := runId, objective
      text := fun field => (fixture.text field).map stripped, evidenceSummary, reasoning
      costState := fixture.costState.getD "known"
      capabilityState := fixture.capabilityState.getD "configured"
      businessContextState := fixture.businessContextState.getD "complete"
      performanceDataState := fixture.performanceDataState.getD "no_data"
      structuralFingerprint := fingerprint
      repetitionState := fixture.repetitionState.getD "clear"
      repetitionReasons := fixture.repetitionReasons }
  key_make _ := rfl

/-- `record_fixture_brief`: the brief, and whether it was there before. -/
def recordFixtureBrief (workspaceId : Nat) (objective : String) (opportunityIds : List Nat)
    (fixture : FixtureBrief) : DepartmentSession (Nat × Bool) := do
  ensureTest "fixture strategy execution is test-only"
  let cleanObjective ← guardText objective "strategy objective" maxObjective
  let opportunities ← requireResearchPass workspaceId opportunityIds
  let runId := (← get).strategy.runs.next
  modify (insertStrategyRun ⟨fun id =>
    { id, workspaceId, status := .running, sourceOpportunityIds := opportunityIds
      businessContextState := fixture.businessContextState.getD "complete", testData := true },
    fun _ => rfl⟩)
  let briefObjective ← guardText (fixture.objective.getD cleanObjective) "brief objective"
    maxStrategyText
  let first ← demand opportunities.head? .indexError
  let evidenceSummary ← guardText (fixture.evidenceSummary.getD first.summary) "evidence summary"
    maxStrategyText
  let reasoning ← guardText (fixture.reasoning.getD first.proposedAngle) "reasoning" maxStrategyText
  let fingerprint := structuralFingerprint lib opportunityIds briefObjective fixture.text
  let d ← get
  match ← scalarOneOrNone (d.strategy.briefs.select fun b =>
      b.workspaceId == workspaceId && b.structuralFingerprint == fingerprint &&
        b.deletedAt.isNone) with
  | some existing =>
    modify (modifyStrategyRun runId StrategyRun.duplicate)
    return (existing.id, true)
  | none =>
    guardOptional fixture.text BriefField.all
    ensure (d.strategy.briefs.select fun b =>
      b.workspaceId == workspaceId && b.structuralFingerprint == fingerprint).isEmpty
      (.integrityError "uq_strategy_briefs_workspace_fp")
    let briefId := d.strategy.briefs.next
    modify (insertBrief
      (briefRow workspaceId runId briefObjective evidenceSummary reasoning fingerprint fixture))
    ensure (decide opportunityIds.Nodup) (.integrityError "uq_strategy_brief_opportunity")
    modify (linkOpportunities workspaceId briefId opportunities)
    modify (modifyStrategyRun runId StrategyRun.briefed)
    return (briefId, false)

/-! ## The auditor and the gate -/

def getBrief (workspaceId briefId : Nat) (t : StrategyTables) : Option StrategyBrief :=
  (t.briefs.get? briefId).filter fun b => b.workspaceId == workspaceId && b.deletedAt.isNone

def briefOpportunityIds (workspaceId briefId : Nat) (t : StrategyTables) : List Nat :=
  (t.briefOpportunities.select fun l =>
    l.workspaceId == workspaceId && l.strategyBriefId == briefId).map (·.opportunityId)

def latestStrategyAudit (workspaceId briefId : Nat) (t : StrategyTables) : Option StrategyAudit :=
  latest (·.checkedAt) (t.audits.select fun a =>
    a.workspaceId == workspaceId && a.strategyBriefId == briefId)

/-- The text is there and not empty. -/
def given (text : Option String) : Bool := text.getD "" != ""

/-- Why the strategy auditor blocks. -/
def strategyBlocked (brief : StrategyBrief) (sourceIds : List Nat) (passed : Nat → Bool) :
    List String :=
  (if sourceIds.isEmpty then ["No source opportunities are linked to this Strategy Brief."]
    else []) ++
  (if sourceIds.all passed then [] else
    ["Research Auditor PASS is required for every source opportunity."]) ++
  (if brief.businessContextState != "complete" || !given (brief.text .businessGoal) then
    ["BUSINESS CONTEXT INCOMPLETE"] else []) ++
  (if !given (brief.text .targetPlatform) || !given (brief.text .contentFormat) then
    ["Target platform and content format are required."] else []) ++
  (if brief.costState == "unknown" || brief.costState == "not_configured" then ["COST UNKNOWN"]
    else []) ++
  (if brief.capabilityState != "configured" then
    ["BLOCKED — REQUIRED CAPABILITY NOT CONFIGURED"] else []) ++
  (if brief.repetitionState == "duplicate" || brief.repetitionState == "require_differentiation" ||
      brief.repetitionState == "blocked" then
    if brief.repetitionReasons.isEmpty then ["Materially repetitive strategy."]
      else brief.repetitionReasons
    else []) ++
  (if (overstatedPattern lib).occursIn brief.reasoning.toList ||
      (overstatedPattern lib).occursIn brief.evidenceSummary.toList then
    ["Unsupported performance or commercial guarantee detected."] else [])

def strategyWarnings (brief : StrategyBrief) : List String :=
  if brief.performanceDataState != "no_data" then
    ["Performance-data state requires a source-backed future check."] else []

def StrategyBrief.audited (state : AuditState) : Update StrategyBrief :=
  ⟨fun b =>
    { b with
      auditGateStatus := state
      writerHandoffState := if state = .pass then "eligible" else "blocked"
      status := if state = .pass then "audited_passed" else "audited_blocked" },
    fun _ => rfl⟩

def StrategyRun.audited (state : AuditState) : Update StrategyRun :=
  ⟨fun r =>
    if state = .pass then { r with briefsPassed := r.briefsPassed + 1 }
      else { r with briefsBlocked := r.briefsBlocked + 1 },
    fun r => by split <;> rfl⟩

def insertStrategyAudit (row : NewRow StrategyAudit) (d : Departments) : Departments :=
  { d with strategy.audits := d.strategy.audits.insert row }

/-- The audit of a brief on its sources and what research says of them. -/
def strategyAuditRow (brief : StrategyBrief) (sourceIds : List Nat) (passed : Nat → Bool)
    (now : Nat) : NewRow StrategyAudit where
  make id :=
    let blocked := strategyBlocked lib brief sourceIds passed
    { id, workspaceId := brief.workspaceId, strategyBriefId := brief.id
      strategyRunId := brief.strategyRunId, state := auditState blocked (strategyWarnings brief)
      findings := sourceIds.takeWhile passed, warnings := strategyWarnings brief
      blockedReasons := blocked, checkedAt := now }
  key_make _ := rfl

def strategyRunOf (workspaceId runId : Nat) (t : StrategyTables) : Option StrategyRun :=
  (t.runs.get? runId).filter fun r => r.workspaceId == workspaceId

/-- `audit_brief` -/
def auditBrief (workspaceId briefId : Nat) : DepartmentSession StrategyAudit := do
  let d ← get
  let brief ← demand (getBrief workspaceId briefId d.strategy)
    (.lookupError "strategy brief not found")
  let row := strategyAuditRow lib brief (briefOpportunityIds workspaceId briefId d.strategy)
    (researchPassed workspaceId d.research) d.now
  let audit := row.make d.strategy.audits.next
  modify (insertStrategyAudit row)
  modify (modifyBrief brief.id (StrategyBrief.audited audit.state))
  if (strategyRunOf workspaceId brief.strategyRunId d.strategy).isSome then
    modify (modifyStrategyRun brief.strategyRunId (StrategyRun.audited audit.state))
  return audit

def StrategyBrief.sendToWriter : Update StrategyBrief :=
  ⟨fun b => { b with writerHandoffState := "eligible" }, fun _ => rfl⟩

/-- `writer_gate` -/
def writerGate (workspaceId briefId : Nat) : DepartmentSession Unit := do
  let d ← get
  let brief ← demand (getBrief workspaceId briefId d.strategy)
    (.lookupError "strategy brief not found")
  ensure ((latestStrategyAudit workspaceId briefId d.strategy).any fun a => a.state == .pass)
    (.strategyAuditGate "Independent Strategy Auditor PASS is required before Writer eligibility.")
  modify (modifyBrief brief.id StrategyBrief.sendToWriter)

end Departments

end ContentOrchestrator

import ContentOrchestrator.Departments.Tables
import ContentOrchestrator.Lib.Sorting

/-! # The research department

A run records the sources it was given, the unsafe ones as rejected, and one opportunity
on the accepted ones; the same opportunity found again takes the new sources on. The
auditor looks at the stored sources only, and the strategist may go on with what it
passed last. -/

namespace ContentOrchestrator.Departments

open Lib

variable (lib : StandardLibrary)

/-! ## Reading a source -/

def stripped (value : String) : String := String.ofList (strip value.toList)

/-- `_canonical_url` -/
def canonicalUrl (value : String) : Except String String := do
  let parsed ← lib.urlsplit (stripped value)
  if !(parsed.scheme == "http" || parsed.scheme == "https") || parsed.hostname.getD "" == "" ||
      parsed.username.getD "" != "" || parsed.password.getD "" != "" then
    throw "source URL must be a public http(s) URL without embedded credentials"
  let host :=
    String.ofList ((lib.lower (parsed.hostname.getD "")).toList.rdropWhile fun c => c == '.')
  if host == "localhost" || host == "localhost.localdomain" then
    throw "private or localhost source URL is not permitted"
  if lib.isLocalAddress host then
    throw "private or local source URL is not permitted"
  let path := String.ofList (parsed.path.toList.rdropWhile fun c => c == '/')
  return lib.urlunsplit (lib.lower parsed.scheme) host (if path = "" then "/" else path)
    parsed.query

/-- `_dedupe_key` -/
def dedupeKey (topic angle : String) (platform formatName : Option String)
    (sourceUrls : List String) : String :=
  lib.sha256 (String.intercalate "\n"
    ([topic, angle, platform.getD "", formatName.getD ""].map
        (fun part => lib.lower (stripped part)) ++
      sourceUrls.insertionSort (· ≤ ·)))

structure FixtureSource where
  url : Option String := none
  excerpt : Option String := none
  claimSupported : Option String := none
  freshness : Option String := none

structure FixtureOpportunity where
  topic : Option String := none
  proposedAngle : Option String := none
  title : Option String := none
  summary : Option String := none
  targetPlatform : Option String := none
  suggestedFormat : Option String := none

/-- The first of the texts that is there and not empty. -/
def orText (text : Option String) (other : String) : String :=
  match text with
  | none => other
  | some text => if text = "" then other else text

/-- The row of one source. -/
def sourceRow (workspaceId runId now : Nat) (url : String) (item : FixtureSource) :
    NewRow ResearchSource where
  make id :=
    let (excerpt, rejectionReason) := safeExcerpt item.excerpt
    { id, workspaceId, researchRunId := runId, canonicalUrl := url, retrievedAt := now
      claimSupported := item.claimSupported, freshness := item.freshness.getD "test"
      contentDigest := lib.sha256 (orText excerpt (orText rejectionReason url))
      safeExcerpt := excerpt
      handlingState := if rejectionReason.isSome then .rejected else .accepted, rejectionReason }
  key_make _ := rfl

def insertSource (row : NewRow ResearchSource) (d : Departments) : Departments :=
  { d with research.sources := d.research.sources.insert row }

/-- One source of a run; `uq_research_source_run_url` admits a URL once. -/
def recordSource (workspaceId runId now : Nat) (item : FixtureSource) :
    DepartmentSession (Option ResearchSource) :=
  match canonicalUrl lib (item.url.getD "") with
  | .error _ => pure none
  | .ok url => do
    let d ← get
    ensure (d.research.sources.select fun s => s.workspaceId == workspaceId &&
      s.researchRunId == runId && s.canonicalUrl == url).isEmpty
      (.integrityError "uq_research_source_run_url")
    let row := sourceRow lib workspaceId runId now url item
    modify (insertSource row)
    let source := row.make d.research.sources.next
    return if source.handlingState = .accepted then some source else none

/-- The accepted sources of a run, in order. -/
def recordSources (workspaceId runId now : Nat) :
    List FixtureSource → DepartmentSession (List ResearchSource)
  | [] => pure []
  | item :: rest => do
    let source ← recordSource lib workspaceId runId now item
    let others ← recordSources workspaceId runId now rest
    return source.toList ++ others

/-! ## Recording a run -/

def insertResearchRun (row : NewRow ResearchRun) (d : Departments) : Departments :=
  { d with research.runs := d.research.runs.insert row }

def modifyResearchRun (runId : Nat) (u : Update ResearchRun) (d : Departments) : Departments :=
  { d with research.runs := d.research.runs.modify runId u }

def insertOpportunity (row : NewRow Opportunity) (d : Departments) : Departments :=
  { d with research.opportunities := d.research.opportunities.insert row }

def modifyOpportunity (opportunityId : Nat) (u : Update Opportunity) (d : Departments) :
    Departments :=
  { d with research.opportunities := d.research.opportunities.modify opportunityId u }

def insertEvidence (row : NewRow OpportunityEvidence) (d : Departments) : Departments :=
  { d with research.evidence := d.research.evidence.insert row }

/-- `create_manual_run`: no provider is configured, so nothing is searched. -/
def createManualResearchRun (workspaceId : Nat) : DepartmentSession Nat := do
  let d ← get
  modify (insertResearchRun ⟨fun id =>
    { id, workspaceId, status := .providerNotConfigured
      lastError := some "RESEARCH PROVIDER NOT CONFIGURED" }, fun _ => rfl⟩)
  return d.research.runs.next

def ResearchRun.searched (count : Nat) : Update ResearchRun :=
  ⟨fun r => { r with searchesUsed := count }, fun _ => rfl⟩

def ResearchRun.fail (message : String) : Update ResearchRun :=
  ⟨fun r => { r with status := .failed, lastError := some message }, fun _ => rfl⟩

def ResearchRun.succeed (opportunityCount : Nat) : Update ResearchRun :=
  ⟨fun r => { r with status := .succeeded, opportunityCount }, fun _ => rfl⟩

def Opportunity.addSources (count : Nat) : Update Opportunity :=
  ⟨fun o => { o with sourceCount := o.sourceCount + count }, fun _ => rfl⟩

/-- The links between an opportunity and the sources accepted for it. -/
def linkSources (opportunity : Opportunity) (sources : List ResearchSource) (d : Departments) :
    Departments :=
  sources.foldl (fun d source => insertEvidence ⟨fun id =>
    { id, workspaceId := opportunity.workspaceId, opportunityId := opportunity.id
      sourceId := source.id
      claimSupported := orText source.claimSupported opportunity.summary }, fun _ => rfl⟩ d) d

/-- The opportunity under its key, new or found again; `uq_opportunities_workspace_dedupe` admits a
key once. -/
def recordOpportunity (workspaceId runId : Nat) (fixture : FixtureOpportunity)
    (accepted : List ResearchSource) : DepartmentSession (Opportunity × Nat) := do
  let topic := stripped (← demand fixture.topic (.keyError "topic"))
  let angle := stripped (← demand fixture.proposedAngle (.keyError "proposed_angle"))
  let key := dedupeKey lib topic angle fixture.targetPlatform fixture.suggestedFormat
    (accepted.map (·.canonicalUrl))
  let d ← get
  match ← scalarOneOrNone (d.research.opportunities.select fun o =>
      o.workspaceId == workspaceId && o.dedupeKey == key && o.deletedAt.isNone) with
  | some existing =>
    modify (modifyOpportunity existing.id (Opportunity.addSources accepted.length))
    return (existing, 0)
  | none =>
    let title ← demand fixture.title (.keyError "title")
    let summary ← demand fixture.summary (.keyError "summary")
    ensure (d.research.opportunities.select fun o =>
      o.workspaceId == workspaceId && o.dedupeKey == key).isEmpty
      (.integrityError "uq_opportunities_workspace_dedupe")
    let row : NewRow Opportunity := ⟨fun id =>
      { id, workspaceId, researchRunId := runId, title := stripped title, topic
        summary := stripped summary, proposedAngle := angle
        targetPlatform := fixture.targetPlatform
        suggestedFormat := fixture.suggestedFormat, sourceCount := accepted.length
        status := "active", dedupeKey := key }, fun _ => rfl⟩
    modify (insertOpportunity row)
    return (row.make d.research.opportunities.next, 1)

/-- `record_fixture_run` -/
def recordFixtureRun (workspaceId : Nat) (sources : List FixtureSource)
    (fixture : FixtureOpportunity) : DepartmentSession (Option Nat) := do
  ensureTest "fixture research execution is test-only"
  let runId := (← get).research.runs.next
  let now := (← get).now
  modify (insertResearchRun ⟨fun id =>
    { id, workspaceId, status := .running, testData := true }, fun _ => rfl⟩)
  let accepted ← recordSources lib workspaceId runId now sources
  modify (modifyResearchRun runId (ResearchRun.searched sources.length))
  if accepted.isEmpty then
    modify (modifyResearchRun runId (ResearchRun.fail "No safe evidence sources were accepted"))
    return none
  let (opportunity, created) ← recordOpportunity lib workspaceId runId fixture accepted
  modify (linkSources opportunity accepted)
  modify (modifyResearchRun runId (ResearchRun.succeed created))
  return some opportunity.id

/-! ## The auditor and the gate -/

def getOpportunity (workspaceId opportunityId : Nat) (t : ResearchTables) : Option Opportunity :=
  (t.opportunities.get? opportunityId).filter fun o =>
    o.workspaceId == workspaceId && o.deletedAt.isNone

/-- The sources linked to the opportunity. -/
def linkedSources (workspaceId opportunityId : Nat) (t : ResearchTables) : List ResearchSource :=
  (t.evidence.select fun e =>
    e.workspaceId == workspaceId && e.opportunityId == opportunityId).filterMap fun e =>
      (t.sources.get? e.sourceId).filter fun s => s.workspaceId == workspaceId

/-- What was retrieved later comes first; among sources of one time the database decides. -/
def newestFirst (ties : List Nat) (sources : List ResearchSource) : List ResearchSource :=
  sources.insertionSort fun a b => b.retrievedAt < a.retrievedAt ∨
    b.retrievedAt = a.retrievedAt ∧ ties.idxOf a.id ≤ ties.idxOf b.id

/-- `opportunity_evidence` -/
def opportunitySources (workspaceId opportunityId : Nat) (ties : List Nat) (t : ResearchTables) :
    List ResearchSource := newestFirst ties (linkedSources workspaceId opportunityId t)

def latestResearchAudit (workspaceId opportunityId : Nat) (t : ResearchTables) :
    Option ResearchAudit :=
  latest (·.checkedAt) (t.audits.select fun a =>
    a.workspaceId == workspaceId && a.opportunityId == opportunityId)

/-- The latest research audit of the opportunity passed it. -/
def researchPassed (workspaceId : Nat) (t : ResearchTables) (opportunityId : Nat) : Bool :=
  (latestResearchAudit workspaceId opportunityId t).any fun a => a.state == .pass

/-- Two of the sources have one digest. -/
def hasDuplicates (sources : List ResearchSource) : Bool :=
  decide ((sources.map (·.contentDigest)).dedup.length < sources.length)

/-- Why the auditor blocks. -/
def researchBlocked (sources : List ResearchSource) : List String :=
  let accepted := sources.filter fun s => s.handlingState == .accepted
  let rejected := sources.filter fun s => s.handlingState == .rejected
  (if accepted.isEmpty then ["No accepted source provenance supports this opportunity."] else []) ++
    (if rejected.isEmpty then [] else
      ["At least one source was rejected as unsafe or unverified."]) ++
    (if hasDuplicates accepted then ["Duplicate source content detected."] else [])

/-- What the auditor warns of when nothing blocks. -/
def researchWarnings (sources : List ResearchSource) : List String :=
  let accepted := sources.filter fun s => s.handlingState == .accepted
  if !(researchBlocked sources).isEmpty then [] else
    (if accepted.length = 1 then ["Only one independent accepted source is available."] else []) ++
      (if accepted.any fun s => s.freshness == "stale" || s.freshness == "unknown" then
        ["At least one accepted source has stale or unknown freshness."] else [])

/-- The verdict on these blocks and warnings. -/
def auditState (blocked warnings : List String) : AuditState :=
  if !blocked.isEmpty then .blocked else if !warnings.isEmpty then .passWithWarning else .pass

def researchFindings (sources : List ResearchSource) : List ResearchFinding :=
  (sources.filter fun s => s.handlingState == .accepted).map fun s =>
    { sourceId := s.id, freshness := s.freshness
      claimSupport := s.claimSupported.getD "" != "" }

def Opportunity.audited (state : AuditState) : Update Opportunity :=
  ⟨fun o =>
    { o with auditGateStatus := state, status := if state = .blocked then "blocked" else o.status },
    fun _ => rfl⟩

def ResearchRun.audited (state : AuditState) : Update ResearchRun :=
  ⟨fun r =>
    { r with
      auditedOpportunityCount := r.auditedOpportunityCount + 1
      blockedOpportunityCount :=
        if state = .blocked then r.blockedOpportunityCount + 1 else r.blockedOpportunityCount },
    fun _ => rfl⟩

def insertResearchAudit (row : NewRow ResearchAudit) (d : Departments) : Departments :=
  { d with research.audits := d.research.audits.insert row }

/-- The audit of an opportunity on its sources. -/
def researchAuditRow (opportunity : Opportunity) (sources : List ResearchSource) (now : Nat) :
    NewRow ResearchAudit where
  make id :=
    { id, workspaceId := opportunity.workspaceId, opportunityId := opportunity.id
      researchRunId := opportunity.researchRunId
      state := auditState (researchBlocked sources) (researchWarnings sources)
      findings := researchFindings sources, warnings := researchWarnings sources
      blockedReasons := researchBlocked sources, checkedAt := now }
  key_make _ := rfl

/-- `get_run` finds only the workspace's own run. -/
def researchRunOf (workspaceId runId : Nat) (t : ResearchTables) : Option ResearchRun :=
  (t.runs.get? runId).filter fun r => r.workspaceId == workspaceId

/-- `audit_opportunity` -/
def auditOpportunity (workspaceId opportunityId : Nat) (ties : List Nat) :
    DepartmentSession ResearchAudit := do
  let d ← get
  let opportunity ← demand (getOpportunity workspaceId opportunityId d.research)
    (.lookupError "opportunity not found")
  let row := researchAuditRow opportunity
    (opportunitySources workspaceId opportunityId ties d.research) d.now
  let audit := row.make d.research.audits.next
  modify (insertResearchAudit row)
  modify (modifyOpportunity opportunity.id (Opportunity.audited audit.state))
  if (researchRunOf workspaceId opportunity.researchRunId d.research).isSome then
    modify (modifyResearchRun opportunity.researchRunId (ResearchRun.audited audit.state))
  return audit

def Opportunity.sendToStrategist : Update Opportunity :=
  ⟨fun o => { o with strategistState := "eligible" }, fun _ => rfl⟩

/-- `strategist_gate` -/
def strategistGate (workspaceId opportunityId : Nat) : DepartmentSession Unit := do
  let d ← get
  let opportunity ← demand (getOpportunity workspaceId opportunityId d.research)
    (.lookupError "opportunity not found")
  ensure (researchPassed workspaceId d.research opportunityId)
    (.researchGate "Independent Research Auditor PASS is required before Strategist eligibility.")
  modify (modifyOpportunity opportunity.id Opportunity.sendToStrategist)

end ContentOrchestrator.Departments

import ContentOrchestrator.Departments.Content

/-! # Production and compliance

A production job is opened for a package under a passing gate and stops there: no provider
is configured. On jobs marked as test data the fixtures go on: an artifact under its hash,
one media check of it, compliance on that check, and the chief auditor on both. Nothing is
ever eligible for publication. -/

namespace ContentOrchestrator.Departments

open Lib

/-! ## Production -/

def insertJob (row : NewRow ProductionJob) (d : Departments) : Departments :=
  { d with production.jobs := d.production.jobs.insert row }

def modifyJob (jobId : Nat) (u : Update ProductionJob) (d : Departments) : Departments :=
  { d with production.jobs := d.production.jobs.modify jobId u }

def insertArtifact (row : NewRow FinalArtifact) (d : Departments) : Departments :=
  { d with production.artifacts := d.production.artifacts.insert row }

def insertMediaQa (row : NewRow MediaQaResult) (d : Departments) : Departments :=
  { d with production.mediaQa := d.production.mediaQa.insert row }

def insertReadiness (row : NewRow ProductionReadiness) (d : Departments) : Departments :=
  { d with production.readiness := d.production.readiness.insert row }

def modifyReadiness (readinessId : Nat) (u : Update ProductionReadiness) (d : Departments) :
    Departments :=
  { d with production.readiness := d.production.readiness.modify readinessId u }

def insertArtifactInvalidation (row : NewRow ArtifactInvalidation) (d : Departments) :
    Departments :=
  { d with production.invalidations := d.production.invalidations.insert row }

def jobRow (package : ContentPackage) : NewRow ProductionJob where
  make id :=
    { id, workspaceId := package.workspaceId, contentPackageId := package.id
      contentItemId := package.contentItemId, contentVersionId := package.contentVersionId
      status := "blocked_provider_not_configured", providerState := "not_configured" }
  key_make _ := rfl

/-- `create_production_run` -/
def createProductionRun (workspaceId packageId : Nat) : DepartmentSession Nat := do
  let d ← get
  let package ← demand ((d.content.packages.get? packageId).filter fun p =>
    p.workspaceId == workspaceId) (.productionNotFound "content package not found")
  ensure (package.auditGateStatus == .pass) (.productionEligibility
    "content package is not eligible for Producer; all independent content audits must pass")
  modify (insertJob (jobRow package))
  return d.production.jobs.next

def ProductionJob.markTestData : Update ProductionJob :=
  ⟨fun j => { j with testData := true }, fun _ => rfl⟩

/-- `get_job` -/
def getJob (workspaceId jobId : Nat) (t : ProductionTables) : Option ProductionJob :=
  (t.jobs.get? jobId).filter fun j => j.workspaceId == workspaceId

/-- No service does this: the tests mark the jobs they go on with. -/
def markTestJob (jobId : Nat) (d : Departments) : Departments :=
  modifyJob jobId ProductionJob.markTestData d

def getArtifact (workspaceId artifactId : Nat) (t : ProductionTables) : Option FinalArtifact :=
  (t.artifacts.get? artifactId).filter fun a => a.workspaceId == workspaceId

def artifactRow (job : ProductionJob) (artifactHash : String) : NewRow FinalArtifact where
  make id :=
    { id, workspaceId := job.workspaceId, productionJobId := job.id
      contentItemId := job.contentItemId, contentVersionId := job.contentVersionId, artifactHash
      status := "ready", testData := true }
  key_make _ := rfl

/-- `create_test_fixture_artifact` -/
def createTestFixtureArtifact (workspaceId jobId : Nat) (artifactHash : String) :
    DepartmentSession Nat := do
  let d ← get
  let job ← demand (getJob workspaceId jobId d.production)
    (.productionNotFound "production job not found")
  ensure job.testData
    (.producerGate "test fixtures are allowed only for test-marked production jobs")
  let duplicate ← scalarOneOrNone (d.production.artifacts.select fun a =>
    a.workspaceId == workspaceId && a.artifactHash == artifactHash)
  ensure duplicate.isNone
    (.producerGate "identical final artifact hash already exists in this workspace")
  modify (insertArtifact (artifactRow job artifactHash))
  return d.production.artifacts.next

def mediaQaRow (artifact : FinalArtifact) (auditorWorkerId status : String) (now : Nat) :
    NewRow MediaQaResult where
  make id :=
    { id, workspaceId := artifact.workspaceId, finalArtifactId := artifact.id
      artifactHash := artifact.artifactHash, auditorWorkerId, status, createdAt := now }
  key_make _ := rfl

def readinessRow (artifact : FinalArtifact) (status : String) : NewRow ProductionReadiness where
  make id :=
    { id, workspaceId := artifact.workspaceId, finalArtifactId := artifact.id
      contentVersionId := artifact.contentVersionId, mediaQaState := status
      blockingReasons := ["Compliance, Chief Auditor, and Human Review remain mandatory " ++
        "and are not fixture-approved"] }
  key_make _ := rfl

/-- `create_test_media_qa`; an artifact has one media check of its hash and one readiness row. -/
def createTestMediaQa (workspaceId artifactId : Nat)
    (auditorWorkerId producerWorkerId status : String) : DepartmentSession Nat := do
  let d ← get
  let artifact ← demand (getArtifact workspaceId artifactId d.production)
    (.productionNotFound "final artifact not found")
  ensure artifact.testData (.producerGate "test QA fixtures require a test-marked artifact")
  ensure (auditorWorkerId != producerWorkerId)
    (.producerGate "Producer cannot create or approve its own Media QA result")
  ensure (d.production.mediaQa.select fun q =>
    q.finalArtifactId == artifactId && q.artifactHash == artifact.artifactHash).isEmpty
    (.integrityError "uq_media_qa_artifact_hash")
  ensure (d.production.readiness.select fun r =>
    r.workspaceId == workspaceId && r.finalArtifactId == artifactId).isEmpty
    (.integrityError "uq_production_readiness_artifact")
  modify (insertMediaQa (mediaQaRow artifact auditorWorkerId status d.now))
  modify (insertReadiness (readinessRow artifact status))
  return d.production.mediaQa.next

def ProductionReadiness.invalidate : Update ProductionReadiness :=
  ⟨fun r =>
    { r with
      mediaQaState := "invalidated", complianceState := "invalidated"
      chiefAuditState := "invalidated", humanReviewState := "blocked", status := "blocked"
      blockingReasons := ["artifact changed or was invalidated; rerun required audits"] },
    fun _ => rfl⟩

def artifactInvalidationRow (artifact : FinalArtifact) (qa : Option MediaQaResult)
    (reason : String) : NewRow ArtifactInvalidation where
  make id :=
    { id, workspaceId := artifact.workspaceId, finalArtifactId := artifact.id
      mediaQaResultId := qa.map (·.id), reason }
  key_make _ := rfl

/-- `invalidate_artifact`; `uq_artifact_invalidation_reason` admits a reason once. -/
def invalidateArtifact (workspaceId artifactId : Nat) (reason : String) :
    DepartmentSession Nat := do
  let d ← get
  let artifact ← demand (getArtifact workspaceId artifactId d.production)
    (.productionNotFound "final artifact not found")
  let qa := latest (·.createdAt) (d.production.mediaQa.select fun q =>
    q.workspaceId == workspaceId && q.finalArtifactId == artifactId)
  ensure (d.production.invalidations.select fun i =>
    i.finalArtifactId == artifactId && i.reason == reason).isEmpty
    (.integrityError "uq_artifact_invalidation_reason")
  modify (insertArtifactInvalidation (artifactInvalidationRow artifact qa reason))
  let readiness ← scalarOneOrNone (d.production.readiness.select fun r =>
    r.workspaceId == workspaceId && r.finalArtifactId == artifactId)
  modify fun d => match readiness with
    | none => d
    | some readiness => modifyReadiness readiness.id ProductionReadiness.invalidate d
  return d.production.invalidations.next

/-! ## Compliance -/

def insertRights (row : NewRow ArtifactRightsEvidence) (d : Departments) : Departments :=
  { d with compliance.rights := d.compliance.rights.insert row }

def insertManifest (row : NewRow AuditGateManifest) (d : Departments) : Departments :=
  { d with compliance.manifests := d.compliance.manifests.insert row }

def insertComplianceAudit (row : NewRow ComplianceAudit) (d : Departments) : Departments :=
  { d with compliance.audits := d.compliance.audits.insert row }

def insertComplianceInvalidation (row : NewRow ComplianceInvalidation) (d : Departments) :
    Departments :=
  { d with compliance.invalidations := d.compliance.invalidations.insert row }

def insertChiefAudit (row : NewRow ChiefAudit) (d : Departments) : Departments :=
  { d with compliance.chiefAudits := d.compliance.chiefAudits.insert row }

def insertEligibility (row : NewRow ArtifactPublicationEligibility) (d : Departments) :
    Departments :=
  { d with compliance.eligibility := d.compliance.eligibility.insert row }

/-- `DEFAULT_GATES` -/
def defaultGates : List String :=
  ["research_audit", "strategy_audit", "language_audit", "fact_audit", "brand_audit",
   "originality_audit", "media_qa", "compliance", "chief_audit", "human_review"]

/-- `_artifact` -/
def complianceArtifact (workspaceId artifactId : Nat) : DepartmentSession FinalArtifact := do
  demand (getArtifact workspaceId artifactId (← get).production)
    (.complianceNotFound "final artifact not found")

/-- A media check of the artifact's exact hash. -/
def mediaQaOf (pick : Nat) (artifact : FinalArtifact) (t : ProductionTables) :
    Option MediaQaResult :=
  anyRow pick (t.mediaQa.select fun q =>
    q.workspaceId == artifact.workspaceId && q.finalArtifactId == artifact.id &&
      q.artifactHash == artifact.artifactHash)

/-- A compliance audit of the artifact's exact hash. -/
def complianceAuditOf (pick : Nat) (artifact : FinalArtifact) (t : ComplianceTables) :
    Option ComplianceAudit :=
  anyRow pick (t.audits.select fun a =>
    a.workspaceId == artifact.workspaceId && a.finalArtifactId == artifact.id &&
      a.artifactHash == artifact.artifactHash)

def chiefAuditOf (pick : Nat) (artifact : FinalArtifact) (t : ComplianceTables) :
    Option ChiefAudit :=
  anyRow pick (t.chiefAudits.select fun a =>
    a.workspaceId == artifact.workspaceId && a.finalArtifactId == artifact.id &&
      a.artifactHash == artifact.artifactHash)

def complianceAuditRow (artifact : FinalArtifact)
    (targetPlatform complianceWorkerId status rightsStatus : String) : NewRow ComplianceAudit where
  make id :=
    { id, workspaceId := artifact.workspaceId, finalArtifactId := artifact.id
      artifactHash := artifact.artifactHash, contentVersionId := artifact.contentVersionId
      targetPlatform, complianceWorkerId, status, rightsStatus }
  key_make _ := rfl

/-- `create_compliance_run` -/
def createComplianceRun (workspaceId artifactId : Nat) (targetPlatform : String) (pick : Nat) :
    DepartmentSession Nat := do
  let artifact ← complianceArtifact workspaceId artifactId
  let d ← get
  let rights := anyRow pick (d.compliance.rights.select fun r =>
    r.workspaceId == workspaceId && r.finalArtifactId == artifactId)
  modify (insertComplianceAudit (complianceAuditRow artifact targetPlatform "compliance"
    "blocked_provider_not_configured" ((rights.map (·.rightsStatus)).getD "unverified")))
  return d.compliance.audits.next

def manifestRow (workspaceId : Nat) : NewRow AuditGateManifest where
  make id :=
    { id, workspaceId, contentType := "short_form_media", manifestVersion := 1
      requiredGates := defaultGates }
  key_make _ := rfl

/-- `create_test_manifest` -/
def createTestManifest (workspaceId : Nat) : DepartmentSession AuditGateManifest := do
  let d ← get
  let existing ← scalarOneOrNone (d.compliance.manifests.select fun m =>
    m.workspaceId == workspaceId && m.contentType == "short_form_media" && m.manifestVersion == 1)
  match existing with
  | some manifest => return manifest
  | none =>
    modify (insertManifest (manifestRow workspaceId))
    return (manifestRow workspaceId).make d.compliance.manifests.next

def rightsRow (artifact : FinalArtifact) : NewRow ArtifactRightsEvidence where
  make id :=
    { id, workspaceId := artifact.workspaceId, finalArtifactId := artifact.id
      rightsStatus := "verified" }
  key_make _ := rfl

/-- `create_test_compliance_pass` -/
def createTestCompliancePass (workspaceId artifactId : Nat) (workerId : String) (pick : Nat) :
    DepartmentSession Nat := do
  let artifact ← complianceArtifact workspaceId artifactId
  let d ← get
  ensure ((mediaQaOf pick artifact d.production).any fun q => q.status == "pass")
    (.complianceGate "Media QA pass bound to exact artifact hash is required")
  modify (insertRights (rightsRow artifact))
  modify (insertComplianceAudit (complianceAuditRow artifact "test" workerId "pass" "verified"))
  return d.compliance.audits.next

/-- What keeps the chief auditor from passing. -/
def chiefBlockers (media : Option MediaQaResult) (compliance : Option ComplianceAudit) :
    List String :=
  (if media.any fun q => q.status == "pass" then [] else ["media_qa_missing_or_not_pass"]) ++
    (if compliance.any fun a => a.status == "pass" then [] else ["compliance_missing_or_not_pass"])

def chiefAuditRow (artifact : FinalArtifact) (manifestId : Nat) (workerId : String)
    (blockers : List String) : NewRow ChiefAudit where
  make id :=
    { id, workspaceId := artifact.workspaceId, finalArtifactId := artifact.id
      artifactHash := artifact.artifactHash, contentVersionId := artifact.contentVersionId
      gateManifestId := manifestId, chiefAuditorWorkerId := workerId, blockers
      status := if blockers.isEmpty then "pass_to_human_review" else "blocked" }
  key_make _ := rfl

/-- `run_test_chief_audit` -/
def runTestChiefAudit (workspaceId artifactId : Nat) (workerId : String)
    (pickMedia pickCompliance : Nat) : DepartmentSession Nat := do
  let artifact ← complianceArtifact workspaceId artifactId
  let manifest ← createTestManifest workspaceId
  let d ← get
  let blockers := chiefBlockers (mediaQaOf pickMedia artifact d.production)
    (complianceAuditOf pickCompliance artifact d.compliance)
  modify (insertChiefAudit (chiefAuditRow artifact manifest.id workerId blockers))
  return d.compliance.chiefAudits.next

def complianceInvalidationRow (audit : ComplianceAudit) (reason : String) :
    NewRow ComplianceInvalidation where
  make id :=
    { id, workspaceId := audit.workspaceId, complianceAuditId := audit.id
      finalArtifactId := audit.finalArtifactId, reason }
  key_make _ := rfl

/-- `invalidate_compliance`; `uq_compliance_invalidation_reason` admits a reason once. -/
def invalidateCompliance (workspaceId auditId : Nat) (reason : String) : DepartmentSession Nat := do
  let d ← get
  let audit ← demand ((d.compliance.audits.get? auditId).filter fun a =>
    a.workspaceId == workspaceId) (.complianceNotFound "compliance audit not found")
  ensure (d.compliance.invalidations.select fun i =>
    i.complianceAuditId == auditId && i.reason == reason).isEmpty
    (.integrityError "uq_compliance_invalidation_reason")
  modify (insertComplianceInvalidation (complianceInvalidationRow audit reason))
  return d.compliance.invalidations.next

/-- What keeps an artifact from being published. -/
def publicationBlockers (chief : Option ChiefAudit) (readiness : Option ProductionReadiness) :
    List String :=
  (if readiness.any fun r => r.mediaQaState == "pass" then [] else ["media_qa_not_passed"]) ++
    (if chief.any fun c => c.status == "pass_to_human_review" then [] else
      ["chief_audit_not_passed"]) ++
    ["external_publishing_disabled"]

def eligibilityRow (artifact : FinalArtifact) (targetPlatform : String) (chief : Option ChiefAudit)
    (readiness : Option ProductionReadiness) : NewRow ArtifactPublicationEligibility where
  make id :=
    { id, workspaceId := artifact.workspaceId, finalArtifactId := artifact.id
      artifactHash := artifact.artifactHash, contentVersionId := artifact.contentVersionId
      targetPlatform, chiefAuditId := chief.map (·.id), status := "blocked"
      blockingReasons := publicationBlockers chief readiness, publicationEligible := false }
  key_make _ := rfl

/-- `publication_eligibility`; `uq_artifact_publication_eligibility` admits a platform once. -/
def publicationEligibility (workspaceId artifactId : Nat) (targetPlatform : String) (pick : Nat) :
    DepartmentSession Nat := do
  let artifact ← complianceArtifact workspaceId artifactId
  let d ← get
  let chief := chiefAuditOf pick artifact d.compliance
  let readiness ← scalarOneOrNone (d.production.readiness.select fun r =>
    r.workspaceId == workspaceId && r.finalArtifactId == artifactId)
  ensure (d.compliance.eligibility.select fun e =>
    e.workspaceId == workspaceId && e.finalArtifactId == artifactId &&
      e.targetPlatform == targetPlatform).isEmpty
    (.integrityError "uq_artifact_publication_eligibility")
  modify (insertEligibility (eligibilityRow artifact targetPlatform chief readiness))
  return d.compliance.eligibility.next

end ContentOrchestrator.Departments

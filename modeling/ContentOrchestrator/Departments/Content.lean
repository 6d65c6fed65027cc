import ContentOrchestrator.Departments.ScriptClaims
import ContentOrchestrator.Departments.Strategy

/-! # The content department

A package is one script with its claims and its fingerprints, written for a brief the
strategy auditor passed. Four auditors look at it; after each audit the package's gate is
recomputed from the latest audit of each. A new version of a script supersedes the package
before it and invalidates the audits that one had. -/

namespace ContentOrchestrator

/-- `_MANDATORY_AUDITORS` -/
def AuditorType.all : List AuditorType := [.language, .fact, .brand, .originality]

def AuditorType.name : AuditorType → String
  | language => "language"
  | fact => "fact"
  | brand => "brand"
  | originality => "originality"

/-- The auditor of this name, if `_ALLOWED_AUDITORS` has one. -/
def AuditorType.ofName (name : String) : Option AuditorType :=
  AuditorType.all.find? fun kind => kind.name == name

def AuditState.name : AuditState → String
  | notRun => "not_run"
  | pass => "pass"
  | passWithWarning => "pass_with_warning"
  | blocked => "blocked"
  | error => "error"

/-- The verdict of this name, if an auditor may return it. -/
def AuditState.ofName (name : String) : Option AuditState :=
  [AuditState.pass, .passWithWarning, .blocked, .error].find? fun state => state.name == name

/-- What a gate leaves to the producer. -/
def PackageGate.handoff : PackageGate → ProducerHandoff
  | pass => .providerNotConfigured
  | notReady | blocked | invalidated => .blocked

/-- The status a package has under a gate. -/
def PackageGate.status : PackageGate → PackageStatus
  | notReady => .awaitingAudits
  | blocked => .auditedBlocked
  | pass => .auditedReady
  | invalidated => .superseded

namespace Departments

open Lib

variable (lib : StandardLibrary)

def maxContentText := 12000

structure FixtureClaim where
  claimText : Option String := none
  claimType : Option String := none
  sourceRequired : Option Bool := none
  risk : Option String := none

structure FixturePackage where
  objective : Option String := none
  creativeConcept : Option String := none
  hook : Option String := none
  script : Option String := none
  cta : Option String := none
  revisionReason : Option String := none
  claims : Option (List FixtureClaim) := none

/-! ## Fingerprints -/

/-- `_fingerprint` -/
def textFingerprint (value : String) : String :=
  lib.sha256 (String.ofList (join (split (lib.lower value).toList)))

/-- `[A-Za-z0-9]+` -/
def tokenPattern : Pattern Char := .oneOrMore Char.isAlphanum

/-- `_structure_fingerprint` -/
def structureFingerprint (parts : List String) : String :=
  lib.sha256 (String.intercalate "|" (parts.map fun part =>
    String.ofList (tokenPattern.sub "token".toList (lib.lower part).toList)))

/-! ## Opening a package -/

/-- `_require_strategy_pass` -/
def requireStrategyPass (workspaceId briefId : Nat) : DepartmentSession StrategyBrief := do
  tryCatch (writerGate workspaceId briefId) fun e =>
    match e with
    | .strategyAuditGate detail => throw (.contentDepartmentGate detail)
    | .lookupError message => throw (.contentDepartmentGate message)
    | e => throw e
  demand (getBrief workspaceId briefId (← get).strategy)
    (.contentDepartmentGate "approved strategy brief not found")

def insertContentRun (row : NewRow ContentDepartmentRun) (d : Departments) : Departments :=
  { d with content.runs := d.content.runs.insert row }

def modifyContentRun (runId : Nat) (u : Update ContentDepartmentRun) (d : Departments) :
    Departments :=
  { d with content.runs := d.content.runs.modify runId u }

def insertDirection (row : NewRow CreativeDirection) (d : Departments) : Departments :=
  { d with content.directions := d.content.directions.insert row }

def insertItem (row : NewRow StudioItem) (d : Departments) : Departments :=
  { d with content.items := d.content.items.insert row }

def modifyItem (itemId : Nat) (u : Update StudioItem) (d : Departments) : Departments :=
  { d with content.items := d.content.items.modify itemId u }

def insertVersion (row : NewRow StudioVersion) (d : Departments) : Departments :=
  { d with content.versions := d.content.versions.insert row }

def insertPackage (row : NewRow ContentPackage) (d : Departments) : Departments :=
  { d with content.packages := d.content.packages.insert row }

def modifyPackage (packageId : Nat) (u : Update ContentPackage) (d : Departments) : Departments :=
  { d with content.packages := d.content.packages.modify packageId u }

def insertContentClaim (row : NewRow ContentClaim) (d : Departments) : Departments :=
  { d with content.claims := d.content.claims.insert row }

def insertFingerprint (row : NewRow OriginalityFingerprint) (d : Departments) : Departments :=
  { d with content.fingerprints := d.content.fingerprints.insert row }

def insertContentInvalidation (row : NewRow ContentAuditInvalidation) (d : Departments) :
    Departments :=
  { d with content.invalidations := d.content.invalidations.insert row }

/-- `create_manual_run`: the request is stored, and no provider is configured. -/
def createManualContentRun (workspaceId briefId : Nat) (profileComplete : Bool) :
    DepartmentSession Nat := do
  let _ ← requireStrategyPass workspaceId briefId
  let d ← get
  modify (insertContentRun ⟨fun id =>
    { id, workspaceId, strategyBriefId := briefId, status := .providerNotConfigured
      businessContextState := if profileComplete then "complete" else "incomplete"
      lastError := some ("CONTENT PROVIDER NOT CONFIGURED" ++
        (if profileComplete then "" else "; BUSINESS CONTEXT INCOMPLETE") ++
        "; NO CREATIVE DIRECTION OR CONTENT VERSION CREATED") }, fun _ => rfl⟩)
  return d.content.runs.next

/-- The texts of a script, each through the guard. -/
structure GuardedScript where
  objective : String
  concept : String
  hook : String
  body : String
  cta : String

/-- The script as one text. -/
def GuardedScript.full (script : GuardedScript) : String :=
  String.intercalate "\n" [script.hook, script.body, script.cta]

def readScript (fixture : FixturePackage) (brief : StrategyBrief) :
    DepartmentSession GuardedScript := do
  let objective ← guardText (fixture.objective.getD brief.objective) "objective" maxContentText
  let concept ← guardText (fixture.creativeConcept.getD objective) "creative concept" maxContentText
  let hook ← guardText (fixture.hook.getD "A practical evidence-first opening.") "hook"
    maxContentText
  let body ← guardText (fixture.script.getD "Use approved evidence and avoid unsupported claims.")
    "script" maxContentText
  let cta ← guardText (fixture.cta.getD "Review the evidence before acting.") "cta" maxContentText
  let script : GuardedScript := { objective, concept, hook, body, cta }
  ensure (!(unsupportedClaim lib).occursIn script.full.toList)
    (.valueError "script contains unsupported performance or guarantee claim")
  return script

def getPackage (workspaceId packageId : Nat) (t : ContentTables) : Option ContentPackage :=
  (t.packages.get? packageId).filter fun p =>
    p.workspaceId == workspaceId && p.deletedAt.isNone

/-- The package to revise, if one is named. -/
def priorPackage (workspaceId : Nat) : Option Nat → DepartmentSession (Option ContentPackage)
  | none => pure none
  | some packageId => do
    let previous ← demand (getPackage workspaceId packageId (← get).content)
      (.lookupError "prior content package not found")
    return some previous

def StudioItem.setVersion (versionId : Nat) : Update StudioItem :=
  ⟨fun i => { i with currentVersionId := some versionId }, fun _ => rfl⟩

/-- The package of a version just written. -/
def packageRow (workspaceId briefId runId directionId itemId versionId : Nat)
    (previous : Option ContentPackage) (revisionReason : Option String) :
    NewRow ContentPackage where
  make id :=
    { id, workspaceId, contentDepartmentRunId := runId, creativeDirectionId := directionId
      strategyBriefId := briefId, contentItemId := itemId, contentVersionId := versionId
      priorContentVersionId := previous.map (·.contentVersionId)
      revisionReason := if previous.isSome then revisionReason else none
      writerWorkerId := "writer_fixture", status := .awaitingAudits, auditGateStatus := .notReady
      producerHandoffState := .blocked }
  key_make _ := rfl

def directionRow (workspaceId briefId runId : Nat) (script : GuardedScript) :
    NewRow CreativeDirection where
  make id :=
    { id, workspaceId, contentDepartmentRunId := runId, strategyBriefId := briefId
      objective := script.objective, creativeConcept := script.concept
      workerId := "creative_director_fixture" }
  key_make _ := rfl

def itemRow (workspaceId : Nat) (script : GuardedScript) : NewRow StudioItem :=
  ⟨fun id => { id, workspaceId, topic := script.objective }, fun _ => rfl⟩

def versionRow (workspaceId itemId : Nat) (script : GuardedScript) : NewRow StudioVersion where
  make id :=
    { id, workspaceId, contentItemId := itemId, scriptHook := script.hook, scriptBody := script.body
      scriptCta := script.cta }
  key_make _ := rfl

/-- The rows of a new package, from its direction down to itself. -/
def openPackage (workspaceId briefId runId : Nat) (script : GuardedScript)
    (previous : Option ContentPackage) (revisionReason : Option String) :
    DepartmentSession ContentPackage := do
  let d ← get
  let directionId := d.content.directions.next
  let itemId := d.content.items.next
  let versionId := d.content.versions.next
  modify (insertDirection (directionRow workspaceId briefId runId script))
  modify (insertItem (itemRow workspaceId script))
  modify (insertVersion (versionRow workspaceId itemId script))
  modify (modifyItem itemId (StudioItem.setVersion versionId))
  let row :=
    packageRow workspaceId briefId runId directionId itemId versionId previous revisionReason
  modify (insertPackage row)
  return row.make d.content.packages.next

/-- The claims a fixture names, or those of the script. -/
def claimsOf (fixture : FixturePackage) (script : GuardedScript) : List FixtureClaim :=
  fixture.claims.getD ((extractClaims lib script.full).map fun claim =>
    { claimText := some claim.claimText, claimType := some claim.claimType
      sourceRequired := some true, risk := some claim.risk })

def claimRow (package : ContentPackage) (claimText : String) (claim : FixtureClaim) :
    NewRow ContentClaim where
  make id :=
    { id, workspaceId := package.workspaceId, contentPackageId := package.id
      contentVersionId := package.contentVersionId, claimText
      claimType := claim.claimType.getD "FACT", sourceRequired := claim.sourceRequired.getD true
      verificationStatus := "not_run", risk := claim.risk.getD "unknown" }
  key_make _ := rfl

def recordClaims (package : ContentPackage) : List FixtureClaim → DepartmentSession Unit
  | [] => pure ()
  | claim :: rest => do
    let claimText ← guardText (← demand claim.claimText (.keyError "claim_text")) "claim text"
      maxContentText
    modify (insertContentClaim (claimRow package claimText claim))
    recordClaims package rest

/-- The package under a gate, with what the gate says of hand-off and status. -/
def ContentPackage.gated (gate : PackageGate) : Update ContentPackage :=
  ⟨fun p =>
    { p with auditGateStatus := gate, producerHandoffState := gate.handoff, status := gate.status },
    fun _ => rfl⟩

/-- The fingerprints of a package beside the one that has its text already. -/
def fingerprintRow (package : ContentPackage) (script : GuardedScript)
    (duplicate : Option OriginalityFingerprint) : NewRow OriginalityFingerprint where
  make id :=
    { id, workspaceId := package.workspaceId, contentPackageId := package.id
      contentVersionId := package.contentVersionId
      textFingerprint := textFingerprint lib script.body
      hookFingerprint := textFingerprint lib script.hook
      structureFingerprint := structureFingerprint lib [script.hook, script.body, script.cta]
      comparisonSet := (duplicate.map (·.contentVersionId)).toList
      state := if duplicate.isSome then "require_differentiation" else "not_run" }
  key_make _ := rfl

/-- The fingerprints of a package; a script whose text is there already is blocked. -/
def recordOriginality (package : ContentPackage) (script : GuardedScript) :
    DepartmentSession Unit := do
  let d ← get
  let duplicate ← scalarOneOrNone (d.content.fingerprints.select fun f =>
    f.workspaceId == package.workspaceId && f.textFingerprint == textFingerprint lib script.body)
  modify (insertFingerprint (fingerprintRow lib package script duplicate))
  if duplicate.isSome then modify (modifyPackage package.id (ContentPackage.gated .blocked))

def ContentPackage.supersede (now : Nat) : Update ContentPackage :=
  ⟨fun p => { (ContentPackage.gated .invalidated).apply p with invalidatedAt := some now },
    fun _ => rfl⟩

def invalidateAudits (previous : ContentPackage) (audits : List ContentAudit) (d : Departments) :
    Departments :=
  audits.foldl (fun d audit => insertContentInvalidation ⟨fun id =>
    { id, workspaceId := previous.workspaceId, contentAuditId := audit.id
      contentPackageId := previous.id, contentVersionId := previous.contentVersionId },
    fun _ => rfl⟩ d) d

def packageAudits (workspaceId packageId : Nat) (t : ContentTables) : List ContentAudit :=
  t.audits.select fun a => a.workspaceId == workspaceId && a.contentPackageId == packageId

/-- The package a new version replaces; `uq_content_audit_invalidation` admits an audit once. -/
def supersede (previous : ContentPackage) : DepartmentSession Unit := do
  let d ← get
  modify (modifyPackage previous.id (ContentPackage.supersede d.now))
  let audits := packageAudits previous.workspaceId previous.id d.content
  ensure (audits.all fun a => (d.content.invalidations.select fun i =>
    i.contentAuditId == a.id && i.contentVersionId == previous.contentVersionId).isEmpty)
    (.integrityError "uq_content_audit_invalidation")
  modify (invalidateAudits previous audits)

def ContentDepartmentRun.directed : Update ContentDepartmentRun :=
  ⟨fun r => { r with creativeDirectionsCreated := 1 }, fun _ => rfl⟩

/-- The run of a package that is being written. -/
def writingRunRow (workspaceId briefId : Nat) : NewRow ContentDepartmentRun where
  make id :=
    { id, workspaceId, strategyBriefId := briefId, status := .writing
      businessContextState := "complete", testData := true }
  key_make _ := rfl

/-- `record_fixture_package` -/
def recordFixturePackage (workspaceId briefId : Nat) (fixture : FixturePackage)
    (priorPackageId : Option Nat) : DepartmentSession Nat := do
  ensureTest "fixture content execution is test-only"
  let brief ← requireStrategyPass workspaceId briefId
  let script ← readScript lib fixture brief
  let previous ← priorPackage workspaceId priorPackageId
  let runId := (← get).content.runs.next
  modify (insertContentRun (writingRunRow workspaceId briefId))
  let package ← openPackage workspaceId briefId runId script previous fixture.revisionReason
  recordClaims package (claimsOf lib fixture script)
  recordOriginality lib package script
  match previous with
  | none => pure ()
  | some previous => supersede previous
  modify (modifyContentRun runId ContentDepartmentRun.directed)
  return package.id

/-! ## The auditors and the gate -/

def latestContentAudit (workspaceId packageId : Nat) (t : ContentTables) (kind : AuditorType) :
    Option ContentAudit :=
  latest (·.checkedAt) ((packageAudits workspaceId packageId t).filter fun a =>
    a.auditorType == kind)

/-- What the latest audit of a kind says. -/
def auditStateOf (workspaceId packageId : Nat) (t : ContentTables) (kind : AuditorType) :
    AuditState :=
  ((latestContentAudit workspaceId packageId t kind).map (·.state)).getD .notRun

/-- `_recalculate_package_gate` on the states of the four. -/
def packageGate (states : AuditorType → AuditState) : PackageGate :=
  if AuditorType.all.any fun kind => states kind == .blocked || states kind == .error then .blocked
  else if AuditorType.all.all fun kind => states kind == .pass then .pass
  else .notReady

def insertContentAudit (row : NewRow ContentAudit) (d : Departments) : Departments :=
  { d with content.audits := d.content.audits.insert row }

def ContentClaim.verify (state : AuditState) : Update ContentClaim :=
  ⟨fun c =>
    { c with
      verificationStatus :=
        if state = .pass ∨ state = .passWithWarning then "verified" else "unverified"
      evidenceReasoning := some "independent fixture audit" }, fun _ => rfl⟩

def verifyClaims (workspaceId packageId : Nat) (state : AuditState) (d : Departments) :
    Departments :=
  let ofPackage := fun c : ContentClaim =>
    c.workspaceId == workspaceId && c.contentPackageId == packageId
  { d with content.claims := d.content.claims.modifyWhere ofPackage (ContentClaim.verify state) }

def ContentDepartmentRun.audited (gate : PackageGate) : Update ContentDepartmentRun :=
  ⟨fun r =>
    { r with
      packagesReady := if gate = .pass then r.packagesReady + 1 else r.packagesReady
      packagesBlocked := if gate = .blocked then r.packagesBlocked + 1 else r.packagesBlocked },
    fun _ => rfl⟩

def contentRunOf (workspaceId runId : Nat) (t : ContentTables) : Option ContentDepartmentRun :=
  (t.runs.get? runId).filter fun r => r.workspaceId == workspaceId

def contentAuditRow (package : ContentPackage) (kind : AuditorType) (auditorWorkerId : String)
    (state : AuditState) (now : Nat) : NewRow ContentAudit where
  make id :=
    { id, workspaceId := package.workspaceId, contentPackageId := package.id
      contentVersionId := package.contentVersionId, auditorType := kind, auditorWorkerId, state
      checkedAt := now }
  key_make _ := rfl

/-- `record_fixture_audit` -/
def recordFixtureAudit (workspaceId packageId : Nat) (auditorType state : String) :
    DepartmentSession ContentAudit := do
  ensureTest "fixture content audits are test-only"
  let kind ← demand (AuditorType.ofName auditorType) (.valueError "unsupported content auditor")
  let verdict ← demand (AuditState.ofName state) (.valueError "unsupported content audit state")
  let d ← get
  let package ← demand (getPackage workspaceId packageId d.content)
    (.lookupError "content package not found")
  let direction ← demand ((d.content.directions.get? package.creativeDirectionId).filter fun c =>
    c.workspaceId == workspaceId) (.contentDepartmentGate "creative direction not found")
  let auditor := auditorType ++ "_auditor_fixture"
  ensure (!(auditor == package.writerWorkerId || auditor == direction.workerId))
    (.contentDepartmentGate "creator and auditor responsibilities must remain separate")
  let row := contentAuditRow package kind auditor verdict d.now
  modify (insertContentAudit row)
  modify fun d => if kind = .fact then verifyClaims workspaceId packageId verdict d else d
  let gate := packageGate (auditStateOf workspaceId packageId (← get).content)
  modify (modifyPackage packageId (ContentPackage.gated gate))
  modify fun d' =>
    if (contentRunOf workspaceId package.contentDepartmentRunId d.content).isSome then
    modifyContentRun package.contentDepartmentRunId (ContentDepartmentRun.audited gate) d' else d'
  return row.make d.content.audits.next

/-- `producer_gate` -/
def producerGate (workspaceId packageId : Nat) : DepartmentSession Unit := do
  let package ← demand (getPackage workspaceId packageId (← get).content)
    (.lookupError "content package not found")
  ensure (package.auditGateStatus == .pass) (.contentDepartmentGate
    "all mandatory independent content audits must pass before Producer eligibility")

end Departments

end ContentOrchestrator

import ContentOrchestrator.Departments.TextGuards
import ContentOrchestrator.Lib.Failing
import ContentOrchestrator.Lib.Table

/-! # The departments' tables

Five departments hand one piece of content on: research, strategy, content, production
and compliance. Each keeps its own tables beside what the one before it wrote. Sources,
evidence, audits and invalidations are append-only; opportunities, briefs, packages and
jobs carry the gate columns that audits move. -/

namespace ContentOrchestrator

open Lib

inductive AuditState
  | notRun | pass | passWithWarning | blocked | error
deriving DecidableEq, Repr

inductive DepartmentRunStatus
  | running | writing | succeeded | failed | duplicate | providerNotConfigured
deriving DecidableEq, Repr

/-! ## Research -/

structure ResearchRun where
  id : Nat
  workspaceId : Nat
  status : DepartmentRunStatus
  searchesUsed : Nat := 0
  opportunityCount : Nat := 0
  auditedOpportunityCount : Nat := 0
  blockedOpportunityCount : Nat := 0
  lastError : Option String := none
  testData : Bool := false

inductive HandlingState
  | accepted | rejected
deriving DecidableEq, Repr

structure ResearchSource where
  id : Nat
  workspaceId : Nat
  researchRunId : Nat
  canonicalUrl : String
  retrievedAt : Nat
  claimSupported : Option String
  freshness : String
  contentDigest : String
  safeExcerpt : Option String
  handlingState : HandlingState
  rejectionReason : Option String

structure Opportunity where
  id : Nat
  workspaceId : Nat
  researchRunId : Nat
  title : String
  topic : String
  summary : String
  proposedAngle : String
  targetPlatform : Option String
  suggestedFormat : Option String
  sourceCount : Nat
  status : String
  dedupeKey : String
  auditGateStatus : AuditState := .notRun
  strategistState : String := "not_sent"
  deletedAt : Option Nat := none

structure OpportunityEvidence where
  id : Nat
  workspaceId : Nat
  opportunityId : Nat
  sourceId : Nat
  claimSupported : String

/-- What one accepted source shows. -/
structure ResearchFinding where
  sourceId : Nat
  freshness : String
  claimSupport : Bool
deriving DecidableEq, Repr

structure ResearchAudit where
  id : Nat
  workspaceId : Nat
  opportunityId : Nat
  researchRunId : Nat
  state : AuditState
  findings : List ResearchFinding
  warnings : List String
  blockedReasons : List String
  checkedAt : Nat

/-! ## Strategy -/

structure StrategyRun where
  id : Nat
  workspaceId : Nat
  status : DepartmentRunStatus
  sourceOpportunityIds : List Nat
  businessContextState : String
  briefsCreated : Nat := 0
  briefsPassed : Nat := 0
  briefsBlocked : Nat := 0
  lastError : Option String := none
  testData : Bool := false

/-- The optional texts of a brief. -/
inductive BriefField
  | targetAudience | targetPlatform | contentFormat | creativeAngle | coreMessage | hookDirection
  | ctaDirection | businessGoal | successMetric | commercialGoal | recommendedLength
  | recommendedPostingWindow
deriving DecidableEq, Repr

structure StrategyBrief where
  id : Nat
  workspaceId : Nat
  strategyRunId : Nat
  objective : String
  text : BriefField → Option String
  evidenceSummary : String
  reasoning : String
  costState : String
  capabilityState : String
  businessContextState : String
  performanceDataState : String
  structuralFingerprint : String
  repetitionState : String
  repetitionReasons : List String
  auditGateStatus : AuditState := .notRun
  writerHandoffState : String := "blocked"
  status : String := "draft"
  deletedAt : Option Nat := none

structure StrategyBriefOpportunity where
  id : Nat
  workspaceId : Nat
  strategyBriefId : Nat
  opportunityId : Nat

structure StrategyAudit where
  id : Nat
  workspaceId : Nat
  strategyBriefId : Nat
  strategyRunId : Nat
  state : AuditState
  findings : List Nat
  warnings : List String
  blockedReasons : List String
  checkedAt : Nat

/-! ## Content -/

structure ContentDepartmentRun where
  id : Nat
  workspaceId : Nat
  strategyBriefId : Nat
  status : DepartmentRunStatus
  businessContextState : String
  creativeDirectionsCreated : Nat := 0
  packagesReady : Nat := 0
  packagesBlocked : Nat := 0
  lastError : Option String := none
  testData : Bool := false

structure CreativeDirection where
  id : Nat
  workspaceId : Nat
  contentDepartmentRunId : Nat
  strategyBriefId : Nat
  objective : String
  creativeConcept : String
  workerId : String

structure StudioItem where
  id : Nat
  workspaceId : Nat
  topic : String
  currentVersionId : Option Nat := none

structure StudioVersion where
  id : Nat
  workspaceId : Nat
  contentItemId : Nat
  scriptHook : String
  scriptBody : String
  scriptCta : String

inductive PackageGate
  | notReady | blocked | pass | invalidated
deriving DecidableEq, Repr

inductive ProducerHandoff
  | blocked | providerNotConfigured
deriving DecidableEq, Repr

inductive PackageStatus
  | awaitingAudits | auditedBlocked | auditedReady | superseded
deriving DecidableEq, Repr

structure ContentPackage where
  id : Nat
  workspaceId : Nat
  contentDepartmentRunId : Nat
  creativeDirectionId : Nat
  strategyBriefId : Nat
  contentItemId : Nat
  contentVersionId : Nat
  priorContentVersionId : Option Nat
  revisionReason : Option String
  writerWorkerId : String
  status : PackageStatus
  auditGateStatus : PackageGate
  producerHandoffState : ProducerHandoff
  invalidatedAt : Option Nat := none
  deletedAt : Option Nat := none

structure ContentClaim where
  id : Nat
  workspaceId : Nat
  contentPackageId : Nat
  contentVersionId : Nat
  claimText : String
  claimType : String
  sourceRequired : Bool
  verificationStatus : String
  risk : String
  evidenceReasoning : Option String := none

inductive AuditorType
  | language | fact | brand | originality
deriving DecidableEq, Repr

structure ContentAudit where
  id : Nat
  workspaceId : Nat
  contentPackageId : Nat
  contentVersionId : Nat
  auditorType : AuditorType
  auditorWorkerId : String
  state : AuditState
  checkedAt : Nat

structure ContentAuditInvalidation where
  id : Nat
  workspaceId : Nat
  contentAuditId : Nat
  contentPackageId : Nat
  contentVersionId : Nat

structure OriginalityFingerprint where
  id : Nat
  workspaceId : Nat
  contentPackageId : Nat
  contentVersionId : Nat
  textFingerprint : String
  hookFingerprint : String
  structureFingerprint : String
  comparisonSet : List Nat
  state : String

/-! ## Production and compliance -/

structure ProductionJob where
  id : Nat
  workspaceId : Nat
  contentPackageId : Nat
  contentItemId : Nat
  contentVersionId : Nat
  status : String
  providerState : String
  testData : Bool := false

structure FinalArtifact where
  id : Nat
  workspaceId : Nat
  productionJobId : Nat
  contentItemId : Nat
  contentVersionId : Nat
  artifactHash : String
  status : String
  testData : Bool

structure MediaQaResult where
  id : Nat
  workspaceId : Nat
  finalArtifactId : Nat
  artifactHash : String
  auditorWorkerId : String
  status : String
  createdAt : Nat

structure ProductionReadiness where
  id : Nat
  workspaceId : Nat
  finalArtifactId : Nat
  contentVersionId : Nat
  mediaQaState : String
  complianceState : String := "not_run"
  chiefAuditState : String := "not_run"
  humanReviewState : String := "blocked"
  status : String := "blocked"
  blockingReasons : List String

structure ArtifactInvalidation where
  id : Nat
  workspaceId : Nat
  finalArtifactId : Nat
  mediaQaResultId : Option Nat
  reason : String

structure ArtifactRightsEvidence where
  id : Nat
  workspaceId : Nat
  finalArtifactId : Nat
  rightsStatus : String

structure AuditGateManifest where
  id : Nat
  workspaceId : Nat
  contentType : String
  manifestVersion : Nat
  requiredGates : List String

structure ComplianceAudit where
  id : Nat
  workspaceId : Nat
  finalArtifactId : Nat
  artifactHash : String
  contentVersionId : Nat
  targetPlatform : String
  complianceWorkerId : String
  status : String
  rightsStatus : String

structure ComplianceInvalidation where
  id : Nat
  workspaceId : Nat
  complianceAuditId : Nat
  finalArtifactId : Nat
  reason : String

structure ChiefAudit where
  id : Nat
  workspaceId : Nat
  finalArtifactId : Nat
  artifactHash : String
  contentVersionId : Nat
  gateManifestId : Nat
  chiefAuditorWorkerId : String
  blockers : List String
  status : String

structure ArtifactPublicationEligibility where
  id : Nat
  workspaceId : Nat
  finalArtifactId : Nat
  artifactHash : String
  contentVersionId : Nat
  targetPlatform : String
  chiefAuditId : Option Nat
  status : String
  blockingReasons : List String
  publicationEligible : Bool

instance : Keyed ResearchRun := ⟨(·.id)⟩
instance : Keyed ResearchSource := ⟨(·.id)⟩
instance : Keyed Opportunity := ⟨(·.id)⟩
instance : Keyed OpportunityEvidence := ⟨(·.id)⟩
instance : Keyed ResearchAudit := ⟨(·.id)⟩
instance : Keyed StrategyRun := ⟨(·.id)⟩
instance : Keyed StrategyBrief := ⟨(·.id)⟩
instance : Keyed StrategyBriefOpportunity := ⟨(·.id)⟩
instance : Keyed StrategyAudit := ⟨(·.id)⟩
instance : Keyed ContentDepartmentRun := ⟨(·.id)⟩
instance : Keyed CreativeDirection := ⟨(·.id)⟩
instance : Keyed StudioItem := ⟨(·.id)⟩
instance : Keyed StudioVersion := ⟨(·.id)⟩
instance : Keyed ContentPackage := ⟨(·.id)⟩
instance : Keyed ContentClaim := ⟨(·.id)⟩
instance : Keyed ContentAudit := ⟨(·.id)⟩
instance : Keyed ContentAuditInvalidation := ⟨(·.id)⟩
instance : Keyed OriginalityFingerprint := ⟨(·.id)⟩
instance : Keyed ProductionJob := ⟨(·.id)⟩
instance : Keyed FinalArtifact := ⟨(·.id)⟩
instance : Keyed MediaQaResult := ⟨(·.id)⟩
instance : Keyed ProductionReadiness := ⟨(·.id)⟩
instance : Keyed ArtifactInvalidation := ⟨(·.id)⟩
instance : Keyed ArtifactRightsEvidence := ⟨(·.id)⟩
instance : Keyed AuditGateManifest := ⟨(·.id)⟩
instance : Keyed ComplianceAudit := ⟨(·.id)⟩
instance : Keyed ComplianceInvalidation := ⟨(·.id)⟩
instance : Keyed ChiefAudit := ⟨(·.id)⟩
instance : Keyed ArtifactPublicationEligibility := ⟨(·.id)⟩

structure ResearchTables where
  runs : Table ResearchRun := ∅
  sources : Table ResearchSource := ∅
  opportunities : Table Opportunity := ∅
  evidence : Table OpportunityEvidence := ∅
  audits : Table ResearchAudit := ∅

structure StrategyTables where
  runs : Table StrategyRun := ∅
  briefs : Table StrategyBrief := ∅
  briefOpportunities : Table StrategyBriefOpportunity := ∅
  audits : Table StrategyAudit := ∅

structure ContentTables where
  runs : Table ContentDepartmentRun := ∅
  directions : Table CreativeDirection := ∅
  items : Table StudioItem := ∅
  versions : Table StudioVersion := ∅
  packages : Table ContentPackage := ∅
  claims : Table ContentClaim := ∅
  audits : Table ContentAudit := ∅
  invalidations : Table ContentAuditInvalidation := ∅
  fingerprints : Table OriginalityFingerprint := ∅

structure ProductionTables where
  jobs : Table ProductionJob := ∅
  artifacts : Table FinalArtifact := ∅
  mediaQa : Table MediaQaResult := ∅
  readiness : Table ProductionReadiness := ∅
  invalidations : Table ArtifactInvalidation := ∅

structure ComplianceTables where
  rights : Table ArtifactRightsEvidence := ∅
  manifests : Table AuditGateManifest := ∅
  audits : Table ComplianceAudit := ∅
  invalidations : Table ComplianceInvalidation := ∅
  chiefAudits : Table ChiefAudit := ∅
  eligibility : Table ArtifactPublicationEligibility := ∅

/-- The departments' tables, the clock and the deployment they run in. -/
structure Departments where
  now : Nat := 0
  environment : Option String := none
  research : ResearchTables := {}
  strategy : StrategyTables := {}
  content : ContentTables := {}
  production : ProductionTables := {}
  compliance : ComplianceTables := {}

inductive DepartmentError
  | runtimeError (message : String)
  | valueError (message : String)
  | keyError (key : String)
  | indexError
  | lookupError (message : String)
  | multipleResultsFound
  | integrityError (constraint : String)
  | researchGate (detail : String)
  | strategyGate (detail : String)
  | strategyAuditGate (detail : String)
  | contentDepartmentGate (detail : String)
  | productionEligibility (detail : String)
  | producerGate (detail : String)
  | complianceGate (detail : String)
  | productionNotFound (message : String)
  | complianceNotFound (message : String)
deriving DecidableEq, Repr

abbrev DepartmentSession (α : Type) := EStateM DepartmentError Departments α

namespace Departments

variable {α : Type}

def demand (row : Option α) (e : DepartmentError) : DepartmentSession α :=
  match row with
  | some a => pure a
  | none => throw e

def ensure (condition : Bool) (e : DepartmentError) : DepartmentSession Unit :=
  if condition then pure () else throw e

/-- `scalar_one_or_none` -/
def scalarOneOrNone : List α → DepartmentSession (Option α)
  | [] => pure none
  | [row] => pure (some row)
  | _ => throw .multipleResultsFound

/-- `scalars().first()` of an unordered query: some row, if there is one. -/
def anyRow (pick : Nat) (rows : List α) : Option α := rows[pick % rows.length]?

/-- What is only for tests raises everywhere else. -/
def ensureTest (message : String) : DepartmentSession Unit := do
  let d ← get
  ensure (d.environment == some "test") (.runtimeError message)

/-- The row with the highest time, and among rows of one time the last. -/
def latest (time : α → Nat) : List α → Option α
  | [] => none
  | a :: rest =>
    match latest time rest with
    | none => some a
    | some b => if time b < time a then some a else some b

variable {d d' : Departments} {a : α} {e : DepartmentError}

@[simp] theorem returns_demand {row : Option α} :
    Returns (demand row e) d a d' ↔ row = some a ∧ d = d' := by
  cases row <;> simp [demand]

@[simp] theorem returns_ensure {condition : Bool} {u : Unit} :
    Returns (ensure condition e) d u d' ↔ condition = true ∧ d = d' := by
  cases condition <;> simp [ensure]

@[simp] theorem returns_scalarOneOrNone {rows : List α} {row : Option α} :
    Returns (scalarOneOrNone rows) d row d' ↔ row.toList = rows ∧ d = d' := by
  rcases rows with _ | ⟨b, _ | ⟨c, rest⟩⟩
  · cases row <;> simp [scalarOneOrNone]
  · cases row <;> simp [scalarOneOrNone, eq_comm]
  · cases row <;> simp [scalarOneOrNone]

@[simp] theorem returns_ensureTest {message : String} {u : Unit} :
    Returns (ensureTest message) d u d' ↔ d.environment = some "test" ∧ d = d' := by
  simp [ensureTest, and_comm]

variable {time : α → Nat} {rows : List α}

theorem anyRow_mem {pick : Nat} (h : anyRow pick rows = some a) : a ∈ rows :=
  List.mem_of_getElem? h

theorem latest_mem (h : latest time rows = some a) : a ∈ rows := by
  induction rows with
  | nil => cases h
  | cons b rest ih =>
    rw [latest] at h
    cases hrest : latest time rest with
    | none =>
      rw [hrest] at h
      exact List.mem_cons.mpr (.inl (Option.some.inj h).symm)
    | some c =>
      rw [hrest] at h ih
      simp only at h
      split at h
      · exact List.mem_cons.mpr (.inl (Option.some.inj h).symm)
      · exact List.mem_cons_of_mem _ (ih h)

/-- A row added no earlier than the others is the latest. -/
theorem latest_append (h : ∀ b ∈ rows, time b ≤ time a) : latest time (rows ++ [a]) = some a := by
  induction rows with
  | nil => rfl
  | cons b rest ih =>
    rw [List.cons_append, latest, ih fun c hc => h c (List.mem_cons_of_mem _ hc)]
    exact if_neg (Nat.not_lt.mpr (h b List.mem_cons_self))

end Departments

end ContentOrchestrator

import ContentOrchestrator.Properties.ReviewLineage

/-! # Outside tests nothing is produced

No provider is configured, and everything that stands in for one runs only where the
environment is `test`. So anywhere else the departments store requests and nothing more: the
later departments find nothing of the earlier ones to go on with. -/

namespace ContentOrchestrator.Departments

open Lib Lib.Table

variable {lib : StandardLibrary} {d d' : Departments} {workspaceId : Nat}

/-- The departments with requests alone. -/
def requests (now : Nat) (environment : Option String) (researchRuns : Table ResearchRun)
    (strategyRuns : Table StrategyRun) (manifests : Table AuditGateManifest) : Departments where
  now
  environment
  research := { runs := researchRuns }
  strategy := { runs := strategyRuns }
  compliance := { manifests }

/-- Only requests are stored, each saying that no provider is configured. -/
structure OnlyRequests (d : Departments) : Prop where
  tables : ∃ now environment researchRuns strategyRuns manifests,
    d = requests now environment researchRuns strategyRuns manifests
  research : ∀ r ∈ d.research.runs, r.status = .providerNotConfigured ∧ r.searchesUsed = 0 ∧
    r.opportunityCount = 0
  strategy : ∀ r ∈ d.strategy.runs, r.status = .providerNotConfigured ∧ r.briefsCreated = 0 ∧
    r.sourceOpportunityIds = []

theorem deployment_onlyRequests (environment : Option String) :
    OnlyRequests (deployment environment) where
  tables := ⟨0, environment, ∅, ∅, ∅, rfl⟩
  research _ h := absurd h mem_empty
  strategy _ h := absurd h mem_empty

namespace OnlyRequests

/-! ## The calls that store something -/

theorem researchRun {run : Nat} (h : OnlyRequests d)
    (hreturned : Returns (createManualResearchRun workspaceId) d run d') : OnlyRequests d' := by
  simp only [createManualResearchRun, returns_bind, returns_get, returns_modify, returns_pure]
    at hreturned
  obtain ⟨_, _, ⟨rfl, rfl⟩, _, _, rfl, -, rfl⟩ := hreturned
  obtain ⟨now, environment, researchRuns, strategyRuns, manifests, rfl⟩ := h.tables
  refine ⟨⟨now, environment, _, strategyRuns, manifests, rfl⟩, fun r hr => ?_, h.strategy⟩
  rcases mem_insert.mp hr with hr | rfl
  · exact h.research r hr
  · exact ⟨rfl, rfl, rfl⟩

theorem strategyRun {objective : String} {opportunityIds : List Nat} {profileComplete : Bool}
    {run : Nat} (h : OnlyRequests d)
    (hreturned : Returns
      (createManualStrategyRun workspaceId objective opportunityIds profileComplete) d run d') :
    OnlyRequests d' := by
  simp only [createManualStrategyRun, returns_bind, returns_get, returns_modify, returns_pure]
    at hreturned
  obtain ⟨_, _, hguard, _, d₁, hpass, _, _, ⟨rfl, rfl⟩, _, _, rfl, -, rfl⟩ := hreturned
  obtain ⟨-, -, rfl⟩ := guardText_returns hguard
  obtain ⟨now, environment, researchRuns, strategyRuns, manifests, rfl⟩ := h.tables
  cases opportunityIds with
  | nil =>
    obtain ⟨-, rfl⟩ := returns_pure.mp hpass
    refine ⟨⟨now, environment, researchRuns, _, manifests, rfl⟩, h.research, fun r hr => ?_⟩
    rcases mem_insert.mp hr with hr | rfl
    · exact h.strategy r hr
    · exact ⟨rfl, rfl, rfl⟩
  | cons opportunityId rest =>
    obtain ⟨_, _, _, hgate, -⟩ := requireResearchPass_cons hpass
    obtain ⟨-, -, o, ho, -⟩ := strategistGate_returns hgate
    exact absurd ho mem_empty

theorem manifest {m : AuditGateManifest} (h : OnlyRequests d)
    (hreturned : Returns (createTestManifest workspaceId) d m d') : OnlyRequests d' := by
  obtain ⟨now, environment, researchRuns, strategyRuns, manifests, rfl⟩ := h.tables
  simp only [createTestManifest, returns_bind, returns_get, returns_scalarOneOrNone] at hreturned
  obtain ⟨_, _, ⟨rfl, rfl⟩, existing, _, ⟨-, rfl⟩, hreturned⟩ := hreturned
  cases existing with
  | some manifest =>
    obtain ⟨-, rfl⟩ := returns_pure.mp hreturned
    exact h
  | none =>
    simp only [returns_bind, returns_modify, returns_pure] at hreturned
    obtain ⟨_, _, rfl, -, rfl⟩ := hreturned
    exact ⟨⟨now, environment, researchRuns, strategyRuns, _, rfl⟩, h.research, h.strategy⟩

/-! ## The calls that find nothing -/

theorem noOpportunity (h : OnlyRequests d) {opportunityId : Nat} :
    getOpportunity workspaceId opportunityId d.research = none := by
  obtain ⟨_, _, _, _, _, rfl⟩ := h.tables
  rfl

theorem noBrief (h : OnlyRequests d) {briefId : Nat} :
    getBrief workspaceId briefId d.strategy = none := by
  obtain ⟨_, _, _, _, _, rfl⟩ := h.tables
  rfl

theorem noPackage (h : OnlyRequests d) {packageId : Nat} :
    d.content.packages.get? packageId = none := by
  obtain ⟨_, _, _, _, _, rfl⟩ := h.tables
  rfl

theorem noJob (h : OnlyRequests d) {jobId : Nat} :
    getJob workspaceId jobId d.production = none := by
  obtain ⟨_, _, _, _, _, rfl⟩ := h.tables
  rfl

theorem noArtifact (h : OnlyRequests d) {artifactId : Nat} :
    getArtifact workspaceId artifactId d.production = none := by
  obtain ⟨_, _, _, _, _, rfl⟩ := h.tables
  rfl

theorem noComplianceAudit (h : OnlyRequests d) {auditId : Nat} :
    d.compliance.audits.get? auditId = none := by
  obtain ⟨_, _, _, _, _, rfl⟩ := h.tables
  rfl

theorem noWriterGate {briefId : Nat} (h : OnlyRequests d) :
    ¬ Returns (writerGate workspaceId briefId) d () d' := by
  simp [writerGate, h.noBrief]

/-- Compliance starts from an artifact. -/
theorem noCompliance {α : Type} {artifactId : Nat} {a : α}
    {f : FinalArtifact → DepartmentSession α} (h : OnlyRequests d) :
    ¬ Returns (complianceArtifact workspaceId artifactId >>= f) d a d' := by
  simp [complianceArtifact, h.noArtifact]

theorem elapse (h : OnlyRequests d) (seconds : Nat) : OnlyRequests (elapse seconds d) := by
  obtain ⟨now, environment, researchRuns, strategyRuns, manifests, rfl⟩ := h.tables
  exact ⟨⟨now + seconds, environment, researchRuns, strategyRuns, manifests, rfl⟩, h.research,
    h.strategy⟩

theorem markTestJob (h : OnlyRequests d) (jobId : Nat) : OnlyRequests (markTestJob jobId d) := by
  obtain ⟨now, environment, researchRuns, strategyRuns, manifests, rfl⟩ := h.tables
  exact ⟨⟨now, environment, researchRuns, strategyRuns, manifests, rfl⟩, h.research, h.strategy⟩

/-- **The step lemma.** -/
theorem run {op : DepartmentOp} {u : Unit} (h : OnlyRequests d) (henv : d.environment ≠ some "test")
    (hreturned : Returns (op.run lib) d u d') : OnlyRequests d' := by
  cases op with
  | elapse seconds => exact returns_modify.mp hreturned ▸ h.elapse seconds
  | markTestJob jobId => exact returns_modify.mp hreturned ▸ h.markTestJob jobId
  | createManualResearchRun =>
    obtain ⟨_, hreturned⟩ := returns_call hreturned
    exact h.researchRun hreturned
  | createManualStrategyRun =>
    obtain ⟨_, hreturned⟩ := returns_call hreturned
    exact h.strategyRun hreturned
  | createTestManifest =>
    obtain ⟨_, hreturned⟩ := returns_call hreturned
    exact h.manifest hreturned
  | recordFixtureRun =>
    obtain ⟨_, hreturned⟩ := returns_call hreturned
    exact absurd (recordFixtureRun_returns hreturned).2 henv
  | recordFixtureBrief =>
    obtain ⟨_, hreturned⟩ := returns_call hreturned
    exact absurd (recordFixtureBrief_returns hreturned).2 henv
  | recordFixtureAudit =>
    obtain ⟨_, hreturned⟩ := returns_call hreturned
    have haudit : ContentOnly lib d d' ∧ d.environment = some "test" :=
      recordFixtureAudit_returns hreturned
    exact absurd haudit.2 henv
  | recordFixturePackage =>
    obtain ⟨_, hreturned⟩ := returns_call hreturned
    have hnone : ∀ a ∈ d.content.audits, a.contentPackageId < d.content.packages.next := by
      obtain ⟨_, _, _, _, _, rfl⟩ := h.tables
      exact fun a ha => absurd ha mem_empty
    exact absurd (recordFixturePackage_returns hnone hreturned).2 henv
  | strategistGate => simp [DepartmentOp.run, strategistGate, h.noOpportunity] at hreturned
  | writerGate => exact absurd hreturned h.noWriterGate
  | producerGate => simp [DepartmentOp.run, producerGate, getPackage, h.noPackage] at hreturned
  | auditOpportunity =>
    obtain ⟨_, hreturned⟩ := returns_call hreturned
    simp [auditOpportunity, h.noOpportunity] at hreturned
  | auditBrief =>
    obtain ⟨_, hreturned⟩ := returns_call hreturned
    simp [auditBrief, h.noBrief] at hreturned
  | createManualContentRun =>
    obtain ⟨_, hreturned⟩ := returns_call hreturned
    obtain ⟨_, _, hpass, -⟩ := returns_bind.mp hreturned
    exact absurd (requireStrategyPass_gate hpass) h.noWriterGate
  | createProductionRun =>
    obtain ⟨_, hreturned⟩ := returns_call hreturned
    simp [createProductionRun, h.noPackage] at hreturned
  | createTestFixtureArtifact =>
    obtain ⟨_, hreturned⟩ := returns_call hreturned
    simp [createTestFixtureArtifact, h.noJob] at hreturned
  | createTestMediaQa =>
    obtain ⟨_, hreturned⟩ := returns_call hreturned
    simp [createTestMediaQa, h.noArtifact] at hreturned
  | invalidateArtifact =>
    obtain ⟨_, hreturned⟩ := returns_call hreturned
    simp [invalidateArtifact, h.noArtifact] at hreturned
  | invalidateCompliance =>
    obtain ⟨_, hreturned⟩ := returns_call hreturned
    simp [invalidateCompliance, h.noComplianceAudit] at hreturned
  | createComplianceRun =>
    obtain ⟨_, hreturned⟩ := returns_call hreturned
    exact absurd hreturned h.noCompliance
  | createTestCompliancePass =>
    obtain ⟨_, hreturned⟩ := returns_call hreturned
    exact absurd hreturned h.noCompliance
  | runTestChiefAudit =>
    obtain ⟨_, hreturned⟩ := returns_call hreturned
    exact absurd hreturned h.noCompliance
  | publicationEligibility =>
    obtain ⟨_, hreturned⟩ := returns_call hreturned
    exact absurd hreturned h.noCompliance

theorem step {op : DepartmentOp} (h : OnlyRequests d) (henv : d.environment ≠ some "test") :
    OnlyRequests (step lib d op) := by
  rcases atomically_cases (op.run lib) d with ⟨_, hreturned⟩ | ⟨-, hstay⟩
  · exact h.run henv hreturned
  · rw [Departments.step, hstay]
    exact h

end OnlyRequests

/-- **Outside tests the departments only ever store requests.** -/
theorem only_requests_outside_tests (lib : StandardLibrary) (environment : Option String)
    (ops : List DepartmentOp) (henv : environment ≠ some "test") :
    OnlyRequests (replay (step lib) (deployment environment) ops) := by
  have hkept : ∀ {d : Departments}, DepartmentsSound lib d → OnlyRequests d →
      d.environment ≠ some "test" → OnlyRequests (replay (step lib) d ops) := by
    induction ops with
    | nil => exact fun _ h _ => h
    | cons op rest ih =>
      intro d hs h henv
      obtain ⟨hg, hsound⟩ := move_kept hs (step_moves hs op)
      exact ih hsound (h.step henv) (hg.environment.symm ▸ henv)
  exact hkept (deployment_sound environment) (deployment_onlyRequests environment) henv

theorem only_requests_outside_tests_reviewed :
    OnlyRequests (replay (step plainLibrary) (deployment (some "production")) reviewedOps) :=
  only_requests_outside_tests plainLibrary (some "production") reviewedOps (by decide)

end ContentOrchestrator.Departments

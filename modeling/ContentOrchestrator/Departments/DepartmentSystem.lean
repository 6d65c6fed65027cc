import ContentOrchestrator.Departments.ComplianceRecords
import ContentOrchestrator.Departments.StrategyInvariants
import ContentOrchestrator.Lib.Transition

/-! # The departments as one system

Every service call is one transaction over the departments' tables. A call changes the
tables of its own department, and of the one before it only where it asks that one's gate.
What each department's tables promise is kept by all calls, whatever their order. -/

namespace ContentOrchestrator.Departments

open Lib Lib.Table

/-- The service calls; what a query without an order may return is part of the call, and so is the
order of rows an order leaves open. -/
inductive DepartmentOp
  | elapse (seconds : Nat)
  | createManualResearchRun (workspaceId : Nat)
  | recordFixtureRun (workspaceId : Nat) (sources : List FixtureSource)
      (fixture : FixtureOpportunity)
  | auditOpportunity (workspaceId opportunityId : Nat) (ties : List Nat)
  | strategistGate (workspaceId opportunityId : Nat)
  | createManualStrategyRun (workspaceId : Nat) (objective : String) (opportunityIds : List Nat)
      (profileComplete : Bool)
  | recordFixtureBrief (workspaceId : Nat) (objective : String) (opportunityIds : List Nat)
      (fixture : FixtureBrief)
  | auditBrief (workspaceId briefId : Nat)
  | writerGate (workspaceId briefId : Nat)
  | createManualContentRun (workspaceId briefId : Nat) (profileComplete : Bool)
  | recordFixturePackage (workspaceId briefId : Nat) (fixture : FixturePackage)
      (priorPackageId : Option Nat)
  | recordFixtureAudit (workspaceId packageId : Nat) (auditorType state : String)
  | producerGate (workspaceId packageId : Nat)
  | createProductionRun (workspaceId packageId : Nat)
  | markTestJob (jobId : Nat)
  | createTestFixtureArtifact (workspaceId jobId : Nat) (artifactHash : String)
  | createTestMediaQa (workspaceId artifactId : Nat)
      (auditorWorkerId producerWorkerId status : String)
  | invalidateArtifact (workspaceId artifactId : Nat) (reason : String)
  | createComplianceRun (workspaceId artifactId : Nat) (targetPlatform : String) (pick : Nat)
  | createTestManifest (workspaceId : Nat)
  | createTestCompliancePass (workspaceId artifactId : Nat) (workerId : String) (pick : Nat)
  | runTestChiefAudit (workspaceId artifactId : Nat) (workerId : String)
      (pickMedia pickCompliance : Nat)
  | invalidateCompliance (workspaceId auditId : Nat) (reason : String)
  | publicationEligibility (workspaceId artifactId : Nat) (targetPlatform : String) (pick : Nat)

def elapse (seconds : Nat) (d : Departments) : Departments := { d with now := d.now + seconds }

/-- The caller commits whatever the service returned. -/
def call {α : Type} (x : DepartmentSession α) : DepartmentSession Unit := do
  let _ ← x
  return ()

def DepartmentOp.run (lib : StandardLibrary) : DepartmentOp → DepartmentSession Unit
  | .elapse seconds => modify (Departments.elapse seconds)
  | .createManualResearchRun workspaceId =>
    call (Departments.createManualResearchRun workspaceId)
  | .recordFixtureRun workspaceId sources fixture =>
    call (Departments.recordFixtureRun lib workspaceId sources fixture)
  | .auditOpportunity workspaceId opportunityId ties =>
    call (Departments.auditOpportunity workspaceId opportunityId ties)
  | .strategistGate workspaceId opportunityId =>
    Departments.strategistGate workspaceId opportunityId
  | .createManualStrategyRun workspaceId objective opportunityIds profileComplete =>
    call (Departments.createManualStrategyRun workspaceId objective opportunityIds profileComplete)
  | .recordFixtureBrief workspaceId objective opportunityIds fixture =>
    call (Departments.recordFixtureBrief lib workspaceId objective opportunityIds fixture)
  | .auditBrief workspaceId briefId => call (Departments.auditBrief lib workspaceId briefId)
  | .writerGate workspaceId briefId => Departments.writerGate workspaceId briefId
  | .createManualContentRun workspaceId briefId profileComplete =>
    call (Departments.createManualContentRun workspaceId briefId profileComplete)
  | .recordFixturePackage workspaceId briefId fixture priorPackageId =>
    call (Departments.recordFixturePackage lib workspaceId briefId fixture priorPackageId)
  | .recordFixtureAudit workspaceId packageId auditorType state =>
    call (Departments.recordFixtureAudit workspaceId packageId auditorType state)
  | .producerGate workspaceId packageId => Departments.producerGate workspaceId packageId
  | .createProductionRun workspaceId packageId =>
    call (Departments.createProductionRun workspaceId packageId)
  | .markTestJob jobId => modify (Departments.markTestJob jobId)
  | .createTestFixtureArtifact workspaceId jobId artifactHash =>
    call (Departments.createTestFixtureArtifact workspaceId jobId artifactHash)
  | .createTestMediaQa workspaceId artifactId auditorWorkerId producerWorkerId status =>
    call (Departments.createTestMediaQa workspaceId artifactId auditorWorkerId producerWorkerId
      status)
  | .invalidateArtifact workspaceId artifactId reason =>
    call (Departments.invalidateArtifact workspaceId artifactId reason)
  | .createComplianceRun workspaceId artifactId targetPlatform pick =>
    call (Departments.createComplianceRun workspaceId artifactId targetPlatform pick)
  | .createTestManifest workspaceId => call (Departments.createTestManifest workspaceId)
  | .createTestCompliancePass workspaceId artifactId workerId pick =>
    call (Departments.createTestCompliancePass workspaceId artifactId workerId pick)
  | .runTestChiefAudit workspaceId artifactId workerId pickMedia pickCompliance =>
    call (Departments.runTestChiefAudit workspaceId artifactId workerId pickMedia pickCompliance)
  | .invalidateCompliance workspaceId auditId reason =>
    call (Departments.invalidateCompliance workspaceId auditId reason)
  | .publicationEligibility workspaceId artifactId targetPlatform pick =>
    call (Departments.publicationEligibility workspaceId artifactId targetPlatform pick)

/-- One call: what raises leaves nothing behind. -/
def step (lib : StandardLibrary) (d : Departments) (op : DepartmentOp) : Departments :=
  atomically (op.run lib) d

/-- A deployment before the first call. -/
def deployment (environment : Option String) : Departments := { environment }

variable {lib : StandardLibrary} {d d' : Departments} {op : DepartmentOp}

theorem returns_call {α : Type} {x : DepartmentSession α} {u : Unit}
    (h : Returns (call x) d u d') : ∃ a, Returns x d a d' := by
  simp only [call, returns_bind, returns_pure] at h
  obtain ⟨a, _, h, -, rfl⟩ := h
  exact ⟨a, h⟩

/-! ## What a call changes -/

/-- The call that recorded the media check named another worker as the producer. -/
def DepartmentOp.Checks (q : MediaQaResult) (op : DepartmentOp) : Prop :=
  ∃ producerWorkerId, q.auditorWorkerId ≠ producerWorkerId ∧
    op = .createTestMediaQa q.workspaceId q.finalArtifactId q.auditorWorkerId producerWorkerId
      q.status

/-- **A call changes its department's tables, and nothing else of the system.** -/
inductive DepartmentMove (lib : StandardLibrary) (op : DepartmentOp) (d d' : Departments) : Prop
  | elapsed (seconds : Nat) (same : d' = elapse seconds d)
  | stayed (same : d = d')
  | research (only : ResearchOnly d d')
  | strategy (only : StrategyOnly lib d d')
  | gated (only : d' = { d with strategy := d'.strategy })
      (effect : StrategyEffect lib d.now d.research d.strategy d'.strategy)
  | content (only : ContentOnly lib d d')
  | production (only : ProductionOnly d d')
      (checks : ∀ q ∈ d'.production.mediaQa, q ∈ d.production.mediaQa ∨ op.Checks q)
  | compliance (only : ComplianceOnly d d')

/-- What a department's tables promise, each resting on those of the one before. -/
structure DepartmentsSound (lib : StandardLibrary) (d : Departments) : Prop where
  research : ResearchSound d.now d.research
  strategy : StrategySound lib d.research d.strategy
  content : ContentSound d.now d.strategy d.content
  production : ProductionSound d.content d.production
  compliance : ComplianceSound d.production d.compliance

theorem DepartmentsSound.auditsOfPackages (hs : DepartmentsSound lib d) :
    ∀ a ∈ d.content.audits, a.contentPackageId < d.content.packages.next := by
  intro a ha
  obtain ⟨p, hp, hid, -⟩ := (hs.content.audits a ha).package
  exact hid ▸ key_lt hp

/-- Every call that commits is one of the moves. -/
theorem run_moves (hs : DepartmentsSound lib d) {u : Unit} (h : Returns (op.run lib) d u d') :
    DepartmentMove lib op d d' := by
  have hunchecked : ∀ {op : DepartmentOp}, ProductionOnly d d' ∧
      d'.production.mediaQa = d.production.mediaQa → DepartmentMove lib op d d' :=
    fun h => .production h.1 fun q hq => .inl (h.2 ▸ hq)
  cases op with
  | elapse seconds => exact .elapsed seconds (returns_modify.mp h).symm
  | strategistGate => exact .research (strategistGate_returns h).1
  | writerGate =>
    obtain ⟨strategy, rfl, heffect, -⟩ := writerGate_returns lib h
    exact .gated rfl heffect
  | producerGate => exact .stayed (producerGate_returns h)
  | markTestJob jobId =>
    obtain rfl := returns_modify.mp h
    exact hunchecked markTestJob_returns
  | createManualResearchRun =>
    obtain ⟨_, h⟩ := returns_call h
    exact .research (createManualResearchRun_returns h)
  | recordFixtureRun =>
    obtain ⟨_, h⟩ := returns_call h
    exact .research (recordFixtureRun_returns h).1
  | auditOpportunity =>
    obtain ⟨_, h⟩ := returns_call h
    exact .research (auditOpportunity_returns h)
  | createManualStrategyRun =>
    obtain ⟨_, h⟩ := returns_call h
    exact .strategy (createManualStrategyRun_returns h)
  | recordFixtureBrief =>
    obtain ⟨_, h⟩ := returns_call h
    exact .strategy (recordFixtureBrief_returns h).1
  | auditBrief =>
    obtain ⟨_, h⟩ := returns_call h
    exact .strategy (auditBrief_returns h)
  | createManualContentRun =>
    obtain ⟨_, h⟩ := returns_call h
    exact .content (createManualContentRun_returns h)
  | recordFixturePackage =>
    obtain ⟨_, h⟩ := returns_call h
    exact .content (recordFixturePackage_returns hs.auditsOfPackages h).1
  | recordFixtureAudit =>
    obtain ⟨_, h⟩ := returns_call h
    exact .content (recordFixtureAudit_returns h).1
  | createProductionRun =>
    obtain ⟨_, h⟩ := returns_call h
    exact hunchecked (createProductionRun_returns h)
  | createTestFixtureArtifact =>
    obtain ⟨_, h⟩ := returns_call h
    exact hunchecked (createTestFixtureArtifact_returns h)
  | createTestMediaQa workspaceId artifactId auditorWorkerId producerWorkerId status =>
    obtain ⟨_, h⟩ := returns_call h
    obtain ⟨honly, hother, hrows⟩ := createTestMediaQa_returns h
    refine .production honly fun q hq => (hrows q hq).imp_right ?_
    rintro ⟨rfl, rfl, rfl, rfl⟩
    exact ⟨producerWorkerId, hother, rfl⟩
  | invalidateArtifact =>
    obtain ⟨_, h⟩ := returns_call h
    exact hunchecked (invalidateArtifact_returns h)
  | createComplianceRun =>
    obtain ⟨_, h⟩ := returns_call h
    exact .compliance (createComplianceRun_returns h)
  | createTestManifest =>
    obtain ⟨_, h⟩ := returns_call h
    exact .compliance (createTestManifest_returns h).1
  | createTestCompliancePass =>
    obtain ⟨_, h⟩ := returns_call h
    exact .compliance (createTestCompliancePass_returns h)
  | runTestChiefAudit =>
    obtain ⟨_, h⟩ := returns_call h
    exact .compliance (runTestChiefAudit_returns h)
  | invalidateCompliance =>
    obtain ⟨_, h⟩ := returns_call h
    exact .compliance (invalidateCompliance_returns h)
  | publicationEligibility =>
    obtain ⟨_, h⟩ := returns_call h
    exact .compliance (publicationEligibility_returns h)

theorem step_moves (hs : DepartmentsSound lib d) (op : DepartmentOp) :
    DepartmentMove lib op d (step lib d op) := by
  rcases atomically_cases (op.run lib) d with ⟨_, hreturned⟩ | ⟨-, hstay⟩
  · exact run_moves hs hreturned
  · exact .stayed hstay.symm

/-! ## What every call keeps -/

theorem strategyChain {r : ResearchTables} {t t' : StrategyTables} {now : Nat}
    (h : Relation.ReflTransGen (StrategyEffect lib now r) t t') (hs : StrategySound lib r t) :
    StrategyGrows t t' ∧ StrategySound lib r t' := by
  induction h with
  | refl => exact ⟨.refl t, hs⟩
  | tail _ heffect ih => exact ⟨ih.1.trans heffect.grows, strategy_kept ih.2 heffect⟩

theorem contentChain {s : StrategyTables} {t t' : ContentTables} {now : Nat}
    (h : Relation.ReflTransGen (ContentEffect now s) t t') (hs : ContentSound now s t) :
    ContentSound now s t' := by
  induction h with
  | refl => exact hs
  | tail _ heffect ih => exact content_kept ih heffect

theorem complianceChain {p : ProductionTables} {t t' : ComplianceTables}
    (h : Relation.ReflTransGen (ComplianceEffect p) t t') (hs : ComplianceSound p t) :
    ComplianceGrows t t' ∧ ComplianceSound p t' := by
  induction h with
  | refl => exact ⟨.refl t, hs⟩
  | tail _ heffect ih => exact ⟨ih.1.trans heffect.grows, compliance_kept ih.2 heffect⟩

/-- What no call takes back. -/
structure DepartmentsGrow (d d' : Departments) : Prop where
  environment : d'.environment = d.environment
  now : d.now ≤ d'.now
  research : ResearchGrows d.research d'.research
  strategy : StrategyGrows d.strategy d'.strategy
  content : ContentGrows d.content d'.content
  production : ProductionGrows d.production d'.production
  compliance : ComplianceGrows d.compliance d'.compliance

theorem DepartmentsGrow.refl (d : Departments) : DepartmentsGrow d d where
  environment := rfl
  now := Nat.le_refl _
  research := .refl _
  strategy := .refl _
  content := .refl _
  production := .refl _
  compliance := .refl _

theorem DepartmentsGrow.trans {d'' : Departments} (h : DepartmentsGrow d d')
    (h' : DepartmentsGrow d' d'') : DepartmentsGrow d d'' where
  environment := h'.environment.trans h.environment
  now := Nat.le_trans h.now h'.now
  research := h.research.trans h'.research
  strategy := h.strategy.trans h'.strategy
  content := h.content.trans h'.content
  production := h.production.trans h'.production
  compliance := h.compliance.trans h'.compliance

/-- **The step lemma.** A move takes nothing back and keeps every department's promise. -/
theorem move_kept (hs : DepartmentsSound lib d) (h : DepartmentMove lib op d d') :
    DepartmentsGrow d d' ∧ DepartmentsSound lib d' := by
  have hg := DepartmentsGrow.refl d
  cases h with
  | elapsed seconds same =>
    subst same
    have hle : d.now ≤ d.now + seconds := Nat.le_add_right ..
    exact ⟨{ hg with now := hle },
      { hs with research := hs.research.later hle, content := hs.content.later hle }⟩
  | stayed same =>
    subst same
    exact ⟨hg, hs⟩
  | research only =>
    have hgrows := only.grows
    have hsound := only.sound hs.research
    rw [only.rest]
    exact ⟨{ hg with research := hgrows },
      { hs with research := hsound, strategy := hs.strategy.research hgrows }⟩
  | strategy only =>
    have hresearch : ResearchOnly d { d with research := d'.research } := ⟨rfl, only.research⟩
    have hgrows := hresearch.grows
    have hsound := hresearch.sound hs.research
    have hstrategy := strategy_kept (hs.strategy.research hgrows) only.effect
    have hsgrows := only.effect.grows
    rw [only.rest]
    exact ⟨{ hg with research := hgrows, strategy := hsgrows },
      { hs with
        research := hsound, strategy := hstrategy, content := hs.content.strategy hsgrows }⟩
  | gated only effect =>
    have hstrategy := strategy_kept hs.strategy effect
    have hgrows := effect.grows
    rw [only]
    exact ⟨{ hg with strategy := hgrows },
      { hs with strategy := hstrategy, content := hs.content.strategy hgrows }⟩
  | content only =>
    obtain ⟨hgrows, hstrategy⟩ := strategyChain only.strategy hs.strategy
    have hcontent := contentChain only.content (hs.content.strategy hgrows)
    have hcgrows := contentChain_grows only.content
    rw [only.rest]
    exact ⟨{ hg with strategy := hgrows, content := hcgrows },
      { hs with
        strategy := hstrategy, content := hcontent
        production := hs.production.content hcgrows }⟩
  | production only _ =>
    have hproduction := production_kept hs.content hs.production only.effect
    have hgrows := only.effect.grows
    rw [only.rest]
    exact ⟨{ hg with production := hgrows },
      { hs with production := hproduction, compliance := hs.compliance.production hgrows }⟩
  | compliance only =>
    obtain ⟨hgrows, hcompliance⟩ := complianceChain only.effects hs.compliance
    rw [only.rest]
    exact ⟨{ hg with compliance := hgrows }, { hs with compliance := hcompliance }⟩

theorem deployment_sound (environment : Option String) :
    DepartmentsSound lib (deployment environment) where
  research := research_empty _
  strategy := strategy_empty _
  content := content_empty _ _
  production := production_empty _
  compliance := compliance_empty _

/-- **The run lemma.** -/
theorem run_kept (hs : DepartmentsSound lib d) (ops : List DepartmentOp) :
    DepartmentsGrow d (replay (step lib) d ops) ∧
      DepartmentsSound lib (replay (step lib) d ops) := by
  induction ops generalizing d with
  | nil => exact ⟨.refl d, hs⟩
  | cons op rest ih =>
    obtain ⟨hfirst, hsound⟩ := move_kept hs (step_moves hs op)
    obtain ⟨hlater, hsound'⟩ := ih hsound
    exact ⟨hfirst.trans hlater, hsound'⟩

/-- No other call records a media check. -/
theorem DepartmentMove.checks (h : DepartmentMove lib op d d') {q : MediaQaResult}
    (hq : q ∈ d'.production.mediaQa) : q ∈ d.production.mediaQa ∨ op.Checks q := by
  have hkept : ∀ {e : Departments}, d' = e → e.production = d.production →
      q ∈ d.production.mediaQa ∨ op.Checks q :=
    fun hsame hrest => .inl (hrest ▸ hsame ▸ hq)
  cases h with
  | elapsed _ same => exact hkept same rfl
  | stayed same => exact hkept same.symm rfl
  | research only => exact hkept only.rest rfl
  | strategy only => exact hkept only.rest rfl
  | gated only _ => exact hkept only rfl
  | content only => exact hkept only.rest rfl
  | production _ checks => exact checks q hq
  | compliance only => exact hkept only.rest rfl

/-- Every media check on record was called for, by another than the producer that was named. -/
theorem run_checks (hs : DepartmentsSound lib d) {ops : List DepartmentOp} {q : MediaQaResult}
    (hq : q ∈ (replay (step lib) d ops).production.mediaQa) :
    q ∈ d.production.mediaQa ∨ ∃ op ∈ ops, op.Checks q := by
  induction ops generalizing d with
  | nil => exact .inl hq
  | cons op rest ih =>
    have hmove := step_moves hs op
    rcases ih (move_kept hs hmove).2 hq with hfirst | ⟨op', hop', hchecks⟩
    · refine (hmove.checks hfirst).imp_right fun hchecks => ?_
      exact ⟨op, List.mem_cons_self, hchecks⟩
    · exact .inr ⟨op', List.mem_cons_of_mem _ hop', hchecks⟩

theorem sound_of_run (environment : Option String) (ops : List DepartmentOp) :
    DepartmentsSound lib (replay (step lib) (deployment environment) ops) :=
  (run_kept (deployment_sound environment) ops).2

end ContentOrchestrator.Departments

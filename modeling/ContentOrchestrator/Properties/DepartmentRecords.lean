import ContentOrchestrator.Departments.DepartmentSystem

/-! # What the departments' records are worth

In every state of a run each row refers to rows of its own workspace, the stored counters
are the counts they stand for, and no guarded text holds what the guards look for. What an
audit or a link once recorded is there unchanged ever after. -/

namespace ContentOrchestrator.Departments

open Lib Lib.Table Keyed

variable {lib : StandardLibrary} {d d' : Departments}

/-! ## References -/

/-- Whatever a row names is stored, and in the row's own workspace. -/
def RefersWithin {α β : Type} [Keyed α] [Keyed β] (rows : Table α) (targets : Table β)
    (workspaceOf : α → Nat) (references : α → List Nat) (workspaceOf' : β → Nat) : Prop :=
  ∀ a ∈ rows, ∀ k ∈ references a, ∃ b ∈ targets, key b = k ∧ workspaceOf' b = workspaceOf a

theorem refersWithin_one {α β : Type} [Keyed α] [Keyed β] {rows : Table α} {targets : Table β}
    {workspaceOf reference : α → Nat} {workspaceOf' : β → Nat}
    (h : ∀ a ∈ rows, ∃ b ∈ targets, key b = reference a ∧ workspaceOf' b = workspaceOf a) :
    RefersWithin rows targets workspaceOf (fun a => [reference a]) workspaceOf' := by
  intro a ha k hk
  rw [List.mem_singleton.mp hk]
  exact h a ha

structure ResearchClosed (t : ResearchTables) : Prop where
  sourceRun : RefersWithin t.sources t.runs (·.workspaceId) (fun s => [s.researchRunId])
    (·.workspaceId)
  opportunityRun : RefersWithin t.opportunities t.runs (·.workspaceId) (fun o => [o.researchRunId])
    (·.workspaceId)
  linkOpportunity : RefersWithin t.evidence t.opportunities (·.workspaceId)
    (fun e => [e.opportunityId]) (·.workspaceId)
  linkSource : RefersWithin t.evidence t.sources (·.workspaceId) (fun e => [e.sourceId])
    (·.workspaceId)
  auditOpportunity : RefersWithin t.audits t.opportunities (·.workspaceId)
    (fun a => [a.opportunityId]) (·.workspaceId)
  auditRun : RefersWithin t.audits t.runs (·.workspaceId) (fun a => [a.researchRunId])
    (·.workspaceId)
  auditSources : RefersWithin t.audits t.sources (·.workspaceId)
    (fun a => a.findings.map (·.sourceId)) (·.workspaceId)

structure StrategyClosed (r : ResearchTables) (t : StrategyTables) : Prop where
  runOpportunities : RefersWithin t.runs r.opportunities (·.workspaceId) (·.sourceOpportunityIds)
    (·.workspaceId)
  briefRun : RefersWithin t.briefs t.runs (·.workspaceId) (fun b => [b.strategyRunId])
    (·.workspaceId)
  linkBrief : RefersWithin t.briefOpportunities t.briefs (·.workspaceId)
    (fun l => [l.strategyBriefId]) (·.workspaceId)
  linkOpportunity : RefersWithin t.briefOpportunities r.opportunities (·.workspaceId)
    (fun l => [l.opportunityId]) (·.workspaceId)
  auditBrief : RefersWithin t.audits t.briefs (·.workspaceId) (fun a => [a.strategyBriefId])
    (·.workspaceId)
  auditRun : RefersWithin t.audits t.runs (·.workspaceId) (fun a => [a.strategyRunId])
    (·.workspaceId)
  auditOpportunities : RefersWithin t.audits r.opportunities (·.workspaceId) (·.findings)
    (·.workspaceId)

structure ContentClosed (s : StrategyTables) (t : ContentTables) : Prop where
  runBrief : RefersWithin t.runs s.briefs (·.workspaceId) (fun r => [r.strategyBriefId])
    (·.workspaceId)
  directionRun : RefersWithin t.directions t.runs (·.workspaceId)
    (fun c => [c.contentDepartmentRunId]) (·.workspaceId)
  directionBrief : RefersWithin t.directions s.briefs (·.workspaceId)
    (fun c => [c.strategyBriefId]) (·.workspaceId)
  itemVersion : RefersWithin t.items t.versions (·.workspaceId)
    (fun i => i.currentVersionId.toList) (·.workspaceId)
  versionItem : RefersWithin t.versions t.items (·.workspaceId) (fun v => [v.contentItemId])
    (·.workspaceId)
  packageRun : RefersWithin t.packages t.runs (·.workspaceId)
    (fun p => [p.contentDepartmentRunId]) (·.workspaceId)
  packageBrief : RefersWithin t.packages s.briefs (·.workspaceId) (fun p => [p.strategyBriefId])
    (·.workspaceId)
  packageDirection : RefersWithin t.packages t.directions (·.workspaceId)
    (fun p => [p.creativeDirectionId]) (·.workspaceId)
  packageItem : RefersWithin t.packages t.items (·.workspaceId) (fun p => [p.contentItemId])
    (·.workspaceId)
  packageVersions : RefersWithin t.packages t.versions (·.workspaceId)
    (fun p => p.contentVersionId :: p.priorContentVersionId.toList) (·.workspaceId)
  claimPackage : RefersWithin t.claims t.packages (·.workspaceId) (fun c => [c.contentPackageId])
    (·.workspaceId)
  claimVersion : RefersWithin t.claims t.versions (·.workspaceId) (fun c => [c.contentVersionId])
    (·.workspaceId)
  auditPackage : RefersWithin t.audits t.packages (·.workspaceId) (fun a => [a.contentPackageId])
    (·.workspaceId)
  auditVersion : RefersWithin t.audits t.versions (·.workspaceId) (fun a => [a.contentVersionId])
    (·.workspaceId)
  fingerprintPackage : RefersWithin t.fingerprints t.packages (·.workspaceId)
    (fun f => [f.contentPackageId]) (·.workspaceId)
  fingerprintVersions : RefersWithin t.fingerprints t.versions (·.workspaceId)
    (fun f => f.contentVersionId :: f.comparisonSet) (·.workspaceId)
  invalidationPackage : RefersWithin t.invalidations t.packages (·.workspaceId)
    (fun i => [i.contentPackageId]) (·.workspaceId)
  invalidationVersion : RefersWithin t.invalidations t.versions (·.workspaceId)
    (fun i => [i.contentVersionId]) (·.workspaceId)
  invalidationAudit : RefersWithin t.invalidations t.audits (·.workspaceId)
    (fun i => [i.contentAuditId]) (·.workspaceId)

structure ProductionClosed (c : ContentTables) (t : ProductionTables) : Prop where
  jobPackage : RefersWithin t.jobs c.packages (·.workspaceId) (fun j => [j.contentPackageId])
    (·.workspaceId)
  jobItem : RefersWithin t.jobs c.items (·.workspaceId) (fun j => [j.contentItemId])
    (·.workspaceId)
  jobVersion : RefersWithin t.jobs c.versions (·.workspaceId) (fun j => [j.contentVersionId])
    (·.workspaceId)
  artifactJob : RefersWithin t.artifacts t.jobs (·.workspaceId) (fun a => [a.productionJobId])
    (·.workspaceId)
  artifactItem : RefersWithin t.artifacts c.items (·.workspaceId) (fun a => [a.contentItemId])
    (·.workspaceId)
  artifactVersion : RefersWithin t.artifacts c.versions (·.workspaceId)
    (fun a => [a.contentVersionId]) (·.workspaceId)
  mediaQaArtifact : RefersWithin t.mediaQa t.artifacts (·.workspaceId)
    (fun q => [q.finalArtifactId]) (·.workspaceId)
  readinessArtifact : RefersWithin t.readiness t.artifacts (·.workspaceId)
    (fun r => [r.finalArtifactId]) (·.workspaceId)
  readinessVersion : RefersWithin t.readiness c.versions (·.workspaceId)
    (fun r => [r.contentVersionId]) (·.workspaceId)
  invalidationArtifact : RefersWithin t.invalidations t.artifacts (·.workspaceId)
    (fun i => [i.finalArtifactId]) (·.workspaceId)
  invalidationMediaQa : RefersWithin t.invalidations t.mediaQa (·.workspaceId)
    (fun i => i.mediaQaResultId.toList) (·.workspaceId)

structure ComplianceClosed (c : ContentTables) (p : ProductionTables) (t : ComplianceTables) :
    Prop where
  rightsArtifact : RefersWithin t.rights p.artifacts (·.workspaceId)
    (fun r => [r.finalArtifactId]) (·.workspaceId)
  auditArtifact : RefersWithin t.audits p.artifacts (·.workspaceId) (fun a => [a.finalArtifactId])
    (·.workspaceId)
  auditVersion : RefersWithin t.audits c.versions (·.workspaceId) (fun a => [a.contentVersionId])
    (·.workspaceId)
  invalidationAudit : RefersWithin t.invalidations t.audits (·.workspaceId)
    (fun i => [i.complianceAuditId]) (·.workspaceId)
  invalidationArtifact : RefersWithin t.invalidations p.artifacts (·.workspaceId)
    (fun i => [i.finalArtifactId]) (·.workspaceId)
  chiefArtifact : RefersWithin t.chiefAudits p.artifacts (·.workspaceId)
    (fun a => [a.finalArtifactId]) (·.workspaceId)
  chiefVersion : RefersWithin t.chiefAudits c.versions (·.workspaceId)
    (fun a => [a.contentVersionId]) (·.workspaceId)
  chiefManifest : RefersWithin t.chiefAudits t.manifests (·.workspaceId)
    (fun a => [a.gateManifestId]) (·.workspaceId)
  eligibilityArtifact : RefersWithin t.eligibility p.artifacts (·.workspaceId)
    (fun e => [e.finalArtifactId]) (·.workspaceId)
  eligibilityVersion : RefersWithin t.eligibility c.versions (·.workspaceId)
    (fun e => [e.contentVersionId]) (·.workspaceId)
  eligibilityChief : RefersWithin t.eligibility t.chiefAudits (·.workspaceId)
    (fun e => e.chiefAuditId.toList) (·.workspaceId)

/-- No row of any department names anything that is not there in its own workspace. -/
structure TenantClosed (d : Departments) : Prop where
  research : ResearchClosed d.research
  strategy : StrategyClosed d.research d.strategy
  content : ContentClosed d.strategy d.content
  production : ProductionClosed d.content d.production
  compliance : ComplianceClosed d.content d.production d.compliance

theorem researchClosed {r : ResearchTables} {now : Nat} (hs : ResearchSound now r) :
    ResearchClosed r where
  sourceRun := refersWithin_one fun s h => (hs.sources s h).2
  opportunityRun := refersWithin_one fun o h => (hs.opportunities o h).run
  linkOpportunity := refersWithin_one fun e h => (hs.evidence e h).opportunity
  linkSource := refersWithin_one fun e h => by
    obtain ⟨s, hstored, hid, hws, -⟩ := (hs.evidence e h).source
    exact ⟨s, hstored, hid, hws⟩
  auditOpportunity := refersWithin_one fun a h => by
    obtain ⟨o, hstored, hid, hws, -⟩ := (hs.audits a h).1.opportunity
    exact ⟨o, hstored, hid, hws⟩
  auditRun := refersWithin_one fun a h => by
    obtain ⟨o, hstored, -, hws, hrun⟩ := (hs.audits a h).1.opportunity
    exact hws ▸ hrun ▸ (hs.opportunities o hstored).run
  auditSources a h k hk := by
    obtain ⟨linked, sources, -, hinitial, hordered, hfindings, -⟩ := (hs.audits a h).1.verdict
    obtain ⟨finding, hfinding, rfl⟩ := List.mem_map.mp hk
    rw [hfindings, researchFindings] at hfinding
    obtain ⟨s, hs', rfl⟩ := List.mem_map.mp hfinding
    have hlinked := hinitial.subset (hordered.perm.mem_iff.mp (List.mem_filter.mp hs').1)
    obtain ⟨hstored, hws, -⟩ := mem_linkedSources hs.evidence hlinked
    exact ⟨s, hstored, rfl, hws⟩

theorem strategyClosed {r : ResearchTables} {t : StrategyTables} (hs : StrategySound lib r t) :
    StrategyClosed r t where
  runOpportunities := hs.runs
  briefRun := refersWithin_one fun b h => (hs.briefs b h).run
  linkBrief := refersWithin_one fun l h => (hs.links l h).brief
  linkOpportunity := refersWithin_one fun l h => (hs.links l h).opportunity
  auditBrief := refersWithin_one fun a h => by
    obtain ⟨b, hstored, hid, hws, -⟩ := hs.audits a h
    exact ⟨b, hstored, hid, hws⟩
  auditRun := refersWithin_one fun a h => by
    obtain ⟨b, hstored, -, hws, hrun, -⟩ := hs.audits a h
    exact hws ▸ hrun ▸ (hs.briefs b hstored).run
  auditOpportunities a h k hk := by
    obtain ⟨b, hstored, -, hws, -, hinitial, -⟩ := hs.audits a h
    obtain ⟨l, hl, rfl⟩ := List.mem_map.mp (hinitial.subset hk)
    obtain ⟨hlink, hown⟩ := mem_select.mp hl
    rw [Bool.and_eq_true, beq_iff_eq, beq_iff_eq] at hown
    have hopportunity := (hs.links l hlink).opportunity
    rw [hown.1.trans hws] at hopportunity
    exact hopportunity

theorem contentClosed {s : StrategyTables} {t : ContentTables} {now : Nat}
    (hs : ContentSound now s t) : ContentClosed s t := by
  have hpackage : ∀ {workspaceId packageId versionId : Nat},
      PackageOf t workspaceId packageId versionId →
      ∃ p ∈ t.packages, key p = packageId ∧ p.workspaceId = workspaceId := by
    intro workspaceId packageId versionId h
    obtain ⟨p, hstored, hid, hws, -⟩ := h
    exact ⟨p, hstored, hid, hws⟩
  constructor
  case runBrief => exact refersWithin_one hs.runs
  case directionRun => exact refersWithin_one fun c h => (hs.directions c h).run
  case directionBrief => exact refersWithin_one fun c h => (hs.directions c h).brief
  case itemVersion => exact fun i h k hk => hs.current i h k (Option.mem_toList.mp hk)
  case versionItem => exact refersWithin_one fun v h => (hs.versions v h).item
  case packageRun => exact refersWithin_one fun p h => (hs.packages p h).run
  case packageBrief => exact refersWithin_one fun p h => (hs.packages p h).brief
  case packageDirection =>
    refine refersWithin_one fun p h => ?_
    obtain ⟨c, hstored, hid, hws, -⟩ := (hs.packages p h).direction
    exact ⟨c, hstored, hid, hws⟩
  case packageItem => exact refersWithin_one fun p h => (hs.shown h).2
  case packageVersions =>
    intro p h k hk
    rcases List.mem_cons.mp hk with rfl | hk
    · exact (hs.shown h).1
    · exact (hs.packages p h).prior k (Option.mem_toList.mp hk)
  case claimPackage => exact refersWithin_one fun c h => hpackage (hs.claims c h).package
  case claimVersion => exact refersWithin_one fun c h => hs.version (hs.claims c h).package
  case auditPackage => exact refersWithin_one fun a h => hpackage (hs.audits a h).package
  case auditVersion => exact refersWithin_one fun a h => hs.version (hs.audits a h).package
  case fingerprintPackage =>
    exact refersWithin_one fun f h => hpackage (hs.fingerprints f h).package
  case fingerprintVersions =>
    intro f h k hk
    rcases List.mem_cons.mp hk with rfl | hk
    · exact hs.version (hs.fingerprints f h).package
    · exact (hs.fingerprints f h).compared k hk
  case invalidationPackage =>
    exact refersWithin_one fun i h => hpackage (hs.invalidations i h).package
  case invalidationVersion =>
    exact refersWithin_one fun i h => hs.version (hs.invalidations i h).package
  case invalidationAudit =>
    refine refersWithin_one fun i h => ?_
    obtain ⟨a, hstored, hid, hws, -⟩ := (hs.invalidations i h).audit
    exact ⟨a, hstored, hid, hws⟩

theorem hasArtifact_of {p : ProductionTables} {workspaceId artifactId : Nat} {artifactHash : String}
    (h : ArtifactOf p workspaceId artifactId artifactHash) :
    HasArtifact p workspaceId artifactId := by
  obtain ⟨a, hstored, hid, hws, -⟩ := h
  exact ⟨a, hstored, hid, hws⟩

section

variable {s : StrategyTables} {c : ContentTables} {t : ProductionTables} {now : Nat}
  (hc : ContentSound now s c) (hs : ProductionSound c t)
include hc hs

/-- An artifact shows the item and the version of its job. -/
theorem artifact_shown {a : FinalArtifact} (h : a ∈ t.artifacts) :
    HasItem c a.workspaceId a.contentItemId ∧ HasVersion c a.workspaceId a.contentVersionId := by
  obtain ⟨j, hstored, -, hws, hversion, hitem, -⟩ := hs.artifacts a h
  have hjob := hs.jobs j hstored
  exact ⟨hws ▸ hitem ▸ hjob.item, hws ▸ hversion ▸ hc.version hjob.package⟩

theorem shown_version {workspaceId artifactId versionId : Nat}
    (h : ArtifactShows t workspaceId artifactId versionId) :
    HasVersion c workspaceId versionId := by
  obtain ⟨a, hstored, -, rfl, rfl⟩ := h
  exact (artifact_shown hc hs hstored).2

theorem productionClosed : ProductionClosed c t where
  jobPackage := refersWithin_one fun j h => by
    obtain ⟨p, hstored, hid, hws, -⟩ := (hs.jobs j h).package
    exact ⟨p, hstored, hid, hws⟩
  jobItem := refersWithin_one fun j h => (hs.jobs j h).item
  jobVersion := refersWithin_one fun j h => hc.version (hs.jobs j h).package
  artifactJob := refersWithin_one fun a h => by
    obtain ⟨j, hstored, hid, hws, -⟩ := hs.artifacts a h
    exact ⟨j, hstored, hid, hws⟩
  artifactItem := refersWithin_one fun _ h => (artifact_shown hc hs h).1
  artifactVersion := refersWithin_one fun _ h => (artifact_shown hc hs h).2
  mediaQaArtifact := refersWithin_one fun q h => hasArtifact_of (hs.mediaQa q h)
  readinessArtifact := refersWithin_one fun r h => by
    obtain ⟨a, hstored, hid, hws, -⟩ := (hs.readiness r h).artifact
    exact ⟨a, hstored, hid, hws⟩
  readinessVersion := refersWithin_one fun r h => shown_version hc hs (hs.readiness r h).artifact
  invalidationArtifact := refersWithin_one hs.invalidations
  invalidationMediaQa i h k hk := hs.cited i h k (Option.mem_toList.mp hk)

theorem complianceClosed {x : ComplianceTables} (hx : ComplianceSound t x) :
    ComplianceClosed c t x where
  rightsArtifact := refersWithin_one hx.rights
  auditArtifact := refersWithin_one fun a h => hasArtifact_of (hx.audits a h).artifact
  auditVersion := refersWithin_one fun a h => shown_version hc hs (hx.audits a h).version
  invalidationAudit := refersWithin_one fun i h => by
    obtain ⟨a, hstored, hid, hws, -⟩ := hx.invalidations i h
    exact ⟨a, hstored, hid, hws⟩
  invalidationArtifact := refersWithin_one fun i h => by
    obtain ⟨a, hstored, -, hws, hartifact⟩ := hx.invalidations i h
    exact hws ▸ hartifact ▸ hasArtifact_of (hx.audits a hstored).artifact
  chiefArtifact := refersWithin_one fun a h => hasArtifact_of (hx.chiefAudits a h).artifact
  chiefVersion := refersWithin_one fun a h => shown_version hc hs (hx.chiefAudits a h).version
  chiefManifest := refersWithin_one fun a h => (hx.chiefAudits a h).manifest
  eligibilityArtifact := refersWithin_one fun e h => hasArtifact_of (hx.eligibility e h).artifact
  eligibilityVersion := refersWithin_one fun e h =>
    shown_version hc hs (hx.eligibility e h).version
  eligibilityChief e h k hk := by
    obtain ⟨a, hstored, hid, hws, -⟩ := (hx.eligibility e h).chief k (Option.mem_toList.mp hk)
    exact ⟨a, hstored, hid, hws⟩

end

/-- **No call ever refers to a row of another workspace.** -/
theorem departments_tenant_closed (lib : StandardLibrary) (environment : Option String)
    (ops : List DepartmentOp) :
    TenantClosed (replay (step lib) (deployment environment) ops) := by
  have hs : DepartmentsSound lib (replay (step lib) (deployment environment) ops) :=
    sound_of_run environment ops
  exact ⟨researchClosed hs.research, strategyClosed hs.strategy, contentClosed hs.content,
    productionClosed hs.content hs.production,
    complianceClosed hs.content hs.production hs.compliance⟩

/-! ## Counters -/

/-- The stored counters are the counts. -/
structure CountersExact (d : Departments) : Prop where
  sources : ∀ o ∈ d.research.opportunities,
    o.sourceCount = d.research.evidence.count fun e => e.opportunityId == o.id
  researchRuns : ∀ r ∈ d.research.runs, RunCounts d.research.audits r
  strategyRuns : ∀ r ∈ d.strategy.runs, StrategyRunCounts d.strategy.audits r

/-- **The counters are exact after any calls.** -/
theorem department_counters_exact (lib : StandardLibrary) (environment : Option String)
    (ops : List DepartmentOp) :
    CountersExact (replay (step lib) (deployment environment) ops) := by
  have hs : DepartmentsSound lib (replay (step lib) (deployment environment) ops) :=
    sound_of_run environment ops
  exact ⟨fun o ho => (hs.research.opportunities o ho).counted, hs.research.counts,
    hs.strategy.counts⟩

/-! ## Texts -/

/-- No text stored behind a guard holds an instruction to a model or what looks like a secret. -/
structure TextsClean (d : Departments) : Prop where
  excerpts : ∀ s ∈ d.research.sources, ∀ text, s.safeExcerpt = some text → CleanText text
  briefs : ∀ b ∈ d.strategy.briefs, CleanBrief b
  directions : ∀ c ∈ d.content.directions, CleanText c.objective ∧ CleanText c.creativeConcept
  topics : ∀ i ∈ d.content.items, CleanText i.topic
  scripts : ∀ v ∈ d.content.versions,
    CleanText v.scriptHook ∧ CleanText v.scriptBody ∧ CleanText v.scriptCta
  claims : ∀ c ∈ d.content.claims, CleanText c.claimText

/-- **The guards let nothing through that a later call could read.** -/
theorem department_texts_clean (lib : StandardLibrary) (environment : Option String)
    (ops : List DepartmentOp) :
    TextsClean (replay (step lib) (deployment environment) ops) := by
  have hs : DepartmentsSound lib (replay (step lib) (deployment environment) ops) :=
    sound_of_run environment ops
  constructor
  case excerpts => exact fun s h => (hs.research.sources s h).1.excerpt
  case briefs => exact fun b h => (hs.strategy.briefs b h).clean
  case directions =>
    exact fun c h => ⟨(hs.content.directions c h).objective, (hs.content.directions c h).concept⟩
  case topics => exact hs.content.items
  case scripts =>
    intro v h
    have hsound := hs.content.versions v h
    exact ⟨hsound.hook, hsound.body, hsound.cta⟩
  case claims => exact fun c h => (hs.content.claims c h).clean

/-! ## What stays on record -/

/-- The verdicts and the evidence of one state stand unchanged at the head of the other's. -/
structure OnRecord (d d' : Departments) : Prop where
  sources : d.research.sources.rows <+: d'.research.sources.rows
  evidence : d.research.evidence.rows <+: d'.research.evidence.rows
  researchAudits : d.research.audits.rows <+: d'.research.audits.rows
  briefLinks : d.strategy.briefOpportunities.rows <+: d'.strategy.briefOpportunities.rows
  strategyAudits : d.strategy.audits.rows <+: d'.strategy.audits.rows
  directions : d.content.directions.rows <+: d'.content.directions.rows
  versions : d.content.versions.rows <+: d'.content.versions.rows
  fingerprints : d.content.fingerprints.rows <+: d'.content.fingerprints.rows
  contentAudits : d.content.audits.rows <+: d'.content.audits.rows
  contentInvalidations : d.content.invalidations.rows <+: d'.content.invalidations.rows
  artifacts : d.production.artifacts.rows <+: d'.production.artifacts.rows
  mediaQa : d.production.mediaQa.rows <+: d'.production.mediaQa.rows
  artifactInvalidations : d.production.invalidations.rows <+: d'.production.invalidations.rows
  rights : d.compliance.rights.rows <+: d'.compliance.rights.rows
  manifests : d.compliance.manifests.rows <+: d'.compliance.manifests.rows
  complianceAudits : d.compliance.audits.rows <+: d'.compliance.audits.rows
  complianceInvalidations : d.compliance.invalidations.rows <+: d'.compliance.invalidations.rows
  chiefAudits : d.compliance.chiefAudits.rows <+: d'.compliance.chiefAudits.rows
  eligibility : d.compliance.eligibility.rows <+: d'.compliance.eligibility.rows

theorem prefix_of_grows {α : Type} [Keyed α] {s t : Table α} (h : ∃ added, Appended s t added) :
    s.rows <+: t.rows := by
  obtain ⟨added, happended⟩ := h
  exact ⟨added, happended.rows.symm⟩

/-- **Verdicts and evidence are never rewritten or lost.** -/
theorem departments_on_record (lib : StandardLibrary) (environment : Option String)
    (ops later : List DepartmentOp) :
    OnRecord (replay (step lib) (deployment environment) ops)
      (replay (step lib) (deployment environment) (ops ++ later)) := by
  have hs : DepartmentsSound lib (replay (step lib) (deployment environment) ops) :=
    sound_of_run environment ops
  have hg := (run_kept hs later).1
  have happend : replay (step lib) (deployment environment) (ops ++ later) =
      replay (step lib) (replay (step lib) (deployment environment) ops) later :=
    List.foldl_append
  rw [happend]
  constructor
  case sources => exact prefix_of_grows hg.research.sources
  case evidence => exact prefix_of_grows hg.research.evidence
  case researchAudits => exact prefix_of_grows hg.research.audits
  case briefLinks =>
    obtain ⟨added, happended, -⟩ := hg.strategy.links
    exact prefix_of_grows ⟨added, happended⟩
  case strategyAudits => exact prefix_of_grows hg.strategy.audits
  case directions => exact prefix_of_grows hg.content.directions
  case versions => exact prefix_of_grows hg.content.versions
  case fingerprints => exact prefix_of_grows hg.content.fingerprints
  case contentAudits => exact prefix_of_grows hg.content.audits
  case contentInvalidations => exact prefix_of_grows hg.content.invalidations
  case artifacts => exact prefix_of_grows hg.production.artifacts
  case mediaQa => exact prefix_of_grows hg.production.mediaQa
  case artifactInvalidations => exact prefix_of_grows hg.production.invalidations
  case rights => exact prefix_of_grows hg.compliance.rights
  case manifests => exact prefix_of_grows hg.compliance.manifests
  case complianceAudits => exact prefix_of_grows hg.compliance.audits
  case complianceInvalidations => exact prefix_of_grows hg.compliance.invalidations
  case chiefAudits => exact prefix_of_grows hg.compliance.chiefAudits
  case eligibility => exact prefix_of_grows hg.compliance.eligibility

end ContentOrchestrator.Departments

import ContentOrchestrator.Departments.DepartmentSystem

/-! # What a pass to human review rests on

The chief auditor looks at two checks only. That every gate before them was passed as well
follows from what the earlier departments let through: the lineage of a passed artifact goes
back, within its workspace, to research sources no two of which are the same. -/

namespace ContentOrchestrator.Departments

open Lib Lib.Table

variable {lib : StandardLibrary} {d : Departments} {workspaceId : Nat}

/-- A research audit passed the opportunity on two or more fresh sources, all different. -/
def PassedResearch (r : ResearchTables) (workspaceId opportunityId : Nat) : Prop :=
  ∃ a ∈ r.audits, a.workspaceId = workspaceId ∧ a.opportunityId = opportunityId ∧
    a.state = .pass ∧ ∃ sources : List ResearchSource,
    a.findings.map (·.sourceId) = sources.map (·.id) ∧ 2 ≤ sources.length ∧
    (sources.map (·.contentDigest)).Nodup ∧
    ∀ s ∈ sources, (s ∈ r.sources ∧ s.workspaceId = workspaceId ∧ s.handlingState = .accepted ∧
      ∃ e ∈ r.evidence, e.opportunityId = opportunityId ∧ e.sourceId = s.id) ∧
      s.freshness ≠ "stale" ∧ s.freshness ≠ "unknown"

/-- Every gate behind a pass to human review, with the rows that record it. -/
structure Lineage (lib : StandardLibrary) (ops : List DepartmentOp) (d : Departments)
    (chief : ChiefAudit) (artifact : FinalArtifact) (job : ProductionJob)
    (package : ContentPackage) (brief : StrategyBrief) : Prop where
  judged : artifact ∈ d.production.artifacts ∧ artifact.id = chief.finalArtifactId ∧
    artifact.workspaceId = chief.workspaceId ∧ artifact.artifactHash = chief.artifactHash
  media : ∃ q ∈ d.production.mediaQa, q.workspaceId = chief.workspaceId ∧
    q.finalArtifactId = artifact.id ∧ q.artifactHash = artifact.artifactHash ∧
    q.status = "pass" ∧ ∃ op ∈ ops, op.Checks q
  compliance : CompliancePass d.compliance chief.workspaceId artifact.id artifact.artifactHash
  rendered : job ∈ d.production.jobs ∧ job.id = artifact.productionJobId ∧
    job.workspaceId = chief.workspaceId
  produced : package ∈ d.content.packages ∧ package.id = job.contentPackageId ∧
    package.workspaceId = chief.workspaceId ∧ package.contentVersionId = artifact.contentVersionId
  contentAudits : ∀ kind, ∃ x ∈ d.content.audits, x.workspaceId = chief.workspaceId ∧
    x.contentPackageId = package.id ∧ x.contentVersionId = artifact.contentVersionId ∧
    x.auditorType = kind ∧ x.state = .pass ∧ x.auditorWorkerId ≠ package.writerWorkerId
  planned : brief ∈ d.strategy.briefs ∧ brief.id = package.strategyBriefId ∧
    brief.workspaceId = chief.workspaceId
  strategyAudit : ∃ x ∈ d.strategy.audits, x.workspaceId = chief.workspaceId ∧
    x.strategyBriefId = brief.id ∧ x.state = .pass ∧ BriefReady lib brief x.findings
  opportunities : ∃ o, o ∈ briefOpportunityIds chief.workspaceId brief.id d.strategy
  research : ∀ o ∈ briefOpportunityIds chief.workspaceId brief.id d.strategy,
    HasOpportunity d.research chief.workspaceId o ∧
      PassedResearch d.research chief.workspaceId o

/-! ## One department at a time -/

theorem passedResearch_of_pass {r : ResearchTables} {now opportunityId : Nat}
    (hs : ResearchSound now r) (h : ResearchPass r workspaceId opportunityId) :
    PassedResearch r workspaceId opportunityId := by
  obtain ⟨a, ha, rfl, rfl, hpass⟩ := h
  obtain ⟨linked, sources, hlinkedSome, hinitial, hordered, hfindings, hverdict⟩ :=
    (hs.audits a ha).1.verdict
  have hsome : sources ≠ [] := fun h => hlinkedSome (h ▸ hordered.perm).nil_eq.symm
  have hlinked : ∀ s ∈ sources, s ∈ r.sources ∧ s.workspaceId = a.workspaceId ∧
      s.handlingState = .accepted ∧
      ∃ e ∈ r.evidence, e.opportunityId = a.opportunityId ∧ e.sourceId = s.id :=
    fun s hmem => mem_linkedSources hs.evidence (hinitial.subset (hordered.perm.subset hmem))
  have haccepted : ∀ s ∈ sources, s.handlingState = .accepted :=
    fun s hmem => (hlinked s hmem).2.2.1
  rw [hpass, verdict_of_accepted haccepted hsome] at hverdict
  split at hverdict
  · cases hverdict
  · rename_i hdistinct
    split at hverdict
    · cases hverdict
    · rename_i hwarned
      have hpositive : sources.length ≠ 0 := fun h => hsome (List.length_eq_zero_iff.mp h)
      have hmany : sources.length ≠ 1 := fun h => hwarned (.inl h)
      refine ⟨a, ha, rfl, rfl, hpass, sources, hfindings ▸ findings_of_accepted haccepted,
        by omega, not_not.mp hdistinct, fun s hmem => ⟨hlinked s hmem, ?_, ?_⟩⟩
      · exact fun hstale => hwarned (.inr ⟨s, hmem, .inl hstale⟩)
      · exact fun hunknown => hwarned (.inr ⟨s, hmem, .inr hunknown⟩)

theorem brief_lineage {r : ResearchTables} {t : StrategyTables} {now : Nat} {b : StrategyBrief}
    (hr : ResearchSound now r) (hs : StrategySound lib r t) (hb : b ∈ t.briefs) :
    (∃ o, o ∈ briefOpportunityIds b.workspaceId b.id t) ∧
      ∀ o ∈ briefOpportunityIds b.workspaceId b.id t,
        HasOpportunity r b.workspaceId o ∧ PassedResearch r b.workspaceId o := by
  constructor
  · obtain ⟨l, hl, hid, hws⟩ := (hs.briefs b hb).linked
    refine ⟨l.opportunityId, List.mem_map_of_mem (mem_select.mpr ⟨hl, ?_⟩)⟩
    rw [hid, hws, beq_self_eq_true, beq_self_eq_true]
    rfl
  · intro o ho
    obtain ⟨l, hl, rfl⟩ := List.mem_map.mp ho
    obtain ⟨hl, hown⟩ := mem_select.mp hl
    rw [Bool.and_eq_true, beq_iff_eq, beq_iff_eq] at hown
    obtain ⟨-, hopportunity, hpassed⟩ := hs.links l hl
    rw [hown.1] at hopportunity hpassed
    exact ⟨hopportunity, passedResearch_of_pass hr hpassed⟩

theorem strategyAudit_ready {r : ResearchTables} {t : StrategyTables} {b : StrategyBrief}
    (hs : StrategySound lib r t) (hb : b ∈ t.briefs) (h : StrategyPass t workspaceId b.id) :
    ∃ x ∈ t.audits, x.workspaceId = workspaceId ∧ x.strategyBriefId = b.id ∧ x.state = .pass ∧
      BriefReady lib b x.findings := by
  obtain ⟨x, hx, hws, hid, hpass⟩ := h
  obtain ⟨b', hb', hid', -, -, -, hready⟩ := hs.audits x hx
  obtain rfl : b' = b := eq_of_key hb' hb (hid'.trans hid)
  exact ⟨x, hx, hws, hid, hpass, (hready hpass).2⟩

theorem auditor_ne_writer (kind : AuditorType) :
    kind.name ++ "_auditor_fixture" ≠ "writer_fixture" := by
  cases kind <;> decide

theorem contentAudits_independent {s : StrategyTables} {t : ContentTables} {now : Nat}
    {p : ContentPackage} (hs : ContentSound now s t) (hp : p ∈ t.packages)
    (h : ContentPass t workspaceId p.id) (kind : AuditorType) :
    ∃ x ∈ t.audits, x.workspaceId = workspaceId ∧ x.contentPackageId = p.id ∧
      x.contentVersionId = p.contentVersionId ∧ x.auditorType = kind ∧ x.state = .pass ∧
      x.auditorWorkerId ≠ p.writerWorkerId := by
  obtain ⟨x, hx, hws, hid, hkind, hpass⟩ := h kind
  obtain ⟨⟨p', hp', hid', -, hversion⟩, hauditor, -, -⟩ := hs.audits x hx
  obtain rfl : p' = p := eq_of_key hp' hp (hid'.trans hid)
  refine ⟨x, hx, hws, hid, hversion.symm, hkind, hpass, ?_⟩
  rw [hauditor, (hs.packages p' hp').writer]
  exact auditor_ne_writer x.auditorType

/-! ## The whole lineage -/

theorem lineage_of_sound {ops : List DepartmentOp} {chief : ChiefAudit}
    (hs : DepartmentsSound lib d)
    (hchecked : ∀ q ∈ d.production.mediaQa, ∃ op ∈ ops, DepartmentOp.Checks q op)
    (hchief : chief ∈ d.compliance.chiefAudits) (hpass : chief.status = "pass_to_human_review") :
    ∃ artifact job package brief, Lineage lib ops d chief artifact job package brief := by
  obtain ⟨⟨artifact, hartifact, haid, haws, hhash⟩, -, -, -, hpassed⟩ :=
    hs.compliance.chiefAudits chief hchief
  obtain ⟨⟨q, hq, hqws, hqid, hqhash, hqpass⟩, hcompliance⟩ := hpassed hpass
  obtain ⟨job, hjob, hjid, hjws, hjversion, -⟩ := hs.production.artifacts artifact hartifact
  obtain ⟨⟨package, hpackage, hpid, hpws, hpversion⟩, -, hcontent, -⟩ := hs.production.jobs job hjob
  obtain ⟨⟨brief, hbrief, hbid, hbws⟩, hstrategy, -, -, -,
    -⟩ := hs.content.packages package hpackage
  have hjchief : job.workspaceId = chief.workspaceId := hjws.trans haws
  have hpchief : package.workspaceId = chief.workspaceId := hpws.trans hjchief
  have hbchief : brief.workspaceId = chief.workspaceId := hbws.trans hpchief
  have hversion : package.contentVersionId = artifact.contentVersionId := hpversion.trans hjversion
  rw [← hpid, hjchief] at hcontent
  rw [← hbid, hpchief] at hstrategy
  rw [← haid, ← hhash] at hcompliance
  obtain ⟨hsome, hresearch⟩ := brief_lineage hs.research hs.strategy hbrief
  rw [hbchief] at hsome hresearch
  exact ⟨artifact, job, package, brief,
    { judged := ⟨hartifact, haid, haws, hhash⟩
      media := ⟨q, hq, hqws, hqid.trans haid.symm, hqhash.trans hhash.symm, hqpass, hchecked q hq⟩
      compliance := hcompliance
      rendered := ⟨hjob, hjid, hjchief⟩
      produced := ⟨hpackage, hpid, hpchief, hversion⟩
      contentAudits := hversion ▸ contentAudits_independent hs.content hpackage hcontent
      planned := ⟨hbrief, hbid, hbchief⟩
      strategyAudit := strategyAudit_ready hs.strategy hbrief hstrategy
      opportunities := hsome
      research := hresearch }⟩

/-- **A pass to human review has its whole lineage behind it**, in one workspace and about one
artifact hash; the media check was called for by another than the producer the call named. -/
theorem human_review_lineage (lib : StandardLibrary) (environment : Option String)
    (ops : List DepartmentOp) (chief : ChiefAudit)
    (hchief : chief ∈ (replay (step lib) (deployment environment) ops).compliance.chiefAudits)
    (hpass : chief.status = "pass_to_human_review") :
    ∃ artifact job package brief,
      Lineage lib ops (replay (step lib) (deployment environment) ops) chief artifact job package
        brief :=
  lineage_of_sound (sound_of_run environment ops)
    (fun _ hq => (run_checks (deployment_sound environment) hq).resolve_left mem_empty)
    hchief hpass

/-! ## A run that gets there -/

def newsSite : List Char := "https://news.example".toList

/-- A library that reads URLs of one site. -/
def plainLibrary : StandardLibrary where
  lower text := String.ofList (text.toList.map Char.toLower)
  isDecimal := Char.isDigit
  isDigit := Char.isDigit
  sha256 text := "sha256:" ++ text
  urlsplit value :=
    if newsSite <+: value.toList then
      .ok { scheme := "https", hostname := some "news.example", username := none, password := none
            path := String.ofList (value.toList.drop newsSite.length), query := "" }
    else .error "unsupported"
  urlunsplit scheme host path query := scheme ++ "://" ++ host ++ path ++ query
  isLocalAddress _ := false

def newsSource (name : String) : FixtureSource where
  url := some ("https://news.example/" ++ name)
  excerpt := some name
  freshness := some "fresh"

def breadTopic : FixtureOpportunity where
  topic := some "bread"
  proposedAngle := some "slow dough"
  title := some "Bread"
  summary := some "Slow dough is popular"

def breadScript : FixturePackage where
  objective := some "teach"
  creativeConcept := some "one loaf"
  hook := some "Wait a day."
  script := some "Slow dough needs time."
  cta := some "Bake one."

/-- From research to the chief auditor, every call passing. -/
def reviewedOps : List DepartmentOp :=
  [.recordFixtureRun 1 [newsSource "a", newsSource "b"] breadTopic, .auditOpportunity 1 0 [],
   .recordFixtureBrief 1 "grow" [0] { text := fun _ => some "video" }, .auditBrief 1 0,
   .recordFixturePackage 1 0 breadScript none,
   .recordFixtureAudit 1 0 "language" "pass", .recordFixtureAudit 1 0 "fact" "pass",
   .recordFixtureAudit 1 0 "brand" "pass", .recordFixtureAudit 1 0 "originality" "pass",
   .createProductionRun 1 0, .markTestJob 0, .createTestFixtureArtifact 1 0 "hash",
   .createTestMediaQa 1 0 "qa" "producer" "pass", .createTestCompliancePass 1 0 "compliance" 0,
   .runTestChiefAudit 1 0 "chief" 0 0]

set_option maxRecDepth 10000 in
theorem human_review_lineage_reviewed :
    ∃ chief artifact job package brief,
      chief ∈ (replay (step plainLibrary) (deployment (some "test"))
        reviewedOps).compliance.chiefAudits ∧
      Lineage plainLibrary reviewedOps
        (replay (step plainLibrary) (deployment (some "test")) reviewedOps) chief artifact job
        package brief := by
  have hreached : ∃ chief ∈
      (replay (step plainLibrary) (deployment (some "test"))
        reviewedOps).compliance.chiefAudits.rows,
      chief.status = "pass_to_human_review" := by decide +kernel
  obtain ⟨chief, hchief, hpass⟩ := hreached
  obtain ⟨artifact, job, package, brief, hlineage⟩ :=
    human_review_lineage plainLibrary (some "test") reviewedOps chief hchief hpass
  exact ⟨chief, artifact, job, package, brief, hchief, hlineage⟩

end ContentOrchestrator.Departments

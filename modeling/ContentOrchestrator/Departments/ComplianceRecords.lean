import ContentOrchestrator.Departments.ProductionRecords

/-! # What compliance records and what holds of it

A compliance pass rests on a passing media check of the artifact's hash, and the chief
auditor passes an artifact on that and on a compliance pass of the same hash. No decision
makes an artifact eligible for publication. -/

namespace ContentOrchestrator.Departments

open Lib Lib.Table

variable {workspaceId artifactId pick : Nat} {d d' : Departments} {p p' : ProductionTables}
  {t t' : ComplianceTables}

/-- A passing media check of the artifact's hash. -/
def MediaPass (p : ProductionTables) (workspaceId artifactId : Nat) (artifactHash : String) :
    Prop :=
  ∃ q ∈ p.mediaQa, q.workspaceId = workspaceId ∧ q.finalArtifactId = artifactId ∧
    q.artifactHash = artifactHash ∧ q.status = "pass"

/-- A passing compliance audit of the artifact's hash. -/
def CompliancePass (t : ComplianceTables) (workspaceId artifactId : Nat) (artifactHash : String) :
    Prop :=
  ∃ a ∈ t.audits, a.workspaceId = workspaceId ∧ a.finalArtifactId = artifactId ∧
    a.artifactHash = artifactHash ∧ a.status = "pass"

/-- **What a compliance operation does to the department's tables.** -/
inductive ComplianceEffect (p : ProductionTables) (t : ComplianceTables) : ComplianceTables → Prop
  | requested {a : FinalArtifact} {platform rights : String} {row : NewRow ComplianceAudit}
      (there : a ∈ p.artifacts)
      (blocked : row = complianceAuditRow a platform "compliance" "blocked_provider_not_configured"
        rights) :
      ComplianceEffect p t { t with audits := t.audits.insert row }
  | passed {a : FinalArtifact} {workerId : String} (there : a ∈ p.artifacts)
      (media : MediaPass p a.workspaceId a.id a.artifactHash) :
      ComplianceEffect p t
        { t with
          rights := t.rights.insert (rightsRow a)
          audits := t.audits.insert (complianceAuditRow a "test" workerId "pass" "verified") }
  | listed {workspaceId : Nat}
      (fresh : ∀ m ∈ t.manifests, m.workspaceId = workspaceId → m.contentType = "short_form_media" →
        m.manifestVersion ≠ 1) :
      ComplianceEffect p t { t with manifests := t.manifests.insert (manifestRow workspaceId) }
  | judged {a : FinalArtifact} {m : AuditGateManifest} {workerId : String}
      {media : Option MediaQaResult} {compliance : Option ComplianceAudit} {blockers : List String}
      (there : a ∈ p.artifacts) (manifest : m ∈ t.manifests) (own : m.workspaceId = a.workspaceId)
      (checked : ∀ q, media = some q → q ∈ p.mediaQa ∧ q.workspaceId = a.workspaceId ∧
        q.finalArtifactId = a.id ∧ q.artifactHash = a.artifactHash)
      (audited : ∀ x, compliance = some x → x ∈ t.audits ∧ x.workspaceId = a.workspaceId ∧
        x.finalArtifactId = a.id ∧ x.artifactHash = a.artifactHash)
      (verdict : blockers = chiefBlockers media compliance) :
      ComplianceEffect p t
        { t with chiefAudits := t.chiefAudits.insert (chiefAuditRow a m.id workerId blockers) }
  | invalidated {a : ComplianceAudit} {reason : String} (there : a ∈ t.audits) :
      ComplianceEffect p t
        { t with invalidations := t.invalidations.insert (complianceInvalidationRow a reason) }
  | decided {a : FinalArtifact} {platform : String} {chief : Option ChiefAudit}
      {readiness : Option ProductionReadiness} (there : a ∈ p.artifacts)
      (judged : ∀ x, chief = some x → x ∈ t.chiefAudits ∧ x.workspaceId = a.workspaceId ∧
        x.finalArtifactId = a.id ∧ x.artifactHash = a.artifactHash)
      (fresh : ∀ e ∈ t.eligibility, e.workspaceId = a.workspaceId → e.finalArtifactId = a.id →
        e.targetPlatform ≠ platform) :
      ComplianceEffect p t
        { t with eligibility := t.eligibility.insert (eligibilityRow a platform chief readiness) }

/-! ## The operations -/

/-- Only the compliance tables differ. -/
structure ComplianceOnly (d d' : Departments) : Prop where
  rest : d' = { d with compliance := d'.compliance }
  effects : Relation.ReflTransGen (ComplianceEffect d.production) d.compliance d'.compliance

theorem complianceArtifact_returns {a : FinalArtifact}
    (h : Returns (complianceArtifact workspaceId artifactId) d a d') :
    d = d' ∧ a ∈ d.production.artifacts ∧ a.id = artifactId ∧ a.workspaceId = workspaceId := by
  simp only [complianceArtifact, returns_bind, returns_get, returns_demand] at h
  obtain ⟨_, _, ⟨rfl, rfl⟩, hfound, rfl⟩ := h
  exact ⟨rfl, getArtifact_eq_some hfound⟩

theorem createComplianceRun_returns {targetPlatform : String} {audit : Nat}
    (h : Returns (createComplianceRun workspaceId artifactId targetPlatform pick) d audit d') :
    ComplianceOnly d d' := by
  simp only [createComplianceRun, returns_bind, returns_get, returns_modify, returns_pure] at h
  obtain ⟨a, _, hartifact, _, _, ⟨rfl, rfl⟩, _, _, rfl, -, rfl⟩ := h
  obtain ⟨rfl, hmem, -, -⟩ := complianceArtifact_returns hartifact
  exact ⟨rfl, .single (.requested hmem rfl)⟩

theorem mediaQaOf_eq_some {a : FinalArtifact} {q : MediaQaResult}
    (h : mediaQaOf pick a p = some q) :
    q ∈ p.mediaQa ∧ q.workspaceId = a.workspaceId ∧ q.finalArtifactId = a.id ∧
      q.artifactHash = a.artifactHash := by
  obtain ⟨hmem, hown⟩ := mem_select.mp (anyRow_mem h)
  rw [Bool.and_eq_true, Bool.and_eq_true, beq_iff_eq, beq_iff_eq, beq_iff_eq] at hown
  exact ⟨hmem, hown.1.1, hown.1.2, hown.2⟩

theorem complianceAuditOf_eq_some {a : FinalArtifact} {x : ComplianceAudit}
    (h : complianceAuditOf pick a t = some x) :
    x ∈ t.audits ∧ x.workspaceId = a.workspaceId ∧ x.finalArtifactId = a.id ∧
      x.artifactHash = a.artifactHash := by
  obtain ⟨hmem, hown⟩ := mem_select.mp (anyRow_mem h)
  rw [Bool.and_eq_true, Bool.and_eq_true, beq_iff_eq, beq_iff_eq, beq_iff_eq] at hown
  exact ⟨hmem, hown.1.1, hown.1.2, hown.2⟩

theorem chiefAuditOf_eq_some {a : FinalArtifact} {x : ChiefAudit}
    (h : chiefAuditOf pick a t = some x) :
    x ∈ t.chiefAudits ∧ x.workspaceId = a.workspaceId ∧ x.finalArtifactId = a.id ∧
      x.artifactHash = a.artifactHash := by
  obtain ⟨hmem, hown⟩ := mem_select.mp (anyRow_mem h)
  rw [Bool.and_eq_true, Bool.and_eq_true, beq_iff_eq, beq_iff_eq, beq_iff_eq] at hown
  exact ⟨hmem, hown.1.1, hown.1.2, hown.2⟩

theorem createTestManifest_returns {m : AuditGateManifest}
    (h : Returns (createTestManifest workspaceId) d m d') :
    ComplianceOnly d d' ∧ m ∈ d'.compliance.manifests ∧ m.workspaceId = workspaceId := by
  simp only [createTestManifest, returns_bind, returns_get, returns_scalarOneOrNone] at h
  obtain ⟨_, _, ⟨rfl, rfl⟩, existing, _, ⟨hfound, rfl⟩, h⟩ := h
  cases existing with
  | some manifest =>
    obtain ⟨rfl, rfl⟩ := returns_pure.mp h
    have hmem : manifest ∈ Option.toList (some manifest) := List.mem_singleton_self manifest
    rw [hfound] at hmem
    obtain ⟨hmem, hown⟩ := mem_select.mp hmem
    rw [Bool.and_eq_true, Bool.and_eq_true, beq_iff_eq] at hown
    exact ⟨⟨rfl, .refl⟩, hmem, hown.1.1⟩
  | none =>
    simp only [returns_bind, returns_modify, returns_pure] at h
    obtain ⟨_, _, rfl, rfl, rfl⟩ := h
    refine ⟨⟨rfl, .single (.listed fun m hm hws htype hversion => ?_)⟩,
      mem_insert.mpr (.inr rfl), rfl⟩
    have hfree := select_eq_nil.mp hfound.symm m hm
    rw [hws, htype, hversion, beq_self_eq_true] at hfree
    cases hfree

theorem createTestCompliancePass_returns {workerId : String} {audit : Nat}
    (h : Returns (createTestCompliancePass workspaceId artifactId workerId pick) d audit d') :
    ComplianceOnly d d' := by
  simp only [createTestCompliancePass, returns_bind, returns_get, returns_ensure, returns_modify,
    returns_pure] at h
  obtain ⟨a, _, hartifact, _, _, ⟨rfl, rfl⟩, _, _, ⟨hmedia, rfl⟩, _, _, rfl, _, _, rfl, -, rfl⟩ := h
  obtain ⟨rfl, hmem, -, -⟩ := complianceArtifact_returns hartifact
  rw [Option.any_eq_true] at hmedia
  obtain ⟨q, hq, hstatus⟩ := hmedia
  obtain ⟨hqmem, hws, hid, hhash⟩ := mediaQaOf_eq_some hq
  exact ⟨rfl, .single (.passed hmem ⟨q, hqmem, hws, hid, hhash, beq_iff_eq.mp hstatus⟩)⟩

theorem runTestChiefAudit_returns {workerId : String} {pickMedia pickCompliance audit : Nat}
    (h : Returns (runTestChiefAudit workspaceId artifactId workerId pickMedia pickCompliance) d
      audit d') : ComplianceOnly d d' := by
  simp only [runTestChiefAudit, returns_bind, returns_get, returns_modify, returns_pure] at h
  obtain ⟨a, _, hartifact, m, d₁, hmanifest, _, _, ⟨rfl, rfl⟩, _, _, rfl, -, rfl⟩ := h
  obtain ⟨rfl, hmem, -, hws⟩ := complianceArtifact_returns hartifact
  obtain ⟨honly, hm, hmws⟩ := createTestManifest_returns hmanifest
  obtain ⟨compliance, rfl⟩ : ∃ compliance, d₁ = { d with compliance } := ⟨_, honly.rest⟩
  exact ⟨rfl, honly.effects.tail (.judged hmem hm (hmws.trans hws.symm)
    (fun _ => mediaQaOf_eq_some) (fun _ => complianceAuditOf_eq_some) rfl)⟩

theorem invalidateCompliance_returns {auditId invalidation : Nat} {reason : String}
    (h : Returns (invalidateCompliance workspaceId auditId reason) d invalidation d') :
    ComplianceOnly d d' := by
  simp only [invalidateCompliance, returns_bind, returns_get, returns_demand, returns_ensure,
    returns_modify, returns_pure] at h
  obtain ⟨_, _, ⟨rfl, rfl⟩, a, _, ⟨hfound, rfl⟩, _, _, ⟨-, rfl⟩, _, _, rfl, -, rfl⟩ := h
  obtain ⟨hget, -⟩ := Option.filter_eq_some_iff.mp hfound
  exact ⟨rfl, .single (.invalidated (get?_eq_some.mp hget).1)⟩

theorem publicationEligibility_returns {targetPlatform : String} {row : Nat}
    (h : Returns (publicationEligibility workspaceId artifactId targetPlatform pick) d row d') :
    ComplianceOnly d d' := by
  simp only [publicationEligibility, returns_bind, returns_get, returns_scalarOneOrNone,
    returns_ensure, returns_modify, returns_pure] at h
  obtain ⟨a, _, hartifact, _, _, ⟨rfl, rfl⟩, readiness, _, ⟨-, rfl⟩, _, _, ⟨hfresh, rfl⟩, _, _, rfl,
    -, rfl⟩ := h
  obtain ⟨rfl, hmem, rfl, rfl⟩ := complianceArtifact_returns hartifact
  refine ⟨rfl, .single (.decided hmem (fun _ => chiefAuditOf_eq_some) fun e he hws hid hsame => ?_)⟩
  have hfree := select_eq_nil.mp (List.isEmpty_iff.mp hfresh) e he
  rw [hws, hid, hsame, beq_self_eq_true, beq_self_eq_true, beq_self_eq_true] at hfree
  cases hfree

/-! ## The invariant -/

structure ComplianceAuditSound (p : ProductionTables) (a : ComplianceAudit) : Prop where
  artifact : ArtifactOf p a.workspaceId a.finalArtifactId a.artifactHash
  version : ArtifactShows p a.workspaceId a.finalArtifactId a.contentVersionId
  passed : a.status = "pass" → MediaPass p a.workspaceId a.finalArtifactId a.artifactHash

structure ChiefAuditSound (p : ProductionTables) (t : ComplianceTables) (a : ChiefAudit) :
    Prop where
  artifact : ArtifactOf p a.workspaceId a.finalArtifactId a.artifactHash
  version : ArtifactShows p a.workspaceId a.finalArtifactId a.contentVersionId
  manifest : ∃ m ∈ t.manifests, m.id = a.gateManifestId ∧ m.workspaceId = a.workspaceId
  blockers : a.status = "pass_to_human_review" ↔ a.blockers = []
  passed : a.status = "pass_to_human_review" →
    MediaPass p a.workspaceId a.finalArtifactId a.artifactHash ∧
      CompliancePass t a.workspaceId a.finalArtifactId a.artifactHash

structure EligibilitySound (p : ProductionTables) (t : ComplianceTables)
    (e : ArtifactPublicationEligibility) : Prop where
  artifact : ArtifactOf p e.workspaceId e.finalArtifactId e.artifactHash
  version : ArtifactShows p e.workspaceId e.finalArtifactId e.contentVersionId
  chief : ∀ chiefId, e.chiefAuditId = some chiefId → ∃ a ∈ t.chiefAudits, a.id = chiefId ∧
    a.workspaceId = e.workspaceId ∧ a.finalArtifactId = e.finalArtifactId
  blocked : e.publicationEligible = false ∧ e.status = "blocked" ∧
    "external_publishing_disabled" ∈ e.blockingReasons

structure ComplianceSound (p : ProductionTables) (t : ComplianceTables) : Prop where
  rights : ∀ r ∈ t.rights, HasArtifact p r.workspaceId r.finalArtifactId
  audits : ∀ a ∈ t.audits, ComplianceAuditSound p a
  chiefAudits : ∀ a ∈ t.chiefAudits, ChiefAuditSound p t a
  manifests : ∀ m ∈ t.manifests, m.contentType = "short_form_media" ∧ m.manifestVersion = 1 ∧
    m.requiredGates = defaultGates
  manifestOnce : ∀ m ∈ t.manifests, ∀ m' ∈ t.manifests, m.workspaceId = m'.workspaceId →
    m.id = m'.id
  invalidations : ∀ i ∈ t.invalidations, ∃ a ∈ t.audits, a.id = i.complianceAuditId ∧
    a.workspaceId = i.workspaceId ∧ a.finalArtifactId = i.finalArtifactId
  eligibility : ∀ e ∈ t.eligibility, EligibilitySound p t e
  decidedOnce : ∀ e ∈ t.eligibility, ∀ e' ∈ t.eligibility, e.workspaceId = e'.workspaceId →
    e.finalArtifactId = e'.finalArtifactId → e.targetPlatform = e'.targetPlatform → e.id = e'.id

/-- What compliance never loses. -/
structure ComplianceGrows (t t' : ComplianceTables) : Prop where
  rights : ∃ added, Appended t.rights t'.rights added
  manifests : ∃ added, Appended t.manifests t'.manifests added
  audits : ∃ added, Appended t.audits t'.audits added
  invalidations : ∃ added, Appended t.invalidations t'.invalidations added
  chiefAudits : ∃ added, Appended t.chiefAudits t'.chiefAudits added
  eligibility : ∃ added, Appended t.eligibility t'.eligibility added

theorem ComplianceGrows.refl (t : ComplianceTables) : ComplianceGrows t t where
  rights := ⟨[], Appended.refl _⟩
  manifests := ⟨[], Appended.refl _⟩
  audits := ⟨[], Appended.refl _⟩
  invalidations := ⟨[], Appended.refl _⟩
  chiefAudits := ⟨[], Appended.refl _⟩
  eligibility := ⟨[], Appended.refl _⟩

theorem ComplianceGrows.trans {t'' : ComplianceTables} (h : ComplianceGrows t t')
    (h' : ComplianceGrows t' t'') : ComplianceGrows t t'' where
  rights := Appended.grows_trans h.rights h'.rights
  manifests := Appended.grows_trans h.manifests h'.manifests
  audits := Appended.grows_trans h.audits h'.audits
  invalidations := Appended.grows_trans h.invalidations h'.invalidations
  chiefAudits := Appended.grows_trans h.chiefAudits h'.chiefAudits
  eligibility := Appended.grows_trans h.eligibility h'.eligibility

theorem ComplianceEffect.grows (h : ComplianceEffect p t t') : ComplianceGrows t t' := by
  have hg := ComplianceGrows.refl t
  cases h with
  | requested _ _ => exact { hg with audits := ⟨_, Appended.insert ..⟩ }
  | passed _ _ =>
    exact { hg with rights := ⟨_, Appended.insert ..⟩, audits := ⟨_, Appended.insert ..⟩ }
  | listed _ => exact { hg with manifests := ⟨_, Appended.insert ..⟩ }
  | judged _ _ _ _ _ _ => exact { hg with chiefAudits := ⟨_, Appended.insert ..⟩ }
  | invalidated _ => exact { hg with invalidations := ⟨_, Appended.insert ..⟩ }
  | decided _ _ _ => exact { hg with eligibility := ⟨_, Appended.insert ..⟩ }

theorem MediaPass.grows {artifactHash : String} (hg : ProductionGrows p p')
    (h : MediaPass p workspaceId artifactId artifactHash) :
    MediaPass p' workspaceId artifactId artifactHash := by
  obtain ⟨q, hq, hrest⟩ := h
  obtain ⟨_, happended⟩ := hg.mediaQa
  exact ⟨q, happended.old hq, hrest⟩

theorem CompliancePass.grows {artifactHash : String} (hg : ComplianceGrows t t')
    (h : CompliancePass t workspaceId artifactId artifactHash) :
    CompliancePass t' workspaceId artifactId artifactHash := by
  obtain ⟨a, ha, hrest⟩ := h
  obtain ⟨_, happended⟩ := hg.audits
  exact ⟨a, happended.old ha, hrest⟩

theorem ComplianceAuditSound.grows {a : ComplianceAudit} (hg : ProductionGrows p p')
    (h : ComplianceAuditSound p a) : ComplianceAuditSound p' a :=
  ⟨h.artifact.grows hg, h.version.grows hg, fun hpass => (h.passed hpass).grows hg⟩

theorem ChiefAuditSound.grows {a : ChiefAudit} (hp : ProductionGrows p p')
    (hg : ComplianceGrows t t') (h : ChiefAuditSound p t a) : ChiefAuditSound p' t' a where
  artifact := h.artifact.grows hp
  version := h.version.grows hp
  manifest := by
    obtain ⟨m, hm, hrest⟩ := h.manifest
    obtain ⟨_, happended⟩ := hg.manifests
    exact ⟨m, happended.old hm, hrest⟩
  blockers := h.blockers
  passed hpass := (h.passed hpass).imp (·.grows hp) (·.grows hg)

theorem EligibilitySound.grows {e : ArtifactPublicationEligibility} (hp : ProductionGrows p p')
    (hg : ComplianceGrows t t') (h : EligibilitySound p t e) : EligibilitySound p' t' e where
  artifact := h.artifact.grows hp
  version := h.version.grows hp
  chief chiefId hchief := by
    obtain ⟨a, ha, hrest⟩ := h.chief chiefId hchief
    obtain ⟨_, happended⟩ := hg.chiefAudits
    exact ⟨a, happended.old ha, hrest⟩
  blocked := h.blocked

/-- More artifacts and media checks keep what compliance rests on. -/
theorem ComplianceSound.production (hs : ComplianceSound p t) (hg : ProductionGrows p p') :
    ComplianceSound p' t :=
  { hs with
    rights := fun r hr => (hs.rights r hr).grows hg
    audits := fun a ha => (hs.audits a ha).grows hg
    chiefAudits := fun a ha => (hs.chiefAudits a ha).grows hg (.refl t)
    eligibility := fun e he => (hs.eligibility e he).grows hg (.refl t) }

theorem compliance_empty (p : ProductionTables) : ComplianceSound p {} where
  rights _ h := absurd h mem_empty
  audits _ h := absurd h mem_empty
  chiefAudits _ h := absurd h mem_empty
  manifests _ h := absurd h mem_empty
  manifestOnce _ h := absurd h mem_empty
  invalidations _ h := absurd h mem_empty
  eligibility _ h := absurd h mem_empty
  decidedOnce _ h := absurd h mem_empty

theorem chiefAuditRow_passed {a : FinalArtifact} {manifestId k : Nat} {workerId : String}
    {blockers : List String} :
    ((chiefAuditRow a manifestId workerId blockers).make k).status = "pass_to_human_review" ↔
      blockers = [] := by
  cases blockers with
  | nil => simp [chiefAuditRow]
  | cons b bs => simp [chiefAuditRow]

/-- No blocker stands when both checks passed, and only then. -/
theorem chiefBlockers_eq_nil {media : Option MediaQaResult} {compliance : Option ComplianceAudit} :
    chiefBlockers media compliance = [] ↔
      (∃ q, media = some q ∧ q.status = "pass") ∧ ∃ x, compliance = some x ∧ x.status = "pass" := by
  rw [chiefBlockers, List.append_eq_nil_iff]
  refine and_congr ?_ ?_
  · cases media with
    | none => simp
    | some q => by_cases hpass : q.status = "pass" <;> simp [hpass]
  · cases compliance with
    | none => simp
    | some x => by_cases hpass : x.status = "pass" <;> simp [hpass]

theorem compliance_kept (hs : ComplianceSound p t) (h : ComplianceEffect p t t') :
    ComplianceSound p t' := by
  have hg := h.grows
  have hp := ProductionGrows.refl p
  cases h with
  | @requested a platform rights row there blocked =>
    refine
      { hs with
        audits := fun x hx => ?_, chiefAudits := fun x hx => (hs.chiefAudits x hx).grows hp hg
        invalidations := fun i hi => ?_
        eligibility := fun e he => (hs.eligibility e he).grows hp hg }
    · rcases mem_insert.mp hx with hx | rfl
      · exact hs.audits x hx
      · rw [blocked]
        exact ⟨⟨a, there, rfl, rfl, rfl⟩, ⟨a, there, rfl, rfl, rfl⟩,
          fun hpass => by simp [complianceAuditRow] at hpass⟩
    · obtain ⟨x, hx, hrest⟩ := hs.invalidations i hi
      exact ⟨x, mem_insert.mpr (.inl hx), hrest⟩
  | @passed a workerId there media =>
    refine
      { hs with
        rights := fun r hr => ?_, audits := fun x hx => ?_
        chiefAudits := fun x hx => (hs.chiefAudits x hx).grows hp hg
        invalidations := fun i hi => ?_
        eligibility := fun e he => (hs.eligibility e he).grows hp hg }
    · rcases mem_insert.mp hr with hr | rfl
      · exact hs.rights r hr
      · exact ⟨a, there, rfl, rfl⟩
    · rcases mem_insert.mp hx with hx | rfl
      · exact hs.audits x hx
      · exact ⟨⟨a, there, rfl, rfl, rfl⟩, ⟨a, there, rfl, rfl, rfl⟩, fun _ => media⟩
    · obtain ⟨x, hx, hrest⟩ := hs.invalidations i hi
      exact ⟨x, mem_insert.mpr (.inl hx), hrest⟩
  | @listed workspaceId fresh =>
    refine
      { hs with
        chiefAudits := fun x hx => (hs.chiefAudits x hx).grows hp hg, manifests := fun m hm => ?_
        manifestOnce := fun m hm m' hm' hws => ?_
        eligibility := fun e he => (hs.eligibility e he).grows hp hg }
    · rcases mem_insert.mp hm with hm | rfl
      · exact hs.manifests m hm
      · exact ⟨rfl, rfl, rfl⟩
    · have hother : ∀ m ∈ t.manifests, m.workspaceId ≠ workspaceId := by
        intro m hm hws
        obtain ⟨htype, hversion, -⟩ := hs.manifests m hm
        exact fresh m hm hws htype hversion
      rcases mem_insert.mp hm with hm | rfl
      · rcases mem_insert.mp hm' with hm' | rfl
        · exact hs.manifestOnce m hm m' hm' hws
        · exact absurd hws (hother m hm)
      · rcases mem_insert.mp hm' with hm' | rfl
        · exact absurd hws.symm (hother m' hm')
        · rfl
  | @judged a m workerId media compliance blockers there manifest own checked audited verdict =>
    refine
      { hs with
        chiefAudits := fun x hx => ?_
        eligibility := fun e he => (hs.eligibility e he).grows hp hg }
    rcases mem_insert.mp hx with hx | rfl
    · exact (hs.chiefAudits x hx).grows hp hg
    · refine ⟨⟨a, there, rfl, rfl, rfl⟩, ⟨a, there, rfl, rfl, rfl⟩, ⟨m, manifest, rfl, own⟩,
        chiefAuditRow_passed, fun hpass => ?_⟩
      rw [chiefAuditRow_passed, verdict, chiefBlockers_eq_nil] at hpass
      obtain ⟨⟨q, hq, hqpass⟩, y, hy, hypass⟩ := hpass
      obtain ⟨hqmem, hqws, hqid, hqhash⟩ := checked q hq
      obtain ⟨hymem, hyws, hyid, hyhash⟩ := audited y hy
      exact ⟨⟨q, hqmem, hqws, hqid, hqhash, hqpass⟩, y, hymem, hyws, hyid, hyhash, hypass⟩
  | @invalidated a reason there =>
    refine
      { hs with
        chiefAudits := fun x hx => (hs.chiefAudits x hx).grows hp hg
        invalidations := fun i hi => ?_
        eligibility := fun e he => (hs.eligibility e he).grows hp hg }
    rcases mem_insert.mp hi with hi | rfl
    · exact hs.invalidations i hi
    · exact ⟨a, there, rfl, rfl, rfl⟩
  | @decided a platform chief readiness there judged fresh =>
    refine
      { hs with
        chiefAudits := fun x hx => (hs.chiefAudits x hx).grows hp hg, eligibility := fun e he => ?_
        decidedOnce := fun e he e' he' hws hid hplatform => ?_ }
    · rcases mem_insert.mp he with he | rfl
      · exact (hs.eligibility e he).grows hp hg
      · refine ⟨⟨a, there, rfl, rfl, rfl⟩, ⟨a, there, rfl, rfl, rfl⟩, fun chiefId hchief => ?_,
          rfl, rfl, ?_⟩
        · obtain ⟨x, hx, rfl⟩ := Option.map_eq_some_iff.mp hchief
          obtain ⟨hmem, hws, hid, -⟩ := judged x hx
          exact ⟨x, hmem, rfl, hws, hid⟩
        · exact List.mem_append_right _ (List.mem_singleton_self _)
    · rcases mem_insert.mp he with he | rfl
      · rcases mem_insert.mp he' with he' | rfl
        · exact hs.decidedOnce e he e' he' hws hid hplatform
        · exact absurd hplatform (fresh e he hws hid)
      · rcases mem_insert.mp he' with he' | rfl
        · exact absurd hplatform.symm (fresh e' he' hws.symm hid.symm)
        · rfl

end ContentOrchestrator.Departments

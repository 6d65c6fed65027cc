import ContentOrchestrator.Departments.ContentInvariants
import ContentOrchestrator.Departments.Production

/-! # What production records and what holds of it

A job was opened under a passing gate, so its package had a passing audit of each kind. An
artifact has one hash, one media check and one readiness row, and the readiness row never
lets an artifact on by itself. -/

namespace ContentOrchestrator.Departments

open Lib Lib.Table

variable {workspaceId artifactId : Nat} {d d' : Departments} {c c' : ContentTables}
  {t t' : ProductionTables} {now : Nat}

/-- What production never loses. -/
structure ProductionGrows (t t' : ProductionTables) : Prop where
  jobs : ∀ j ∈ t.jobs, ∃ j' ∈ t'.jobs, j' = j ∨ j' = { j with testData := true }
  artifacts : ∃ added, Appended t.artifacts t'.artifacts added
  mediaQa : ∃ added, Appended t.mediaQa t'.mediaQa added
  invalidations : ∃ added, Appended t.invalidations t'.invalidations added

theorem ProductionGrows.refl (t : ProductionTables) : ProductionGrows t t where
  jobs j hj := ⟨j, hj, .inl rfl⟩
  artifacts := ⟨[], Appended.refl _⟩
  mediaQa := ⟨[], Appended.refl _⟩
  invalidations := ⟨[], Appended.refl _⟩

theorem ProductionGrows.trans {t'' : ProductionTables} (h : ProductionGrows t t')
    (h' : ProductionGrows t' t'') : ProductionGrows t t'' where
  jobs j hj := by
    obtain ⟨j', hj', hsame⟩ := h.jobs j hj
    obtain ⟨j'', hj'', hsame'⟩ := h'.jobs j' hj'
    refine ⟨j'', hj'', ?_⟩
    rcases hsame with rfl | rfl
    · exact hsame'
    · exact .inr (hsame'.elim id id)
  artifacts := Appended.grows_trans h.artifacts h'.artifacts
  mediaQa := Appended.grows_trans h.mediaQa h'.mediaQa
  invalidations := Appended.grows_trans h.invalidations h'.invalidations

/-- **What a production operation does to the department's tables.** -/
inductive ProductionEffect (now : Nat) (c : ContentTables) (t : ProductionTables) :
    ProductionTables → Prop
  | requested {p : ContentPackage} (there : p ∈ c.packages) (passed : p.auditGateStatus = .pass) :
      ProductionEffect now c t { t with jobs := t.jobs.insert (jobRow p) }
  | marked {jobId : Nat} :
      ProductionEffect now c t { t with jobs := t.jobs.modify jobId ProductionJob.markTestData }
  | rendered {j : ProductionJob} {artifactHash : String} (there : j ∈ t.jobs)
      (test : j.testData = true)
      (fresh : ∀ a ∈ t.artifacts, a.workspaceId = j.workspaceId → a.artifactHash ≠ artifactHash) :
      ProductionEffect now c t
        { t with artifacts := t.artifacts.insert (artifactRow j artifactHash) }
  | checked {a : FinalArtifact} {auditorWorkerId status : String} (there : a ∈ t.artifacts)
      (unchecked : ∀ q ∈ t.mediaQa, q.finalArtifactId = a.id → q.artifactHash ≠ a.artifactHash)
      (unready : ∀ r ∈ t.readiness, r.workspaceId = a.workspaceId → r.finalArtifactId ≠ a.id) :
      ProductionEffect now c t
        { t with
          mediaQa := t.mediaQa.insert (mediaQaRow a auditorWorkerId status now)
          readiness := t.readiness.insert (readinessRow a status) }
  | invalidated {a : FinalArtifact} {qa : Option MediaQaResult} {reason : String}
      {readiness : Table ProductionReadiness} (there : a ∈ t.artifacts)
      (cited : ∀ q, qa = some q → q ∈ t.mediaQa ∧ q.workspaceId = a.workspaceId)
      (changed : readiness = t.readiness ∨
        ∃ k, readiness = t.readiness.modify k ProductionReadiness.invalidate) :
      ProductionEffect now c t
        { t with
          invalidations := t.invalidations.insert (artifactInvalidationRow a qa reason)
          readiness }

theorem ProductionEffect.grows (h : ProductionEffect now c t t') : ProductionGrows t t' := by
  cases h with
  | requested _ _ =>
    exact { ProductionGrows.refl t with
      jobs := fun j hj => ⟨j, mem_insert.mpr (.inl hj), .inl rfl⟩ }
  | marked =>
    refine { ProductionGrows.refl t with jobs := fun j hj => ?_ }
    refine ⟨_, mem_modify.mpr ⟨j, hj, rfl⟩, ?_⟩
    split
    · exact .inr rfl
    · exact .inl rfl
  | rendered _ _ _ => exact { ProductionGrows.refl t with artifacts := ⟨_, Appended.insert ..⟩ }
  | checked _ _ _ => exact { ProductionGrows.refl t with mediaQa := ⟨_, Appended.insert ..⟩ }
  | invalidated _ _ _ =>
    have hg := ProductionGrows.refl t
    exact ⟨hg.jobs, hg.artifacts, hg.mediaQa, ⟨_, Appended.insert ..⟩⟩

/-! ## The operations -/

/-- Only the production tables differ. -/
structure ProductionOnly (d d' : Departments) : Prop where
  rest : d' = { d with production := d'.production }
  effect : ProductionEffect d.now d.content d.production d'.production

theorem createProductionRun_returns {packageId job : Nat}
    (h : Returns (createProductionRun workspaceId packageId) d job d') :
    ProductionOnly d d' ∧ d'.production.mediaQa = d.production.mediaQa := by
  simp only [createProductionRun, returns_bind, returns_get, returns_demand, returns_ensure,
    returns_modify, returns_pure] at h
  obtain ⟨_, _, ⟨rfl, rfl⟩, p, _, ⟨hfound, rfl⟩, _, _, ⟨hpass, rfl⟩, _, _, rfl, -, rfl⟩ := h
  obtain ⟨hget, -⟩ := Option.filter_eq_some_iff.mp hfound
  exact ⟨⟨rfl, .requested (get?_eq_some.mp hget).1 (beq_iff_eq.mp hpass)⟩, rfl⟩

theorem markTestJob_returns {jobId : Nat} : ProductionOnly d (markTestJob jobId d) ∧
    (markTestJob jobId d).production.mediaQa = d.production.mediaQa := ⟨⟨rfl, .marked⟩, rfl⟩

theorem getArtifact_eq_some {a : FinalArtifact}
    (h : getArtifact workspaceId artifactId t = some a) :
    a ∈ t.artifacts ∧ a.id = artifactId ∧ a.workspaceId = workspaceId := by
  obtain ⟨hget, hown⟩ := Option.filter_eq_some_iff.mp h
  obtain ⟨hmem, hid⟩ := get?_eq_some.mp hget
  exact ⟨hmem, hid, beq_iff_eq.mp hown⟩

theorem createTestFixtureArtifact_returns {jobId artifact : Nat} {artifactHash : String}
    (h : Returns (createTestFixtureArtifact workspaceId jobId artifactHash) d artifact d') :
    ProductionOnly d d' ∧ d'.production.mediaQa = d.production.mediaQa := by
  simp only [createTestFixtureArtifact, returns_bind, returns_get, returns_demand, returns_ensure,
    returns_scalarOneOrNone, returns_modify, returns_pure] at h
  obtain ⟨_, _, ⟨rfl, rfl⟩, j, _, ⟨hfound, rfl⟩, _, _, ⟨htest, rfl⟩, duplicate, _,
    ⟨hduplicate, rfl⟩, _, _, ⟨hnone, rfl⟩, _, _, rfl, -, rfl⟩ := h
  obtain ⟨hget, hown⟩ := Option.filter_eq_some_iff.mp hfound
  obtain rfl := Option.isNone_iff_eq_none.mp hnone
  refine ⟨⟨rfl, .rendered (get?_eq_some.mp hget).1 htest fun a ha hws hsame => ?_⟩, rfl⟩
  have hfree := select_eq_nil.mp hduplicate.symm a ha
  rw [hws, hsame, beq_iff_eq.mp hown, beq_self_eq_true, beq_self_eq_true] at hfree
  cases hfree

/-- A media check is recorded for another worker than the one its call names as the producer. -/
theorem createTestMediaQa_returns {auditorWorkerId producerWorkerId status : String} {qa : Nat}
    (h : Returns (createTestMediaQa workspaceId artifactId auditorWorkerId producerWorkerId status)
      d qa d') : ProductionOnly d d' ∧ auditorWorkerId ≠ producerWorkerId ∧
      ∀ q ∈ d'.production.mediaQa, q ∈ d.production.mediaQa ∨ q.workspaceId = workspaceId ∧
        q.finalArtifactId = artifactId ∧ q.auditorWorkerId = auditorWorkerId ∧
        q.status = status := by
  simp only [createTestMediaQa, returns_bind, returns_get, returns_demand, returns_ensure,
    returns_modify, returns_pure] at h
  obtain ⟨_, _, ⟨rfl, rfl⟩, a, _, ⟨hfound, rfl⟩, _, _, ⟨-, rfl⟩, _, _, ⟨hauditor, rfl⟩, _, _,
    ⟨hunchecked, rfl⟩, _, _, ⟨hunready, rfl⟩, _, _, rfl, _, _, rfl, -, rfl⟩ := h
  obtain ⟨hmem, rfl, rfl⟩ := getArtifact_eq_some hfound
  refine ⟨⟨rfl, .checked hmem (fun q hq hid hsame => ?_) fun r hr hws hid => ?_⟩,
    bne_iff_ne.mp hauditor, fun q hq => (mem_insert.mp hq).imp_right fun hnew => ?_⟩
  · have hfree := select_eq_nil.mp (List.isEmpty_iff.mp hunchecked) q hq
    rw [hid, hsame, beq_self_eq_true, beq_self_eq_true] at hfree
    cases hfree
  · have hfree := select_eq_nil.mp (List.isEmpty_iff.mp hunready) r hr
    rw [hid, hws, beq_self_eq_true, beq_self_eq_true] at hfree
    cases hfree
  · subst hnew
    exact ⟨rfl, rfl, rfl, rfl⟩

theorem invalidateArtifact_returns {reason : String} {invalidation : Nat}
    (h : Returns (invalidateArtifact workspaceId artifactId reason) d invalidation d') :
    ProductionOnly d d' ∧ d'.production.mediaQa = d.production.mediaQa := by
  simp only [invalidateArtifact, returns_bind, returns_get, returns_demand, returns_ensure,
    returns_scalarOneOrNone, returns_modify, returns_pure] at h
  obtain ⟨_, _, ⟨rfl, rfl⟩, a, _, ⟨hfound, rfl⟩, _, _, ⟨-, rfl⟩, _, _, rfl, readiness, _, ⟨-, rfl⟩,
    _, _, rfl, -, rfl⟩ := h
  obtain ⟨hmem, rfl, rfl⟩ := getArtifact_eq_some hfound
  have hcited : ∀ q, latest (·.createdAt) (d.production.mediaQa.select fun q =>
      q.workspaceId == a.workspaceId && q.finalArtifactId == a.id) = some q →
      q ∈ d.production.mediaQa ∧ q.workspaceId = a.workspaceId := by
    intro q hq
    obtain ⟨hstored, hown⟩ := mem_select.mp (latest_mem hq)
    rw [Bool.and_eq_true, beq_iff_eq] at hown
    exact ⟨hstored, hown.1⟩
  cases readiness with
  | none => exact ⟨⟨rfl, .invalidated hmem hcited (.inl rfl)⟩, rfl⟩
  | some readiness => exact ⟨⟨rfl, .invalidated hmem hcited (.inr ⟨readiness.id, rfl⟩)⟩, rfl⟩

/-! ## The invariant -/

/-- The package had a passing audit of each kind. -/
def ContentPass (c : ContentTables) (workspaceId packageId : Nat) : Prop :=
  ∀ kind, ∃ a ∈ c.audits, a.workspaceId = workspaceId ∧ a.contentPackageId = packageId ∧
    a.auditorType = kind ∧ a.state = .pass

structure JobSound (c : ContentTables) (j : ProductionJob) : Prop where
  package : PackageOf c j.workspaceId j.contentPackageId j.contentVersionId
  item : HasItem c j.workspaceId j.contentItemId
  passed : ContentPass c j.workspaceId j.contentPackageId
  state : j.status = "blocked_provider_not_configured" ∧ j.providerState = "not_configured"

/-- An artifact under this key, workspace and hash. -/
def ArtifactOf (t : ProductionTables) (workspaceId artifactId : Nat) (artifactHash : String) :
    Prop :=
  ∃ a ∈ t.artifacts, a.id = artifactId ∧ a.workspaceId = workspaceId ∧ a.artifactHash = artifactHash

/-- An artifact of the workspace under this key. -/
def HasArtifact (t : ProductionTables) (workspaceId artifactId : Nat) : Prop :=
  ∃ a ∈ t.artifacts, a.id = artifactId ∧ a.workspaceId = workspaceId

/-- An artifact of the workspace under this key that shows the version. -/
def ArtifactShows (t : ProductionTables) (workspaceId artifactId versionId : Nat) : Prop :=
  ∃ a ∈ t.artifacts, a.id = artifactId ∧ a.workspaceId = workspaceId ∧
    a.contentVersionId = versionId

structure ReadinessSound (t : ProductionTables) (r : ProductionReadiness) : Prop where
  artifact : ArtifactShows t r.workspaceId r.finalArtifactId r.contentVersionId
  checked : r.mediaQaState = "invalidated" ∨ ∃ q ∈ t.mediaQa, q.workspaceId = r.workspaceId ∧
    q.finalArtifactId = r.finalArtifactId ∧ q.status = r.mediaQaState
  blocked : r.status = "blocked" ∧ r.humanReviewState = "blocked" ∧ r.blockingReasons ≠ []

structure ProductionSound (c : ContentTables) (t : ProductionTables) : Prop where
  jobs : ∀ j ∈ t.jobs, JobSound c j
  artifacts : ∀ a ∈ t.artifacts, ∃ j ∈ t.jobs, j.id = a.productionJobId ∧
    j.workspaceId = a.workspaceId ∧ j.contentVersionId = a.contentVersionId ∧
    j.contentItemId = a.contentItemId ∧ j.testData = true
  hashes : ∀ a ∈ t.artifacts, ∀ b ∈ t.artifacts, a.workspaceId = b.workspaceId →
    a.artifactHash = b.artifactHash → a.id = b.id
  mediaQa : ∀ q ∈ t.mediaQa, ArtifactOf t q.workspaceId q.finalArtifactId q.artifactHash
  checkedOnce : ∀ q ∈ t.mediaQa, ∀ q' ∈ t.mediaQa, q.finalArtifactId = q'.finalArtifactId →
    q.id = q'.id
  readiness : ∀ r ∈ t.readiness, ReadinessSound t r
  invalidations : ∀ i ∈ t.invalidations, HasArtifact t i.workspaceId i.finalArtifactId
  cited : ∀ i ∈ t.invalidations, ∀ k, i.mediaQaResultId = some k →
    ∃ q ∈ t.mediaQa, q.id = k ∧ q.workspaceId = i.workspaceId

theorem ContentPass.grows {packageId : Nat} (hg : ContentGrows c c')
    (h : ContentPass c workspaceId packageId) : ContentPass c' workspaceId packageId := by
  intro kind
  obtain ⟨a, ha, hrest⟩ := h kind
  obtain ⟨_, happended⟩ := hg.audits
  exact ⟨a, happended.old ha, hrest⟩

theorem JobSound.grows {j : ProductionJob} (hg : ContentGrows c c') (h : JobSound c j) :
    JobSound c' j :=
  { h with package := h.package.grows hg, item := h.item.grows hg, passed := h.passed.grows hg }

theorem ArtifactOf.grows {artifactHash : String} (hg : ProductionGrows t t')
    (h : ArtifactOf t workspaceId artifactId artifactHash) :
    ArtifactOf t' workspaceId artifactId artifactHash := by
  obtain ⟨a, ha, hrest⟩ := h
  obtain ⟨_, happended⟩ := hg.artifacts
  exact ⟨a, happended.old ha, hrest⟩

theorem HasArtifact.grows (hg : ProductionGrows t t') (h : HasArtifact t workspaceId artifactId) :
    HasArtifact t' workspaceId artifactId := by
  obtain ⟨a, ha, hrest⟩ := h
  obtain ⟨_, happended⟩ := hg.artifacts
  exact ⟨a, happended.old ha, hrest⟩

theorem ArtifactShows.grows {versionId : Nat} (hg : ProductionGrows t t')
    (h : ArtifactShows t workspaceId artifactId versionId) :
    ArtifactShows t' workspaceId artifactId versionId := by
  obtain ⟨a, ha, hrest⟩ := h
  obtain ⟨_, happended⟩ := hg.artifacts
  exact ⟨a, happended.old ha, hrest⟩

theorem ReadinessSound.grows {r : ProductionReadiness} (hg : ProductionGrows t t')
    (h : ReadinessSound t r) : ReadinessSound t' r where
  artifact := h.artifact.grows hg
  checked := by
    refine h.checked.imp id fun hchecked => ?_
    obtain ⟨q, hq, hrest⟩ := hchecked
    obtain ⟨_, happended⟩ := hg.mediaQa
    exact ⟨q, happended.old hq, hrest⟩
  blocked := h.blocked

/-- More content keeps what production rests on. -/
theorem ProductionSound.content (hs : ProductionSound c t) (hg : ContentGrows c c') :
    ProductionSound c' t :=
  { hs with jobs := fun j hj => (hs.jobs j hj).grows hg }

theorem production_empty (c : ContentTables) : ProductionSound c {} where
  jobs _ h := absurd h mem_empty
  artifacts _ h := absurd h mem_empty
  hashes _ h := absurd h mem_empty
  mediaQa _ h := absurd h mem_empty
  checkedOnce _ h := absurd h mem_empty
  readiness _ h := absurd h mem_empty
  invalidations _ h := absurd h mem_empty
  cited _ h := absurd h mem_empty

/-- Under a passing gate the latest audits passed, one of each kind. -/
theorem contentPass_of_gate {s : StrategyTables} {p : ContentPackage} (hc : ContentSound now s c)
    (there : p ∈ c.packages) (hpass : p.auditGateStatus = .pass) :
    (∀ kind, auditStateOf p.workspaceId p.id c kind = .pass) ∧
      ContentPass c p.workspaceId p.id := by
  have hstates : ∀ kind, auditStateOf p.workspaceId p.id c kind = .pass := by
    rcases (hc.gates p there).gate with hgate | ⟨hgate, -⟩ | hgate
    · rw [hpass] at hgate
      intro kind
      by_contra hnot
      have hall : (AuditorType.all.all fun k => auditStateOf p.workspaceId p.id c k == .pass) =
          false := by
        rw [List.all_eq_false]
        exact ⟨kind, by cases kind <;> decide, by simpa using hnot⟩
      rw [packageGate, hall] at hgate
      split at hgate
      · cases hgate
      · cases hgate
    · rw [hpass] at hgate
      cases hgate
    · rw [hpass] at hgate
      cases hgate
  refine ⟨hstates, fun kind => ?_⟩
  have hstate := hstates kind
  unfold auditStateOf at hstate
  cases hlatest : latestContentAudit p.workspaceId p.id c kind with
  | none =>
    rw [hlatest] at hstate
    cases hstate
  | some a =>
    rw [hlatest] at hstate
    obtain ⟨hmem, hkind⟩ := List.mem_filter.mp (latest_mem hlatest)
    obtain ⟨hmem, hown⟩ := mem_select.mp hmem
    rw [Bool.and_eq_true, beq_iff_eq, beq_iff_eq] at hown
    exact ⟨a, hmem, hown.1, hown.2, beq_iff_eq.mp hkind, hstate⟩

theorem production_kept {s : StrategyTables} (hc : ContentSound now s c)
    (hs : ProductionSound c t) (h : ProductionEffect now c t t') : ProductionSound c t' := by
  have hg := h.grows
  cases h with
  | @requested p there passed =>
    refine
      { hs with
        jobs := fun j hj => ?_, artifacts := fun a ha => ?_
        readiness := fun r hr => (hs.readiness r hr).grows hg }
    · rcases mem_insert.mp hj with hj | rfl
      · exact hs.jobs j hj
      · exact ⟨⟨p, there, rfl, rfl, rfl⟩, (hc.shown there).2,
          (contentPass_of_gate hc there passed).2, rfl, rfl⟩
    · obtain ⟨j, hj, hrest⟩ := hs.artifacts a ha
      exact ⟨j, mem_insert.mpr (.inl hj), hrest⟩
  | @marked jobId =>
    refine
      { hs with
        jobs := fun j hj => ?_, artifacts := fun a ha => ?_
        readiness := fun r hr => (hs.readiness r hr).grows hg }
    · obtain ⟨j₀, hj₀, rfl⟩ := mem_modify.mp hj
      have hsound := hs.jobs j₀ hj₀
      split
      · exact ⟨hsound.package, hsound.item, hsound.passed, hsound.state⟩
      · exact hsound
    · obtain ⟨j, hj, hid, hws, hversion, hitem, htest⟩ := hs.artifacts a ha
      obtain ⟨j', hj', rfl | rfl⟩ := hg.jobs j hj
      · exact ⟨_, hj', hid, hws, hversion, hitem, htest⟩
      · exact ⟨_, hj', hid, hws, hversion, hitem, rfl⟩
  | @rendered j artifactHash there test fresh =>
    refine
      { hs with
        artifacts := fun a ha => ?_, hashes := fun a ha b hb hws hsame => ?_
        mediaQa := fun q hq => (hs.mediaQa q hq).grows hg
        readiness := fun r hr => (hs.readiness r hr).grows hg
        invalidations := fun i hi => (hs.invalidations i hi).grows hg }
    · rcases mem_insert.mp ha with ha | rfl
      · exact hs.artifacts a ha
      · exact ⟨j, there, rfl, rfl, rfl, rfl, test⟩
    · rcases mem_insert.mp ha with ha | rfl
      · rcases mem_insert.mp hb with hb | rfl
        · exact hs.hashes a ha b hb hws hsame
        · exact absurd hsame (fresh a ha hws)
      · rcases mem_insert.mp hb with hb | rfl
        · exact absurd hsame.symm (fresh b hb hws.symm)
        · rfl
  | @checked a auditorWorkerId status there unchecked unready =>
    have hother : ∀ q ∈ t.mediaQa, q.finalArtifactId ≠ a.id := by
      intro q hq hid
      obtain ⟨a', ha', hid', -, hsame⟩ := hs.mediaQa q hq
      have heq : a' = a := eq_of_key ha' there (hid'.trans hid)
      exact unchecked q hq hid (heq ▸ hsame.symm)
    refine
      { hs with
        mediaQa := fun q hq => ?_, checkedOnce := fun q hq q' hq' hid => ?_
        readiness := fun r hr => ?_, cited := fun i hi k hk => ?_ }
    · rcases mem_insert.mp hq with hq | rfl
      · exact hs.mediaQa q hq
      · exact ⟨a, there, rfl, rfl, rfl⟩
    · rcases mem_insert.mp hq with hq | rfl
      · rcases mem_insert.mp hq' with hq' | rfl
        · exact hs.checkedOnce q hq q' hq' hid
        · exact absurd hid (hother q hq)
      · rcases mem_insert.mp hq' with hq' | rfl
        · exact absurd hid.symm (hother q' hq')
        · rfl
    · rcases mem_insert.mp hr with hr | rfl
      · exact (hs.readiness r hr).grows hg
      · exact ⟨⟨a, there, rfl, rfl, rfl⟩, .inr ⟨_, mem_insert.mpr (.inr rfl), rfl, rfl, rfl⟩, rfl,
          rfl, by simp [readinessRow]⟩
    · obtain ⟨q, hq, hrest⟩ := hs.cited i hi k hk
      exact ⟨q, mem_insert.mpr (.inl hq), hrest⟩
  | @invalidated a qa reason readiness there cited changed =>
    refine
      { hs with
        readiness := fun r hr => ?_, invalidations := fun i hi => ?_
        cited := fun i hi k hk => ?_ }
    · rcases changed with rfl | ⟨k, rfl⟩
      · exact (hs.readiness r hr).grows hg
      · obtain ⟨r₀, hr₀, rfl⟩ := mem_modify.mp hr
        have hsound := (hs.readiness r₀ hr₀).grows hg
        split
        · exact ⟨hsound.artifact, .inl rfl, rfl, rfl, by simp [ProductionReadiness.invalidate]⟩
        · exact hsound
    · rcases mem_insert.mp hi with hi | rfl
      · exact hs.invalidations i hi
      · exact ⟨a, there, rfl, rfl⟩
    · rcases mem_insert.mp hi with hi | rfl
      · exact hs.cited i hi k hk
      · have hnamed : qa.map (·.id) = some k := hk
        obtain ⟨q, hq, rfl⟩ := Option.map_eq_some_iff.mp hnamed
        exact ⟨q, (cited q hq).1, rfl, (cited q hq).2⟩

end ContentOrchestrator.Departments

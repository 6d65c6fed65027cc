import ContentOrchestrator.Departments.ContentRecords

/-! # What holds of content at any time

A package rests on a brief of its own workspace that the strategy auditor passed. Its gate
is what its latest audits say, unless a repeated script blocked it before any audit or a
new version invalidated it; and its claims are verified as its latest fact audit says. -/

namespace ContentOrchestrator.Departments

open Lib Lib.Table

variable {now : Nat} {s s' : StrategyTables} {t t' : ContentTables}

/-! ## The latest audit -/

theorem auditStateOf_congr (h : t'.audits = t.audits) (workspaceId packageId : Nat) :
    auditStateOf workspaceId packageId t' = auditStateOf workspaceId packageId t := by
  funext kind
  rw [auditStateOf, auditStateOf, latestContentAudit, latestContentAudit, packageAudits,
    packageAudits, h]

theorem auditStateOf_unaudited {packageId : Nat} (h : Unaudited t packageId) (workspaceId : Nat)
    (kind : AuditorType) : auditStateOf workspaceId packageId t kind = .notRun := by
  have hnone : packageAudits workspaceId packageId t = [] :=
    select_eq_nil.mpr fun a ha => by simp [h a ha]
  rw [auditStateOf, latestContentAudit, hnone]
  rfl

/-- A new audit is the latest of its package and kind, and of no other. -/
theorem auditStateOf_insert {row : NewRow ContentAudit}
    (hlast : ∀ a ∈ t.audits, a.checkedAt ≤ (row.make t.audits.next).checkedAt)
    (workspaceId packageId : Nat) (kind : AuditorType) :
    auditStateOf workspaceId packageId { t with audits := t.audits.insert row } kind =
      if (row.make t.audits.next).workspaceId = workspaceId ∧
          (row.make t.audits.next).contentPackageId = packageId ∧
          (row.make t.audits.next).auditorType = kind then (row.make t.audits.next).state
      else auditStateOf workspaceId packageId t kind := by
  rw [auditStateOf, auditStateOf, latestContentAudit, latestContentAudit, packageAudits,
    packageAudits, select_insert, List.filter_append]
  by_cases hown : (row.make t.audits.next).workspaceId = workspaceId ∧
      (row.make t.audits.next).contentPackageId = packageId ∧
      (row.make t.audits.next).auditorType = kind
  · rw [if_pos hown]
    obtain ⟨hws, hid, hkind⟩ := hown
    rw [if_pos (by rw [hws, hid, beq_self_eq_true, beq_self_eq_true, Bool.and_true]),
      List.filter_cons_of_pos (by rw [hkind, beq_self_eq_true]), List.filter_nil,
      latest_append fun a ha => hlast a (mem_select.mp (List.mem_filter.mp ha).1).1]
    rfl
  · have hnone : ∀ a ∈ (if ((row.make t.audits.next).workspaceId == workspaceId &&
        (row.make t.audits.next).contentPackageId == packageId) = true then
        [row.make t.audits.next] else []), ¬ (a.auditorType == kind) = true := by
      intro a ha hkind
      split at ha
      · rename_i hpackage
        rw [Bool.and_eq_true, beq_iff_eq, beq_iff_eq] at hpackage
        rw [List.mem_singleton.mp ha] at hkind
        exact hown ⟨hpackage.1, hpackage.2, beq_iff_eq.mp hkind⟩
      · cases ha
    rw [if_neg hown, List.filter_eq_nil_iff.mpr hnone, List.append_nil]

/-! ## The invariant -/

/-- What a claim's package's latest fact audit makes of it. -/
def verification : AuditState → String
  | .notRun => "not_run"
  | .pass | .passWithWarning => "verified"
  | .blocked | .error => "unverified"

/-- An item of the workspace is stored under this key. -/
def HasItem (t : ContentTables) (workspaceId itemId : Nat) : Prop :=
  ∃ i ∈ t.items, i.id = itemId ∧ i.workspaceId = workspaceId

/-- A version of the workspace is stored under this key. -/
def HasVersion (t : ContentTables) (workspaceId versionId : Nat) : Prop :=
  ∃ v ∈ t.versions, v.id = versionId ∧ v.workspaceId = workspaceId

structure PackageSound (s : StrategyTables) (t : ContentTables) (p : ContentPackage) : Prop where
  brief : HasBrief s p.workspaceId p.strategyBriefId
  passed : StrategyPass s p.workspaceId p.strategyBriefId
  run : HasContentRun t p.workspaceId p.contentDepartmentRunId
  direction : ∃ c ∈ t.directions, c.id = p.creativeDirectionId ∧ c.workspaceId = p.workspaceId ∧
    c.strategyBriefId = p.strategyBriefId
  version : ∃ v ∈ t.versions, v.id = p.contentVersionId ∧ v.workspaceId = p.workspaceId ∧
    v.contentItemId = p.contentItemId
  prior : ∀ k, p.priorContentVersionId = some k → HasVersion t p.workspaceId k
  writer : p.writerWorkerId = "writer_fixture"

/-- Every audit of the package has been invalidated. -/
def Lapsed (t : ContentTables) (workspaceId packageId : Nat) : Prop :=
  ∀ a ∈ packageAudits workspaceId packageId t, ∃ i ∈ t.invalidations, i.contentAuditId = a.id

/-- The gate's columns agree, and it stands as the latest audits have it. -/
structure GateSound (t : ContentTables) (p : ContentPackage) : Prop where
  handoff : p.producerHandoffState = p.auditGateStatus.handoff
  status : p.status = p.auditGateStatus.status
  gate : p.auditGateStatus = packageGate (auditStateOf p.workspaceId p.id t) ∨
    p.auditGateStatus = .blocked ∧ Unaudited t p.id ∨ p.auditGateStatus = .invalidated
  lapsed : p.auditGateStatus = .invalidated → Lapsed t p.workspaceId p.id
  standing : p.auditGateStatus ≠ .invalidated → Unaudited t p.id ∨ ¬ Lapsed t p.workspaceId p.id

structure DirectionSound (s : StrategyTables) (t : ContentTables) (c : CreativeDirection) :
    Prop where
  run : HasContentRun t c.workspaceId c.contentDepartmentRunId
  brief : HasBrief s c.workspaceId c.strategyBriefId
  worker : c.workerId = "creative_director_fixture"
  objective : CleanText c.objective
  concept : CleanText c.creativeConcept

structure VersionSound (t : ContentTables) (v : StudioVersion) : Prop where
  item : HasItem t v.workspaceId v.contentItemId
  hook : CleanText v.scriptHook
  body : CleanText v.scriptBody
  cta : CleanText v.scriptCta

/-- A package under this key, workspace and version. -/
def PackageOf (t : ContentTables) (workspaceId packageId versionId : Nat) : Prop :=
  ∃ p ∈ t.packages, p.id = packageId ∧ p.workspaceId = workspaceId ∧ p.contentVersionId = versionId

structure ContentAuditSound (now : Nat) (t : ContentTables) (a : ContentAudit) : Prop where
  package : PackageOf t a.workspaceId a.contentPackageId a.contentVersionId
  auditor : a.auditorWorkerId = a.auditorType.name ++ "_auditor_fixture"
  ran : a.state ≠ .notRun
  checked : a.checkedAt ≤ now

structure ClaimSound (t : ContentTables) (c : ContentClaim) : Prop where
  package : PackageOf t c.workspaceId c.contentPackageId c.contentVersionId
  clean : CleanText c.claimText
  verified : c.verificationStatus =
    verification (auditStateOf c.workspaceId c.contentPackageId t .fact)

structure InvalidationSound (t : ContentTables) (i : ContentAuditInvalidation) : Prop where
  package : PackageOf t i.workspaceId i.contentPackageId i.contentVersionId
  audit : ∃ a ∈ t.audits, a.id = i.contentAuditId ∧ a.workspaceId = i.workspaceId ∧
    a.contentPackageId = i.contentPackageId

/-- A fingerprint is a package's, and what it was compared with is on record. -/
structure FingerprintSound (t : ContentTables) (f : OriginalityFingerprint) : Prop where
  package : PackageOf t f.workspaceId f.contentPackageId f.contentVersionId
  compared : ∀ k ∈ f.comparisonSet, HasVersion t f.workspaceId k

structure ContentSound (now : Nat) (s : StrategyTables) (t : ContentTables) : Prop where
  runs : ∀ r ∈ t.runs, HasBrief s r.workspaceId r.strategyBriefId
  directions : ∀ c ∈ t.directions, DirectionSound s t c
  items : ∀ i ∈ t.items, CleanText i.topic
  current : ∀ i ∈ t.items, ∀ k, i.currentVersionId = some k → HasVersion t i.workspaceId k
  versions : ∀ v ∈ t.versions, VersionSound t v
  packages : ∀ p ∈ t.packages, PackageSound s t p
  gates : ∀ p ∈ t.packages, GateSound t p
  audits : ∀ a ∈ t.audits, ContentAuditSound now t a
  claims : ∀ c ∈ t.claims, ClaimSound t c
  fingerprints : ∀ f ∈ t.fingerprints, FingerprintSound t f
  invalidations : ∀ i ∈ t.invalidations, InvalidationSound t i

/-! ## What is kept as the tables grow -/

theorem HasContentRun.grows {workspaceId runId : Nat} (hg : ContentGrows t t')
    (h : HasContentRun t workspaceId runId) : HasContentRun t' workspaceId runId := by
  obtain ⟨r, hr, hid, hws⟩ := h
  obtain ⟨r', hr', hsame⟩ := hg.runs r hr
  exact ⟨r', hr', hsame.id.trans hid, hsame.workspace.trans hws⟩

theorem PackageOf.grows {workspaceId packageId versionId : Nat} (hg : ContentGrows t t')
    (h : PackageOf t workspaceId packageId versionId) :
    PackageOf t' workspaceId packageId versionId := by
  obtain ⟨p, hp, hid, hws, hversion⟩ := h
  obtain ⟨_, hp', _, _, _, _, rfl⟩ := hg.packages p hp
  exact ⟨_, hp', hid, hws, hversion⟩

theorem HasVersion.grows {workspaceId versionId : Nat} (hg : ContentGrows t t')
    (h : HasVersion t workspaceId versionId) : HasVersion t' workspaceId versionId := by
  obtain ⟨v, hv, hrest⟩ := h
  obtain ⟨_, hversions⟩ := hg.versions
  exact ⟨v, hversions.old hv, hrest⟩

theorem FingerprintSound.grows {f : OriginalityFingerprint} (hg : ContentGrows t t')
    (h : FingerprintSound t f) : FingerprintSound t' f :=
  ⟨h.package.grows hg, fun k hk => (h.compared k hk).grows hg⟩

theorem PackageSound.grows {p p' : ContentPackage} (hs : StrategyGrows s s')
    (hg : ContentGrows t t')
    (h : PackageSound s t p) (hsame : SamePackage p p') : PackageSound s' t' p' := by
  obtain ⟨_, _, _, _, rfl⟩ := hsame
  obtain ⟨_, hdirections⟩ := hg.directions
  obtain ⟨_, hversions⟩ := hg.versions
  obtain ⟨c, hc, hcrest⟩ := h.direction
  obtain ⟨v, hv, hvrest⟩ := h.version
  exact ⟨h.brief.grows hs, h.passed.grows hs, h.run.grows hg, ⟨c, hdirections.old hc, hcrest⟩,
    ⟨v, hversions.old hv, hvrest⟩, fun k hk => (h.prior k hk).grows hg, h.writer⟩

theorem DirectionSound.grows {c : CreativeDirection} (hs : StrategyGrows s s')
    (hg : ContentGrows t t') (h : DirectionSound s t c) : DirectionSound s' t' c :=
  { h with run := h.run.grows hg, brief := h.brief.grows hs }

theorem HasItem.grows {workspaceId itemId : Nat} (hg : ContentGrows t t')
    (h : HasItem t workspaceId itemId) : HasItem t' workspaceId itemId := by
  obtain ⟨i, hi, hid, hws⟩ := h
  obtain ⟨_, hi', _, rfl⟩ := hg.items i hi
  exact ⟨_, hi', hid, hws⟩

theorem VersionSound.grows {v : StudioVersion} (hg : ContentGrows t t') (h : VersionSound t v) :
    VersionSound t' v :=
  { h with item := h.item.grows hg }

theorem ContentAuditSound.grows {a : ContentAudit} (hg : ContentGrows t t')
    (h : ContentAuditSound now t a) : ContentAuditSound now t' a :=
  { h with package := h.package.grows hg }

theorem InvalidationSound.grows {i : ContentAuditInvalidation} (hg : ContentGrows t t')
    (h : InvalidationSound t i) : InvalidationSound t' i := by
  obtain ⟨a, ha, hrest⟩ := h.audit
  obtain ⟨_, haudits⟩ := hg.audits
  exact ⟨h.package.grows hg, a, haudits.old ha, hrest⟩

/-- What a stored package shows: a version, of the package's item. -/
theorem ContentSound.shown {p : ContentPackage} (h : ContentSound now s t)
    (there : p ∈ t.packages) :
    HasVersion t p.workspaceId p.contentVersionId ∧ HasItem t p.workspaceId p.contentItemId := by
  obtain ⟨v, hv, hid, hws, hitem⟩ := (h.packages p there).version
  exact ⟨⟨v, hv, hid, hws⟩, hws ▸ hitem ▸ (h.versions v hv).item⟩

theorem ContentSound.version {workspaceId packageId versionId : Nat} (h : ContentSound now s t)
    (hpackage : PackageOf t workspaceId packageId versionId) :
    HasVersion t workspaceId versionId := by
  obtain ⟨p, hp, -, rfl, rfl⟩ := hpackage
  exact (h.shown hp).1

theorem ContentSound.strategy (h : ContentSound now s t) (hs : StrategyGrows s s') :
    ContentSound now s' t :=
  { h with
    runs := fun r hr => (h.runs r hr).grows hs
    directions := fun c hc => (h.directions c hc).grows hs (.refl t)
    packages := fun p hp => (h.packages p hp).grows hs (.refl t) (.refl p) }

theorem ContentSound.later {now' : Nat} (h : ContentSound now s t) (hle : now ≤ now') :
    ContentSound now' s t :=
  { h with audits := fun a ha =>
      { h.audits a ha with checked := Nat.le_trans (h.audits a ha).checked hle } }

theorem content_empty (now : Nat) (s : StrategyTables) : ContentSound now s {} where
  runs _ h := absurd h mem_empty
  directions _ h := absurd h mem_empty
  items _ h := absurd h mem_empty
  current _ h := absurd h mem_empty
  versions _ h := absurd h mem_empty
  packages _ h := absurd h mem_empty
  gates _ h := absurd h mem_empty
  audits _ h := absurd h mem_empty
  claims _ h := absurd h mem_empty
  fingerprints _ h := absurd h mem_empty
  invalidations _ h := absurd h mem_empty

/-! ## Every effect keeps it -/

theorem Lapsed.congr {workspaceId packageId : Nat}
    (haudits : packageAudits workspaceId packageId t' = packageAudits workspaceId packageId t)
    (hnamed : ∀ a ∈ packageAudits workspaceId packageId t,
      (∃ i ∈ t'.invalidations, i.contentAuditId = a.id) ↔
        ∃ i ∈ t.invalidations, i.contentAuditId = a.id) :
    Lapsed t' workspaceId packageId ↔ Lapsed t workspaceId packageId := by
  rw [Lapsed, haudits]
  exact ⟨fun h a ha => (hnamed a ha).mp (h a ha), fun h a ha => (hnamed a ha).mpr (h a ha)⟩

/-- The gate of a package whose audits are the same, and as invalidated as they were. -/
theorem GateSound.same {p : ContentPackage} (h : GateSound t p)
    (hstates : auditStateOf p.workspaceId p.id t' = auditStateOf p.workspaceId p.id t)
    (hunaudited : Unaudited t p.id → Unaudited t' p.id)
    (hlapsed : Lapsed t' p.workspaceId p.id ↔ Lapsed t p.workspaceId p.id) : GateSound t' p where
  handoff := h.handoff
  status := h.status
  gate := by
    rw [hstates]
    exact h.gate.imp id (Or.imp (And.imp id hunaudited) id)
  lapsed hgate := hlapsed.mpr (h.lapsed hgate)
  standing hgate := (h.standing hgate).imp hunaudited (mt hlapsed.mp)

/-- No audit came or went, and those of the package are as invalidated as they were. -/
theorem GateSound.still_named {p : ContentPackage} (h : GateSound t p)
    (haudits : t'.audits = t.audits)
    (hnamed : ∀ a ∈ packageAudits p.workspaceId p.id t,
      (∃ i ∈ t'.invalidations, i.contentAuditId = a.id) ↔
        ∃ i ∈ t.invalidations, i.contentAuditId = a.id) : GateSound t' p := by
  refine h.same (auditStateOf_congr haudits _ _) (fun hnone => ?_) (Lapsed.congr ?_ hnamed)
  · rw [Unaudited, haudits]
    exact hnone
  · rw [packageAudits, packageAudits, haudits]

theorem GateSound.still {p : ContentPackage} (h : GateSound t p)
    (haudits : t'.audits = t.audits) (hinvalidations : t'.invalidations = t.invalidations) :
    GateSound t' p := h.still_named haudits fun _ _ => by rw [hinvalidations]

theorem ClaimSound.same {c : ContentClaim} (h : ClaimSound t c) (hg : ContentGrows t t')
    (haudits : t'.audits = t.audits) : ClaimSound t' c where
  package := h.package.grows hg
  clean := h.clean
  verified := by
    rw [auditStateOf_congr haudits]
    exact h.verified

/-- The four states alone never invalidate a package. -/
theorem packageGate_valid (states : AuditorType → AuditState) :
    packageGate states ≠ .invalidated := by
  unfold packageGate
  split
  · exact PackageGate.noConfusion
  · split <;> exact PackageGate.noConfusion

/-- A package set to a gate of its own has the columns of that gate. -/
theorem gateSound_gated {p : ContentPackage} {gate : PackageGate}
    (h : gate = packageGate (auditStateOf p.workspaceId p.id t) ∨
      gate = .blocked ∧ Unaudited t p.id)
    (hstanding : Unaudited t p.id ∨ ¬ Lapsed t p.workspaceId p.id) :
    GateSound t ((ContentPackage.gated gate).apply p) where
  handoff := rfl
  status := rfl
  gate := h.imp id .inl
  lapsed hgate := by
    rcases h with h | ⟨h, -⟩
    · exact absurd (h.symm.trans hgate) (packageGate_valid _)
    · cases h.symm.trans hgate
  standing _ := hstanding

theorem contentRuns_kept {runs : Table ContentDepartmentRun} (hs : ContentSound now s t)
    (kept : ContentRunsKept s t.runs runs) :
    ∀ r ∈ runs, HasBrief s r.workspaceId r.strategyBriefId := by
  intro r hr
  rcases kept.new r hr with ⟨r₀, hr₀, hsame⟩ | hbrief
  · rw [hsame.workspace, hsame.brief]
    exact hs.runs r₀ hr₀
  · exact hbrief

theorem packageGate_unaudited {states : AuditorType → AuditState}
    (h : ∀ kind, states kind = .notRun) :
    packageGate states = .notReady := by
  simp [packageGate, AuditorType.all, h]

/-- The rows of a package just opened are sound. -/
theorem opened_kept {workspaceId briefId runId : Nat} {script : GuardedScript}
    {previous : Option ContentPackage} {revisionReason : Option String}
    (hs : ContentSound now s t) (hbrief : HasBrief s workspaceId briefId)
    (hpassed : StrategyPass s workspaceId briefId) (hrun : HasContentRun t workspaceId runId)
    (hclean : CleanScript script)
    (hprior : ∀ q, previous = some q → HasPackage t q ∧ q.workspaceId = workspaceId) (ht : t' =
      { t with
        directions := t.directions.insert (directionRow workspaceId briefId runId script)
        items := (t.items.insert (itemRow workspaceId script)).modify t.items.next
          (StudioItem.setVersion t.versions.next)
        versions := t.versions.insert (versionRow workspaceId t.items.next script)
        packages := t.packages.insert (packageRow workspaceId briefId runId t.directions.next
          t.items.next t.versions.next previous revisionReason) })
    (hg : ContentGrows t t') : ContentSound now s t' := by
  subst ht
  have hunaudited : Unaudited t t.packages.next := by
    intro a ha
    obtain ⟨p, hp, hid, -, -⟩ := (hs.audits a ha).package
    rw [← hid]
    exact Nat.ne_of_lt (key_lt hp)
  refine
    { runs := hs.runs, directions := ?_, items := ?_, current := ?_, versions := ?_
      packages := ?_, gates := ?_
      audits := fun a ha => (hs.audits a ha).grows hg
      claims := fun c hc => (hs.claims c hc).same hg rfl
      fingerprints := fun f hf => (hs.fingerprints f hf).grows hg
      invalidations := fun i hi => (hs.invalidations i hi).grows hg }
  · intro c hc
    rcases mem_insert.mp hc with hc | rfl
    · exact (hs.directions c hc).grows (.refl s) hg
    · exact ⟨hrun, hbrief, rfl, hclean.objective, hclean.concept⟩
  · intro i hi
    obtain ⟨i', hi', rfl⟩ := mem_modify.mp hi
    have htopic : CleanText i'.topic := by
      rcases mem_insert.mp hi' with hi' | rfl
      · exact hs.items i' hi'
      · exact hclean.objective
    split <;> exact htopic
  · intro i hi k hk
    obtain ⟨i', hi', rfl⟩ := mem_modify.mp hi
    rcases mem_insert.mp hi' with hi' | rfl
    · -- the key of the new item is not yet taken
      rw [if_neg (Nat.ne_of_lt (key_lt hi'))] at hk ⊢
      exact (hs.current i' hi' k hk).grows hg
    · have hkey := (itemRow workspaceId script).key_make t.items.next
      rw [if_pos hkey] at hk ⊢
      exact ⟨_, mem_insert.mpr (.inr rfl), Option.some.inj hk, rfl⟩
  · intro v hv
    rcases mem_insert.mp hv with hv | rfl
    · exact (hs.versions v hv).grows hg
    · have hitem := get?_modified (StudioItem.setVersion t.versions.next)
        (get?_inserted t.items (itemRow workspaceId script))
      obtain ⟨hmem, hid⟩ := get?_eq_some.mp hitem
      exact ⟨⟨_, hmem, hid, rfl⟩, hclean.hook, hclean.body, hclean.cta⟩
  · intro p hp
    rcases mem_insert.mp hp with hp | rfl
    · exact (hs.packages p hp).grows (.refl s) hg (.refl p)
    · refine ⟨hbrief, hpassed, hrun, ⟨_, mem_insert.mpr (.inr rfl), rfl, rfl, rfl⟩,
        ⟨_, mem_insert.mpr (.inr rfl), rfl, rfl, rfl⟩, fun k hk => ?_, rfl⟩
      have hcited : previous.map (·.contentVersionId) = some k := hk
      obtain ⟨q, hq, rfl⟩ := Option.map_eq_some_iff.mp hcited
      obtain ⟨hthere, hown⟩ := hprior q hq
      exact (hown ▸ hs.version hthere).grows hg
  · intro p hp
    rcases mem_insert.mp hp with hp | rfl
    · exact (hs.gates p hp).still rfl rfl
    · refine
        { handoff := rfl, status := rfl, gate := .inl ?_, lapsed := fun hgate => ?_
          standing := fun _ => .inl hunaudited }
      · rw [auditStateOf_congr rfl, packageGate_unaudited]
        · rfl
        · exact auditStateOf_unaudited hunaudited workspaceId
      · cases hgate

/-- A package under this key takes the gate, the others keep theirs. -/
theorem gates_modify {k : Nat} {u : Update ContentPackage}
    (hu : ∀ p ∈ t.packages, p.id = k → GateSound t' (u.apply p))
    (hother : ∀ p ∈ t.packages, p.id ≠ k → GateSound t' p) :
    ∀ p ∈ t.packages.modify k u, GateSound t' p := by
  intro p hp
  obtain ⟨p₀, hp₀, rfl⟩ := mem_modify.mp hp
  split
  · rename_i hkey
    exact hu p₀ hp₀ hkey
  · rename_i hkey
    exact hother p₀ hp₀ hkey

/-- An audit just recorded has not been invalidated yet. -/
theorem lapsed_insert {row : NewRow ContentAudit} {workspaceId packageId : Nat}
    (hs : ContentSound now s t) (hinvalidations : t'.invalidations = t.invalidations)
    (haudits : t'.audits = t.audits.insert row)
    (hworkspace : (row.make t.audits.next).workspaceId = workspaceId)
    (hpackage : (row.make t.audits.next).contentPackageId = packageId) :
    ¬ Lapsed t' workspaceId packageId := by
  intro hlapsed
  obtain ⟨i, hi, hnames⟩ := hlapsed (row.make t.audits.next) (by
    rw [packageAudits, haudits]
    refine mem_select.mpr ⟨mem_insert.mpr (.inr rfl), ?_⟩
    rw [hworkspace, hpackage, beq_self_eq_true, beq_self_eq_true, Bool.and_true])
  obtain ⟨a, ha, haid, -, -⟩ := (hs.invalidations i (hinvalidations ▸ hi)).audit
  exact Nat.ne_of_lt (key_lt ha) ((haid.trans hnames).trans (row.key_make t.audits.next))

/-- An audit of a package sets its gate and, if it checks facts, its claims. -/
theorem audited_kept {p : ContentPackage} {kind : AuditorType} {state : AuditState}
    {gate : PackageGate} {runs : Table ContentDepartmentRun} {claims : Table ContentClaim}
    {audits : Table ContentAudit} (kept : ContentRunsKept s t.runs runs)
    (hs : ContentSound now s t) (there : p ∈ t.packages) (ran : state ≠ .notRun)
    (inserted : audits = t.audits.insert
      (contentAuditRow p kind (kind.name ++ "_auditor_fixture") state now))
    (verified : claims = if kind = .fact then t.claims.modifyWhere
        (fun c => c.workspaceId == p.workspaceId && c.contentPackageId == p.id)
        (ContentClaim.verify state) else t.claims)
    (hgate : gate = packageGate (auditStateOf p.workspaceId p.id { t with audits }))
    (ht : t' =
      { t with runs, audits, claims
               packages := t.packages.modify p.id (ContentPackage.gated gate) })
    (hg : ContentGrows t t') : ContentSound now s t' := by
  have hlatest : ∀ workspaceId packageId k, auditStateOf workspaceId packageId t' k =
      if p.workspaceId = workspaceId ∧ p.id = packageId ∧ kind = k then state
      else auditStateOf workspaceId packageId t k := by
    intro workspaceId packageId k
    have hsame : t'.audits = ({ t with audits } : ContentTables).audits := by rw [ht]
    rw [auditStateOf_congr hsame, inserted]
    exact auditStateOf_insert (fun a ha => (hs.audits a ha).checked) workspaceId packageId k
  subst ht
  refine
    { runs := fun r hr => ?_
      directions := fun c hc => (hs.directions c hc).grows (.refl s) hg
      items := hs.items
      current := fun i hi k hk => (hs.current i hi k hk).grows hg
      versions := fun v hv => (hs.versions v hv).grows hg
      packages := ?_, gates := ?_, audits := ?_, claims := ?_
      fingerprints := fun f hf => (hs.fingerprints f hf).grows hg
      invalidations := fun i hi => (hs.invalidations i hi).grows hg }
  · exact contentRuns_kept hs kept r hr
  · intro q hq
    rcases (packages_modify fun _ => ⟨_, _, _, _, rfl⟩).new q hq with ⟨q₀, hq₀, hsame⟩ | hnone
    · exact (hs.packages q₀ hq₀).grows (.refl s) hg hsame
    · exact hnone.elim
  · refine gates_modify (fun q hq hkey => ?_) (fun q hq hkey => ?_)
    · obtain rfl : q = p := eq_of_key hq there hkey
      exact gateSound_gated (.inl hgate) (.inr (lapsed_insert hs rfl inserted rfl rfl))
    · have hne : ¬ p.id = q.id := fun heq => hkey heq.symm
      refine (hs.gates q hq).same (funext fun k => ?_) (fun hunaudited a ha => ?_)
        (Lapsed.congr ?_ fun _ _ => Iff.rfl)
      · rw [hlatest, if_neg fun hown => hne hown.2.1]
      · rw [inserted] at ha
        rcases mem_insert.mp ha with ha | rfl
        · exact hunaudited a ha
        · exact hne
      · rw [packageAudits, inserted, select_insert_of_not]
        · rfl
        · simp [contentAuditRow, hne]
  · intro a ha
    rw [inserted] at ha
    rcases mem_insert.mp ha with ha | rfl
    · exact (hs.audits a ha).grows hg
    · obtain ⟨_, hp', _, _, _, _, rfl⟩ := hg.packages p there
      exact ⟨⟨_, hp', rfl, rfl, rfl⟩, rfl, ran, Nat.le_refl now⟩
  · -- a claim of another package, or an audit of another kind, leaves the verification
    have hother : ∀ c ∈ t.claims,
        ¬ (p.workspaceId = c.workspaceId ∧ p.id = c.contentPackageId ∧ kind = .fact) →
        ClaimSound _ c := fun c hc hnot =>
      ⟨(hs.claims c hc).package.grows hg, (hs.claims c hc).clean, by
        rw [hlatest, if_neg hnot]
        exact (hs.claims c hc).verified⟩
    intro c hc
    rw [verified] at hc
    split at hc
    · rename_i hfact
      obtain ⟨c₀, hc₀, rfl⟩ := mem_modifyWhere.mp hc
      split
      · rename_i hown
        rw [Bool.and_eq_true, beq_iff_eq, beq_iff_eq] at hown
        refine ⟨(hs.claims c₀ hc₀).package.grows hg, (hs.claims c₀ hc₀).clean, ?_⟩
        have hstate : auditStateOf c₀.workspaceId c₀.contentPackageId _ .fact = state :=
          (hlatest _ _ _).trans (if_pos ⟨hown.1.symm, hown.2.symm, hfact⟩)
        change (if state = .pass ∨ state = .passWithWarning then "verified" else "unverified") =
          verification (auditStateOf c₀.workspaceId c₀.contentPackageId _ .fact)
        rw [hstate]
        cases state with
        | notRun => exact absurd rfl ran
        | pass => rfl
        | passWithWarning => rfl
        | blocked => rfl
        | error => rfl
      · rename_i hown
        rw [Bool.and_eq_true, beq_iff_eq, beq_iff_eq] at hown
        exact hother c₀ hc₀ fun hall => hown ⟨hall.1.symm, hall.2.1.symm⟩
    · rename_i hfact
      exact hother c hc fun hall => hfact hall.2.2

/-- Changed gates and new invalidations leave the rest of the department as it is. -/
theorem gated_kept {packages : Table ContentPackage}
    {invalidations : Table ContentAuditInvalidation} (hs : ContentSound now s t)
    (hpackages : Evolves SamePackage (fun _ => False) t.packages packages)
    (ht : t' = { t with packages, invalidations }) (hgates : ∀ p ∈ packages, GateSound t' p)
    (hinvalidations : ∀ i ∈ invalidations, i ∈ t.invalidations ∨ InvalidationSound t i)
    (hg : ContentGrows t t') : ContentSound now s t' := by
  subst ht
  refine
    { runs := hs.runs
      directions := fun c hc => (hs.directions c hc).grows (.refl s) hg
      items := hs.items
      current := fun i hi k hk => (hs.current i hi k hk).grows hg
      versions := fun v hv => (hs.versions v hv).grows hg
      packages := ?_
      gates := hgates
      audits := fun a ha => (hs.audits a ha).grows hg
      claims := fun c hc => (hs.claims c hc).same hg rfl
      fingerprints := fun f hf => (hs.fingerprints f hf).grows hg
      invalidations := fun i hi =>
        ((hinvalidations i hi).elim (hs.invalidations i) id).grows hg }
  intro p hp
  rcases hpackages.new p hp with ⟨p₀, hp₀, hsame⟩ | hnone
  · exact (hs.packages p₀ hp₀).grows (.refl s) hg hsame
  · exact hnone.elim

/-- A superseded package loses its audits; every other one keeps its own. -/
theorem superseded_kept {p : ContentPackage} {invalidations : Table ContentAuditInvalidation}
    {added : List ContentAuditInvalidation} (hs : ContentSound now s t) (there : HasPackage t p)
    (appended : Appended t.invalidations invalidations added)
    (own : ∀ i ∈ added, i.workspaceId = p.workspaceId ∧ i.contentPackageId = p.id ∧
      i.contentVersionId = p.contentVersionId ∧
      ∃ a ∈ packageAudits p.workspaceId p.id t, a.id = i.contentAuditId)
    (covered : ∀ a ∈ packageAudits p.workspaceId p.id t, ∃ i ∈ added, i.contentAuditId = a.id)
    (ht : t' =
      { t with packages := t.packages.modify p.id (ContentPackage.supersede now), invalidations })
    (hg : ContentGrows t t') : ContentSound now s t' := by
  have hcite : ∀ i ∈ added, ∃ a ∈ t.audits, a.id = i.contentAuditId ∧
      a.workspaceId = p.workspaceId ∧ a.contentPackageId = p.id := by
    intro i hi
    obtain ⟨-, -, -, a, ha, haid⟩ := own i hi
    obtain ⟨hmem, hown⟩ := mem_select.mp ha
    rw [Bool.and_eq_true, beq_iff_eq, beq_iff_eq] at hown
    exact ⟨a, hmem, haid, hown.1, hown.2⟩
  refine gated_kept hs (packages_modify fun _ => ⟨_, _, _, _, rfl⟩) ht ?_ (fun i hi => ?_) hg
  · subst ht
    refine gates_modify (fun q hq hkey => ?_) (fun q hq hkey => ?_)
    · obtain ⟨p₀, hp₀, hid, hws, -⟩ := there
      obtain rfl : q = p₀ := eq_of_key hq hp₀ (hkey.trans hid.symm)
      refine ⟨rfl, rfl, .inr (.inr rfl), fun _ a ha => ?_, fun hvalid => absurd rfl hvalid⟩
      obtain ⟨i, hi, hnames⟩ := covered a (hws ▸ hid ▸ ha)
      exact ⟨i, appended.mem.mpr (.inr hi), hnames⟩
    · refine (hs.gates q hq).still_named rfl fun a ha => ?_
      constructor
      · rintro ⟨i, hi, hnames⟩
        rcases appended.mem.mp hi with hi | hi
        · exact ⟨i, hi, hnames⟩
        · -- an audit belongs to one package only
          obtain ⟨a', ha', haid, -, hpackage⟩ := hcite i hi
          obtain ⟨hmem, hown⟩ := mem_select.mp ha
          rw [Bool.and_eq_true, beq_iff_eq, beq_iff_eq] at hown
          obtain rfl : a' = a := eq_of_key ha' hmem (haid.trans hnames)
          exact absurd (hown.2.symm.trans hpackage) hkey
      · rintro ⟨i, hi, hnames⟩
        exact ⟨i, appended.mem.mpr (.inl hi), hnames⟩
  · refine (appended.mem.mp hi).imp id fun hadded => ?_
    obtain ⟨hws, hid, hversion, -⟩ := own i hadded
    obtain ⟨a, ha, haid, haws, hap⟩ := hcite i hadded
    refine ⟨?_, a, ha, haid, haws.trans hws.symm, hap.trans hid.symm⟩
    rw [hws, hid, hversion]
    exact there

/-- Claims and fingerprints come on; nothing else of the invariant is touched. -/
theorem added_kept {runs : Table ContentDepartmentRun} {claims : Table ContentClaim}
    {fingerprints : Table OriginalityFingerprint} (hs : ContentSound now s t)
    (kept : ContentRunsKept s t.runs runs)
    (hg : ContentGrows t { t with runs, claims, fingerprints })
    (hclaims : ∀ c ∈ claims, c ∈ t.claims ∨ ClaimSound t c)
    (hfingerprints : ∀ f ∈ fingerprints, f ∈ t.fingerprints ∨ FingerprintSound t f) :
    ContentSound now s { t with runs, claims, fingerprints } where
  runs := contentRuns_kept hs kept
  directions c hc := (hs.directions c hc).grows (.refl s) hg
  items := hs.items
  current i hi k hk := (hs.current i hi k hk).grows hg
  versions v hv := (hs.versions v hv).grows hg
  packages p hp := (hs.packages p hp).grows (.refl s) hg (.refl p)
  gates p hp := (hs.gates p hp).still rfl rfl
  audits a ha := (hs.audits a ha).grows hg
  claims c hc := ((hclaims c hc).elim (hs.claims c) id).same hg rfl
  fingerprints f hf := ((hfingerprints f hf).elim (hs.fingerprints f) id).grows hg
  invalidations i hi := (hs.invalidations i hi).grows hg

/-- The fingerprint found before is of a package of the workspace, so of a stored version. -/
theorem fingerprintRow_sound {p : ContentPackage} {lib : StandardLibrary} {script : GuardedScript}
    {duplicate : Option OriginalityFingerprint} {k : Nat} (hs : ContentSound now s t)
    (there : HasPackage t p)
    (found : duplicate.toList = t.fingerprints.select fun f =>
      f.workspaceId == p.workspaceId && f.textFingerprint == textFingerprint lib script.body) :
    FingerprintSound t ((fingerprintRow lib p script duplicate).make k) where
  package := there
  compared v hv := by
    obtain ⟨f, hf, rfl⟩ := Option.map_eq_some_iff.mp (Option.mem_toList.mp hv)
    have hmem : f ∈ duplicate.toList := Option.mem_toList.mpr hf
    rw [found] at hmem
    obtain ⟨hstored, hown⟩ := mem_select.mp hmem
    rw [Bool.and_eq_true, beq_iff_eq] at hown
    have hversion := hs.version (hs.fingerprints f hstored).package
    rw [hown.1] at hversion
    exact hversion

theorem content_kept (hs : ContentSound now s t) (h : ContentEffect now s t t') :
    ContentSound now s t' := by
  have hg := h.grows
  have hpackage : ∀ p, HasPackage t p → PackageOf t p.workspaceId p.id p.contentVersionId :=
    fun _ hthere => hthere
  cases h with
  | ran kept => exact added_kept hs kept hg (fun _ hc => .inl hc) (fun _ hf => .inl hf)
  | opened hbrief hpassed hrun hclean hprior =>
    exact opened_kept hs hbrief hpassed hrun hclean hprior rfl hg
  | @claimed p claimText claim there unaudited clean =>
    refine added_kept hs (contentRuns_same _) hg (fun c hc => ?_) (fun _ hf => .inl hf)
    refine (mem_insert.mp hc).imp id fun hnew => ?_
    rw [hnew]
    exact ⟨hpackage p there, clean,
      (congrArg verification (auditStateOf_unaudited unaudited p.workspaceId .fact)).symm⟩
  | @fingerprinted p lib script duplicate there found =>
    refine added_kept hs (contentRuns_same _) hg (fun _ hc => .inl hc) (fun f hf => ?_)
    refine (mem_insert.mp hf).imp id fun hnew => ?_
    rw [hnew]
    exact fingerprintRow_sound hs there found
  | @repeated packageId unaudited =>
    refine gated_kept hs (packages_modify fun _ => ⟨_, _, _, _, rfl⟩) rfl
      (gates_modify (fun p hp hid => ?_) (fun p hp _ => (hs.gates p hp).still rfl rfl))
      (fun _ hi => .inl hi) hg
    have hnone : Unaudited t p.id := hid ▸ unaudited
    exact gateSound_gated (.inr ⟨rfl, hnone⟩) (.inl hnone)
  | superseded there appended own covered =>
    exact superseded_kept hs there appended own covered rfl hg
  | audited there ran kept inserted verified =>
    exact audited_kept kept hs there ran inserted verified rfl rfl hg

end ContentOrchestrator.Departments

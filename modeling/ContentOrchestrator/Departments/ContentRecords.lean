import ContentOrchestrator.Departments.StrategyInvariants
import ContentOrchestrator.Departments.Content

/-! # What the content department records

A recorded package is a run of small effects: its rows, its claims, its fingerprints, the
package it supersedes. An audit is one effect: its row, the claims it verifies, and the
gate computed anew. -/

namespace ContentOrchestrator.Departments

open Lib Lib.Table

variable {lib : StandardLibrary} {workspaceId briefId packageId : Nat} {d d' : Departments}
  {s : StrategyTables} {t t' : ContentTables}

structure SameContentRun (r r' : ContentDepartmentRun) : Prop where
  id : r'.id = r.id
  workspace : r'.workspaceId = r.workspaceId
  brief : r'.strategyBriefId = r.strategyBriefId

theorem SameContentRun.refl (r : ContentDepartmentRun) : SameContentRun r r := ⟨rfl, rfl, rfl⟩

/-- Runs stay what they are, and a new one is about a stored brief. -/
abbrev ContentRunsKept (s : StrategyTables) (runs runs' : Table ContentDepartmentRun) : Prop :=
  Evolves SameContentRun (fun r => HasBrief s r.workspaceId r.strategyBriefId) runs runs'

def HasContentRun (t : ContentTables) (workspaceId runId : Nat) : Prop :=
  ∃ r ∈ t.runs, r.id = runId ∧ r.workspaceId = workspaceId

/-- No audit is of the package. -/
def Unaudited (t : ContentTables) (packageId : Nat) : Prop :=
  ∀ a ∈ t.audits, a.contentPackageId ≠ packageId

/-- The package, perhaps under another gate. -/
def HasPackage (t : ContentTables) (package : ContentPackage) : Prop :=
  ∃ p ∈ t.packages, p.id = package.id ∧ p.workspaceId = package.workspaceId ∧
    p.contentVersionId = package.contentVersionId

/-- The texts of a script as the guard left them. -/
structure CleanScript (script : GuardedScript) : Prop where
  objective : CleanText script.objective
  concept : CleanText script.concept
  hook : CleanText script.hook
  body : CleanText script.body
  cta : CleanText script.cta

/-- **What a content operation does to the department's tables**, step by step. -/
inductive ContentEffect (now : Nat) (s : StrategyTables) (t : ContentTables) : ContentTables → Prop
  | ran {runs : Table ContentDepartmentRun} (kept : ContentRunsKept s t.runs runs) :
      ContentEffect now s t { t with runs }
  | opened {workspaceId briefId runId : Nat} {script : GuardedScript}
      {previous : Option ContentPackage} {revisionReason : Option String}
      (brief : HasBrief s workspaceId briefId) (passed : StrategyPass s workspaceId briefId)
      (run : HasContentRun t workspaceId runId) (clean : CleanScript script)
      (prior : ∀ q, previous = some q → HasPackage t q ∧ q.workspaceId = workspaceId) :
      ContentEffect now s t
        { t with
          directions := t.directions.insert (directionRow workspaceId briefId runId script)
          items := (t.items.insert (itemRow workspaceId script)).modify t.items.next
            (StudioItem.setVersion t.versions.next)
          versions := t.versions.insert (versionRow workspaceId t.items.next script)
          packages := t.packages.insert (packageRow workspaceId briefId runId t.directions.next
            t.items.next t.versions.next previous revisionReason) }
  | claimed {p : ContentPackage} {claimText : String} {claim : FixtureClaim}
      (there : HasPackage t p) (unaudited : Unaudited t p.id) (clean : CleanText claimText) :
      ContentEffect now s t { t with claims := t.claims.insert (claimRow p claimText claim) }
  | fingerprinted {p : ContentPackage} {lib : StandardLibrary} {script : GuardedScript}
      {duplicate : Option OriginalityFingerprint} (there : HasPackage t p)
      (found : duplicate.toList = t.fingerprints.select fun f =>
        f.workspaceId == p.workspaceId && f.textFingerprint == textFingerprint lib script.body) :
      ContentEffect now s t
        { t with fingerprints := t.fingerprints.insert (fingerprintRow lib p script duplicate) }
  | repeated {packageId : Nat} (unaudited : Unaudited t packageId) :
      ContentEffect now s t
        { t with packages := t.packages.modify packageId (ContentPackage.gated .blocked) }
  | superseded {p : ContentPackage} {invalidations : Table ContentAuditInvalidation}
      {added : List ContentAuditInvalidation} (there : HasPackage t p)
      (appended : Appended t.invalidations invalidations added)
      (own : ∀ i ∈ added, i.workspaceId = p.workspaceId ∧ i.contentPackageId = p.id ∧
        i.contentVersionId = p.contentVersionId ∧
        ∃ a ∈ packageAudits p.workspaceId p.id t, a.id = i.contentAuditId)
      (covered : ∀ a ∈ packageAudits p.workspaceId p.id t, ∃ i ∈ added, i.contentAuditId = a.id) :
      ContentEffect now s t
        { t with packages := t.packages.modify p.id (ContentPackage.supersede now), invalidations }
  | audited {p : ContentPackage} {kind : AuditorType} {state : AuditState}
      {runs : Table ContentDepartmentRun} {claims : Table ContentClaim}
      {audits : Table ContentAudit}
      (there : p ∈ t.packages) (ran : state ≠ .notRun)
      (kept : ContentRunsKept s t.runs runs)
      (inserted : audits = t.audits.insert
        (contentAuditRow p kind (kind.name ++ "_auditor_fixture") state now))
      (verified : claims = if kind = .fact then t.claims.modifyWhere
          (fun c => c.workspaceId == p.workspaceId && c.contentPackageId == p.id)
          (ContentClaim.verify state) else t.claims) :
      ContentEffect now s t
        { t with
          runs
          audits
          claims
          packages := t.packages.modify p.id (ContentPackage.gated
            (packageGate (auditStateOf p.workspaceId p.id { t with audits }))) }

/-! ## What content never loses -/

/-- The package under another gate. -/
def SamePackage (p p' : ContentPackage) : Prop :=
  ∃ gate handoff status invalidatedAt, p' =
    { p with auditGateStatus := gate, producerHandoffState := handoff, status := status,
             invalidatedAt := invalidatedAt }

/-- The claim under another verification. -/
def SameClaim (c c' : ContentClaim) : Prop :=
  ∃ status reasoning, c' = { c with verificationStatus := status, evidenceReasoning := reasoning }

def SameItem (i i' : StudioItem) : Prop := ∃ version, i' = { i with currentVersionId := version }

structure ContentGrows (t t' : ContentTables) : Prop where
  runs : ∀ r ∈ t.runs, ∃ r' ∈ t'.runs, SameContentRun r r'
  directions : ∃ added, Appended t.directions t'.directions added
  items : ∀ i ∈ t.items, ∃ i' ∈ t'.items, SameItem i i'
  versions : ∃ added, Appended t.versions t'.versions added
  packages : ∀ p ∈ t.packages, ∃ p' ∈ t'.packages, SamePackage p p'
  claims : ∀ c ∈ t.claims, ∃ c' ∈ t'.claims, SameClaim c c'
  audits : ∃ added, Appended t.audits t'.audits added
  invalidations : ∃ added, Appended t.invalidations t'.invalidations added
  fingerprints : ∃ added, Appended t.fingerprints t'.fingerprints added

theorem SamePackage.refl (p : ContentPackage) : SamePackage p p := ⟨_, _, _, _, rfl⟩

theorem SameClaim.refl (c : ContentClaim) : SameClaim c c := ⟨_, _, rfl⟩

theorem SameItem.refl (i : StudioItem) : SameItem i i := ⟨_, rfl⟩

theorem contentRuns_same (runs : Table ContentDepartmentRun) : ContentRunsKept s runs runs :=
  .of_eq SameContentRun.refl rfl

theorem ContentGrows.refl (t : ContentTables) : ContentGrows t t where
  runs r hr := ⟨r, hr, .refl r⟩
  directions := ⟨[], Appended.refl _⟩
  items i hi := ⟨i, hi, .refl i⟩
  versions := ⟨[], Appended.refl _⟩
  packages p hp := ⟨p, hp, .refl p⟩
  claims c hc := ⟨c, hc, .refl c⟩
  audits := ⟨[], Appended.refl _⟩
  invalidations := ⟨[], Appended.refl _⟩
  fingerprints := ⟨[], Appended.refl _⟩

theorem packages_modify {packages : Table ContentPackage} {k : Nat} {u : Update ContentPackage}
    (hu : ∀ p, SamePackage p (u.apply p)) :
    Evolves SamePackage (fun _ => False) packages (packages.modify k u) :=
  .modify SamePackage.refl (fun p _ => hu p) rfl

theorem claims_verify {claims : Table ContentClaim} {q : ContentClaim → Bool} {state : AuditState} :
    Evolves SameClaim (fun _ => False) claims (claims.modifyWhere q (ContentClaim.verify state)) :=
  .modifyWhere SameClaim.refl (fun _ _ _ => ⟨_, _, rfl⟩) rfl

theorem ContentEffect.grows {now : Nat} (h : ContentEffect now s t t') : ContentGrows t t' := by
  cases h with
  | ran kept => exact { ContentGrows.refl t with runs := kept.old }
  | opened _ _ _ _ _ =>
    exact
      { ContentGrows.refl t with
        directions := ⟨_, Appended.insert ..⟩
        versions := ⟨_, Appended.insert ..⟩
        packages := fun p hp => ⟨p, mem_insert.mpr (.inl hp), .refl p⟩
        items := fun i hi => by
          refine ⟨_, mem_modify.mpr ⟨i, mem_insert.mpr (.inl hi), rfl⟩, ?_⟩
          split
          · exact ⟨_, rfl⟩
          · exact .refl i }
  | claimed _ _ _ =>
    exact { ContentGrows.refl t with
      claims := fun c hc => ⟨c, mem_insert.mpr (.inl hc), .refl c⟩ }
  | fingerprinted _ _ =>
    exact { ContentGrows.refl t with fingerprints := ⟨_, Appended.insert ..⟩ }
  | repeated _ =>
    exact { ContentGrows.refl t with packages := (packages_modify fun _ => ⟨_, _, _, _, rfl⟩).old }
  | superseded _ appended _ _ =>
    exact
      { ContentGrows.refl t with
        packages := (packages_modify fun _ => ⟨_, _, _, _, rfl⟩).old
        invalidations := ⟨_, appended⟩ }
  | audited _ _ kept inserted verified =>
    refine
      { ContentGrows.refl t with
        runs := kept.old
        audits := ⟨_, inserted ▸ Appended.insert ..⟩
        packages := (packages_modify fun _ => ⟨_, _, _, _, rfl⟩).old
        claims := ?_ }
    rw [verified]
    split
    · exact claims_verify.old
    · exact (ContentGrows.refl t).claims

theorem ContentGrows.trans {t'' : ContentTables} (h : ContentGrows t t')
    (h' : ContentGrows t' t'') : ContentGrows t t'' where
  runs a ha := by
    obtain ⟨b, hb, hab⟩ := h.runs a ha
    obtain ⟨c, hc, hbc⟩ := h'.runs b hb
    exact ⟨c, hc, hbc.id.trans hab.id, hbc.workspace.trans hab.workspace,
      hbc.brief.trans hab.brief⟩
  directions := Appended.grows_trans h.directions h'.directions
  items i hi := by
    obtain ⟨_, hi', _, rfl⟩ := h.items i hi
    obtain ⟨_, hi'', _, rfl⟩ := h'.items _ hi'
    exact ⟨_, hi'', _, rfl⟩
  versions := Appended.grows_trans h.versions h'.versions
  packages p hp := by
    obtain ⟨_, hp', _, _, _, _, rfl⟩ := h.packages p hp
    obtain ⟨_, hp'', _, _, _, _, rfl⟩ := h'.packages _ hp'
    exact ⟨_, hp'', _, _, _, _, rfl⟩
  claims c hc := by
    obtain ⟨_, hc', _, _, rfl⟩ := h.claims c hc
    obtain ⟨_, hc'', _, _, rfl⟩ := h'.claims _ hc'
    exact ⟨_, hc'', _, _, rfl⟩
  audits := Appended.grows_trans h.audits h'.audits
  invalidations := Appended.grows_trans h.invalidations h'.invalidations
  fingerprints := Appended.grows_trans h.fingerprints h'.fingerprints

/-- What any number of effects leaves. -/
theorem contentChain_grows {now : Nat}
    (h : Relation.ReflTransGen (ContentEffect now s) t t') : ContentGrows t t' := by
  induction h with
  | refl => exact .refl _
  | tail _ hstep ih => exact ih.trans hstep.grows

theorem HasPackage.grows {p : ContentPackage} (hg : ContentGrows t t') (h : HasPackage t p) :
    HasPackage t' p := by
  obtain ⟨q, hq, hid, hws, hversion⟩ := h
  obtain ⟨_, hq', _, _, _, _, rfl⟩ := hg.packages q hq
  exact ⟨_, hq', hid, hws, hversion⟩

/-! ## The parts of a recording -/

/-- The brief went through its gate. -/
theorem requireStrategyPass_gate {brief : StrategyBrief}
    (h : Returns (requireStrategyPass workspaceId briefId) d brief d') :
    Returns (writerGate workspaceId briefId) d () d' := by
  simp only [requireStrategyPass, returns_bind, returns_get, returns_demand] at h
  obtain ⟨_, d₁, hgate, _, _, ⟨rfl, rfl⟩, -, rfl⟩ := h
  rcases returns_tryCatch.mp hgate with hgate | ⟨e, _, _, hraised⟩
  · exact hgate
  · cases e <;> simp at hraised

theorem requireStrategyPass_returns (lib : StandardLibrary) {brief : StrategyBrief}
    (h : Returns (requireStrategyPass workspaceId briefId) d brief d') :
    ∃ strategy, d' = { d with strategy } ∧
      StrategyEffect lib d.now d.research d.strategy strategy ∧
      StrategyPass strategy workspaceId briefId ∧ HasBrief strategy workspaceId briefId := by
  obtain ⟨strategy, rfl, heffect, hpass,
    hbrief⟩ := writerGate_returns lib (requireStrategyPass_gate h)
  exact ⟨strategy, rfl, heffect, hpass.grows heffect.grows, hbrief.grows heffect.grows⟩

theorem readScript_returns {fixture : FixturePackage} {brief : StrategyBrief}
    {script : GuardedScript} (h : Returns (readScript lib fixture brief) d script d') :
    d = d' ∧ CleanScript script := by
  simp only [readScript, returns_bind, returns_ensure, returns_pure] at h
  obtain ⟨objective, _, h₁, concept, _, h₂, hook, _, h₃, body, _, h₄, cta, _, h₅, _, _, ⟨-, rfl⟩,
    rfl, rfl⟩ := h
  obtain ⟨-, hobjective, rfl⟩ := guardText_returns h₁
  obtain ⟨-, hconcept, rfl⟩ := guardText_returns h₂
  obtain ⟨-, hhook, rfl⟩ := guardText_returns h₃
  obtain ⟨-, hbody, rfl⟩ := guardText_returns h₄
  obtain ⟨-, hcta, rfl⟩ := guardText_returns h₅
  exact ⟨rfl, hobjective, hconcept, hhook, hbody, hcta⟩

theorem getPackage_eq_some {p : ContentPackage} (h : getPackage workspaceId packageId t = some p) :
    p ∈ t.packages ∧ p.id = packageId ∧ p.workspaceId = workspaceId := by
  obtain ⟨hget, hown⟩ := Option.filter_eq_some_iff.mp h
  obtain ⟨hmem, hid⟩ := get?_eq_some.mp hget
  simp only [Bool.and_eq_true, beq_iff_eq] at hown
  exact ⟨hmem, hid, hown.1⟩

theorem priorPackage_returns {named : Option Nat} {previous : Option ContentPackage}
    (h : Returns (priorPackage workspaceId named) d previous d') :
    d = d' ∧ ∀ p, previous = some p → p ∈ d.content.packages ∧ p.workspaceId = workspaceId := by
  cases named with
  | none =>
    obtain ⟨rfl, rfl⟩ := returns_pure.mp h
    exact ⟨rfl, by simp⟩
  | some packageId =>
    simp only [priorPackage, returns_bind, returns_get, returns_demand, returns_pure] at h
    obtain ⟨_, _, ⟨rfl, rfl⟩, p, _, ⟨hfound, rfl⟩, rfl, rfl⟩ := h
    obtain ⟨hmem, -, hown⟩ := getPackage_eq_some hfound
    exact ⟨rfl, fun p' heq => Option.some.inj heq ▸ ⟨hmem, hown⟩⟩

/-- The rows of a package are one effect. -/
theorem openPackage_returns {runId now : Nat} {script : GuardedScript}
    {previous : Option ContentPackage} {revisionReason : Option String} {p : ContentPackage}
    (h : Returns (openPackage workspaceId briefId runId script previous revisionReason) d p d')
    (hbrief : HasBrief s workspaceId briefId) (hpassed : StrategyPass s workspaceId briefId)
    (hrun : HasContentRun d.content workspaceId runId) (hclean : CleanScript script)
    (hprior : ∀ q, previous = some q → HasPackage d.content q ∧ q.workspaceId = workspaceId) :
    ∃ content, d' = { d with content } ∧ ContentEffect now s d.content content ∧
      HasPackage content p ∧ p.id = d.content.packages.next ∧
      content.audits = d.content.audits := by
  simp only [openPackage, returns_bind, returns_get, returns_modify, returns_pure] at h
  obtain ⟨_, _, ⟨rfl, rfl⟩, _, _, rfl, _, _, rfl, _, _, rfl, _, _, rfl, _, _, rfl, rfl, rfl⟩ := h
  exact ⟨_, rfl, .opened hbrief hpassed hrun hclean hprior,
    ⟨_, mem_insert.mpr (.inr rfl), rfl, rfl, rfl⟩, rfl, rfl⟩

/-- Claims are added one by one, each clean. -/
theorem recordClaims_returns {p : ContentPackage} {claims : List FixtureClaim} {u : Unit}
    {now : Nat}
    (h : Returns (recordClaims p claims) d u d') (hthere : HasPackage d.content p)
    (hunaudited : Unaudited d.content p.id) :
    ∃ table, d' = { d with content.claims := table } ∧
      Relation.ReflTransGen (ContentEffect now s) d.content { d.content with claims := table } := by
  induction claims generalizing d with
  | nil =>
    obtain ⟨-, rfl⟩ := returns_pure.mp h
    exact ⟨d.content.claims, rfl, .refl⟩
  | cons claim rest ih =>
    simp only [recordClaims, returns_bind, returns_demand, returns_modify] at h
    obtain ⟨text, _, ⟨-, rfl⟩, claimText, _, hguard, _, _, rfl, h⟩ := h
    obtain ⟨-, hclean, rfl⟩ := guardText_returns hguard
    obtain ⟨table, rfl, hchain⟩ := ih (d := insertContentClaim (claimRow p claimText claim) d)
      h hthere hunaudited
    exact ⟨table, rfl, .head (.claimed hthere hunaudited hclean) hchain⟩

theorem recordOriginality_returns {p : ContentPackage} {script : GuardedScript} {u : Unit}
    {now : Nat}
    (h : Returns (recordOriginality lib p script) d u d') (hthere : HasPackage d.content p)
    (hunaudited : Unaudited d.content p.id) :
    ∃ content, d' = { d with content } ∧ content.audits = d.content.audits ∧
      Relation.ReflTransGen (ContentEffect now s) d.content content := by
  simp only [recordOriginality, returns_bind, returns_get, returns_scalarOneOrNone,
    returns_modify] at h
  obtain ⟨_, _, ⟨rfl, rfl⟩, duplicate, _, ⟨hfound, rfl⟩, _, _, rfl, h⟩ := h
  have hfirst : ContentEffect now s d.content _ := .fingerprinted hthere hfound
  split at h
  · obtain rfl := returns_modify.mp h
    exact ⟨_, rfl, rfl, .tail (.single hfirst) (.repeated hunaudited)⟩
  · obtain ⟨-, rfl⟩ := returns_pure.mp h
    exact ⟨_, rfl, rfl, .single hfirst⟩

/-- Each audit gets an invalidation of its own package and version. -/
theorem invalidateAudits_eq (previous : ContentPackage) (audits : List ContentAudit)
    (d : Departments) :
    ∃ table added, invalidateAudits previous audits d = { d with content.invalidations := table } ∧
      Appended d.content.invalidations table added ∧
      (∀ i ∈ added, i.workspaceId = previous.workspaceId ∧ i.contentPackageId = previous.id ∧
        i.contentVersionId = previous.contentVersionId ∧
        ∃ a ∈ audits, a.id = i.contentAuditId) ∧
      ∀ a ∈ audits, ∃ i ∈ added, i.contentAuditId = a.id := by
  induction audits generalizing d with
  | nil => exact ⟨d.content.invalidations, [], rfl, Appended.refl _, by simp, by simp⟩
  | cons audit rest ih =>
    let row : NewRow ContentAuditInvalidation := ⟨fun id =>
      { id, workspaceId := previous.workspaceId, contentAuditId := audit.id
        contentPackageId := previous.id, contentVersionId := previous.contentVersionId },
      fun _ => rfl⟩
    obtain ⟨table, added, heq, happended, hadded, hcovered⟩ :=
      ih (insertContentInvalidation row d)
    refine ⟨table, _ :: added, heq,
      (Appended.insert d.content.invalidations row).trans happended, ?_, ?_⟩
    · intro i hi
      rcases List.mem_cons.mp hi with rfl | hi
      · exact ⟨rfl, rfl, rfl, audit, List.mem_cons_self, rfl⟩
      · obtain ⟨hws, hid, hversion, a, ha, haid⟩ := hadded i hi
        exact ⟨hws, hid, hversion, a, List.mem_cons_of_mem _ ha, haid⟩
    · intro a ha
      rcases List.mem_cons.mp ha with rfl | ha
      · exact ⟨_, List.mem_cons_self, rfl⟩
      · obtain ⟨i, hi, hnames⟩ := hcovered a ha
        exact ⟨i, List.mem_cons_of_mem _ hi, hnames⟩

/-- The package and the invalidations of its audits are one effect. -/
theorem supersede_returns {p : ContentPackage} {u : Unit} (h : Returns (supersede p) d u d')
    (hthere : HasPackage d.content p) :
    ∃ content, d' = { d with content } ∧ ContentEffect d.now s d.content content := by
  simp only [supersede, returns_bind, returns_get, returns_modify, returns_ensure] at h
  obtain ⟨_, _, ⟨rfl, rfl⟩, _, _, rfl, _, _, ⟨-, rfl⟩, rfl⟩ := h
  obtain ⟨table, added, heq, happended, hadded, hcovered⟩ := invalidateAudits_eq p
    (packageAudits p.workspaceId p.id d.content) _
  rw [heq]
  exact ⟨_, rfl, .superseded hthere happended hadded hcovered⟩

/-! ## The operations -/

/-- Only the tables of strategy and content differ, the former by the writer's gate. -/
structure ContentOnly (lib : StandardLibrary) (d d' : Departments) : Prop where
  rest : d' = { d with strategy := d'.strategy, content := d'.content }
  strategy : Relation.ReflTransGen (StrategyEffect lib d.now d.research) d.strategy d'.strategy
  content : Relation.ReflTransGen (ContentEffect d.now d'.strategy) d.content d'.content

theorem contentRuns_insert {row : NewRow ContentDepartmentRun} {runs : Table ContentDepartmentRun}
    (hbrief : HasBrief s (row.make runs.next).workspaceId (row.make runs.next).strategyBriefId) :
    ContentRunsKept s runs (runs.insert row) := .insert SameContentRun.refl hbrief rfl

theorem contentRuns_modify {runs : Table ContentDepartmentRun} {k : Nat}
    {u : Update ContentDepartmentRun} (hu : ∀ a, SameContentRun a (u.apply a)) :
    ContentRunsKept s runs (runs.modify k u) :=
  .modify SameContentRun.refl (fun a _ => hu a) rfl

theorem createManualContentRun_returns {profileComplete : Bool} {run : Nat}
    (h : Returns (createManualContentRun workspaceId briefId profileComplete) d run d') :
    ContentOnly lib d d' := by
  simp only [createManualContentRun, returns_bind, returns_get, returns_modify, returns_pure] at h
  obtain ⟨brief, _, hpass, _, _, ⟨rfl, rfl⟩, _, _, rfl, -, rfl⟩ := h
  obtain ⟨strategy, rfl, heffect, -, hbrief⟩ := requireStrategyPass_returns lib hpass
  exact ⟨rfl, .single heffect, .single (.ran (contentRuns_insert hbrief))⟩

theorem recordFixturePackage_returns {fixture : FixturePackage} {named : Option Nat} {package : Nat}
    (haudits : ∀ a ∈ d.content.audits, a.contentPackageId < d.content.packages.next)
    (h : Returns (recordFixturePackage lib workspaceId briefId fixture named) d package d') :
    ContentOnly lib d d' ∧ d.environment = some "test" := by
  simp only [recordFixturePackage, returns_bind, returns_ensureTest, returns_get,
    returns_modify] at h
  obtain ⟨_, _, ⟨henv, rfl⟩, brief, _, hpass, script, _, hscript, previous, _, hprevious, _, _,
    ⟨rfl, rfl⟩, _, _, rfl, p, _, hopen, _, _, hclaims, _, _, horiginality, h⟩ := h
  obtain ⟨strategy, rfl, heffect, hpassed, hbrief⟩ := requireStrategyPass_returns lib hpass
  obtain ⟨rfl, hclean⟩ := readScript_returns hscript
  obtain ⟨rfl, hold⟩ := priorPackage_returns hprevious
  have hran : ContentEffect d.now strategy d.content
      { d.content with runs := d.content.runs.insert (writingRunRow workspaceId briefId) } :=
    .ran (contentRuns_insert hbrief)
  have hstored : ∀ q, previous = some q → HasPackage d.content q ∧ q.workspaceId = workspaceId :=
    fun q hq => ⟨⟨q, (hold q hq).1, rfl, rfl, rfl⟩, (hold q hq).2⟩
  obtain ⟨content, rfl, hopened, hthere, hid, hsame⟩ := openPackage_returns hopen hbrief hpassed
    ⟨_, mem_insert.mpr (.inr rfl), rfl, rfl⟩ hclean fun q hq =>
      ⟨(hstored q hq).1.grows hran.grows, (hstored q hq).2⟩
  have hunaudited : Unaudited content p.id := by
    intro a ha
    rw [hsame] at ha
    rw [hid]
    exact Nat.ne_of_lt (haudits a ha)
  obtain ⟨claims, rfl, hclaimed⟩ := recordClaims_returns hclaims hthere hunaudited
  obtain ⟨content', rfl, -, horiginal⟩ := recordOriginality_returns horiginality hthere hunaudited
  have hchain : Relation.ReflTransGen (ContentEffect d.now strategy) d.content content' :=
    ((Relation.ReflTransGen.single hran).tail hopened).trans (hclaimed.trans horiginal)
  refine ⟨?_, henv⟩
  cases previous with
  | none =>
    simp only [returns_bind, returns_modify, returns_pure] at h
    obtain ⟨_, _, rfl, -, rfl⟩ := h
    exact ⟨rfl, .single heffect, hchain.tail (.ran (contentRuns_modify fun _ => ⟨rfl, rfl, rfl⟩))⟩
  | some previous =>
    simp only [returns_bind, returns_modify, returns_pure] at h
    obtain ⟨_, _, hsupersede, _, _, rfl, -, rfl⟩ := h
    have hprior : HasPackage content' previous :=
      (hstored previous rfl).1.grows (contentChain_grows hchain)
    obtain ⟨content'', rfl, hsuperseded⟩ := supersede_returns hsupersede hprior
    exact ⟨rfl, .single heffect,
      (hchain.tail hsuperseded).tail (.ran (contentRuns_modify fun _ => ⟨rfl, rfl, rfl⟩))⟩

theorem auditorType_ofName {name : String} {kind : AuditorType}
    (h : AuditorType.ofName name = some kind) : name = kind.name := by
  have hfound := List.find?_some h
  exact (beq_iff_eq.mp hfound).symm

theorem auditState_ofName {name : String} {state : AuditState}
    (h : AuditState.ofName name = some state) : state ≠ .notRun := by
  have hmem := List.mem_of_find?_eq_some h
  rintro rfl
  revert hmem
  decide

theorem recordFixtureAudit_returns {auditorType state : String} {audit : ContentAudit}
    (h : Returns (recordFixtureAudit workspaceId packageId auditorType state) d audit d') :
    ContentOnly lib d d' ∧ d.environment = some "test" := by
  simp only [recordFixtureAudit, returns_bind, returns_ensureTest, returns_demand, returns_get,
    returns_ensure, returns_modify, returns_pure] at h
  obtain ⟨_, _, ⟨henv, rfl⟩, kind, _, ⟨hkind, rfl⟩, verdict, _, ⟨hverdict, rfl⟩, _, _, ⟨rfl, rfl⟩,
    p, _, ⟨hfound, rfl⟩, direction, _, ⟨-, rfl⟩, _, _, ⟨-, rfl⟩, _, _, rfl, _, _, rfl, _, _,
    ⟨rfl, rfl⟩, _, _, rfl, _, _, rfl, -, rfl⟩ := h
  obtain ⟨hmem, rfl, rfl⟩ := getPackage_eq_some hfound
  obtain rfl := auditorType_ofName hkind
  have hran := auditState_ofName hverdict
  refine ⟨?_, henv⟩
  have hrun : ∀ (k : Nat) (gate : PackageGate), ContentRunsKept d.strategy
      d.content.runs (d.content.runs.modify k (ContentDepartmentRun.audited gate)) :=
    fun k gate => contentRuns_modify fun _ => ⟨rfl, rfl, rfl⟩
  by_cases hfact : kind = .fact
  · rw [if_pos hfact]
    split
    · exact ⟨rfl, .refl, .single (.audited hmem hran (hrun _ _) rfl (if_pos hfact).symm)⟩
    · exact ⟨rfl, .refl, .single (.audited hmem hran (contentRuns_same _) rfl (if_pos hfact).symm)⟩
  · rw [if_neg hfact]
    split
    · exact ⟨rfl, .refl, .single (.audited hmem hran (hrun _ _) rfl (if_neg hfact).symm)⟩
    · exact ⟨rfl, .refl, .single (.audited hmem hran (contentRuns_same _) rfl (if_neg hfact).symm)⟩

theorem producerGate_returns {u : Unit} (h : Returns (producerGate workspaceId packageId) d u d') :
    d = d' := by
  simp only [producerGate, returns_bind, returns_get, returns_demand, returns_ensure] at h
  obtain ⟨_, _, ⟨rfl, rfl⟩, p, _, ⟨-, rfl⟩, -, rfl⟩ := h
  rfl

end ContentOrchestrator.Departments

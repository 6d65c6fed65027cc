import ContentOrchestrator.Properties.ReviewLineage

/-! # Research verdicts

An audit's verdict is a function of the sources it looked at. Sources are never taken from
an opportunity, so one that was blocked for a repeated source stays blocked: no later audit
passes it, and nothing that needs it to be passed goes through again. -/

namespace ContentOrchestrator.Departments

open Lib Lib.Table

variable {lib : StandardLibrary} {d d' : Departments} {r : ResearchTables}
  {workspaceId now : Nat}

/-! ## The verdict -/

/-- What the auditor makes of accepted sources. -/
def researchVerdict (sources : List ResearchSource) : AuditState :=
  if ¬ (sources.map (·.contentDigest)).Nodup then .blocked
  else if sources.length = 1 ∨ ∃ s ∈ sources, s.freshness = "stale" ∨ s.freshness = "unknown" then
    .passWithWarning
  else .pass

/-- The sources an audit looked at, newest first: those its opportunity had then, which are the
first it was given of those it has now. -/
structure LookedAt (r : ResearchTables) (a : ResearchAudit) (linked sources : List ResearchSource) :
    Prop where
  some : linked ≠ []
  before : linked <+: linkedSources a.workspaceId a.opportunityId r
  newest : InNewestOrder linked sources
  accepted : ∀ s ∈ sources, s ∈ r.sources ∧ s.workspaceId = a.workspaceId ∧
    s.handlingState = .accepted
  findings : a.findings.map (·.sourceId) = sources.map (·.id)
  verdict : a.state = researchVerdict sources

theorem lookedAt {a : ResearchAudit} (hs : ResearchSound now r) (ha : a ∈ r.audits) :
    ∃ linked sources, LookedAt r a linked sources := by
  obtain ⟨linked, sources, hsome, hinitial, hordered, hfindings, hverdict⟩ :=
    (hs.audits a ha).1.verdict
  have hlooked : sources ≠ [] := fun h => hsome (h ▸ hordered.perm).nil_eq.symm
  have hlinked : ∀ s ∈ sources, s ∈ r.sources ∧ s.workspaceId = a.workspaceId ∧
      s.handlingState = .accepted := by
    intro s hmem
    obtain ⟨hstored, hws, haccepted, -⟩ :=
      mem_linkedSources hs.evidence (hinitial.subset (hordered.perm.subset hmem))
    exact ⟨hstored, hws, haccepted⟩
  have haccepted : ∀ s ∈ sources, s.handlingState = .accepted := fun s hmem => (hlinked s hmem).2.2
  exact ⟨linked, sources, hsome, hinitial, hordered, hlinked,
    hfindings ▸ findings_of_accepted haccepted,
    hverdict.trans (verdict_of_accepted haccepted hlooked)⟩

theorem researchVerdict_blocked {sources : List ResearchSource} :
    researchVerdict sources = .blocked ↔ ¬ (sources.map (·.contentDigest)).Nodup := by
  unfold researchVerdict
  split
  · rename_i hrepeated
    exact iff_of_true rfl hrepeated
  · rename_i hdistinct
    refine iff_of_false ?_ hdistinct
    split <;> exact AuditState.noConfusion

/-- The verdict blocks on any of the sources, whatever their order. -/
theorem blocked_mono {sources more : List ResearchSource} (hsome : sources.Subperm more)
    (h : researchVerdict sources = .blocked) : researchVerdict more = .blocked := by
  rw [researchVerdict_blocked] at h ⊢
  obtain ⟨some, hperm, hsublist⟩ := hsome
  exact fun hdistinct => h ((hperm.map _).nodup_iff.mp (hdistinct.sublist (hsublist.map _)))

/-- In a list in the order of its times the latest row is the last. -/
theorem latest_eq_getLast? {α : Type} {time : α → Nat} {rows : List α}
    (h : rows.Pairwise fun a b => time a ≤ time b) : latest time rows = rows.getLast? := by
  rcases List.eq_nil_or_concat rows with rfl | ⟨before, a, rfl⟩
  · rfl
  · rw [List.concat_eq_append] at h ⊢
    rw [List.getLast?_concat]
    exact latest_append fun b hb =>
      (List.pairwise_append.mp h).2.2 b hb a (List.mem_singleton_self a)

/-- After a blocked audit the latest one is blocked. -/
theorem blocked_not_passed {a : ResearchAudit} (hs : ResearchSound now r) (ha : a ∈ r.audits)
    (hblocked : a.state = .blocked) : researchPassed a.workspaceId r a.opportunityId = false := by
  have hordered : (r.audits.select fun x => x.workspaceId == a.workspaceId &&
      x.opportunityId == a.opportunityId).Pairwise AuditsInOrder :=
    hs.ordered.sublist List.filter_sublist
  have hmem : a ∈ r.audits.select fun x => x.workspaceId == a.workspaceId &&
      x.opportunityId == a.opportunityId := by
    refine mem_select.mpr ⟨ha, ?_⟩
    rw [beq_self_eq_true, beq_self_eq_true]
    rfl
  rw [researchPassed, latestResearchAudit, latest_eq_getLast? (hordered.imp And.left)]
  have howned : ∀ x ∈ r.audits.select fun x => x.workspaceId == a.workspaceId &&
      x.opportunityId == a.opportunityId,
      x ∈ r.audits ∧ x.workspaceId = a.workspaceId ∧ x.opportunityId = a.opportunityId := by
    intro x hx
    obtain ⟨hx, hown⟩ := mem_select.mp hx
    rw [Bool.and_eq_true, beq_iff_eq, beq_iff_eq] at hown
    exact ⟨hx, hown⟩
  generalize (r.audits.select fun x => x.workspaceId == a.workspaceId &&
    x.opportunityId == a.opportunityId) = rows at hordered hmem howned
  rcases List.eq_nil_or_concat rows with rfl | ⟨before, x, rfl⟩
  · cases hmem
  · rw [List.concat_eq_append] at hordered hmem howned ⊢
    rw [List.getLast?_concat, Option.any_some]
    suffices h : x.state = .blocked by rw [h]; rfl
    rcases List.mem_append.mp hmem with hbefore | hlast
    · -- the last audit looked at no fewer of the same sources
      obtain ⟨hx, hws, hid⟩ := howned x (List.mem_append_right _ (List.mem_singleton_self x))
      have hlength : a.findings.length ≤ x.findings.length :=
        ((List.pairwise_append.mp hordered).2.2 a hbefore x (List.mem_singleton_self x)).2 hws.symm
          hid.symm
      obtain ⟨linked, sources, hlooked⟩ := lookedAt hs ha
      obtain ⟨linked', more, hlooked'⟩ := lookedAt hs hx
      have hsources := congrArg List.length hlooked.findings
      have hmore := congrArg List.length hlooked'.findings
      rw [List.length_map, List.length_map, hlooked.newest.perm.length_eq] at hsources
      rw [List.length_map, List.length_map, hlooked'.newest.perm.length_eq] at hmore
      have hinitial : linked <+: linked' :=
        List.prefix_of_prefix_length_le hlooked.before (hws ▸ hid ▸ hlooked'.before) (by omega)
      have hsome : sources.Subperm more := hlooked.newest.perm.subperm.trans
        (hinitial.sublist.subperm.trans hlooked'.newest.perm.symm.subperm)
      rw [hlooked'.verdict]
      exact blocked_mono hsome (hlooked.verdict.symm.trans hblocked)
    · exact List.mem_singleton.mp hlast ▸ hblocked

/-! ## What needs research's pass -/

theorem strategistGate_audits {opportunityId : Nat} {u : Unit}
    (h : Returns (strategistGate workspaceId opportunityId) d u d') :
    d'.research.audits = d.research.audits := by
  simp only [strategistGate, returns_bind, returns_get, returns_demand, returns_ensure,
    returns_modify] at h
  obtain ⟨_, _, ⟨rfl, rfl⟩, _, _, ⟨-, rfl⟩, _, _, ⟨-, rfl⟩, rfl⟩ := h
  rfl

theorem requireResearchPass_passed {opportunityIds : List Nat} {opportunities : List Opportunity}
    (h : Returns (requireResearchPass workspaceId opportunityIds) d opportunities d') :
    ∀ o ∈ opportunityIds, researchPassed workspaceId d.research o = true := by
  induction opportunityIds generalizing d opportunities with
  | nil => simp
  | cons opportunityId rest ih =>
    obtain ⟨d₁, _, _, hgate, -, hrest, -⟩ := requireResearchPass_cons h
    intro o ho
    rcases List.mem_cons.mp ho with rfl | ho
    · exact (strategistGate_returns hgate).2.1
    · have hlater := ih hrest o ho
      rw [researchPassed, latestResearchAudit, strategistGate_audits hgate] at hlater
      exact hlater

theorem createManualStrategyRun_passed {objective : String} {opportunityIds : List Nat}
    {profileComplete : Bool} {run : Nat}
    (h : Returns (createManualStrategyRun workspaceId objective opportunityIds profileComplete) d
      run d') : ∀ o ∈ opportunityIds, researchPassed workspaceId d.research o = true := by
  simp only [createManualStrategyRun, returns_bind] at h
  obtain ⟨_, _, hguard, _, _, hpass, -⟩ := h
  obtain ⟨-, -, rfl⟩ := guardText_returns hguard
  exact requireResearchPass_passed hpass

theorem recordFixtureBrief_passed {objective : String} {opportunityIds : List Nat}
    {fixture : FixtureBrief} {result : Nat × Bool}
    (h : Returns (recordFixtureBrief lib workspaceId objective opportunityIds fixture)
      d result d') :
    ∀ o ∈ opportunityIds, researchPassed workspaceId d.research o = true := by
  simp only [recordFixtureBrief, returns_bind, returns_ensureTest] at h
  obtain ⟨_, _, ⟨-, rfl⟩, _, _, hguard, _, _, hpass, -⟩ := h
  obtain ⟨-, -, rfl⟩ := guardText_returns hguard
  exact requireResearchPass_passed hpass

/-- The strategy auditor blocks a brief one of whose opportunities is not passed. -/
theorem auditBrief_blocked {briefId opportunityId : Nat} {audit : StrategyAudit}
    (h : Returns (auditBrief lib workspaceId briefId) d audit d')
    (hlinked : opportunityId ∈ briefOpportunityIds workspaceId briefId d.strategy)
    (hunpassed : researchPassed workspaceId d.research opportunityId = false) :
    audit.state = .blocked := by
  simp only [auditBrief, returns_bind, returns_get, returns_demand, returns_modify] at h
  obtain ⟨_, _, ⟨rfl, rfl⟩, b, _, ⟨-, rfl⟩, _, _, rfl, _, _, rfl, h⟩ := h
  have hall : (briefOpportunityIds workspaceId briefId d.strategy).all
      (researchPassed workspaceId d.research) = false :=
    List.all_eq_false.mpr ⟨opportunityId, hlinked, by rw [hunpassed]; exact Bool.false_ne_true⟩
  have hblocked : (strategyBlocked lib b (briefOpportunityIds workspaceId briefId d.strategy)
      (researchPassed workspaceId d.research)).isEmpty = false := by
    rw [strategyBlocked, hall]
    simp
  have hstate : ∀ k, ((strategyAuditRow lib b (briefOpportunityIds workspaceId briefId d.strategy)
      (researchPassed workspaceId d.research) d.now).make k).state = .blocked := by
    intro k
    simp only [strategyAuditRow, auditState, hblocked]
    rfl
  split at h
  · simp only [returns_bind, returns_modify, returns_pure] at h
    obtain ⟨_, _, -, rfl, -⟩ := h
    exact hstate _
  · obtain ⟨rfl, -⟩ := returns_pure.mp h
    exact hstate _

/-- What is closed to an opportunity: its gate, new strategy runs and briefs, and the audits of the
briefs that draw on it. -/
structure ClosedFor (lib : StandardLibrary) (d : Departments) (workspaceId opportunityId : Nat) :
    Prop where
  gate : ∀ d', ¬ Returns (strategistGate workspaceId opportunityId) d () d'
  runs : ∀ objective opportunityIds profileComplete, opportunityId ∈ opportunityIds →
    step lib d (.createManualStrategyRun workspaceId objective opportunityIds profileComplete) = d
  briefs : ∀ objective opportunityIds fixture, opportunityId ∈ opportunityIds →
    step lib d (.recordFixtureBrief workspaceId objective opportunityIds fixture) = d
  audits : ∀ briefId audit d', opportunityId ∈ briefOpportunityIds workspaceId briefId d.strategy →
    Returns (auditBrief lib workspaceId briefId) d audit d' → audit.state = .blocked

theorem closedFor_of_unpassed {opportunityId : Nat}
    (h : researchPassed workspaceId d.research opportunityId = false) :
    ClosedFor lib d workspaceId opportunityId where
  gate d' hreturned := by
    rw [(strategistGate_returns hreturned).2.1] at h
    cases h
  runs objective opportunityIds profileComplete hmem := by
    rcases atomically_cases (DepartmentOp.run lib
      (.createManualStrategyRun workspaceId objective opportunityIds profileComplete)) d with
      ⟨_, hreturned⟩ | ⟨-, hstay⟩
    · obtain ⟨_, hreturned⟩ := returns_call hreturned
      rw [createManualStrategyRun_passed hreturned _ hmem] at h
      cases h
    · exact hstay
  briefs objective opportunityIds fixture hmem := by
    rcases atomically_cases (DepartmentOp.run lib
      (.recordFixtureBrief workspaceId objective opportunityIds fixture)) d with
      ⟨_, hreturned⟩ | ⟨-, hstay⟩
    · obtain ⟨_, hreturned⟩ := returns_call hreturned
      rw [recordFixtureBrief_passed hreturned _ hmem] at h
      cases h
    · exact hstay
  audits briefId audit d' hlinked hreturned := auditBrief_blocked hreturned hlinked h

/-- **An opportunity blocked once is closed for good**, whatever is called later. -/
theorem blocked_opportunity_closed (lib : StandardLibrary) (environment : Option String)
    (ops later : List DepartmentOp) (a : ResearchAudit)
    (ha : a ∈ (replay (step lib) (deployment environment) ops).research.audits)
    (hblocked : a.state = .blocked) :
    ClosedFor lib (replay (step lib) (deployment environment) (ops ++ later)) a.workspaceId
      a.opportunityId := by
  have hsound : DepartmentsSound lib (replay (step lib) (deployment environment) ops) :=
    sound_of_run environment ops
  obtain ⟨hg, hlater⟩ := run_kept hsound later
  rw [replay, List.foldl_append]
  obtain ⟨_, happended⟩ := hg.research.audits
  exact closedFor_of_unpassed (blocked_not_passed hlater.research (happended.old ha) hblocked)

/-- One source under two addresses. -/
def copiedOps : List DepartmentOp :=
  [.recordFixtureRun 1 [newsSource "a", { newsSource "b" with excerpt := some "a" }] breadTopic,
   .auditOpportunity 1 0 []]

set_option maxRecDepth 10000 in
theorem blocked_opportunity_closed_copied : ∃ a : ResearchAudit, a.state = .blocked ∧ ∀ later,
    ClosedFor plainLibrary
      (replay (step plainLibrary) (deployment (some "test")) (copiedOps ++ later)) a.workspaceId
      a.opportunityId := by
  have hstored : ∃ a ∈
      (replay (step plainLibrary) (deployment (some "test")) copiedOps).research.audits.rows,
      a.state = .blocked := by decide +kernel
  obtain ⟨a, ha, hblocked⟩ := hstored
  exact ⟨a, hblocked, fun later =>
    blocked_opportunity_closed plainLibrary (some "test") copiedOps later a ha hblocked⟩

end ContentOrchestrator.Departments

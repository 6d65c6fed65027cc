import ContentOrchestrator.Departments.Research
import ContentOrchestrator.Lib.Appending
import Mathlib.Logic.Relation

/-! # What the research department records

Each operation taken apart once: what a recorded run adds, what an audit adds, what the
gate changes. Sources, evidence and audits are only ever added, so an audit's sources stay
the first of those its opportunity has. -/

namespace ContentOrchestrator.Departments

open Lib Lib.Table

variable {lib : StandardLibrary} {workspaceId runId now opportunityId : Nat} {d d' : Departments}
  {t t' : ResearchTables}

/-! ## Sources -/

/-- A stored source: without an excerpt if it was rejected, and with a clean one otherwise. -/
structure Handled (s : ResearchSource) : Prop where
  state : s.handlingState = .accepted ↔ s.rejectionReason = none
  excerpt : ∀ text, s.safeExcerpt = some text → CleanText text

theorem sourceRow_handled (workspaceId runId now : Nat) (url : String) (item : FixtureSource)
    (id : Nat) : Handled ((sourceRow lib workspaceId runId now url item).make id) where
  state := by
    simp only [sourceRow]
    cases (safeExcerpt item.excerpt).2 <;> simp
  excerpt text htext := by
    have hexcerpt : safeExcerpt item.excerpt = (some text, (safeExcerpt item.excerpt).2) :=
      Prod.ext htext rfl
    exact safeExcerpt_clean hexcerpt

theorem recordSource_returns {item : FixtureSource} {source : Option ResearchSource}
    (h : Returns (recordSource lib workspaceId runId now item) d source d') :
    source = none ∧ d' = d ∨
      ∃ url, d' = insertSource (sourceRow lib workspaceId runId now url item) d ∧
        source.toList =
          [(sourceRow lib workspaceId runId now url item).make d.research.sources.next].filter
            fun s => s.handlingState == .accepted := by
  unfold recordSource at h
  split at h
  · simp only [returns_pure] at h
    exact .inl ⟨h.1.symm, h.2.symm⟩
  · rename_i url _
    simp only [returns_bind, returns_get, returns_ensure, returns_modify, returns_pure] at h
    obtain ⟨_, _, ⟨rfl, rfl⟩, _, _, ⟨-, rfl⟩, _, _, rfl, rfl, rfl⟩ := h
    refine .inr ⟨url, rfl, ?_⟩
    rw [List.filter_cons, List.filter_nil]
    simp only [beq_iff_eq]
    split <;> rfl

/-- What a list of sources leaves: the readable ones at the end of the table. -/
theorem recordSources_returns {items : List FixtureSource} {accepted : List ResearchSource}
    (h : Returns (recordSources lib workspaceId runId now items) d accepted d') :
    ∃ sources added, d' = { d with research.sources := sources } ∧
      Appended d.research.sources sources added ∧
      accepted = added.filter (fun s => s.handlingState == .accepted) ∧
      ∀ s ∈ added, s.workspaceId = workspaceId ∧ s.researchRunId = runId ∧ Handled s := by
  induction items generalizing d accepted with
  | nil =>
    simp only [recordSources, returns_pure] at h
    obtain ⟨rfl, rfl⟩ := h
    exact ⟨d.research.sources, [], rfl, Appended.refl _, rfl, by simp⟩
  | cons item rest ih =>
    simp only [recordSources, returns_bind, returns_pure] at h
    obtain ⟨source, d₁, hfirst, others, d₂, hrest, rfl, rfl⟩ := h
    obtain ⟨sources, added, rfl, happended, rfl, hadded⟩ := ih hrest
    rcases recordSource_returns hfirst with ⟨rfl, rfl⟩ | ⟨url, rfl, hsource⟩
    · exact ⟨sources, added, rfl, happended, rfl, hadded⟩
    · refine ⟨sources, _, rfl, (Appended.insert d.research.sources
        (sourceRow lib workspaceId runId now url item)).trans happended, ?_, ?_⟩
      · rw [hsource, List.filter_append]
      · intro s hs
        rcases List.mem_append.mp hs with hs | hs
        · rw [List.mem_singleton.mp hs]
          exact ⟨rfl, rfl, sourceRow_handled ..⟩
        · exact hadded s hs

/-! ## Links and opportunities -/

theorem linkSources_eq (opportunity : Opportunity) (sources : List ResearchSource)
    (d : Departments) :
    ∃ evidence links, linkSources opportunity sources d = { d with research.evidence := evidence } ∧
      Appended d.research.evidence evidence links ∧
      links.map (·.sourceId) = sources.map (·.id) ∧
      ∀ e ∈ links, e.workspaceId = opportunity.workspaceId ∧ e.opportunityId = opportunity.id := by
  induction sources generalizing d with
  | nil => exact ⟨d.research.evidence, [], rfl, Appended.refl _, rfl, by simp⟩
  | cons source rest ih =>
    let row : NewRow OpportunityEvidence := ⟨fun id =>
      { id, workspaceId := opportunity.workspaceId, opportunityId := opportunity.id
        sourceId := source.id
        claimSupported := orText source.claimSupported opportunity.summary }, fun _ => rfl⟩
    obtain ⟨evidence, links, heq, happended, hsources, hlinks⟩ := ih (insertEvidence row d)
    refine ⟨evidence, _ :: links, heq, (Appended.insert d.research.evidence row).trans happended,
      ?_, ?_⟩
    · rw [List.map_cons, List.map_cons, hsources]
    · intro e he
      rcases List.mem_cons.mp he with rfl | he
      · exact ⟨rfl, rfl⟩
      · exact hlinks e he

/-- The opportunity a run found: one that was there gets the sources added, a new one starts with
them. -/
inductive Found (workspaceId runId count : Nat) (s s' : Table Opportunity) (o : Opportunity) : Prop
  | again (there : o ∈ s) (own : o.workspaceId = workspaceId)
      (changed : s' = s.modify o.id (Opportunity.addSources count))
  | new (row : NewRow Opportunity) (made : o = row.make s.next) (changed : s' = s.insert row)
      (own : o.workspaceId = workspaceId) (run : o.researchRunId = runId)
      (counted : o.sourceCount = count) (unaudited : o.auditGateStatus = .notRun)

theorem recordOpportunity_returns {fixture : FixtureOpportunity} {accepted : List ResearchSource}
    {o : Opportunity} {created : Nat}
    (h : Returns (recordOpportunity lib workspaceId runId fixture accepted) d (o, created) d') :
    ∃ opportunities, d' = { d with research.opportunities := opportunities } ∧
      Found workspaceId runId accepted.length d.research.opportunities opportunities o := by
  simp only [recordOpportunity, returns_bind, returns_demand, returns_get,
    returns_scalarOneOrNone] at h
  obtain ⟨topic, _, ⟨-, rfl⟩, angle, _, ⟨-, rfl⟩, _, _, ⟨rfl, rfl⟩, found, _, ⟨hfound, rfl⟩, h⟩ := h
  cases found with
  | some existing =>
    simp only [returns_bind, returns_modify, returns_pure, Prod.mk.injEq] at h
    obtain ⟨_, _, rfl, ⟨rfl, -⟩, rfl⟩ := h
    have hmem : existing ∈ Option.toList (some existing) := List.mem_singleton_self existing
    rw [hfound] at hmem
    obtain ⟨hmem, hown⟩ := mem_select.mp hmem
    simp only [Bool.and_eq_true, beq_iff_eq] at hown
    exact ⟨_, rfl, .again hmem hown.1.1 rfl⟩
  | none =>
    simp only [returns_bind, returns_demand, returns_ensure, returns_modify, returns_pure,
      Prod.mk.injEq] at h
    obtain ⟨title, _, ⟨-, rfl⟩, summary, _, ⟨-, rfl⟩, _, _, ⟨-, rfl⟩, _, _, rfl, ⟨rfl, -⟩, rfl⟩ := h
    exact ⟨_, rfl, .new _ rfl rfl rfl rfl rfl rfl⟩

/-! ## Runs -/

/-- A run keeps its workspace and what it counts of audits. -/
structure SameResearchRun (r r' : ResearchRun) : Prop where
  id : r'.id = r.id
  workspace : r'.workspaceId = r.workspaceId
  audited : r'.auditedOpportunityCount = r.auditedOpportunityCount
  blocked : r'.blockedOpportunityCount = r.blockedOpportunityCount

/-- A new run has counted nothing. -/
structure NewResearchRun (next : Nat) (r : ResearchRun) : Prop where
  id : next ≤ r.id
  audited : r.auditedOpportunityCount = 0
  blocked : r.blockedOpportunityCount = 0

/-- A recorded run leaves its sources, and its opportunity with the accepted ones linked. -/
structure Recorded (workspaceId runId : Nat) (added : List ResearchSource)
    (links : List OpportunityEvidence) (o : Opportunity) (t t' : ResearchTables) : Prop where
  sources : Appended t.sources t'.sources added
  handled : ∀ s ∈ added, s.workspaceId = workspaceId ∧ s.researchRunId = runId ∧ Handled s
  evidence : Appended t.evidence t'.evidence links
  linked : links.map (·.sourceId) = (added.filter fun s => s.handlingState == .accepted).map (·.id)
  ofOpportunity : ∀ e ∈ links, e.workspaceId = workspaceId ∧ e.opportunityId = o.id
  some : links ≠ []
  found : Found workspaceId runId links.length t.opportunities t'.opportunities o

/-- **What a research operation does to the department's tables.** -/
inductive ResearchEffect (now : Nat) (t : ResearchTables) : ResearchTables → Prop
  | ran {runs : Table ResearchRun} {sources : Table ResearchSource} {added : List ResearchSource}
      {workspaceId runId : Nat}
      (kept : Evolves SameResearchRun (NewResearchRun t.runs.next) t.runs runs)
      (appended : Appended t.sources sources added)
      (handled : ∀ s ∈ added, s.workspaceId = workspaceId ∧ s.researchRunId = runId ∧ Handled s)
      (run : added = [] ∨ ∃ r ∈ runs, r.id = runId ∧ r.workspaceId = workspaceId) :
      ResearchEffect now t { t with runs, sources }
  | recorded {t' : ResearchTables} {workspaceId : Nat} {added : List ResearchSource}
      {links : List OpportunityEvidence} {o : Opportunity}
      (kept : Evolves SameResearchRun (NewResearchRun t.runs.next) t.runs t'.runs)
      (run : ∃ r ∈ t'.runs, r.id = t.runs.next ∧ r.workspaceId = workspaceId)
      (recorded : Recorded workspaceId t.runs.next added links o t t')
      (same : t'.audits = t.audits) :
      ResearchEffect now t t'
  | audited {o : Opportunity} {runs : Table ResearchRun} {workspaceId : Nat} {ties : List Nat}
      {state : AuditState}
      (there : o ∈ t.opportunities) (own : o.workspaceId = workspaceId)
      (verdict : state = auditState (researchBlocked (opportunitySources workspaceId o.id ties t))
        (researchWarnings (opportunitySources workspaceId o.id ties t)))
      (counted : runs = if (researchRunOf workspaceId o.researchRunId t).isSome then
        t.runs.modify o.researchRunId (ResearchRun.audited state) else t.runs) :
      ResearchEffect now t
        { t with
          runs
          opportunities := t.opportunities.modify o.id (Opportunity.audited state)
          audits := t.audits.insert
            (researchAuditRow o (opportunitySources workspaceId o.id ties t) now) }
  | sent {o : Opportunity} (there : o ∈ t.opportunities)
      (passed : researchPassed o.workspaceId t o.id = true) :
      ResearchEffect now t
        { t with opportunities := t.opportunities.modify o.id Opportunity.sendToStrategist }

theorem SameResearchRun.trans {r r' r'' : ResearchRun} (h : SameResearchRun r r')
    (h' : SameResearchRun r' r'') : SameResearchRun r r'' where
  id := h'.id.trans h.id
  workspace := h'.workspace.trans h.workspace
  audited := h'.audited.trans h.audited
  blocked := h'.blocked.trans h.blocked

theorem NewResearchRun.same {next : Nat} {r r' : ResearchRun} (h : NewResearchRun next r)
    (h' : SameResearchRun r r') : NewResearchRun next r' where
  id := by
    rw [h'.id]
    exact h.id
  audited := h'.audited.trans h.audited
  blocked := h'.blocked.trans h.blocked

/-- The runs once a new run is recorded and then changed. -/
theorem runs_evolve {row : NewRow ResearchRun} {runs : Table ResearchRun} {next : Nat}
    (hnext : next = runs.next)
    (haudited : (row.make runs.next).auditedOpportunityCount = 0)
    (hblocked : (row.make runs.next).blockedOpportunityCount = 0)
    (updates : List (Update ResearchRun))
    (hupdates : ∀ u ∈ updates, ∀ r, SameResearchRun r (u.apply r)) :
    Evolves SameResearchRun (NewResearchRun next) runs
      (updates.foldl (fun t u => t.modify runs.next u) (runs.insert row)) := by
  subst hnext
  have hinsert : Evolves SameResearchRun (NewResearchRun runs.next) runs (runs.insert row) :=
    .insert (fun r => ⟨rfl, rfl, rfl, rfl⟩)
      ⟨Nat.le_of_eq (row.key_make runs.next).symm, haudited, hblocked⟩ rfl
  generalize htable : runs.insert row = table at hinsert
  clear htable
  induction updates generalizing table with
  | nil => exact hinsert
  | cons u rest ih =>
    have hu := hupdates u List.mem_cons_self
    refine ih (fun v hv => hupdates v (List.mem_cons_of_mem _ hv)) (table.modify runs.next u) ?_
    exact hinsert.trans (fun _ _ _ => SameResearchRun.trans) (fun _ _ => NewResearchRun.same)
      (.modify (fun r => ⟨rfl, rfl, rfl, rfl⟩) (fun r _ => hu r) rfl)

/-! ## The operations -/

/-- Only the research tables differ, and they do by such effects. -/
structure ResearchOnly (d d' : Departments) : Prop where
  rest : d' = { d with research := d'.research }
  effects : Relation.ReflTransGen (ResearchEffect d.now) d.research d'.research

theorem ResearchOnly.trans {d'' : Departments} (h : ResearchOnly d d') (h' : ResearchOnly d' d'') :
    ResearchOnly d d'' where
  rest := by
    rw [h'.rest, h.rest]
  effects := by
    have heffects := h'.effects
    rw [h.rest] at heffects
    exact h.effects.trans heffects

theorem createManualResearchRun_returns {run : Nat}
    (h : Returns (createManualResearchRun workspaceId) d run d') : ResearchOnly d d' := by
  simp only [createManualResearchRun, returns_bind, returns_get, returns_modify, returns_pure] at h
  obtain ⟨_, _, ⟨rfl, rfl⟩, _, _, rfl, -, rfl⟩ := h
  have hnone : ∀ s ∈ ([] : List ResearchSource),
      s.workspaceId = workspaceId ∧ s.researchRunId = 0 ∧ Handled s := by simp
  exact ⟨rfl,
    .single (.ran (runs_evolve rfl rfl rfl [] (by simp)) (Appended.refl _) hnone (.inl rfl))⟩

theorem recordFixtureRun_returns {sources : List FixtureSource} {fixture : FixtureOpportunity}
    {found : Option Nat}
    (h : Returns (recordFixtureRun lib workspaceId sources fixture) d found d') :
    ResearchOnly d d' ∧ d.environment = some "test" := by
  simp only [recordFixtureRun, returns_bind, returns_ensureTest, returns_get, returns_modify] at h
  obtain ⟨_, _, ⟨henv, rfl⟩, _, _, ⟨rfl, rfl⟩, _, _, ⟨rfl, rfl⟩, _, _, rfl, accepted, d₁, hsources,
    _, _, rfl, h⟩ := h
  obtain ⟨table, added, rfl, happended, rfl, hadded⟩ := recordSources_returns hsources
  have hsearched : ∀ count r, SameResearchRun r ((ResearchRun.searched count).apply r) :=
    fun _ _ => ⟨rfl, rfl, rfl, rfl⟩
  refine ⟨?_, henv⟩
  split at h
  · simp only [returns_bind, returns_modify, returns_pure] at h
    obtain ⟨_, _, rfl, -, rfl⟩ := h
    refine ⟨rfl, .single (.ran (runs_evolve rfl rfl rfl
      [ResearchRun.searched sources.length,
       ResearchRun.fail "No safe evidence sources were accepted"] ?_) happended hadded (.inr ?_))⟩
    · intro u hu r
      rcases List.mem_pair.mp hu with rfl | rfl
      · exact hsearched _ r
      · exact ⟨rfl, rfl, rfl, rfl⟩
    · have hrow := get?_modified (ResearchRun.fail "No safe evidence sources were accepted")
        (get?_modified (ResearchRun.searched sources.length) (get?_inserted d.research.runs
          ⟨fun id => { id, workspaceId, status := .running, testData := true }, fun _ => rfl⟩))
      obtain ⟨hmem, hid⟩ := get?_eq_some.mp hrow
      exact ⟨_, hmem, hid, rfl⟩
  · rename_i hsome
    simp only [returns_bind, returns_modify, returns_pure] at h
    obtain ⟨⟨o, created⟩, d₂, hopportunity, _, _, rfl, _, _, rfl, -, rfl⟩ := h
    obtain ⟨opportunities, rfl, hfound⟩ := recordOpportunity_returns hopportunity
    obtain ⟨evidence, links, heq, hlinks, hlinked, hown⟩ := linkSources_eq o
      (added.filter fun s => s.handlingState == .accepted) _
    rw [heq]
    have hows : o.workspaceId = workspaceId := by
      cases hfound with
      | again _ own _ => exact own
      | new _ _ _ own _ _ _ => exact own
    have hlength : links.length = (added.filter fun s => s.handlingState == .accepted).length := by
      rw [← List.length_map (f := fun e : OpportunityEvidence => e.sourceId), hlinked,
        List.length_map]
    refine ⟨rfl, .single (.recorded (runs_evolve rfl rfl rfl
        [ResearchRun.searched sources.length, ResearchRun.succeed created] ?_) ?_
      { sources := happended
        handled := hadded
        evidence := hlinks
        linked := hlinked
        ofOpportunity := fun e he => ⟨(hown e he).1.trans hows, (hown e he).2⟩
        some := ?_
        found := hlength ▸ hfound } rfl)⟩
    · intro u hu r
      rcases List.mem_pair.mp hu with rfl | rfl
      · exact hsearched _ r
      · exact ⟨rfl, rfl, rfl, rfl⟩
    · have hrow := get?_modified (ResearchRun.succeed created)
        (get?_modified (ResearchRun.searched sources.length) (get?_inserted d.research.runs
          ⟨fun id => { id, workspaceId, status := .running, testData := true }, fun _ => rfl⟩))
      obtain ⟨hmem, hid⟩ := get?_eq_some.mp hrow
      exact ⟨_, hmem, hid, rfl⟩
    · intro hnil
      rw [hnil, List.length_nil] at hlength
      exact hsome (List.isEmpty_iff.mpr (List.length_eq_zero_iff.mp hlength.symm))

theorem getOpportunity_eq_some {o : Opportunity}
    (h : getOpportunity workspaceId opportunityId t = some o) :
    o ∈ t.opportunities ∧ o.id = opportunityId ∧ o.workspaceId = workspaceId := by
  obtain ⟨hget, hown⟩ := Option.filter_eq_some_iff.mp h
  obtain ⟨hmem, hid⟩ := get?_eq_some.mp hget
  simp only [Bool.and_eq_true, beq_iff_eq] at hown
  exact ⟨hmem, hid, hown.1⟩

theorem auditOpportunity_returns {ties : List Nat} {audit : ResearchAudit}
    (h : Returns (auditOpportunity workspaceId opportunityId ties) d audit d') :
    ResearchOnly d d' := by
  simp only [auditOpportunity, returns_bind, returns_get, returns_demand, returns_modify] at h
  obtain ⟨_, _, ⟨rfl, rfl⟩, o, _, ⟨hfound, rfl⟩, _, _, rfl, _, _, rfl, h⟩ := h
  obtain ⟨hmem, rfl, hown⟩ := getOpportunity_eq_some hfound
  split at h
  · rename_i hrun
    simp only [returns_bind, returns_modify, returns_pure] at h
    obtain ⟨_, _, rfl, -, rfl⟩ := h
    exact ⟨rfl, .single (.audited hmem hown rfl (if_pos hrun).symm)⟩
  · rename_i hrun
    simp only [returns_pure] at h
    obtain ⟨-, rfl⟩ := h
    exact ⟨rfl, .single (.audited hmem hown rfl (if_neg hrun).symm)⟩

theorem strategistGate_returns {u : Unit}
    (h : Returns (strategistGate workspaceId opportunityId) d u d') :
    ResearchOnly d d' ∧ researchPassed workspaceId d.research opportunityId = true ∧
      ∃ o ∈ d.research.opportunities, o.id = opportunityId ∧ o.workspaceId = workspaceId := by
  simp only [strategistGate, returns_bind, returns_get, returns_demand, returns_ensure,
    returns_modify] at h
  obtain ⟨_, _, ⟨rfl, rfl⟩, o, _, ⟨hfound, rfl⟩, _, _, ⟨hpassed, rfl⟩, rfl⟩ := h
  obtain ⟨hmem, rfl, rfl⟩ := getOpportunity_eq_some hfound
  exact ⟨⟨rfl, .single (.sent hmem hpassed)⟩, hpassed, o, hmem, rfl, rfl⟩

end ContentOrchestrator.Departments

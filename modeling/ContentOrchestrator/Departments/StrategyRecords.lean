import ContentOrchestrator.Departments.ResearchInvariants
import ContentOrchestrator.Departments.Strategy

/-! # What the strategy department records

A brief is stored with its texts through the guard and with a link to each opportunity it
draws on, every one of them passed by research. Its audits change the gate columns only,
so what a brief says stays. -/

namespace ContentOrchestrator.Departments

open Lib Lib.Table

variable {lib : StandardLibrary} {workspaceId briefId : Nat} {d d' : Departments}
  {r r' : ResearchTables} {t t' : StrategyTables}

/-! ## The research gate -/

/-- Research has passed the opportunity once. -/
def ResearchPass (r : ResearchTables) (workspaceId opportunityId : Nat) : Prop :=
  ∃ a ∈ r.audits, a.workspaceId = workspaceId ∧ a.opportunityId = opportunityId ∧ a.state = .pass

theorem researchPass_of_passed {opportunityId : Nat}
    (h : researchPassed workspaceId r opportunityId = true) :
    ResearchPass r workspaceId opportunityId := by
  rw [researchPassed, Option.any_eq_true] at h
  obtain ⟨a, hlatest, hstate⟩ := h
  obtain ⟨hmem, hown⟩ := mem_select.mp (latest_mem hlatest)
  simp only [Bool.and_eq_true, beq_iff_eq] at hown hstate
  exact ⟨a, hmem, hown.1, hown.2, hstate⟩

theorem ResearchPass.grows {opportunityId : Nat} (hg : ResearchGrows r r')
    (h : ResearchPass r workspaceId opportunityId) : ResearchPass r' workspaceId opportunityId := by
  obtain ⟨a, ha, hrest⟩ := h
  obtain ⟨_, happended⟩ := hg.audits
  exact ⟨a, happended.old ha, hrest⟩

theorem ResearchGrows.trans {r'' : ResearchTables} (h : ResearchGrows r r')
    (h' : ResearchGrows r' r'') : ResearchGrows r r'' where
  runs a ha := by
    obtain ⟨b, hb, hid, hws⟩ := h.runs a ha
    obtain ⟨c, hc, hid', hws'⟩ := h'.runs b hb
    exact ⟨c, hc, hid'.trans hid, hws'.trans hws⟩
  sources := Appended.grows_trans h.sources h'.sources
  evidence := Appended.grows_trans h.evidence h'.evidence
  opportunities a ha := by
    obtain ⟨b, hb, hab⟩ := h.opportunities a ha
    obtain ⟨c, hc, hbc⟩ := h'.opportunities b hb
    exact ⟨c, hc, hbc.id.trans hab.id, hbc.workspace.trans hab.workspace, hbc.run.trans hab.run,
      hbc.dedupeKey.trans hab.dedupeKey⟩
  audits := Appended.grows_trans h.audits h'.audits

/-- What any number of research operations does. -/
theorem ResearchOnly.grows (h : ResearchOnly d d') : ResearchGrows d.research d'.research := by
  have heffects := h.effects
  generalize d'.research = r' at heffects
  induction heffects with
  | refl => exact .refl _
  | tail _ hstep ih => exact ih.trans hstep.grows

theorem ResearchOnly.sound (h : ResearchOnly d d') (hs : ResearchSound d.now d.research) :
    ResearchSound d.now d'.research := by
  have heffects := h.effects
  generalize d'.research = r' at heffects
  induction heffects with
  | refl => exact hs
  | tail _ hstep ih => exact research_kept ih hstep

/-- One opportunity after the other goes through the gate. -/
theorem requireResearchPass_cons {opportunityId : Nat} {rest : List Nat}
    {opportunities : List Opportunity}
    (h : Returns (requireResearchPass workspaceId (opportunityId :: rest)) d opportunities d') :
    ∃ d₁ o others, Returns (strategistGate workspaceId opportunityId) d () d₁ ∧
      getOpportunity workspaceId opportunityId d₁.research = some o ∧
      Returns (requireResearchPass workspaceId rest) d₁ others d' ∧
        opportunities = o :: others := by
  simp only [requireResearchPass, returns_bind, returns_get, returns_demand, returns_pure] at h
  obtain ⟨_, d₁, hgate, _, _, ⟨rfl, rfl⟩, o, _, ⟨hfound, rfl⟩, others, d₂, hrest, rfl, rfl⟩ := h
  refine ⟨_, o, others, ?_, hfound, hrest, rfl⟩
  rcases returns_tryCatch.mp hgate with hgate | ⟨e, _, _, hraised⟩
  · exact hgate
  · cases e <;> simp at hraised

theorem requireResearchPass_returns {opportunityIds : List Nat} {opportunities : List Opportunity}
    (h : Returns (requireResearchPass workspaceId opportunityIds) d opportunities d') :
    ResearchOnly d d' ∧ opportunities.map (·.id) = opportunityIds ∧
      ∀ o ∈ opportunities, HasOpportunity d'.research workspaceId o.id ∧
        ResearchPass d'.research workspaceId o.id := by
  induction opportunityIds generalizing d opportunities with
  | nil =>
    simp only [requireResearchPass, returns_pure] at h
    obtain ⟨rfl, rfl⟩ := h
    exact ⟨⟨rfl, .refl⟩, rfl, by simp⟩
  | cons opportunityId rest ih =>
    obtain ⟨d₁, o, others, hreturned, hfound, hrest, rfl⟩ := requireResearchPass_cons h
    obtain ⟨honly, hpassed, -⟩ := strategistGate_returns hreturned
    obtain ⟨hothers, hids, hall⟩ := ih hrest
    obtain ⟨hmem, rfl, hown⟩ := getOpportunity_eq_some hfound
    have hpass : ResearchPass d₁.research workspaceId o.id :=
      (researchPass_of_passed hpassed).grows honly.grows
    refine ⟨honly.trans hothers, congrArg (o.id :: ·) hids, ?_⟩
    intro o' ho'
    rcases List.mem_cons.mp ho' with rfl | ho'
    · have hstored : HasOpportunity d₁.research workspaceId o'.id := ⟨o', hmem, rfl, hown⟩
      exact ⟨hstored.grows hothers.grows, hpass.grows hothers.grows⟩
    · exact hall o' ho'

/-- Each named opportunity is stored. -/
theorem requireResearchPass_stored {opportunityIds : List Nat} {opportunities : List Opportunity}
    (h : Returns (requireResearchPass workspaceId opportunityIds) d opportunities d') :
    ∀ o ∈ opportunityIds, HasOpportunity d'.research workspaceId o := by
  obtain ⟨-, hids, hstored⟩ := requireResearchPass_returns h
  intro k hk
  rw [← hids] at hk
  obtain ⟨o, ho, rfl⟩ := List.mem_map.mp hk
  exact (hstored o ho).1

/-! ## Texts -/

theorem guardText_returns {value field text : String} {maximum : Nat}
    (h : Returns (guardText value field maximum) d text d') :
    text = stripped value ∧ CleanText text ∧ d = d' := by
  unfold guardText at h
  split at h
  · rename_i stored hstored
    obtain ⟨rfl, rfl⟩ := returns_pure.mp h
    obtain ⟨heq, -, -, hclean⟩ := safeText_ok hstored
    exact ⟨heq, hclean, rfl⟩
  · cases h

theorem guardOptional_returns {text : BriefField → Option String} {fields : List BriefField}
    {u : Unit} (h : Returns (guardOptional text fields) d u d') :
    d = d' ∧ ∀ field ∈ fields, ∀ value, (text field).map stripped = some value →
      CleanText value := by
  induction fields generalizing d with
  | nil =>
    simp only [guardOptional, returns_pure] at h
    exact ⟨h.2, by simp⟩
  | cons field rest ih =>
    simp only [guardOptional] at h
    have hrest : ∀ {d₁ : Departments}, Returns (guardOptional text rest) d₁ u d' →
        (∀ value, (text field).map stripped = some value → CleanText value) →
        d₁ = d' ∧ ∀ field' ∈ field :: rest, ∀ value, (text field').map stripped = some value →
          CleanText value := by
      intro d₁ hreturned hclean
      obtain ⟨heq, hothers⟩ := ih hreturned
      exact ⟨heq, fun field' hmem => (List.mem_cons.mp hmem).elim (fun heq => heq ▸ hclean)
        (hothers field')⟩
    split at h
    · rename_i hnone
      exact hrest h (by simp [hnone])
    · rename_i given hgiven
      simp only [returns_bind] at h
      obtain ⟨stored, _, hguard, h⟩ := h
      obtain ⟨rfl, hclean, rfl⟩ := guardText_returns hguard
      refine hrest h fun value hvalue => ?_
      rw [hgiven] at hvalue
      exact Option.some.inj hvalue ▸ hclean

theorem mem_briefFields (field : BriefField) : field ∈ BriefField.all := by
  cases field <;> decide

/-- A stored brief holds no text that the guard refuses. -/
structure CleanBrief (b : StrategyBrief) : Prop where
  objective : CleanText b.objective
  evidenceSummary : CleanText b.evidenceSummary
  reasoning : CleanText b.reasoning
  text : ∀ field value, b.text field = some value → CleanText value

/-! ## Effects -/

structure SameStrategyRun (r r' : StrategyRun) : Prop where
  id : r'.id = r.id
  workspace : r'.workspaceId = r.workspaceId
  opportunities : r'.sourceOpportunityIds = r.sourceOpportunityIds
  passed : r'.briefsPassed = r.briefsPassed
  blocked : r'.briefsBlocked = r.briefsBlocked

/-- A run drawn up over stored opportunities of its workspace, with nothing counted yet. -/
structure NewStrategyRun (r : ResearchTables) (next : Nat) (a : StrategyRun) : Prop where
  id : next ≤ a.id
  opportunities : ∀ o ∈ a.sourceOpportunityIds, HasOpportunity r a.workspaceId o
  passed : a.briefsPassed = 0
  blocked : a.briefsBlocked = 0

/-- The brief under other gate columns. -/
def SameBrief (b b' : StrategyBrief) : Prop :=
  ∃ gate handoff status, b' =
    { b with auditGateStatus := gate, writerHandoffState := handoff, status := status }

/-- A brief is stored, with its links. -/
structure BriefDrafted (workspaceId : Nat) (r : ResearchTables) (t : StrategyTables)
    (row : NewRow StrategyBrief) (links : List StrategyBriefOpportunity) : Prop where
  own : (row.make t.briefs.next).workspaceId = workspaceId
  run : (row.make t.briefs.next).strategyRunId = t.runs.next
  clean : CleanBrief (row.make t.briefs.next)
  fresh : ∀ b ∈ t.briefs, b.workspaceId = workspaceId →
    b.structuralFingerprint ≠ (row.make t.briefs.next).structuralFingerprint
  some : links ≠ []
  links : ∀ l ∈ links, l.workspaceId = workspaceId ∧ l.strategyBriefId = t.briefs.next ∧
    HasOpportunity r workspaceId l.opportunityId ∧ ResearchPass r workspaceId l.opportunityId

/-- **What a strategy operation does to the department's tables.** -/
inductive StrategyEffect (lib : StandardLibrary) (now : Nat) (r : ResearchTables)
    (t : StrategyTables) : StrategyTables → Prop
  | ran {runs : Table StrategyRun}
      (kept : Evolves SameStrategyRun (NewStrategyRun r t.runs.next) t.runs runs) :
      StrategyEffect lib now r t { t with runs }
  | drafted {runs : Table StrategyRun} {row : NewRow StrategyBrief} {workspaceId : Nat}
      {briefOpportunities : Table StrategyBriefOpportunity} {links : List StrategyBriefOpportunity}
      (kept : Evolves SameStrategyRun (NewStrategyRun r t.runs.next) t.runs runs)
      (ran : ∃ run ∈ runs, run.id = t.runs.next ∧ run.workspaceId = workspaceId)
      (drafted : BriefDrafted workspaceId r t row links)
      (appended : Appended t.briefOpportunities briefOpportunities links) :
      StrategyEffect lib now r t
        { t with runs, briefs := t.briefs.insert row, briefOpportunities }
  | audited {b : StrategyBrief} {runs : Table StrategyRun} {state : AuditState}
      (there : b ∈ t.briefs)
      (verdict : state = auditState (strategyBlocked lib b
          (briefOpportunityIds b.workspaceId b.id t) (researchPassed b.workspaceId r))
        (strategyWarnings b))
      (counted : runs = if (strategyRunOf b.workspaceId b.strategyRunId t).isSome then
        t.runs.modify b.strategyRunId (StrategyRun.audited state) else t.runs) :
      StrategyEffect lib now r t
        { t with
          runs
          briefs := t.briefs.modify b.id (StrategyBrief.audited state)
          audits := t.audits.insert (strategyAuditRow lib b
            (briefOpportunityIds b.workspaceId b.id t) (researchPassed b.workspaceId r) now) }
  | sent {b : StrategyBrief} (there : b ∈ t.briefs) :
      StrategyEffect lib now r t
        { t with briefs := t.briefs.modify b.id StrategyBrief.sendToWriter }

theorem SameStrategyRun.trans {a b c : StrategyRun} (h : SameStrategyRun a b)
    (h' : SameStrategyRun b c) : SameStrategyRun a c where
  id := h'.id.trans h.id
  workspace := h'.workspace.trans h.workspace
  opportunities := h'.opportunities.trans h.opportunities
  passed := h'.passed.trans h.passed
  blocked := h'.blocked.trans h.blocked

theorem NewStrategyRun.same {next : Nat} {a b : StrategyRun} (h : NewStrategyRun r next a)
    (h' : SameStrategyRun a b) : NewStrategyRun r next b where
  id := by
    rw [h'.id]
    exact h.id
  opportunities := by
    rw [h'.opportunities, h'.workspace]
    exact h.opportunities
  passed := h'.passed.trans h.passed
  blocked := h'.blocked.trans h.blocked

/-- The runs once a new run is recorded. -/
theorem strategyRuns_insert {row : NewRow StrategyRun} {runs : Table StrategyRun}
    (hopportunities : ∀ o ∈ (row.make runs.next).sourceOpportunityIds,
      HasOpportunity r (row.make runs.next).workspaceId o)
    (hpassed : (row.make runs.next).briefsPassed = 0)
    (hblocked : (row.make runs.next).briefsBlocked = 0) :
    Evolves SameStrategyRun (NewStrategyRun r runs.next) runs (runs.insert row) :=
  .insert (fun _ => ⟨rfl, rfl, rfl, rfl, rfl⟩)
    ⟨Nat.le_of_eq (row.key_make runs.next).symm, hopportunities, hpassed, hblocked⟩ rfl

/-- The new run changed once more. -/
theorem strategyRuns_modify {runs runs' : Table StrategyRun} {next k : Nat}
    {u : Update StrategyRun} (hu : ∀ a, SameStrategyRun a (u.apply a))
    (h : Evolves SameStrategyRun (NewStrategyRun r next) runs runs') :
    Evolves SameStrategyRun (NewStrategyRun r next) runs (runs'.modify k u) :=
  h.trans (fun _ _ _ => SameStrategyRun.trans) (fun _ _ => NewStrategyRun.same)
    (.modify (fun _ => ⟨rfl, rfl, rfl, rfl, rfl⟩) (fun a _ => hu a) rfl)

/-! ## The operations -/

/-- Only the tables of research and strategy differ. -/
structure StrategyOnly (lib : StandardLibrary) (d d' : Departments) : Prop where
  rest : d' = { d with research := d'.research, strategy := d'.strategy }
  research : Relation.ReflTransGen (ResearchEffect d.now) d.research d'.research
  effect : StrategyEffect lib d.now d'.research d.strategy d'.strategy

theorem linkOpportunities_eq (workspaceId briefId : Nat) (opportunities : List Opportunity)
    (d : Departments) :
    ∃ table links, linkOpportunities workspaceId briefId opportunities d =
        { d with strategy.briefOpportunities := table } ∧
      Appended d.strategy.briefOpportunities table links ∧
      links.map (·.opportunityId) = opportunities.map (·.id) ∧
      ∀ l ∈ links, l.workspaceId = workspaceId ∧ l.strategyBriefId = briefId := by
  induction opportunities generalizing d with
  | nil => exact ⟨d.strategy.briefOpportunities, [], rfl, Appended.refl _, rfl, by simp⟩
  | cons o rest ih =>
    let row : NewRow StrategyBriefOpportunity := ⟨fun id =>
      { id, workspaceId, strategyBriefId := briefId, opportunityId := o.id }, fun _ => rfl⟩
    obtain ⟨table, links, heq, happended, hopportunities, hlinks⟩ :=
      ih (insertBriefOpportunity row d)
    refine ⟨table, _ :: links, heq,
      (Appended.insert d.strategy.briefOpportunities row).trans happended, ?_, ?_⟩
    · rw [List.map_cons, List.map_cons, hopportunities]
    · intro l hl
      rcases List.mem_cons.mp hl with rfl | hl
      · exact ⟨rfl, rfl⟩
      · exact hlinks l hl

theorem createManualStrategyRun_returns {objective : String} {opportunityIds : List Nat}
    {profileComplete : Bool} {run : Nat}
    (h : Returns (createManualStrategyRun workspaceId objective opportunityIds profileComplete) d
      run d') : StrategyOnly lib d d' := by
  simp only [createManualStrategyRun, returns_bind, returns_get, returns_modify, returns_pure] at h
  obtain ⟨_, _, hguard, _, d₁, hpass, _, _, ⟨rfl, rfl⟩, _, _, rfl, -, rfl⟩ := h
  obtain ⟨-, -, rfl⟩ := guardText_returns hguard
  obtain ⟨honly, -, -⟩ := requireResearchPass_returns hpass
  have hstored := requireResearchPass_stored hpass
  obtain ⟨research, rfl⟩ : ∃ research, d₁ = { d with research } := ⟨_, honly.rest⟩
  exact ⟨rfl, honly.effects, .ran (strategyRuns_insert hstored rfl rfl)⟩

theorem recordFixtureBrief_returns {objective : String} {opportunityIds : List Nat}
    {fixture : FixtureBrief} {result : Nat × Bool}
    (h : Returns (recordFixtureBrief lib workspaceId objective opportunityIds fixture)
      d result d') :
    StrategyOnly lib d d' ∧ d.environment = some "test" := by
  simp only [recordFixtureBrief, returns_bind, returns_ensureTest, returns_get, returns_modify,
    returns_demand, returns_scalarOneOrNone] at h
  obtain ⟨_, _, ⟨henv, rfl⟩, cleanObjective, _, hobjective, opportunities, d₁, hpass, _, _,
    ⟨rfl, rfl⟩, _, _, rfl, briefObjective, _, hbrief, first, _, ⟨hfirst, rfl⟩, evidenceSummary, _,
    hevidence, reasoning, _, hreasoning, _, _, ⟨rfl, rfl⟩, found, _, ⟨hfound, rfl⟩, h⟩ := h
  obtain ⟨-, -, rfl⟩ := guardText_returns hobjective
  obtain ⟨-, hcleanObjective, rfl⟩ := guardText_returns hbrief
  obtain ⟨-, hcleanEvidence, rfl⟩ := guardText_returns hevidence
  obtain ⟨-, hcleanReasoning, rfl⟩ := guardText_returns hreasoning
  obtain ⟨honly, -, hpassed⟩ := requireResearchPass_returns hpass
  have hstored := requireResearchPass_stored hpass
  refine ⟨?_, henv⟩
  obtain ⟨research, rfl⟩ : ∃ research, d₁ = { d with research } := ⟨_, honly.rest⟩
  cases found with
  | some existing =>
    simp only [returns_bind, returns_modify, returns_pure] at h
    obtain ⟨_, _, rfl, -, rfl⟩ := h
    exact ⟨rfl, honly.effects,
      .ran (strategyRuns_modify (fun _ => ⟨rfl, rfl, rfl, rfl, rfl⟩)
        (strategyRuns_insert hstored rfl rfl))⟩
  | none =>
    simp only [returns_bind, returns_ensure, returns_modify, returns_pure] at h
    obtain ⟨_, _, hoptional, _, _, ⟨hfresh, rfl⟩, _, _, rfl, _, _, ⟨-, rfl⟩, _, _, rfl, _, _, rfl,
      -, rfl⟩ := h
    obtain ⟨rfl, htexts⟩ := guardOptional_returns hoptional
    obtain ⟨table, links, heq, happended, hlinked, hown⟩ :=
      linkOpportunities_eq workspaceId _ opportunities _
    rw [heq]
    have hrow := get?_modified StrategyRun.briefed (get?_inserted d.strategy.runs ⟨fun id =>
      { id, workspaceId, status := .running, sourceOpportunityIds := opportunityIds
        businessContextState := fixture.businessContextState.getD "complete", testData := true },
      fun _ => rfl⟩)
    obtain ⟨hmem, hid⟩ := get?_eq_some.mp hrow
    have hran : ∃ run ∈ (_ : Table StrategyRun), run.id = d.strategy.runs.next ∧
        run.workspaceId = workspaceId := ⟨_, hmem, hid, rfl⟩
    refine ⟨rfl, honly.effects, .drafted
      (strategyRuns_modify (fun _ => ⟨rfl, rfl, rfl, rfl, rfl⟩)
        (strategyRuns_insert hstored rfl rfl))
      hran ⟨rfl, rfl, ⟨hcleanObjective, hcleanEvidence, hcleanReasoning, ?_⟩, ?_, ?_, ?_⟩
      happended⟩
    · exact fun field value hvalue => htexts field (mem_briefFields field) value hvalue
    · intro b hb hws hsame
      have hnone := select_eq_nil.mp (List.isEmpty_iff.mp hfresh) b hb
      rw [hws, hsame] at hnone
      simp [briefRow] at hnone
    · intro hnil
      rw [hnil, List.map_nil] at hlinked
      rw [List.map_eq_nil_iff.mp hlinked.symm] at hfirst
      cases hfirst
    · intro l hl
      have hopportunity : l.opportunityId ∈ links.map (·.opportunityId) := List.mem_map_of_mem hl
      rw [hlinked] at hopportunity
      obtain ⟨o, ho, hoid⟩ := List.mem_map.mp hopportunity
      rw [← hoid]
      exact ⟨(hown l hl).1, (hown l hl).2, hpassed o ho⟩

theorem getBrief_eq_some {b : StrategyBrief} (h : getBrief workspaceId briefId t = some b) :
    b ∈ t.briefs ∧ b.id = briefId ∧ b.workspaceId = workspaceId := by
  obtain ⟨hget, hown⟩ := Option.filter_eq_some_iff.mp h
  obtain ⟨hmem, hid⟩ := get?_eq_some.mp hget
  simp only [Bool.and_eq_true, beq_iff_eq] at hown
  exact ⟨hmem, hid, hown.1⟩

theorem auditBrief_returns {audit : StrategyAudit}
    (h : Returns (auditBrief lib workspaceId briefId) d audit d') : StrategyOnly lib d d' := by
  simp only [auditBrief, returns_bind, returns_get, returns_demand, returns_modify] at h
  obtain ⟨_, _, ⟨rfl, rfl⟩, b, _, ⟨hfound, rfl⟩, _, _, rfl, _, _, rfl, h⟩ := h
  obtain ⟨hmem, rfl, rfl⟩ := getBrief_eq_some hfound
  split at h
  · rename_i hrun
    simp only [returns_bind, returns_modify, returns_pure] at h
    obtain ⟨_, _, rfl, -, rfl⟩ := h
    exact ⟨rfl, .refl, .audited hmem rfl (if_pos hrun).symm⟩
  · rename_i hrun
    simp only [returns_pure] at h
    obtain ⟨-, rfl⟩ := h
    exact ⟨rfl, .refl, .audited hmem rfl (if_neg hrun).symm⟩

/-- The strategy auditor has passed the brief once. -/
def StrategyPass (t : StrategyTables) (workspaceId briefId : Nat) : Prop :=
  ∃ a ∈ t.audits, a.workspaceId = workspaceId ∧ a.strategyBriefId = briefId ∧ a.state = .pass

def HasBrief (t : StrategyTables) (workspaceId briefId : Nat) : Prop :=
  ∃ b ∈ t.briefs, b.id = briefId ∧ b.workspaceId = workspaceId

theorem writerGate_returns (lib : StandardLibrary) {u : Unit}
    (h : Returns (writerGate workspaceId briefId) d u d') :
    ∃ strategy, d' = { d with strategy } ∧
      StrategyEffect lib d.now d.research d.strategy strategy ∧
      StrategyPass d.strategy workspaceId briefId ∧ HasBrief d.strategy workspaceId briefId := by
  simp only [writerGate, returns_bind, returns_get, returns_demand, returns_ensure,
    returns_modify] at h
  obtain ⟨_, _, ⟨rfl, rfl⟩, b, _, ⟨hfound, rfl⟩, _, _, ⟨hpassed, rfl⟩, rfl⟩ := h
  obtain ⟨hmem, rfl, rfl⟩ := getBrief_eq_some hfound
  rw [Option.any_eq_true] at hpassed
  obtain ⟨a, hlatest, hstate⟩ := hpassed
  obtain ⟨hamem, hown⟩ := mem_select.mp (latest_mem hlatest)
  simp only [Bool.and_eq_true, beq_iff_eq] at hown hstate
  exact ⟨_, rfl, .sent hmem, ⟨a, hamem, hown.1, hown.2, hstate⟩, b, hmem, rfl, rfl⟩

end ContentOrchestrator.Departments

import ContentOrchestrator.Departments.ResearchRecords
import Mathlib.Data.List.Dedup

/-! # What holds of research at any time

Every opportunity rests on accepted sources of its own workspace. An audit's findings are
the sources the opportunity had then, newest first, and its state is the verdict on them;
and since sources only come on, so do the findings of later audits. -/

namespace ContentOrchestrator.Departments

open Lib Lib.Table

variable {now : Nat} {t t' : ResearchTables}

/-- The opportunity under another gate state or with more sources. -/
structure SameOpportunity (o o' : Opportunity) : Prop where
  id : o'.id = o.id
  workspace : o'.workspaceId = o.workspaceId
  run : o'.researchRunId = o.researchRunId
  dedupeKey : o'.dedupeKey = o.dedupeKey

/-- What research never loses. -/
structure ResearchGrows (t t' : ResearchTables) : Prop where
  runs : ∀ r ∈ t.runs, ∃ r' ∈ t'.runs, r'.id = r.id ∧ r'.workspaceId = r.workspaceId
  sources : ∃ added, Appended t.sources t'.sources added
  evidence : ∃ added, Appended t.evidence t'.evidence added
  opportunities : ∀ o ∈ t.opportunities, ∃ o' ∈ t'.opportunities, SameOpportunity o o'
  audits : ∃ added, Appended t.audits t'.audits added

theorem SameOpportunity.refl (o : Opportunity) : SameOpportunity o o := ⟨rfl, rfl, rfl, rfl⟩

theorem opportunities_modify {opportunities : Table Opportunity} {k : Nat} {u : Update Opportunity}
    (hu : ∀ o, SameOpportunity o (u.apply o)) :
    Evolves SameOpportunity (fun _ => False) opportunities (opportunities.modify k u) :=
  .modify SameOpportunity.refl (fun o _ => hu o) rfl

theorem ResearchEffect.grows (h : ResearchEffect now t t') : ResearchGrows t t' := by
  cases h with
  | ran kept appended _ _ =>
    exact ⟨fun r hr => (kept.old r hr).imp fun r' h => ⟨h.1, h.2.id, h.2.workspace⟩,
      ⟨_, appended⟩, ⟨_, Appended.refl _⟩, fun o ho => ⟨o, ho, .refl o⟩, ⟨_, Appended.refl _⟩⟩
  | recorded kept _ recorded same =>
    refine ⟨fun r hr => (kept.old r hr).imp fun r' h => ⟨h.1, h.2.id, h.2.workspace⟩,
      ⟨_, recorded.sources⟩, ⟨_, recorded.evidence⟩, ?_, ⟨[], same ▸ Appended.refl _⟩⟩
    intro o ho
    cases recorded.found with
    | again _ _ changed =>
      rw [changed]
      exact (opportunities_modify fun _ => ⟨rfl, rfl, rfl, rfl⟩).old o ho
    | new row _ changed _ _ _ _ =>
      rw [changed]
      exact ⟨o, mem_insert.mpr (.inl ho), .refl o⟩
  | audited _ _ _ counted =>
    refine ⟨fun r hr => ?_, ⟨_, Appended.refl _⟩, ⟨_, Appended.refl _⟩,
      (opportunities_modify fun _ => ⟨rfl, rfl, rfl, rfl⟩).old, ⟨_, Appended.insert ..⟩⟩
    rw [counted]
    split
    · refine ⟨_, mem_modify.mpr ⟨r, hr, rfl⟩, ?_, ?_⟩
      all_goals split <;> rfl
    · exact ⟨r, hr, rfl, rfl⟩
  | sent _ _ =>
    exact ⟨fun r hr => ⟨r, hr, rfl, rfl⟩, ⟨_, Appended.refl _⟩, ⟨_, Appended.refl _⟩,
      (opportunities_modify fun _ => ⟨rfl, rfl, rfl, rfl⟩).old, ⟨_, Appended.refl _⟩⟩

theorem ResearchGrows.refl (t : ResearchTables) : ResearchGrows t t where
  runs r hr := ⟨r, hr, rfl, rfl⟩
  sources := ⟨[], Appended.refl _⟩
  evidence := ⟨[], Appended.refl _⟩
  opportunities o ho := ⟨o, ho, .refl o⟩
  audits := ⟨[], Appended.refl _⟩

/-! ## The invariant -/

/-- An opportunity of the workspace is stored under this key. -/
def HasOpportunity (t : ResearchTables) (workspaceId opportunityId : Nat) : Prop :=
  ∃ o ∈ t.opportunities, o.id = opportunityId ∧ o.workspaceId = workspaceId

/-- A run of the workspace is stored under this key. -/
def HasResearchRun (t : ResearchTables) (workspaceId runId : Nat) : Prop :=
  ∃ r ∈ t.runs, r.id = runId ∧ r.workspaceId = workspaceId

/-- A link joins an opportunity and an accepted source of one workspace. -/
structure LinkSound (t : ResearchTables) (e : OpportunityEvidence) : Prop where
  opportunity : HasOpportunity t e.workspaceId e.opportunityId
  source : ∃ s ∈ t.sources, s.id = e.sourceId ∧ s.workspaceId = e.workspaceId ∧
    s.handlingState = .accepted

/-- An opportunity has a run and as many sources as it counts, and it has one. -/
structure OpportunitySound (t : ResearchTables) (o : Opportunity) : Prop where
  run : HasResearchRun t o.workspaceId o.researchRunId
  supported : ∃ e ∈ t.evidence, e.opportunityId = o.id ∧ e.workspaceId = o.workspaceId
  counted : o.sourceCount = t.evidence.count fun e => e.opportunityId == o.id

/-- The sources, what was retrieved later first. -/
abbrev InNewestOrder (linked sources : List ResearchSource) : Prop :=
  OrderedBy (fun a b : ResearchSource => b.retrievedAt ≤ a.retrievedAt) linked sources

/-- An audit is the verdict on the first sources its opportunity was given. -/
structure Judged (t : ResearchTables) (a : ResearchAudit) : Prop where
  opportunity : ∃ o ∈ t.opportunities, o.id = a.opportunityId ∧ o.workspaceId = a.workspaceId ∧
    o.researchRunId = a.researchRunId
  verdict : ∃ linked sources, linked ≠ [] ∧
    linked <+: linkedSources a.workspaceId a.opportunityId t ∧ InNewestOrder linked sources ∧
    a.findings = researchFindings sources ∧
    a.state = auditState (researchBlocked sources) (researchWarnings sources)

/-- The later of two audits looked later, and at no fewer sources. -/
def AuditsInOrder (a b : ResearchAudit) : Prop :=
  a.checkedAt ≤ b.checkedAt ∧ (a.workspaceId = b.workspaceId → a.opportunityId = b.opportunityId →
    a.findings.length ≤ b.findings.length)

/-- A run counts the audits of its opportunities. -/
structure RunCounts (audits : Table ResearchAudit) (r : ResearchRun) : Prop where
  audited : r.auditedOpportunityCount = audits.count fun a => a.researchRunId == r.id
  blocked : r.blockedOpportunityCount =
    audits.count fun a => a.researchRunId == r.id && a.state == .blocked

structure ResearchSound (now : Nat) (t : ResearchTables) : Prop where
  sources : ∀ s ∈ t.sources, Handled s ∧ HasResearchRun t s.workspaceId s.researchRunId
  evidence : ∀ e ∈ t.evidence, LinkSound t e
  opportunities : ∀ o ∈ t.opportunities, OpportunitySound t o
  audits : ∀ a ∈ t.audits, Judged t a ∧ a.checkedAt ≤ now
  ordered : t.audits.rows.Pairwise AuditsInOrder
  counts : ∀ r ∈ t.runs, RunCounts t.audits r

theorem HasOpportunity.grows {workspaceId opportunityId : Nat} (hg : ResearchGrows t t')
    (h : HasOpportunity t workspaceId opportunityId) :
    HasOpportunity t' workspaceId opportunityId := by
  obtain ⟨o, ho, hid, hws⟩ := h
  obtain ⟨o', ho', hsame⟩ := hg.opportunities o ho
  exact ⟨o', ho', hsame.id.trans hid, hsame.workspace.trans hws⟩

theorem HasResearchRun.grows {workspaceId runId : Nat} (hg : ResearchGrows t t')
    (h : HasResearchRun t workspaceId runId) : HasResearchRun t' workspaceId runId := by
  obtain ⟨r, hr, hid, hws⟩ := h
  obtain ⟨r', hr', hid', hws'⟩ := hg.runs r hr
  exact ⟨r', hr', hid'.trans hid, hws'.trans hws⟩

theorem LinkSound.grows {e : OpportunityEvidence} (hg : ResearchGrows t t') (h : LinkSound t e) :
    LinkSound t' e where
  opportunity := h.opportunity.grows hg
  source := by
    obtain ⟨s, hs, hrest⟩ := h.source
    obtain ⟨_, happended⟩ := hg.sources
    exact ⟨s, happended.old hs, hrest⟩

/-! ## Sources come on at the end -/

/-- The source of a sound link, and the same one ever after. -/
theorem linkedSource_grows {e : OpportunityEvidence} (hg : ResearchGrows t t') (h : LinkSound t e)
    {workspaceId : Nat} :
    ((t'.sources.get? e.sourceId).filter fun s => s.workspaceId == workspaceId) =
      (t.sources.get? e.sourceId).filter fun s => s.workspaceId == workspaceId := by
  obtain ⟨s, hs, hid, _⟩ := h.source
  obtain ⟨_, happended⟩ := hg.sources
  have hget : t.sources.get? e.sourceId = some s := get?_eq_some.mpr ⟨hs, hid⟩
  rw [hget, happended.get? hget]

theorem newestFirst_ordered (ties : List Nat) (sources : List ResearchSource) :
    InNewestOrder sources (newestFirst ties sources) := by
  have hordered : OrderedBy (fun a b : ResearchSource => b.retrievedAt < a.retrievedAt ∨
      b.retrievedAt = a.retrievedAt ∧ ties.idxOf a.id ≤ ties.idxOf b.id)
      sources (newestFirst ties sources) :=
    .of_insertionSort (fun a b => by omega) fun a b c => by omega
  exact ⟨hordered.perm, hordered.sorted.imp fun h => h.elim Nat.le_of_lt fun h => Nat.le_of_eq h.1⟩

theorem linkedSources_initial (hlinks : ∀ e ∈ t.evidence, LinkSound t e)
    (hg : ResearchGrows t t') (workspaceId opportunityId : Nat) :
    linkedSources workspaceId opportunityId t <+: linkedSources workspaceId opportunityId t' := by
  obtain ⟨added, happended⟩ := hg.evidence
  rw [linkedSources, linkedSources, happended.select, List.filterMap_append]
  refine ⟨_, congrArg (· ++ _) (List.filterMap_congr fun e he => ?_)⟩
  exact (linkedSource_grows hg (hlinks e (mem_select.mp he).1)).symm

theorem mem_linkedSources {workspaceId opportunityId : Nat} {s : ResearchSource}
    (hlinks : ∀ e ∈ t.evidence, LinkSound t e)
    (h : s ∈ linkedSources workspaceId opportunityId t) :
    s ∈ t.sources ∧ s.workspaceId = workspaceId ∧ s.handlingState = .accepted ∧
      ∃ e ∈ t.evidence, e.opportunityId = opportunityId ∧ e.sourceId = s.id := by
  obtain ⟨e, he, hsource⟩ := List.mem_filterMap.mp h
  obtain ⟨he, hown⟩ := mem_select.mp he
  obtain ⟨hget, hws⟩ := Option.filter_eq_some_iff.mp hsource
  obtain ⟨hs, hid⟩ := get?_eq_some.mp hget
  obtain ⟨s', hs', hid', -, haccepted⟩ := (hlinks e he).source
  have hsame : s' = s := eq_of_key hs' hs (hid'.trans hid.symm)
  simp only [Bool.and_eq_true, beq_iff_eq] at hown hws
  exact ⟨hs, hws, hsame ▸ haccepted, e, he, hown.2, hid.symm⟩

/-- A sound opportunity has a source to look at. -/
theorem linkedSources_ne_nil {o : Opportunity} (hlinks : ∀ e ∈ t.evidence, LinkSound t e)
    (h : OpportunitySound t o) : linkedSources o.workspaceId o.id t ≠ [] := by
  obtain ⟨e, he, hid, hws⟩ := h.supported
  obtain ⟨s, hs, hsid, hsws, -⟩ := (hlinks e he).source
  refine List.ne_nil_of_mem (List.mem_filterMap.mpr ⟨e, mem_select.mpr ⟨he, ?_⟩, ?_⟩) (a := s)
  · rw [hid, hws, beq_self_eq_true, beq_self_eq_true]
    rfl
  · rw [get?_eq_some.mpr ⟨hs, hsid⟩, Option.filter_eq_some_iff]
    exact ⟨rfl, beq_iff_eq.mpr (hsws.trans hws)⟩

theorem Judged.grows {a : ResearchAudit} (hlinks : ∀ e ∈ t.evidence, LinkSound t e)
    (hg : ResearchGrows t t') (h : Judged t a) : Judged t' a where
  opportunity := by
    obtain ⟨o, ho, hid, hws, hrun⟩ := h.opportunity
    obtain ⟨o', ho', hsame⟩ := hg.opportunities o ho
    exact ⟨o', ho', hsame.id.trans hid, hsame.workspace.trans hws, hsame.run.trans hrun⟩
  verdict := by
    obtain ⟨linked, sources, hsome, hinitial, hrest⟩ := h.verdict
    exact ⟨linked, sources, hsome, hinitial.trans (linkedSources_initial hlinks hg _ _), hrest⟩

/-! ## Every effect keeps it -/

/-- The opportunity a run found is stored when the run ends. -/
theorem Found.stored {workspaceId runId count : Nat} {s s' : Table Opportunity} {o : Opportunity}
    (hfound : Found workspaceId runId count s s' o) :
    o.workspaceId = workspaceId ∧ ∃ o' ∈ s', SameOpportunity o o' := by
  cases hfound with
  | again there own changed =>
    rw [changed]
    exact ⟨own, (opportunities_modify fun _ => ⟨rfl, rfl, rfl, rfl⟩).old o there⟩
  | new row made changed own _ _ _ =>
    rw [changed]
    exact ⟨own, o, mem_insert.mpr (.inr made), .refl o⟩

/-- No audit counts towards a run that is still to come. -/
theorem unaudited {r : ResearchRun} {p : ResearchAudit → Bool} (hs : ResearchSound now t)
    (hnew : t.runs.next ≤ r.id) :
    (t.audits.count fun a => a.researchRunId == r.id && p a) = 0 := by
  refine count_eq_zero.mpr fun a ha => ?_
  obtain ⟨o, ho, -, -, hrun⟩ := (hs.audits a ha).1.opportunity
  obtain ⟨r', hr', hid, -⟩ := (hs.opportunities o ho).run
  have hlt : r'.id < t.runs.next := key_lt hr'
  have hne : a.researchRunId ≠ r.id := by omega
  rw [beq_eq_false_iff_ne.mpr hne, Bool.false_and]

/-- One more audit, and the run's counts with it. -/
theorem RunCounts.insert {audits : Table ResearchAudit} {row : NewRow ResearchAudit}
    {r r' : ResearchRun} (h : RunCounts audits r) (hid : r'.id = r.id)
    (haudited : r'.auditedOpportunityCount = r.auditedOpportunityCount +
      ((row.make audits.next).researchRunId == r.id).toNat)
    (hblocked : r'.blockedOpportunityCount = r.blockedOpportunityCount +
      ((row.make audits.next).researchRunId == r.id &&
        (row.make audits.next).state == .blocked).toNat) : RunCounts (audits.insert row) r' where
  audited := by rw [haudited, h.audited, hid, count_insert]
  blocked := by rw [hblocked, h.blocked, hid, count_insert]

section

variable (hs : ResearchSound now t) (h : ResearchEffect now t t')
include hs h

theorem sources_kept :
    ∀ s ∈ t'.sources, Handled s ∧ HasResearchRun t' s.workspaceId s.researchRunId := by
  have hg := h.grows
  have hold : ∀ s ∈ t.sources, Handled s ∧ HasResearchRun t' s.workspaceId s.researchRunId :=
    fun s hmem => ⟨(hs.sources s hmem).1, (hs.sources s hmem).2.grows hg⟩
  cases h with
  | ran _ appended handled run =>
    intro s hmem
    rcases appended.mem.mp hmem with hmem | hmem
    · exact hold s hmem
    · obtain ⟨hws, hrun, hhandled⟩ := handled s hmem
      rcases run with rfl | run
      · cases hmem
      · exact ⟨hhandled, hws ▸ hrun ▸ run⟩
  | recorded _ run recorded _ =>
    intro s hmem
    rcases recorded.sources.mem.mp hmem with hmem | hmem
    · exact hold s hmem
    · obtain ⟨hws, hrun, hhandled⟩ := recorded.handled s hmem
      exact ⟨hhandled, hws ▸ hrun ▸ run⟩
  | audited _ _ _ _ => exact hold
  | sent _ _ => exact hold

theorem evidence_kept : ∀ e ∈ t'.evidence, LinkSound t' e := by
  have hg := h.grows
  have hold : ∀ e ∈ t.evidence, LinkSound t' e := fun e he => (hs.evidence e he).grows hg
  cases h with
  | ran _ _ _ _ => exact hold
  | @recorded t' workspaceId added links o _ _ recorded _ =>
    intro e he
    rcases recorded.evidence.mem.mp he with he | he
    · exact hold e he
    · obtain ⟨hws, hid⟩ := recorded.ofOpportunity e he
      obtain ⟨hown, o', ho', hsame⟩ := recorded.found.stored
      have hsource : e.sourceId ∈ links.map (·.sourceId) := List.mem_map_of_mem he
      rw [recorded.linked] at hsource
      obtain ⟨s, hsource, hsid⟩ := List.mem_map.mp hsource
      obtain ⟨hadded, haccepted⟩ := List.mem_filter.mp hsource
      refine ⟨⟨o', ho', hsame.id.trans hid.symm, ?_⟩, s, recorded.sources.mem.mpr (.inr hadded),
        hsid, ?_, beq_iff_eq.mp haccepted⟩
      · rw [hsame.workspace, hown, hws]
      · rw [(recorded.handled s hadded).1, hws]
  | audited _ _ _ _ => exact hold
  | sent _ _ => exact hold

theorem opportunities_kept : ∀ o ∈ t'.opportunities, OpportunitySound t' o := by
  have hg := h.grows
  have hold : ∀ o ∈ t.opportunities, ∀ o', SameOpportunity o o' →
      o'.sourceCount = t'.evidence.count (fun e => e.opportunityId == o.id) →
      OpportunitySound t' o' := by
    intro o ho o' hsame hcount
    obtain ⟨hrun, ⟨e, he, hid, hws⟩, -⟩ := hs.opportunities o ho
    obtain ⟨_, happended⟩ := hg.evidence
    refine ⟨?_, ⟨e, happended.old he, hid.trans hsame.id.symm, hws.trans hsame.workspace.symm⟩, ?_⟩
    · rw [hsame.workspace, hsame.run]
      exact hrun.grows hg
    · rw [hsame.id]
      exact hcount
  cases h with
  | ran _ _ _ _ => exact fun o ho => hold o ho o (.refl o) (hs.opportunities o ho).counted
  | @recorded t' workspaceId added links found _ run recorded _ =>
    have hcount : ∀ k, t'.evidence.count (fun e => e.opportunityId == k) =
        t.evidence.count (fun e => e.opportunityId == k) +
          if k = found.id then links.length else 0 := by
      intro k
      rw [recorded.evidence.count]
      congr 1
      split
      · rename_i hk
        rw [List.filter_eq_self.mpr]
        intro e he
        rw [(recorded.ofOpportunity e he).2, hk, beq_self_eq_true]
      · rename_i hk
        rw [List.filter_eq_nil_iff.mpr, List.length_nil]
        intro e he
        rw [(recorded.ofOpportunity e he).2, beq_iff_eq]
        exact Ne.symm hk
    cases recorded.found with
    | again there _ changed =>
      intro o' ho'
      rw [changed] at ho'
      obtain ⟨o, ho, rfl⟩ := mem_modify.mp ho'
      have hcounted := (hs.opportunities o ho).counted
      split
      · rename_i hkey
        have hid : o.id = found.id := hkey
        refine hold o ho _ ⟨rfl, rfl, rfl, rfl⟩ ?_
        rw [hcount, if_pos hid, ← hcounted]
        rfl
      · rename_i hkey
        have hid : ¬ o.id = found.id := hkey
        refine hold o ho o (.refl o) ?_
        rw [hcount, if_neg hid, ← hcounted]
        rfl
    | new row made changed own hrun counted _ =>
      have hid : found.id = t.opportunities.next := by
        rw [made]
        exact row.key_make _
      intro o' ho'
      rw [changed] at ho'
      rcases mem_insert.mp ho' with ho | rfl
      · refine hold o' ho o' (.refl o') ?_
        have hne : o'.id ≠ found.id := by
          rw [hid]
          exact Nat.ne_of_lt (key_lt ho)
        rw [hcount, if_neg hne, ← (hs.opportunities o' ho).counted]
        rfl
      · rw [← made]
        refine ⟨?_, ?_, ?_⟩
        · rw [own, hrun]
          exact run
        · obtain ⟨e, he⟩ := List.exists_mem_of_ne_nil links recorded.some
          obtain ⟨hws, hopportunity⟩ := recorded.ofOpportunity e he
          exact ⟨e, recorded.evidence.mem.mpr (.inr he), hopportunity, hws.trans own.symm⟩
        · -- no link was to a key not handed out yet
          have hnone : (t.evidence.count fun e => e.opportunityId == found.id) = 0 := by
            refine count_eq_zero.mpr fun e he => ?_
            obtain ⟨o, ho, hoid, -⟩ := (hs.evidence e he).opportunity
            rw [beq_eq_false_iff_ne, hid, ← hoid]
            exact Nat.ne_of_lt (key_lt ho)
          rw [hcount, if_pos rfl, hnone, Nat.zero_add, counted]
  | audited _ _ _ _ =>
    intro o' ho'
    obtain ⟨o, ho, rfl⟩ := mem_modify.mp ho'
    refine hold o ho _ ?_ ?_
    · split
      · exact ⟨rfl, rfl, rfl, rfl⟩
      · exact .refl o
    · split <;> exact (hs.opportunities o ho).counted
  | sent _ _ =>
    intro o' ho'
    obtain ⟨o, ho, rfl⟩ := mem_modify.mp ho'
    refine hold o ho _ ?_ ?_
    · split
      · exact ⟨rfl, rfl, rfl, rfl⟩
      · exact .refl o
    · split <;> exact (hs.opportunities o ho).counted

theorem audits_kept :
    (∀ a ∈ t'.audits, Judged t' a ∧ a.checkedAt ≤ now) ∧ t'.audits.rows.Pairwise AuditsInOrder := by
  have hg := h.grows
  have hold : ∀ a ∈ t.audits, Judged t' a ∧ a.checkedAt ≤ now := fun a ha =>
    ⟨(hs.audits a ha).1.grows hs.evidence hg, (hs.audits a ha).2⟩
  cases h with
  | ran _ _ _ _ => exact ⟨hold, hs.ordered⟩
  | recorded _ _ _ same =>
    rw [same]
    exact ⟨hold, hs.ordered⟩
  | @audited o _ _ ties _ there own verdict _ =>
    subst own
    have hnewest := newestFirst_ordered ties (linkedSources o.workspaceId o.id t)
    have hrow : ∀ a ∈ t.audits, AuditsInOrder a
        ((researchAuditRow o (opportunitySources o.workspaceId o.id ties t) now).make
          t.audits.next) := by
      intro a ha
      refine ⟨(hs.audits a ha).2, fun hws hid => ?_⟩
      obtain ⟨linked, sources, -, hinitial, hordered, hfindings, -⟩ := (hs.audits a ha).1.verdict
      have hws' : a.workspaceId = o.workspaceId := hws
      have hid' : a.opportunityId = o.id := hid
      rw [hws', hid'] at hinitial
      rw [hfindings, researchAuditRow, researchFindings, researchFindings, List.length_map,
        List.length_map, (hordered.perm.filter _).length_eq, opportunitySources,
        (hnewest.perm.filter _).length_eq]
      exact (hinitial.filter _).length_le
    constructor
    · intro a ha
      rcases mem_insert.mp ha with ha | rfl
      · exact hold a ha
      · obtain ⟨o', ho', hsame⟩ := hg.opportunities o there
        refine ⟨⟨⟨o', ho', hsame.id, hsame.workspace, hsame.run⟩,
          linkedSources o.workspaceId o.id t, _, ?_, ?_, hnewest, rfl, rfl⟩, Nat.le_refl _⟩
        · exact linkedSources_ne_nil hs.evidence (hs.opportunities o there)
        · exact linkedSources_initial hs.evidence hg _ _
    · refine List.pairwise_append.mpr ⟨hs.ordered, List.pairwise_singleton .., ?_⟩
      intro a ha b hb
      rw [List.mem_singleton.mp hb]
      exact hrow a ha
  | sent _ _ => exact ⟨hold, hs.ordered⟩

theorem counts_kept : ∀ r ∈ t'.runs, RunCounts t'.audits r := by
  have hruns : ∀ {runs : Table ResearchRun},
      Evolves SameResearchRun (NewResearchRun t.runs.next) t.runs runs →
      ∀ r ∈ runs, RunCounts t.audits r := by
    intro runs hkept r hr
    rcases hkept.new r hr with ⟨r₀, hr₀, hsame⟩ | hnew
    · obtain ⟨haudited, hblocked⟩ := hs.counts r₀ hr₀
      refine ⟨?_, ?_⟩
      · rw [hsame.audited, hsame.id, haudited]
      · rw [hsame.blocked, hsame.id, hblocked]
    · refine ⟨?_, ?_⟩
      · have hnone := unaudited hs (p := fun _ => true) hnew.id
        simp only [Bool.and_true] at hnone
        rw [hnew.audited, hnone]
      · rw [hnew.blocked, unaudited hs hnew.id]
  cases h with
  | ran kept _ _ _ => exact hruns kept
  | recorded kept _ _ same =>
    rw [same]
    exact hruns kept
  | @audited o runs workspaceId _ state there own verdict counted =>
    subst own
    obtain ⟨r₀, hr₀, hid, hws⟩ := (hs.opportunities o there).run
    have hfound : (researchRunOf o.workspaceId o.researchRunId t).isSome = true := by
      rw [researchRunOf, get?_eq_some.mpr ⟨hr₀, hid⟩, Option.isSome_iff_exists]
      exact ⟨r₀, Option.filter_eq_some_iff.mpr ⟨rfl, beq_iff_eq.mpr hws⟩⟩
    rw [if_pos hfound] at counted
    intro r hr
    rw [counted] at hr
    obtain ⟨r₁, hr₁, rfl⟩ := mem_modify.mp hr
    have hcounts := hs.counts r₁ hr₁
    by_cases hkey : Keyed.key r₁ = o.researchRunId
    · have hown : (o.researchRunId == r₁.id) = true := beq_iff_eq.mpr hkey.symm
      rw [if_pos hkey]
      refine hcounts.insert rfl ?_ ?_
      · simp [researchAuditRow, ResearchRun.audited, hown]
      · cases hstate : state == AuditState.blocked with
        | true =>
          simp [researchAuditRow, ResearchRun.audited, hown, ← verdict, beq_iff_eq.mp hstate]
        | false =>
          simp [researchAuditRow, ResearchRun.audited, ← verdict, beq_eq_false_iff_ne.mp hstate]
    · have hother : (o.researchRunId == r₁.id) = false :=
        beq_eq_false_iff_ne.mpr fun heq => hkey heq.symm
      rw [if_neg hkey]
      refine hcounts.insert rfl ?_ ?_ <;> simp [researchAuditRow, hother]
  | sent _ _ => exact hs.counts

theorem research_kept : ResearchSound now t' where
  sources := sources_kept hs h
  evidence := evidence_kept hs h
  opportunities := opportunities_kept hs h
  audits := (audits_kept hs h).1
  ordered := (audits_kept hs h).2
  counts := counts_kept hs h

end

theorem ResearchSound.later {now' : Nat} (hs : ResearchSound now t) (hle : now ≤ now') :
    ResearchSound now' t :=
  { hs with audits := fun a ha => ⟨(hs.audits a ha).1, Nat.le_trans (hs.audits a ha).2 hle⟩ }

theorem research_empty (now : Nat) : ResearchSound now {} where
  sources _ h := absurd h mem_empty
  evidence _ h := absurd h mem_empty
  opportunities _ h := absurd h mem_empty
  audits _ h := absurd h mem_empty
  ordered := .nil
  counts _ h := absurd h mem_empty

/-! ## Verdicts -/

section

variable {sources more : List ResearchSource}

theorem hasDuplicates_iff : hasDuplicates sources = true ↔
    ¬ (sources.map (·.contentDigest)).Nodup := by
  have hlength := (List.dedup_sublist (sources.map (·.contentDigest))).length_le
  rw [List.length_map] at hlength
  rw [hasDuplicates, decide_eq_true_iff, ← List.dedup_eq_self]
  constructor
  · intro hlt heq
    rw [heq, List.length_map] at hlt
    exact Nat.lt_irrefl _ hlt
  · intro hne
    refine Nat.lt_of_le_of_ne hlength fun heq => hne ?_
    exact (List.dedup_sublist _).eq_of_length (by rw [heq, List.length_map])

variable (haccepted : ∀ s ∈ sources, s.handlingState = .accepted) (hsome : sources ≠ [])
include haccepted

theorem filter_accepted : (sources.filter fun s => s.handlingState == .accepted) = sources :=
  List.filter_eq_self.mpr fun s hs => beq_iff_eq.mpr (haccepted s hs)

theorem findings_of_accepted : (researchFindings sources).map (·.sourceId) = sources.map
    (·.id) := by
  rw [researchFindings, filter_accepted haccepted, List.map_map]
  rfl

include hsome

theorem blocked_of_accepted : researchBlocked sources =
    if hasDuplicates sources then ["Duplicate source content detected."] else [] := by
  have hrejected : (sources.filter fun s => s.handlingState == .rejected) = [] :=
    List.filter_eq_nil_iff.mpr fun s hs => by simp [haccepted s hs]
  simp [researchBlocked, filter_accepted haccepted, hrejected, hsome]

/-- **The verdict on accepted sources.** -/
theorem verdict_of_accepted :
    auditState (researchBlocked sources) (researchWarnings sources) =
      if ¬ (sources.map (·.contentDigest)).Nodup then .blocked
      else if sources.length = 1 ∨
          ∃ s ∈ sources, s.freshness = "stale" ∨ s.freshness = "unknown" then
        .passWithWarning
      else .pass := by
  have hblocked := blocked_of_accepted haccepted hsome
  by_cases hnodup : (sources.map (·.contentDigest)).Nodup
  · have hclear : hasDuplicates sources = false := by
      rw [← Bool.not_eq_true, hasDuplicates_iff]
      exact not_not.mpr hnodup
    rw [hclear, if_neg Bool.false_ne_true] at hblocked
    rw [if_neg (not_not.mpr hnodup), researchWarnings, hblocked, filter_accepted haccepted]
    by_cases hsingle : sources.length = 1
    · simp [auditState, hsingle]
    · by_cases hstale : ∃ s ∈ sources, s.freshness = "stale" ∨ s.freshness = "unknown"
      · simp [auditState, hsingle, hstale]
      · simp [auditState, hsingle, hstale]
  · rw [hasDuplicates_iff.mpr hnodup, if_pos rfl] at hblocked
    rw [if_pos hnodup, hblocked]
    rfl

end

end ContentOrchestrator.Departments

import ContentOrchestrator.Departments.StrategyRecords

/-! # What holds of strategy at any time

Every brief draws on an opportunity of its own workspace, and only on ones that research
has passed. A passing audit leaves nothing that would block the brief, and a brief's links
and texts never change after it is drafted. -/

namespace ContentOrchestrator.Departments

open Lib Lib.Table

variable {lib : StandardLibrary} {now : Nat} {r r' : ResearchTables} {t t' : StrategyTables}

theorem SameBrief.refl (b : StrategyBrief) : SameBrief b b := ⟨_, _, _, rfl⟩

theorem SameBrief.trans {a b c : StrategyBrief} (h : SameBrief a b) (h' : SameBrief b c) :
    SameBrief a c := by
  obtain ⟨_, _, _, rfl⟩ := h
  obtain ⟨_, _, _, rfl⟩ := h'
  exact ⟨_, _, _, rfl⟩

structure StrategyGrows (t t' : StrategyTables) : Prop where
  runs : ∀ a ∈ t.runs, ∃ a' ∈ t'.runs, a'.id = a.id ∧ a'.workspaceId = a.workspaceId
  briefs : ∀ b ∈ t.briefs, ∃ b' ∈ t'.briefs, SameBrief b b'
  links : ∃ added, Appended t.briefOpportunities t'.briefOpportunities added ∧
    ∀ l ∈ added, ∀ b ∈ t.briefs, l.strategyBriefId ≠ b.id
  audits : ∃ added, Appended t.audits t'.audits added

theorem StrategyGrows.refl (t : StrategyTables) : StrategyGrows t t where
  runs a ha := ⟨a, ha, rfl, rfl⟩
  briefs b hb := ⟨b, hb, .refl b⟩
  links := ⟨[], Appended.refl _, by simp⟩
  audits := ⟨[], Appended.refl _⟩

theorem StrategyGrows.trans {t'' : StrategyTables} (h : StrategyGrows t t')
    (h' : StrategyGrows t' t'') : StrategyGrows t t'' where
  runs a ha := by
    obtain ⟨a', ha', hid, hws⟩ := h.runs a ha
    obtain ⟨a'', ha'', hid', hws'⟩ := h'.runs a' ha'
    exact ⟨a'', ha'', hid'.trans hid, hws'.trans hws⟩
  briefs b hb := by
    obtain ⟨b', hb', hsame⟩ := h.briefs b hb
    obtain ⟨b'', hb'', hsame'⟩ := h'.briefs b' hb'
    exact ⟨b'', hb'', hsame.trans hsame'⟩
  links := by
    obtain ⟨added, happended, hother⟩ := h.links
    obtain ⟨more, happended', hother'⟩ := h'.links
    refine ⟨added ++ more, happended.trans happended', fun l hl b hb => ?_⟩
    rcases List.mem_append.mp hl with hl | hl
    · exact hother l hl b hb
    · obtain ⟨b', hb', _, _, _, rfl⟩ := h.briefs b hb
      have hne := hother' l hl _ hb'
      exact hne
  audits := Appended.grows_trans h.audits h'.audits

theorem briefs_modify {briefs : Table StrategyBrief} {k : Nat} {u : Update StrategyBrief}
    (hu : ∀ b, SameBrief b (u.apply b)) :
    Evolves SameBrief (fun _ => False) briefs (briefs.modify k u) :=
  .modify SameBrief.refl (fun b _ => hu b) rfl

theorem StrategyEffect.grows (h : StrategyEffect lib now r t t') : StrategyGrows t t' := by
  cases h with
  | ran kept =>
    exact ⟨fun a ha => (kept.old a ha).imp fun _ h => ⟨h.1, h.2.id, h.2.workspace⟩,
      (StrategyGrows.refl t).briefs, (StrategyGrows.refl t).links, ⟨_, Appended.refl _⟩⟩
  | drafted kept _ drafted appended =>
    refine ⟨fun a ha => (kept.old a ha).imp fun _ h => ⟨h.1, h.2.id, h.2.workspace⟩,
      fun b hb => ⟨b, mem_insert.mpr (.inl hb), .refl b⟩, ⟨_, appended, ?_⟩, ⟨_, Appended.refl _⟩⟩
    intro l hl b hb
    rw [(drafted.links l hl).2.1]
    exact (Nat.ne_of_lt (key_lt hb)).symm
  | audited _ _ counted =>
    refine ⟨fun a ha => ?_, (briefs_modify fun _ => ⟨_, _, _, rfl⟩).old,
      (StrategyGrows.refl t).links, ⟨_, Appended.insert ..⟩⟩
    rw [counted]
    split
    · refine ⟨_, mem_modify.mpr ⟨a, ha, rfl⟩, ?_, ?_⟩
      · split
        · exact (StrategyRun.audited _).key_apply a
        · rfl
      · split
        · simp only [StrategyRun.audited]
          split <;> rfl
        · rfl
    · exact ⟨a, ha, rfl, rfl⟩
  | sent _ =>
    exact ⟨(StrategyGrows.refl t).runs, (briefs_modify fun _ => ⟨_, _, _, rfl⟩).old,
      (StrategyGrows.refl t).links, ⟨_, Appended.refl _⟩⟩

/-- The opportunities of a stored brief stay the same. -/
theorem StrategyGrows.opportunityIds (hg : StrategyGrows t t') {b : StrategyBrief}
    (hb : b ∈ t.briefs) (workspaceId : Nat) :
    briefOpportunityIds workspaceId b.id t' = briefOpportunityIds workspaceId b.id t := by
  obtain ⟨added, happended, hother⟩ := hg.links
  rw [briefOpportunityIds, briefOpportunityIds, happended.select, List.filter_eq_nil_iff.mpr,
    List.append_nil]
  intro l hl
  simp [hother l hl b hb]

/-! ## The invariant -/

def HasStrategyRun (t : StrategyTables) (workspaceId runId : Nat) : Prop :=
  ∃ a ∈ t.runs, a.id = runId ∧ a.workspaceId = workspaceId

/-- A link joins a brief and an opportunity of one workspace that research has passed. -/
structure BriefLinkSound (r : ResearchTables) (t : StrategyTables) (l : StrategyBriefOpportunity) :
    Prop where
  brief : HasBrief t l.workspaceId l.strategyBriefId
  opportunity : HasOpportunity r l.workspaceId l.opportunityId
  passed : ResearchPass r l.workspaceId l.opportunityId

structure BriefSound (t : StrategyTables) (b : StrategyBrief) : Prop where
  run : HasStrategyRun t b.workspaceId b.strategyRunId
  linked : ∃ l ∈ t.briefOpportunities, l.strategyBriefId = b.id ∧ l.workspaceId = b.workspaceId
  clean : CleanBrief b

/-- Nothing in the brief itself would block it or be warned of. -/
def BriefReady (lib : StandardLibrary) (b : StrategyBrief) (opportunityIds : List Nat) : Prop :=
  strategyBlocked lib b opportunityIds (fun _ => true) = [] ∧ strategyWarnings b = []

/-- An audit is about a stored brief, and a passing one left nothing against it. -/
def StrategyJudged (lib : StandardLibrary) (t : StrategyTables) (a : StrategyAudit) : Prop :=
  ∃ b ∈ t.briefs, b.id = a.strategyBriefId ∧ b.workspaceId = a.workspaceId ∧
    b.strategyRunId = a.strategyRunId ∧ a.findings <+: briefOpportunityIds b.workspaceId b.id t ∧
    (a.state = .pass → a.findings = briefOpportunityIds b.workspaceId b.id t ∧
      BriefReady lib b a.findings)

/-- A run counts the verdicts on its briefs. -/
structure StrategyRunCounts (audits : Table StrategyAudit) (a : StrategyRun) : Prop where
  passed : a.briefsPassed = audits.count fun x => x.strategyRunId == a.id && x.state == .pass
  blocked : a.briefsBlocked = audits.count fun x => x.strategyRunId == a.id && x.state != .pass

structure StrategySound (lib : StandardLibrary) (r : ResearchTables) (t : StrategyTables) :
    Prop where
  briefs : ∀ b ∈ t.briefs, BriefSound t b
  links : ∀ l ∈ t.briefOpportunities, BriefLinkSound r t l
  audits : ∀ a ∈ t.audits, StrategyJudged lib t a
  distinct : ∀ b ∈ t.briefs, ∀ b' ∈ t.briefs, b.workspaceId = b'.workspaceId →
    b.structuralFingerprint = b'.structuralFingerprint → b.id = b'.id
  runs : ∀ a ∈ t.runs, ∀ o ∈ a.sourceOpportunityIds, HasOpportunity r a.workspaceId o
  counts : ∀ a ∈ t.runs, StrategyRunCounts t.audits a

theorem HasBrief.grows {workspaceId briefId : Nat} (hg : StrategyGrows t t')
    (h : HasBrief t workspaceId briefId) : HasBrief t' workspaceId briefId := by
  obtain ⟨b, hb, rfl, rfl⟩ := h
  obtain ⟨b', hb', _, _, _, rfl⟩ := hg.briefs b hb
  exact ⟨_, hb', rfl, rfl⟩

theorem HasStrategyRun.grows {workspaceId runId : Nat} (hg : StrategyGrows t t')
    (h : HasStrategyRun t workspaceId runId) : HasStrategyRun t' workspaceId runId := by
  obtain ⟨a, ha, hid, hws⟩ := h
  obtain ⟨a', ha', hid', hws'⟩ := hg.runs a ha
  exact ⟨a', ha', hid'.trans hid, hws'.trans hws⟩

theorem StrategyPass.grows {workspaceId briefId : Nat} (hg : StrategyGrows t t')
    (h : StrategyPass t workspaceId briefId) : StrategyPass t' workspaceId briefId := by
  obtain ⟨a, ha, hrest⟩ := h
  obtain ⟨_, happended⟩ := hg.audits
  exact ⟨a, happended.old ha, hrest⟩

theorem BriefLinkSound.grows {l : StrategyBriefOpportunity} (hr : ResearchGrows r r')
    (hg : StrategyGrows t t') (h : BriefLinkSound r t l) : BriefLinkSound r' t' l where
  brief := h.brief.grows hg
  opportunity := h.opportunity.grows hr
  passed := h.passed.grows hr

theorem BriefSound.grows {b b' : StrategyBrief} (hg : StrategyGrows t t') (h : BriefSound t b)
    (hsame : SameBrief b b') : BriefSound t' b' := by
  obtain ⟨_, _, _, rfl⟩ := hsame
  obtain ⟨l, hl, hid, hws⟩ := h.linked
  obtain ⟨_, happended, _⟩ := hg.links
  exact ⟨h.run.grows hg, ⟨l, happended.old hl, hid, hws⟩, h.clean.objective,
    h.clean.evidenceSummary, h.clean.reasoning, h.clean.text⟩

theorem StrategyJudged.grows {a : StrategyAudit} (hg : StrategyGrows t t')
    (h : StrategyJudged lib t a) : StrategyJudged lib t' a := by
  obtain ⟨b, hb, hid, hws, hrun, hinitial, hpass⟩ := h
  have hids := hg.opportunityIds hb b.workspaceId
  obtain ⟨_, hb', _, _, _, rfl⟩ := hg.briefs b hb
  refine ⟨_, hb', hid, hws, hrun, hids ▸ hinitial, fun hstate => ?_⟩
  obtain ⟨hfindings, hready⟩ := hpass hstate
  exact ⟨hfindings.trans hids.symm, hready⟩

/-- More research keeps what strategy rests on. -/
theorem StrategySound.research (hs : StrategySound lib r t) (hr : ResearchGrows r r') :
    StrategySound lib r' t :=
  { hs with
    links := fun l hl => (hs.links l hl).grows hr (.refl t)
    runs := fun a ha o ho => (hs.runs a ha o ho).grows hr }

theorem strategy_empty (r : ResearchTables) : StrategySound lib r {} where
  briefs _ h := absurd h mem_empty
  links _ h := absurd h mem_empty
  audits _ h := absurd h mem_empty
  distinct _ h := absurd h mem_empty
  runs _ h := absurd h mem_empty
  counts _ h := absurd h mem_empty

/-- A passing verdict found every source passed and nothing against the brief. -/
theorem ready_of_pass {b : StrategyBrief} {opportunityIds : List Nat} {passed : Nat → Bool}
    (h : auditState (strategyBlocked lib b opportunityIds passed) (strategyWarnings b) = .pass) :
    opportunityIds.takeWhile passed = opportunityIds ∧ BriefReady lib b opportunityIds := by
  have hnone : strategyBlocked lib b opportunityIds passed = [] ∧ strategyWarnings b = [] := by
    unfold auditState at h
    cases hblocked : strategyBlocked lib b opportunityIds passed with
    | cons _ _ =>
      rw [hblocked] at h
      cases h
    | nil =>
      rw [hblocked] at h
      cases hwarnings : strategyWarnings b with
      | cons _ _ =>
        rw [hwarnings] at h
        cases h
      | nil => exact ⟨rfl, rfl⟩
  obtain ⟨hblocked, hwarnings⟩ := hnone
  have hall : opportunityIds.all passed = true := by
    by_contra hnot
    rw [Bool.not_eq_true] at hnot
    simp [strategyBlocked, hnot] at hblocked
  refine ⟨List.takeWhile_eq_self_iff.mpr (List.all_eq_true.mp hall), ?_, hwarnings⟩
  rw [strategyBlocked, hall] at hblocked
  rw [strategyBlocked, List.all_eq_true.mpr fun _ _ => rfl]
  exact hblocked

/-! ## Every effect keeps it -/

/-- No audit counts towards a run that is still to come. -/
theorem strategy_unaudited {a : StrategyRun} {p : StrategyAudit → Bool}
    (hs : StrategySound lib r t) (hnew : t.runs.next ≤ a.id) :
    (t.audits.count fun x => x.strategyRunId == a.id && p x) = 0 := by
  refine count_eq_zero.mpr fun x hx => ?_
  obtain ⟨b, hb, -, -, hrun, -⟩ := hs.audits x hx
  obtain ⟨a', ha', hid, -⟩ := (hs.briefs b hb).run
  have hlt : a'.id < t.runs.next := key_lt ha'
  have hne : x.strategyRunId ≠ a.id := by omega
  rw [beq_eq_false_iff_ne.mpr hne, Bool.false_and]

theorem StrategyRunCounts.insert {audits : Table StrategyAudit} {row : NewRow StrategyAudit}
    {a a' : StrategyRun} (h : StrategyRunCounts audits a) (hid : a'.id = a.id)
    (hpassed : a'.briefsPassed = a.briefsPassed +
      ((row.make audits.next).strategyRunId == a.id &&
        (row.make audits.next).state == .pass).toNat)
    (hblocked : a'.briefsBlocked = a.briefsBlocked +
      ((row.make audits.next).strategyRunId == a.id &&
        (row.make audits.next).state != .pass).toNat) :
    StrategyRunCounts (audits.insert row) a' where
  passed := by rw [hpassed, h.passed, hid, count_insert]
  blocked := by rw [hblocked, h.blocked, hid, count_insert]

section

variable (hs : StrategySound lib r t) (h : StrategyEffect lib now r t t')
include hs h

theorem strategyCounts_kept : ∀ a ∈ t'.runs, StrategyRunCounts t'.audits a := by
  have hruns : ∀ {runs : Table StrategyRun},
      Evolves SameStrategyRun (NewStrategyRun r t.runs.next) t.runs runs →
      ∀ a ∈ runs, StrategyRunCounts t.audits a := by
    intro runs hkept a ha
    rcases hkept.new a ha with ⟨a₀, ha₀, hsame⟩ | hnew
    · obtain ⟨hpassed, hblocked⟩ := hs.counts a₀ ha₀
      exact ⟨by rw [hsame.passed, hsame.id, hpassed], by rw [hsame.blocked, hsame.id, hblocked]⟩
    · exact ⟨by rw [hnew.passed, strategy_unaudited hs hnew.id],
        by rw [hnew.blocked, strategy_unaudited hs hnew.id]⟩
  cases h with
  | ran kept => exact hruns kept
  | drafted kept _ _ _ => exact hruns kept
  | @audited b runs state there verdict counted =>
    obtain ⟨a₀, ha₀, hid, hws⟩ := (hs.briefs b there).run
    have hfound : (strategyRunOf b.workspaceId b.strategyRunId t).isSome = true := by
      rw [strategyRunOf, get?_eq_some.mpr ⟨ha₀, hid⟩, Option.isSome_iff_exists]
      exact ⟨a₀, Option.filter_eq_some_iff.mpr ⟨rfl, beq_iff_eq.mpr hws⟩⟩
    rw [if_pos hfound] at counted
    intro a ha
    rw [counted] at ha
    obtain ⟨a₁, ha₁, rfl⟩ := mem_modify.mp ha
    have hcounts := hs.counts a₁ ha₁
    by_cases hkey : Keyed.key a₁ = b.strategyRunId
    · have hown : (b.strategyRunId == a₁.id) = true := beq_iff_eq.mpr hkey.symm
      rw [if_pos hkey]
      refine hcounts.insert ((StrategyRun.audited state).key_apply a₁) ?_ ?_
      all_goals
        by_cases hstate : state = .pass
        · simp [strategyAuditRow, StrategyRun.audited, hown, ← verdict, hstate]
        · have hne : (state != .pass) = true := bne_iff_ne.mpr hstate
          simp [strategyAuditRow, StrategyRun.audited, hown, ← verdict, hstate, hne]
    · have hother : (b.strategyRunId == a₁.id) = false :=
        beq_eq_false_iff_ne.mpr fun heq => hkey heq.symm
      rw [if_neg hkey]
      refine hcounts.insert rfl ?_ ?_ <;> simp [strategyAuditRow, hother]
  | sent _ => exact hs.counts

theorem briefs_kept : ∀ b ∈ t'.briefs, BriefSound t' b := by
  have hg := h.grows
  have hmodified : ∀ {k : Nat} {u : Update StrategyBrief}, (∀ b, SameBrief b (u.apply b)) →
      ∀ b ∈ t.briefs.modify k u, BriefSound t' b := by
    intro k u hu b hb
    rcases (briefs_modify hu).new b hb with ⟨b₀, hb₀, hsame⟩ | hnone
    · exact (hs.briefs b₀ hb₀).grows hg hsame
    · exact hnone.elim
  cases h with
  | ran _ => exact fun b hb => (hs.briefs b hb).grows hg (.refl b)
  | @drafted runs row workspaceId _ links _ ran drafted appended =>
    intro b hb
    rcases mem_insert.mp hb with hb | rfl
    · exact (hs.briefs b hb).grows hg (.refl b)
    · obtain ⟨a, ha, hid, hws⟩ := ran
      obtain ⟨l, hl⟩ := List.exists_mem_of_ne_nil links drafted.some
      obtain ⟨hlws, hlid, -⟩ := drafted.links l hl
      refine ⟨⟨a, ha, hid.trans drafted.run.symm, hws.trans drafted.own.symm⟩,
        ⟨l, appended.mem.mpr (.inr hl), hlid.trans (row.key_make _).symm,
          hlws.trans drafted.own.symm⟩, drafted.clean⟩
  | audited _ _ _ => exact hmodified fun _ => ⟨_, _, _, rfl⟩
  | sent _ => exact hmodified fun _ => ⟨_, _, _, rfl⟩

theorem briefLinks_kept : ∀ l ∈ t'.briefOpportunities, BriefLinkSound r t' l := by
  have hg := h.grows
  have hold : ∀ l ∈ t.briefOpportunities, BriefLinkSound r t' l := fun l hl =>
    (hs.links l hl).grows (.refl r) hg
  cases h with
  | ran _ => exact hold
  | @drafted runs row workspaceId _ links _ _ drafted appended =>
    intro l hl
    rcases appended.mem.mp hl with hl | hl
    · exact hold l hl
    · obtain ⟨hws, hid, hopportunity, hpassed⟩ := drafted.links l hl
      refine ⟨⟨_, mem_insert.mpr (.inr rfl), ?_, ?_⟩, hws ▸ hopportunity, hws ▸ hpassed⟩
      · exact (row.key_make _).trans hid.symm
      · exact drafted.own.trans hws.symm
  | audited _ _ _ => exact hold
  | sent _ => exact hold

theorem strategyAudits_kept : ∀ a ∈ t'.audits, StrategyJudged lib t' a := by
  have hg := h.grows
  have hold : ∀ a ∈ t.audits, StrategyJudged lib t' a := fun a ha => (hs.audits a ha).grows hg
  cases h with
  | ran _ => exact hold
  | drafted _ _ _ _ => exact hold
  | @audited b runs state there verdict _ =>
    intro a ha
    rcases mem_insert.mp ha with ha | rfl
    · exact hold a ha
    · refine StrategyJudged.grows hg
        ⟨b, there, rfl, rfl, rfl, List.takeWhile_prefix _, fun hstate => ?_⟩
      obtain ⟨hfindings, hready⟩ := ready_of_pass hstate
      refine ⟨hfindings, ?_⟩
      change BriefReady lib b (List.takeWhile _ _)
      rw [hfindings]
      exact hready
  | sent _ => exact hold

theorem distinct_kept : ∀ b ∈ t'.briefs, ∀ b' ∈ t'.briefs, b.workspaceId = b'.workspaceId →
    b.structuralFingerprint = b'.structuralFingerprint → b.id = b'.id := by
  have hmodified : ∀ {k : Nat} {u : Update StrategyBrief}, (∀ b, SameBrief b (u.apply b)) →
      ∀ b ∈ t.briefs.modify k u, ∀ b' ∈ t.briefs.modify k u, b.workspaceId = b'.workspaceId →
        b.structuralFingerprint = b'.structuralFingerprint → b.id = b'.id := by
    intro k u hu b hb b' hb' hws hfp
    rcases (briefs_modify hu).new b hb with ⟨b₀, hb₀, _, _, _, rfl⟩ | hnone
    · rcases (briefs_modify hu).new b' hb' with ⟨b₁, hb₁, _, _, _, rfl⟩ | hnone
      · exact hs.distinct b₀ hb₀ b₁ hb₁ hws hfp
      · exact hnone.elim
    · exact hnone.elim
  cases h with
  | ran _ => exact hs.distinct
  | @drafted runs row workspaceId _ links _ _ drafted _ =>
    intro b hb b' hb' hws hfp
    rcases mem_insert.mp hb with hb | rfl
    · rcases mem_insert.mp hb' with hb' | rfl
      · exact hs.distinct b hb b' hb' hws hfp
      · exact absurd hfp (drafted.fresh b hb (hws.trans drafted.own))
    · rcases mem_insert.mp hb' with hb' | rfl
      · exact absurd hfp.symm (drafted.fresh b' hb' (hws.symm.trans drafted.own))
      · rfl
  | audited _ _ _ => exact hmodified fun _ => ⟨_, _, _, rfl⟩
  | sent _ => exact hmodified fun _ => ⟨_, _, _, rfl⟩

theorem strategyRuns_kept :
    ∀ a ∈ t'.runs, ∀ o ∈ a.sourceOpportunityIds, HasOpportunity r a.workspaceId o := by
  have hruns : ∀ {runs : Table StrategyRun},
      Evolves SameStrategyRun (NewStrategyRun r t.runs.next) t.runs runs →
      ∀ a ∈ runs, ∀ o ∈ a.sourceOpportunityIds, HasOpportunity r a.workspaceId o := by
    intro runs hkept a ha
    rcases hkept.new a ha with ⟨a₀, ha₀, hsame⟩ | hnew
    · rw [hsame.opportunities, hsame.workspace]
      exact hs.runs a₀ ha₀
    · exact hnew.opportunities
  cases h with
  | ran kept => exact hruns kept
  | drafted kept _ _ _ => exact hruns kept
  | @audited b runs state _ _ counted =>
    intro a ha
    rw [counted] at ha
    split at ha
    · obtain ⟨a₀, ha₀, rfl⟩ := mem_modify.mp ha
      split
      · -- the verdict moves a counter only
        cases state <;> exact hs.runs a₀ ha₀
      · exact hs.runs a₀ ha₀
    · exact hs.runs a ha
  | sent _ => exact hs.runs

theorem strategy_kept : StrategySound lib r t' where
  briefs := briefs_kept hs h
  links := briefLinks_kept hs h
  audits := strategyAudits_kept hs h
  distinct := distinct_kept hs h
  runs := strategyRuns_kept hs h
  counts := strategyCounts_kept hs h

end

end ContentOrchestrator.Departments

import ContentOrchestrator.Services.VerdictLocks

/-! # One verdict a gate

Whoever locks the gate's row before it looks keeps what it saw until it commits: two
decisions never both go through, nor a decision after a timeout. Only the timeout may
write over a row it saw earlier, and does so exactly when a verdict was committed
between its read and its commit. -/

namespace ContentOrchestrator

open Lib

variable {gate : ReviewGate} {run : PipelineRun} {origin : Db} {s t : VerdictStore}
  {held : List Nat}

def VerdictPoint.isFlushed : VerdictPoint → Bool
  | .flushed _ _ _ => true
  | _ => false

def GatePoint.Knows (gateId : Nat) (db : Db) (held : List Nat) : GatePoint → Prop
  | .editRequested r => r.gateId = gateId
  | .editable r _ | .runRead r _ | .itemRead r _
  | .versionRead r _ _ => r.gateId = gateId ∧ gateId ∈ held
  | .decisionRequested r => r.gateId = gateId
  | .decidable r gate => r.gateId = gateId ∧ gateId ∈ held ∧ db.gates.get? gateId = some gate ∧
    assertDecidable gate r.approved r.expected = .ok ()
  | .refused _ => True

/-- A timeout knows which gate and run it is about, and no more. -/
def VerdictPoint.Knows (gateId runId : Nat) (s : VerdictStore) (held : List Nat) :
    VerdictPoint → Prop
  | .call point => point.Knows gateId s.desk.db held
  | .timeoutRequested _ | .stale _ => True
  | .gateRead _ gate => gate.id = gateId ∧ gate.pipelineRunId = runId
  | .runRead _ gate run => gate.id = gateId ∧ ∃ row, run = some row ∧ row.id = runId
  | .flushed _ gate run => gate.id = gateId ∧ gateId ∈ held ∧ ∃ row, run = some row ∧ row.id = runId

/-- The gate and its run are there, and the gate waits until there is a verdict. -/
structure VerdictStore.Sound (gateId runId : Nat) (s : VerdictStore) : Prop where
  gate : ∃ g, s.desk.db.gates.get? gateId = some g ∧ g.pipelineRunId = runId ∧
    (g.status = .awaiting ↔ s.verdicts = [])
  run : ∃ row, s.desk.db.runs.get? runId = some row

theorem GatePoint.next_knows {gateId : Nat} {d : Desk} {point point' : GatePoint} {held' : List Nat}
    (h : point.Knows gateId d.db held)
    (hnext : point.next { desk := d } held = some (held', point')) :
    point'.Knows gateId d.db held' := by
  cases point with
  | editRequested r =>
    dsimp only [GatePoint.next] at hnext
    obtain rfl : r.gateId = gateId := h
    rcases lockGate_eq (Option.some.inj hnext) with ⟨error, rfl⟩ | ⟨gate, _, _, rfl, rfl⟩
    · trivial
    · exact ⟨rfl, List.mem_cons_self⟩
  | editable r gate =>
    dsimp only [GatePoint.next] at hnext
    split at hnext
    · cases hnext
      trivial
    · cases hnext
      exact h
  | runRead r run =>
    dsimp only [GatePoint.next] at hnext
    split at hnext
    · cases hnext
      trivial
    · cases hnext
      exact h
  | itemRead r item =>
    cases hnext
    exact h
  | decisionRequested r =>
    dsimp only [GatePoint.next] at hnext
    obtain rfl : r.gateId = gateId := h
    rcases lockGate_eq (Option.some.inj hnext) with ⟨error, rfl⟩ | ⟨gate, hgate, hcheck, rfl, rfl⟩
    · trivial
    · exact ⟨rfl, List.mem_cons_self, (gateOf_eq_some.mp hgate).1, hcheck⟩
  | versionRead r item current => cases hnext
  | decidable r gate => cases hnext
  | refused error => cases hnext

theorem VerdictPoint.next_knows {gateId runId : Nat} {point point' : VerdictPoint}
    {held' : List Nat} (hs : s.Sound gateId runId) (h : point.Knows gateId runId s held)
    (hnext : point.next gateId s held = some (held', point')) :
    point'.Knows gateId runId s held' := by
  obtain ⟨g, hg, hrunId, -⟩ := hs.gate
  cases point with
  | call point =>
    obtain ⟨p, hp, heq⟩ := Option.map_eq_some_iff.mp hnext
    cases heq
    exact GatePoint.next_knows h hp
  | timeoutRequested jobId =>
    dsimp only [VerdictPoint.next] at hnext
    rw [hg] at hnext
    dsimp only at hnext
    split at hnext
    · cases hnext
      trivial
    · cases hnext
      exact ⟨(Table.get?_eq_some.mp hg).2, hrunId⟩
  | gateRead jobId gate =>
    obtain ⟨hid, hrun⟩ := h
    obtain ⟨row, hrow⟩ := hs.run
    cases hnext
    exact ⟨hid, row, hrun ▸ hrow, (Table.get?_eq_some.mp hrow).2⟩
  | runRead jobId gate run =>
    cases hnext
    exact ⟨h.1, h.1 ▸ List.mem_cons_self, h.2⟩
  | flushed jobId gate run => cases hnext
  | stale jobId => cases hnext

/-! ## What a commit does -/

/-- The gate, the decisions and the run after a verdict, or after a commit that is none. -/
structure Takes (gateId runId : Nat) (verdict : Option GateVerdict) (s t : VerdictStore) :
    Prop where
  verdicts : t.verdicts = s.verdicts ++ verdict.toList
  gate : ∀ g, s.desk.db.gates.get? gateId = some g → ∃ g', t.desk.db.gates.get? gateId = some g' ∧
    g'.pipelineRunId = g.pipelineRunId ∧ g'.status = verdict.elim g.status (·.status) ∧
    g'.decidedBy = (verdict.bind (·.decision)).elim g.decidedBy (some ·.1)
  decisions : ∃ added, t.desk.db.decisions.rows = s.desk.db.decisions.rows ++ added ∧
    added.map (fun row => (row.reviewerId, row.approved)) = (verdict.bind (·.decision)).toList
  run : ∀ row, s.desk.db.runs.get? runId = some row →
    ∃ row', t.desk.db.runs.get? runId = some row' ∧
    verdict.elim (row'.status == row.status) (·.fits row.status row'.status) = true

theorem Takes.quiet {gateId runId : Nat} (hverdicts : t.verdicts = s.verdicts)
    (hgates : t.desk.db.gates = s.desk.db.gates)
    (hdecisions : t.desk.db.decisions = s.desk.db.decisions)
    (hruns : t.desk.db.runs = s.desk.db.runs) : Takes gateId runId none s t where
  verdicts := by rw [hverdicts]; exact (List.append_nil _).symm
  gate g hg := ⟨g, by rw [hgates]; exact hg, rfl, rfl, rfl⟩
  decisions := ⟨[], by rw [hdecisions]; exact (List.append_nil _).symm, rfl⟩
  run row hrow := ⟨row, by rw [hruns]; exact hrow, beq_self_eq_true _⟩

theorem Takes.sound {gateId runId : Nat} {verdict : Option GateVerdict}
    (h : Takes gateId runId verdict s t) (hs : s.Sound gateId runId) : t.Sound gateId runId := by
  obtain ⟨⟨g, hg, hrunId, hwaits⟩, row, hrow⟩ := hs
  obtain ⟨g', hg', hrunId', hstatus, -⟩ := h.gate g hg
  obtain ⟨row', hrow', -⟩ := h.run row hrow
  refine ⟨⟨g', hg', hrunId'.trans hrunId, ?_⟩, row', hrow'⟩
  rw [hstatus, h.verdicts]
  cases verdict with
  | none => simpa using hwaits
  | some v =>
    have hclosed : v.status ≠ .awaiting := by
      cases v with
      | decided _ approved => cases approved <;> simp [GateVerdict.status]
      | escalated => simp [GateVerdict.status]
      | timedOut => simp [GateVerdict.status]
    simp [hclosed]

/-- What a transaction that commits comes to: a verdict of its own only on a gate it has locked and,
the timeout apart, that waits. -/
structure Commits (gateId runId : Nat) (point : VerdictPoint) (held : List Nat)
    (s t : VerdictStore) : Prop where
  takes : ∃ verdict, Takes gateId runId verdict s t ∧ (point.isFlushed = true →
    verdict.isSome = true) ∧
    (point.isFlushed = false → verdict.isSome = true →
      (s.desk.db.gates.get? gateId).any (·.status == .awaiting) = true)
  locked : t.desk.db.gates = s.desk.db.gates ∨ gateId ∈ held

theorem Commits.quiet {gateId runId : Nat} {point : VerdictPoint}
    (htakes : Takes gateId runId none s t) (hpoint : point.isFlushed = false)
    (hlocked : t.desk.db.gates = s.desk.db.gates ∨ gateId ∈ held) :
    Commits gateId runId point held s t where
  takes := by
    refine ⟨none, htakes, fun hflush => ?_, fun _ hsome => ?_⟩
    · rw [hpoint] at hflush
      cases hflush
    · cases hsome
  locked := hlocked

theorem Commits.of_edit {gateId runId : Nat} {r : EditRequest} {item : ContentItem}
    {current : Option ContentVersion}
    (h : (GatePoint.versionRead r item current).Knows gateId s.desk.db held) :
    Commits gateId runId (.call (.versionRead r item current)) held s
      (commitCall (commitEdit r item current) s) := by
  obtain ⟨rfl, hheld⟩ := h
  refine .quiet ⟨rfl, fun g hg => ?_, ⟨[], (List.append_nil _).symm, rfl⟩,
    fun row hrow => ?_⟩ rfl (.inr hheld)
  · exact ⟨_, Table.get?_modified (ReviewGate.setVersion s.desk.versions.next) hg, rfl, rfl, rfl⟩
  · exact ⟨row, hrow, beq_self_eq_true _⟩

theorem Commits.of_decision {gateId runId : Nat} {r : DecisionRequest} {g : ReviewGate}
    (hs : s.Sound gateId runId) (h : (GatePoint.decidable r g).Knows gateId s.desk.db held) :
    Commits gateId runId (.call (.decidable r g)) held s (commitCall (commitDecision r g) s) := by
  obtain ⟨hid, hheld, hstored, hadmitted⟩ := h
  obtain ⟨stored, hgate, hrunId, -⟩ := hs.gate
  obtain rfl : g = stored := Option.some.inj (hstored.symm.trans hgate)
  unfold commitCall commitDecision
  dsimp only
  split
  · rename_i db hreturns
    have hafter := deliverVerdict_rows hstored hadmitted hreturns
    obtain ⟨now, hgates⟩ := hafter.gates
    obtain ⟨row, hrows, hreviewer, hverdict⟩ := hafter.decisions
    refine ⟨⟨some (.decided r.reviewerId r.approved),
      ⟨rfl, fun g' hg' => ?_, ⟨[row], hrows, ?_⟩, ?_⟩, fun hflush => ?_,
      fun _ _ => ?_⟩, .inr hheld⟩
    · refine ⟨((ReviewGate.recordReviewer r.reviewerId).andThen
        (ReviewGate.decide r.approved now)).apply g', ?_, rfl,
        ?_, rfl⟩
      · rw [hgates]
        exact Table.get?_modified _ hg'
      · cases r.approved <;> rfl
    · simp [hreviewer, hverdict, GateVerdict.decision]
    · rw [← hrunId]
      exact hafter.run
    · cases hflush
    · rw [hstored]
      exact beq_iff_eq.mpr (awaiting_of_decidable hadmitted)
  · exact .quiet (.quiet (List.append_nil _) rfl rfl rfl) rfl (.inr hheld)

theorem Commits.of_timeout {gateId runId jobId : Nat} {g : ReviewGate} {row : Option PipelineRun}
    (h : (VerdictPoint.flushed jobId g row).Knows gateId runId s held) :
    Commits gateId runId (.flushed jobId g row) held s (commitTimeout jobId g row s) := by
  obtain ⟨rfl, hheld, row, rfl, rfl⟩ := h
  refine ⟨⟨some (timeoutVerdict g), ⟨rfl, fun g' hg' => ?_, ⟨[], ?_, ?_⟩, fun row' hrow' => ?_⟩,
    fun _ => rfl,
    fun hflush => by cases hflush⟩, .inr hheld⟩
  · have hgates : ∃ g'', (writeTimeout g (some row) s.desk.db).gates.get? g.id = some g'' ∧
        g''.pipelineRunId = g'.pipelineRunId ∧ g''.status = (timeoutVerdict g).status ∧
          g''.decidedBy = g'.decidedBy :=
      writeTimeout_gates hg'
    obtain ⟨g'', hafter, hrunId, hstatus, hdecided⟩ := hgates
    refine ⟨g'', hafter, hrunId, hstatus, hdecided.trans ?_⟩
    unfold timeoutVerdict
    split <;> rfl
  · exact (congrArg Table.rows writeTimeout_decisions).trans (List.append_nil _).symm
  · unfold timeoutVerdict
    split <;> rfl
  · exact writeTimeout_runs hrow'

theorem VerdictPoint.commits {gateId runId : Nat} {point : VerdictPoint}
    {u : VerdictStore → VerdictStore} (hs : s.Sound gateId runId)
    (h : point.Knows gateId runId s held) (hcommit : point.commit = some u) :
    Commits gateId runId point held s (u s) := by
  cases point with
  | call point =>
    cases point with
    | versionRead r item current =>
      cases hcommit
      exact .of_edit h
    | decidable r g =>
      cases hcommit
      exact .of_decision hs h
    | _ => cases hcommit
  | flushed jobId g row =>
    cases hcommit
    exact .of_timeout h
  | stale jobId =>
    cases hcommit
    exact .quiet (.quiet rfl rfl rfl rfl) rfl (.inl rfl)
  | _ => cases hcommit

/-! ## Every interleaving -/

theorem VerdictPoint.Knows.keep {gateId runId : Nat} {point : VerdictPoint}
    (h : point.Knows gateId runId s held)
    (hkeep : gateId ∈ held → t.desk.db.gates = s.desk.db.gates) :
    point.Knows gateId runId t held := by
  cases point with
  | call point =>
    cases point with
    | decidable r g =>
      obtain ⟨hid, hheld, hstored, hadmitted⟩ := h
      exact ⟨hid, hheld, (congrArg (·.get? gateId) (hkeep hheld)).trans hstored, hadmitted⟩
    | _ => exact h
  | _ => exact h

end ContentOrchestrator

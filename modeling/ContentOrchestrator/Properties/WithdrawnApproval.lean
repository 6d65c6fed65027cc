import ContentOrchestrator.DeskInvariants

/-! # A later rejection does not withdraw an approval

The publication check follows the one gate an attestation cites. A rejection or timeout
of another gate over the same version, or the end of a run, leaves the cited gate
approved, so the check goes on answering yes for as long as the item keeps the version
that gate was approved over. Only once an edit has moved the item on does it refuse. -/

namespace ContentOrchestrator

open Lib

variable {d s u : Desk} {op : DeskOp} {workspaceId contentItemId : Nat} {gate : ReviewGate}

def PipelineRun.isAborted (run : PipelineRun) : Bool :=
  run.status == .failed || run.status == .cancelled

/-- A waiting gate over the item's current version is closed without an approval, or a run of the
item is failed or cancelled. -/
inductive Withdraws (contentItemId : Nat) (s t : Db) : Prop
  | gate {g g' : ReviewGate} (before : s.gates.get? g.id = some g)
      (after : t.gates.get? g.id = some g')
      (waiting : g.status = .awaiting) (closed : g'.status ≠ .awaiting ∧ g'.status ≠ .approved)
      (own : ∃ run, s.runs.get? g.pipelineRunId = some run ∧ run.contentItemId = contentItemId)
      (current : ∃ item, s.contentItems.get? contentItemId = some item ∧
        g.contentVersionId = item.currentVersionId) : Withdraws contentItemId s t
  | run {run run' : PipelineRun} (before : s.runs.get? run.id = some run)
      (after : t.runs.get? run.id = some run') (own : run.contentItemId = contentItemId)
      (live : run.isAborted = false) (ended : run'.isAborted = true) : Withdraws contentItemId s t

/-- The step approves a waiting gate over the item's then-current version. -/
def RecordsApproval (workspaceId contentItemId : Nat) (d : Desk) (op : DeskOp) : Prop :=
  ∃ gate waiting, Approves (deskStep d op).db workspaceId contentItemId gate ∧
    d.db.gates.get? gate.id = some waiting ∧ waiting.status = .awaiting

/-! ## One step -/

/-- An approved gate is left as it is. -/
theorem DeskGateMove.of_approved {g g' : ReviewGate} (h : DeskGateMove op d g g')
    (happroved : g.status = .approved) :
    g' = g := by
  cases h with
  | kept => rfl
  | engine _ move =>
    cases move with
    | kept => rfl
    | escalated _ _ _ _ _ hwaiting =>
      rw [happroved] at hwaiting
      cases hwaiting
    | decided _ admitted =>
      have hwaiting := awaiting_of_decidable admitted
      rw [happroved] at hwaiting
      cases hwaiting
  | edited _ hwaiting =>
    rw [happroved] at hwaiting
    cases hwaiting

/-- A gate that is newly approved was waiting. -/
theorem DeskGateMove.waiting_of_approved {g g' : ReviewGate} (h : DeskGateMove op d g g')
    (happroved : g'.status = .approved) (hbefore : g.status ≠ .approved) :
    g.status = .awaiting := by
  cases h with
  | kept => exact absurd happroved hbefore
  | engine _ move =>
    cases move with
    | kept => exact absurd happroved hbefore
    | escalated _ _ _ _ _ _ => cases happroved
    | decided _ admitted => exact awaiting_of_decidable admitted
  | edited _ hwaiting => exact hwaiting

/-- **Where an approval of the current version comes from**: it stood before, or it is recorded
now. -/
theorem Approves.back (h : Approves (deskStep d op).db workspaceId contentItemId gate)
    (hs : d.Sound) (hv : d.Versioned) (hkeeps : op.keepsItems d) :
    Approves d.db workspaceId contentItemId gate ∨
      RecordsApproval workspaceId contentItemId d op := by
  obtain ⟨hmem, -⟩ := Table.get?_eq_some.mp h.stored
  rcases (deskStep_gates hs op).new gate hmem with ⟨g, hg, hmove⟩ | hnew
  · have hstored : d.db.gates.get? g.id = some g := Table.get?_of_mem hg
    by_cases happroved : g.status = .approved
    · obtain rfl := hmove.of_approved happroved
      obtain ⟨run', hrun', hworkspace, hitem⟩ := h.run
      obtain ⟨run, hrun⟩ := hs.owned gate hg
      obtain ⟨row, hrow, hrunmove⟩ :=
        (deskStep_runs hs op).get? (fun _ _ hmove => hmove.same.id) hrun
      rw [hrun', Option.some.injEq] at hrow
      subst hrow
      obtain ⟨item', hitem', hiws, hbound, hversion⟩ := h.version
      have hfresh : item'.currentVersionId ≠ some d.versions.next := by
        intro hnew
        have hlt := hv.gates gate hg d.versions.next (hversion.trans hnew)
        omega
      have hitems := deskStep_items hs hkeeps
      rcases hitems.back (fun _ _ hmove => hmove.id) hitem' with ⟨item, hitemrow, hitemmove⟩ | hnew
      · refine .inl ⟨hstored, h.workspace, happroved,
          ⟨run, hrun, hrunmove.same.workspaceId ▸ hworkspace, hrunmove.same.contentItemId ▸ hitem⟩,
          item, hitemrow, hitemmove.workspaceId ▸ hiws, hbound, ?_⟩
        rcases hitemmove.version with hsame | ⟨hnew, _⟩
        · exact hversion.trans hsame
        · exact absurd hnew hfresh
      · exact absurd hnew.1 hfresh
    · refine .inr ⟨gate, g, h, ?_, ?_⟩
      · rw [hmove.same.1]
        exact hstored
      · exact hmove.waiting_of_approved h.approved happroved
  · have happroved := h.approved
    rw [hnew.waiting] at happroved
    cases happroved

/-- The gates and runs of a withdrawal move by an operation of the engine. -/
theorem Withdraws.engine (h : Withdraws contentItemId d.db (deskStep d op).db) (hs : d.Sound) :
    ∃ e, op = .engine e := by
  cases h with
  | @gate g g' before after waiting closed own current =>
    obtain ⟨row, hrow, hmove⟩ := (deskStep_gates hs op).get? (fun _ _ hmove => hmove.same.1) before
    rw [after, Option.some.injEq] at hrow
    subst hrow
    cases hmove with
    | kept => exact absurd waiting closed.1
    | engine request _ => exact ⟨_, request⟩
    | edited _ hwaiting => exact absurd hwaiting closed.1
  | @run run run' before after own live ended =>
    obtain ⟨row, hrow, hmove⟩ := (deskStep_runs hs op).get? (fun _ _ hmove => hmove.same.id) before
    rw [after, Option.some.injEq] at hrow
    subst hrow
    cases hmove with
    | kept =>
      rw [live] at ended
      cases ended
    | engine request _ => exact ⟨_, request⟩

/-- An approval that stands is still there after a withdrawal. -/
theorem Approves.keep (h : Approves d.db workspaceId contentItemId gate) (hs : d.Sound) {e : Op}
    (hkeeps : (DeskOp.engine e).keepsItems d) :
    Approves (deskStep d (.engine e)).db workspaceId contentItemId gate := by
  obtain ⟨g, hg, hmove⟩ :=
    (deskStep_gates hs (.engine e)).get? (fun _ _ hmove => hmove.same.1) h.stored
  obtain rfl := hmove.of_approved h.approved
  obtain ⟨run, hrun, hworkspace, hitem⟩ := h.run
  obtain ⟨run', hrun', hrunmove⟩ :=
    (deskStep_runs hs (.engine e)).get? (fun _ _ hmove => hmove.same.id) hrun
  refine ⟨hg, h.workspace, h.approved, ⟨run', hrun', hrunmove.same.workspaceId.trans hworkspace,
    hrunmove.same.contentItemId.trans hitem⟩, ?_⟩
  rw [deskStep_contentItems hkeeps hs]
  exact h.version

/-! ## An approving verdict ends no run -/

/-- The run is aborted only if it was. -/
structure Spared (a b : PipelineRun) : Prop where
  id : b.id = a.id
  status : b.isAborted = true → a.isAborted = true

theorem Spared.refl (run : PipelineRun) : Spared run run := ⟨rfl, fun h => h⟩

theorem Spared.trans {a b c : PipelineRun} (h : Spared a b) (h' : Spared b c) : Spared a c :=
  ⟨h'.id.trans h.id, fun hended => h.status (h'.status hended)⟩

abbrev SparesRuns (s t : Db) : Prop := Table.Evolves Spared (fun _ => False) s.runs t.runs

theorem SparesRuns.trans {s t v : Db} (h : SparesRuns s t) (h' : SparesRuns t v) : SparesRuns s v :=
  Table.Evolves.trans (fun _ _ _ => Spared.trans) (fun _ _ hnone _ => hnone) h h'

theorem SparesRuns.modify {s t : Db} {r : Nat} {v : Update PipelineRun}
    (hv : ∀ run, Spared run (v.apply run)) (h : t.runs = s.runs.modify r v) : SparesRuns s t :=
  Table.Evolves.modify Spared.refl (fun run _ => hv run) h

theorem Advanced.spares {run : PipelineRun} {stage : ContentStage}
    {trigger : WorkflowTransitionTrigger} {context : List (String × Json)}
    {stored : Table ReviewGate} {s t : Db} (h : Advanced run stage trigger context stored s t) :
    SparesRuns s t := by
  have hmove : ∀ stage, SparesRuns s (modifyRun run.id (PipelineRun.moveTo stage) s) := fun stage =>
    .modify (v := PipelineRun.moveTo stage) (fun _ => ⟨rfl, fun hended => hended⟩) rfl
  cases h with
  | @finished _ stage _ _ =>
    have hfinish : SparesRuns s (modifyRun run.id (PipelineRun.finish .succeeded s.now) s) :=
      .modify (v := PipelineRun.finish .succeeded s.now) (fun _ => ⟨rfl, fun h => by cases h⟩) rfl
    have hcursor : SparesRuns (modifyRun run.id (PipelineRun.finish .succeeded s.now) s)
        (succeedRun run stage s) :=
      .modify (r := run.id) (v := PipelineRun.moveTo stage) (fun _ => ⟨rfl, fun hended => hended⟩)
        succeedRun_frame.1
    exact hfinish.trans hcursor
  | queued _ _ => exact hmove _
  | gated _ _ _ _ =>
    exact (hmove _).trans
      (.modify (r := run.id) (v := PipelineRun.pauseForReview) (fun _ => ⟨rfl, fun h => by cases h⟩)
        openReviewGate_frame.1)
  | kept _ _ _ _ => exact hmove _

theorem Resumed.spares {g : ReviewGate} {s t : Db} (h : Resumed g true s t) : SparesRuns s t := by
  have hresume : ∀ runId, SparesRuns s (resumeRun g true runId s) := fun _ =>
    .modify (v := PipelineRun.resume) (fun _ => ⟨rfl, fun h => by cases h⟩) rfl
  cases h with
  | rejected _ verdict => cases verdict
  | advanced _ _ advanced => exact (hresume _).trans advanced.spares
  | stuck _ _ raised =>
    rcases (advanceOrFinish_raises raised).1 with rfl | ⟨_, stageDef, _, _, rfl⟩
    · exact hresume _
    · exact (hresume _).trans
        (.modify (v := PipelineRun.moveTo stageDef.stageKey) (fun _ => ⟨rfl, fun hended => hended⟩)
          rfl)
  | unrouted _ verdict => cases verdict
  | unloaded => exact Table.Evolves.of_eq Spared.refl rfl

theorem approval_spares {gateId reviewerId : Nat} {expected : Option Nat} {s : Db} :
    SparesRuns s (step s (.decide workspaceId gateId reviewerId true expected)) := by
  rcases step_cases s (.decide workspaceId gateId reviewerId true expected) with heq | heffect
  · rw [heq]
    exact Table.Evolves.of_eq Spared.refl rfl
  generalize step s _ = t at heffect
  cases heffect with
  | @decided _ s1 s2 _ _ _ _ _ _ _ _ _ _ _ recorded applied booked _ _ =>
    have hrecord : SparesRuns s s1 := Table.Evolves.of_eq Spared.refl recorded.runs
    have hbook : SparesRuns s2 t := Table.Evolves.of_eq Spared.refl booked.runs
    exact (hrecord.trans applied.spares).trans hbook

/-- A withdrawal is not itself an approval. -/
theorem Withdraws.not_approval (h : Withdraws contentItemId d.db (deskStep d op).db)
    (hs : d.Sound) :
    ¬ RecordsApproval workspaceId contentItemId d op := by
  rintro ⟨gate, waiting, happroves, hbefore, hwaiting⟩
  obtain ⟨e, rfl⟩ := h.engine hs
  have happroving : ∃ workspaceId gateId reviewerId expected,
      e = .decide workspaceId gateId reviewerId true expected := by
    obtain ⟨row, hrow, hmove⟩ :=
      (deskStep_gates hs (.engine e)).get? (fun _ _ hmove => hmove.same.1) hbefore
    rw [happroves.stored, Option.some.injEq] at hrow
    subst hrow
    have happroved := happroves.approved
    cases hmove with
    | kept =>
      rw [hwaiting] at happroved
      cases happroved
    | engine request move =>
      cases request
      cases move with
      | kept =>
        rw [hwaiting] at happroved
        cases happroved
      | escalated _ _ _ _ _ _ => cases happroved
      | @decided _ _ approved _ request _ =>
        cases approved with
        | true => exact ⟨_, _, _, _, request⟩
        | false => cases happroved
    | edited request _ => cases request
  obtain ⟨owner, gateId, reviewerId, expected, rfl⟩ := happroving
  cases h with
  | @gate g g' before after waiting closed own current =>
    obtain ⟨row, hrow, hmove⟩ :=
      (deskStep_gates hs (.engine _)).get? (fun _ _ hmove => hmove.same.1) before
    rw [after, Option.some.injEq] at hrow
    subst hrow
    cases hmove with
    | kept => exact absurd waiting closed.1
    | engine request move =>
      cases request
      cases move with
      | kept => exact absurd waiting closed.1
      | escalated request _ _ _ _ _ => cases request
      | decided request _ =>
        cases request
        exact absurd rfl closed.2
    | edited request _ => cases request
  | @run run run' before after own live ended =>
    rw [deskStep_engine] at after
    obtain ⟨row, hrow, hspared⟩ := approval_spares.get? (fun _ _ hspared => hspared.id) before
    rw [after, Option.some.injEq] at hrow
    subst hrow
    rw [hspared.status ended] at live
    cases live

/-! ## Every continuation -/

/-- An approval that stands is all a complete attestation needs. -/
theorem Approves.publishable (h : Approves d.db workspaceId contentItemId gate) :
    assertPublishable { d with eligibility := attestation workspaceId contentItemId gate.id }
      workspaceId contentItemId (some "youtube") = .ok ⟨contentItemId, "youtube", 0, gate.id⟩ := by
  have hplatform : normalizePlatform (some "youtube") = "youtube" := by decide +kernel
  have hrows : (attestation workspaceId contentItemId gate.id).rows =
      [attestationRow workspaceId contentItemId gate.id 0] := rfl
  have hfingerprint : (some "f0").getD "" ≠ "" := by decide
  refine assertPublishable_ok.mpr
    ⟨by decide +kernel, attestationRow workspaceId contentItemId gate.id 0, gate,
    ?_, rfl, ⟨rfl, ⟨fun h => (by cases h), fun h => (by cases h)⟩, hfingerprint, ?_⟩,
      h, by rw [hplatform]; rfl⟩
  · simp [Table.select, hrows, hplatform, PublicationEligibility.isFor, attestationRow]
  · simp [Table.select, hrows, PublicationEligibility.repeats, attestationRow]

theorem deskStep_attest (d : Desk) (eligibility : Table PublicationEligibility) :
    deskStep d (.attest eligibility) = { d with eligibility } := by
  have hreturns : Returns (DeskOp.attest eligibility).body d () { d with eligibility } :=
    returns_modify.mpr rfl
  exact hreturns.atomically

/-- A continuation that records no new approval of the item, and in which only the desk writes
items. -/
def Unrenewed (workspaceId contentItemId : Nat) (d : Desk) (op : DeskOp) : Prop :=
  op.keepsItems d ∧ ¬ RecordsApproval workspaceId contentItemId d op

/-- **A withdrawal is honoured exactly when the item has moved on**: after a step that rejects or
times out a gate over the item's current version, or fails or cancels a run of it, the item is
refused in every continuation without a new approval if and only if no approved gate was bound to
that version. -/
theorem withdrawal_refuses (hfresh : d.Fresh)
    (before : Reach DeskSteps (fun u op => op.keepsItems u) d s) (hkeeps : op.keepsItems s)
    (withdraws : Withdraws contentItemId s.db (deskStep s op).db) :
    (∀ u, Reach DeskSteps (Unrenewed workspaceId contentItemId) (deskStep s op) u →
      ∀ platform decision, assertPublishable u workspaceId contentItemId platform ≠ .ok decision) ↔
    ¬ ∃ gate, Approves s.db workspaceId contentItemId gate := by
  obtain ⟨hs, hv⟩ := desk_history_versioned hfresh (fun _ _ h => h) before
  constructor
  · rintro hrefuses ⟨gate, hstands⟩
    obtain ⟨e, rfl⟩ := withdraws.engine hs
    have hstill := hstands.keep hs hkeeps
    have hattest := deskStep_attest (deskStep s (.engine e))
        (attestation workspaceId contentItemId gate.id)
    have hunrenewed : Unrenewed workspaceId contentItemId (deskStep s (.engine e))
        (.attest (attestation workspaceId contentItemId gate.id)) := by
      refine ⟨trivial, ?_⟩
      rintro ⟨g, waiting, happroves, hsame, hwaiting⟩
      rw [hattest] at happroves
      have hstored : _ = some g := happroves.stored
      have happroved := happroves.approved
      rw [hsame, Option.some.injEq] at hstored
      rw [← hstored, hwaiting] at happroved
      cases happroved
    exact hrefuses _ (.step .refl hunrenewed hattest) (some "youtube") _ hstill.publishable
  · intro hnone u after platform decision hanswer
    have hkept := after.invariant
      (P := fun u => u.Sound ∧ u.Versioned ∧ ¬ ∃ gate,
        Approves u.db workspaceId contentItemId gate) ?_ ?_
    · obtain ⟨-, row, gate, -, -, -, happroves, -⟩ := assertPublishable_ok.mp hanswer
      exact hkept.2.2 ⟨gate, happroves⟩
    · obtain ⟨hs', hv'⟩ := desk_history_versioned hfresh (fun _ _ h => h) (.step before hkeeps rfl)
      refine ⟨hs', hv', ?_⟩
      rintro ⟨gate, happroves⟩
      rcases happroves.back hs hv hkeeps with hstands | hrecords
      · exact hnone ⟨gate, hstands⟩
      · exact withdraws.not_approval hs hrecords
    · rintro t op v ⟨hs', hv', hnone'⟩ ⟨hkeeps', hunrenewed⟩ rfl
      refine ⟨deskStep_sound t op hs', deskStep_versioned hs' hkeeps' hv', ?_⟩
      rintro ⟨gate, happroves⟩
      rcases happroves.back hs' hv' hkeeps' with hstands | hrecords
      · exact hnone' ⟨gate, hstands⟩
      · exact hunrenewed hrecords

/-! ## Two runs of one item -/

/-- A second run of the approved item stops at a gate over the same version. -/
def secondGateHistory : List DeskOp :=
  approvedHistory ++
    [Op.startRun 0 0 0, .poll 10 [], .processJob 3 [] 0, .submit 2 true none "" (some 0) 0,
     .poll 10 [], .processJob 4 [] 0, .submit 3 true none "" (some 0) 0].map DeskOp.engine

theorem demo_reaches (history : List DeskOp)
    (h : admits deskStep (fun _ op => !op.changesItems) demoDesk history = true) :
    Reach DeskSteps (fun u op => op.keepsItems u) demoDesk (replay deskStep demoDesk history) :=
  (reach_replay history _ h).mono fun _ _ hmet => keepsItems_of_unchanged (by simpa using hmet)

/-- The second run is failed by the step. -/
theorem withdraws_of_rows {s t : Db}
    (h : ∃ run ∈ s.runs, run.id = 1 ∧ run.contentItemId = 0 ∧ run.isAborted = false)
    (h' : ∃ run ∈ t.runs, run.id = 1 ∧ run.isAborted = true) : Withdraws 0 s t := by
  obtain ⟨run, hrun, hid, hitem, hlive⟩ := h
  obtain ⟨run', hrun', hid', hended⟩ := h'
  refine .run (Table.get?_of_mem hrun) ?_ hitem hlive hended
  exact Table.get?_eq_some.mpr ⟨hrun', hid'.trans hid.symm⟩

/-- The item was edited at its second gate before that gate is rejected, so it stays refused. -/
theorem withdrawal_refuses_edited :
    ¬ ∃ u platform decision, Reach DeskSteps (Unrenewed 0 0) (deskStep
        (replay deskStep demoDesk (secondGateHistory ++ [.editReviewGateContent 0 1 0 {}]))
        (.engine (.decide 0 1 8 false (some 1)))) u ∧
      assertPublishable u 0 0 platform = .ok decision := by
  rintro ⟨u, platform, decision, hlater, hpublishable⟩
  have hwithdraws : Withdraws 0
      (replay deskStep demoDesk (secondGateHistory ++ [.editReviewGateContent 0 1 0 {}])).db
      (deskStep (replay deskStep demoDesk (secondGateHistory ++ [.editReviewGateContent 0 1 0 {}]))
        (.engine (.decide 0 1 8 false (some 1)))).db :=
    withdraws_of_rows (by decide +kernel) (by decide +kernel)
  have hreach := demo_reaches (secondGateHistory ++ [.editReviewGateContent 0 1 0 {}])
      (by decide +kernel)
  refine (withdrawal_refuses demoDesk_fresh hreach (keepsItems_of_unchanged rfl) hwithdraws).mpr ?_
    u hlater platform decision hpublishable
  rintro ⟨gate, happroves⟩
  have hgates : ∀ g ∈ (replay deskStep demoDesk
      (secondGateHistory ++ [.editReviewGateContent 0 1 0 {}])).db.gates,
      g.status = .approved → g.contentVersionId = some 0 := by decide +kernel
  have hitems : ∀ item ∈ (replay deskStep demoDesk
      (secondGateHistory ++ [.editReviewGateContent 0 1 0 {}])).db.contentItems,
      item.currentVersionId = some 1 := by decide +kernel
  obtain ⟨item, hitem, -, -, hversion⟩ := happroves.version
  rw [hgates gate (Table.get?_eq_some.mp happroves.stored).1 happroves.approved,
    hitems item (Table.get?_eq_some.mp hitem).1] at hversion
  cases hversion

/-- Gate 1 is rejected over the version gate 0 was approved for, and the item is still
publishable. -/
theorem rejected_yet_publishable :
    ¬ ∀ (d s : Desk) (op : DeskOp) (workspaceId contentItemId : Nat) (gate : ReviewGate), d.Fresh →
      Reach DeskSteps (fun u op => op.keepsItems u) d s → op.keepsItems s →
        Approves s.db workspaceId contentItemId gate →
          Withdraws contentItemId s.db (deskStep s op).db →
          ∀ u, Reach DeskSteps (Unrenewed workspaceId contentItemId) (deskStep s op) u →
            ∀ platform decision, assertPublishable u workspaceId contentItemId platform ≠
              .ok decision := by
  intro h
  have hbefore :
      assertPublishable (replay deskStep demoDesk secondGateHistory) 0 0 (some "youtube") =
        .ok ⟨0, "youtube", 0, 0⟩ := by decide +kernel
  have hafter : assertPublishable (deskStep (replay deskStep demoDesk secondGateHistory)
      (.engine (.decide 0 1 8 false (some 0)))) 0 0 (some "youtube") =
        .ok ⟨0, "youtube", 0, 0⟩ := by decide +kernel
  have hwithdraws : Withdraws 0 (replay deskStep demoDesk secondGateHistory).db
      (deskStep (replay deskStep demoDesk secondGateHistory)
        (.engine (.decide 0 1 8 false (some 0)))).db :=
    withdraws_of_rows (by decide +kernel) (by decide +kernel)
  obtain ⟨-, row, gate, -, -, -, happroves, -⟩ := assertPublishable_ok.mp hbefore
  have hreach := demo_reaches secondGateHistory (by decide +kernel)
  exact h demoDesk _ _ 0 0 gate demoDesk_fresh hreach (keepsItems_of_unchanged rfl) happroves
    hwithdraws _ .refl
    (some "youtube") _ hafter

end ContentOrchestrator

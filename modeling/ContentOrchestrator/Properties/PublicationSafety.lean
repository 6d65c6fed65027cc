import ContentOrchestrator.DeskInvariants

/-! # Nothing is published without a human approval of its current version

An edit re-points a waiting gate, a decision freezes it, and from then on no operation
touches the gate again. So the version an approved gate records is the one its reviewer
approved, and the publication check compares it with the item's current version. -/

namespace ContentOrchestrator

open Lib

variable {d s : Desk} {workspaceId contentItemId : Nat} {platform : Option String}

/-- In the history from `d` to `s` a reviewer approved the waiting gate, over the version the gate
records, in a run that is still a run of the same item; the gate is as it was left then. -/
structure ApprovedBy (d s : Desk) (gate : ReviewGate) (reviewerId : Nat) : Prop where
  reviewer : gate.decidedBy = some reviewerId
  decision : ∃ u expected,
    Reach DeskSteps (fun _ _ => True) d u ∧
    (∃ waiting, u.db.gates.get? gate.id = some waiting ∧ waiting.status = .awaiting ∧
      waiting.contentVersionId = gate.contentVersionId ∧
        waiting.pipelineRunId = gate.pipelineRunId) ∧
    (∃ run run', u.db.runs.get? gate.pipelineRunId = some run ∧
      s.db.runs.get? gate.pipelineRunId = some run' ∧ SameRun run run') ∧
    (deskStep u (.engine (.decide gate.workspaceId gate.id reviewerId true expected))).db.gates.get?
      gate.id =
      some gate ∧
    Reach DeskSteps (fun _ _ => True)
      (deskStep u (.engine (.decide gate.workspaceId gate.id reviewerId true expected))) s

/-- The approval is still on record after one more step. -/
theorem ApprovedBy.step {gate : ReviewGate} {reviewerId : Nat} (h : ApprovedBy d s gate reviewerId)
    (hs : s.Sound) (op : DeskOp) : ApprovedBy d (deskStep s op) gate reviewerId := by
  obtain ⟨u, expected, before, waiting, ⟨run, run', hrun, hrun', hsame⟩, decided, after⟩ :=
    h.decision
  obtain ⟨run'', hrun'', hmove⟩ := (deskStep_runs hs op).get? (fun _ _ hmove => hmove.same.id) hrun'
  exact ⟨h.reviewer, u, expected, before, waiting,
    ⟨run, run'', hrun, hrun'', hsame.trans hmove.same⟩, decided,
    .step after trivial rfl⟩

/-- **Every approved gate was approved by a reviewer**, over the version it records. -/
theorem approved_gates (hfresh : d.Fresh) (history : Reach DeskSteps (fun _ _ => True) d s) :
    ∀ gate ∈ s.db.gates, gate.status = .approved →
      ∃ reviewerId, ApprovedBy d s gate reviewerId := by
  induction history with
  | refl =>
    intro gate hmem _
    rw [hfresh.db.gates] at hmem
    cases hmem
  | @step s t op before _ taken ih =>
    obtain rfl := taken
    have hs : s.Sound := desk_history_sound hfresh before
    intro gate hmem happroved
    rcases (deskStep_gates hs op).new gate hmem with ⟨g, hg, hmove⟩ | hnew
    · cases hmove with
      | kept =>
        obtain ⟨reviewerId, h⟩ := ih gate hg happroved
        exact ⟨reviewerId, h.step hs op⟩
      | engine request move =>
        subst request
        cases move with
        | kept =>
          obtain ⟨reviewerId, h⟩ := ih gate hg happroved
          exact ⟨reviewerId, h.step hs _⟩
        | escalated _ _ _ _ _ _ => cases happroved
        | @decided reviewerId _ approved expected request admitted =>
          cases approved with
          | false => cases happroved
          | true =>
            subst request
            obtain ⟨run, hrun⟩ := hs.owned g hg
            obtain ⟨run', hrun', hmove⟩ :=
              (deskStep_runs hs _).get? (fun _ _ hmove => hmove.same.id) hrun
            exact ⟨reviewerId, rfl, s, expected, before,
              ⟨g, Table.get?_of_mem hg, awaiting_of_decidable admitted, rfl, rfl⟩,
              ⟨run, run', hrun, hrun', hmove.same⟩, Table.get?_of_mem hmem, .refl⟩
      | edited _ hwaiting =>
        rw [show ((ReviewGate.setVersion s.versions.next).apply g).status = g.status from rfl,
          hwaiting]
          at happroved
        cases happroved
    · rw [hnew.waiting] at happroved
      cases happroved

/-- **Publication safety.** Whatever the attestations say, a positive answer rests on a reviewer's
approval of a gate of a run of the item itself, over exactly the item's current version. -/
theorem publication_safe {decision : PublicationDecision} (hfresh : d.Fresh)
    (history : Reach DeskSteps (fun _ _ => True) d s)
    (answer : assertPublishable s workspaceId contentItemId platform = .ok decision) :
    ∃ gate reviewerId, ApprovedBy d s gate reviewerId ∧ gate.id = decision.reviewGateId ∧
      gate.workspaceId = workspaceId ∧
      (∃ run, s.db.runs.get? gate.pipelineRunId = some run ∧ run.workspaceId = workspaceId ∧
        run.contentItemId = contentItemId) ∧
      ∃ item v, s.db.contentItems.get? contentItemId = some item ∧ item.workspaceId = workspaceId ∧
        item.currentVersionId = some v ∧ gate.contentVersionId = some v := by
  obtain ⟨-, row, gate, -, -, -, happroves, rfl⟩ := assertPublishable_ok.mp answer
  obtain ⟨item, hitem, hworkspace, hbound, hversion⟩ := happroves.version
  obtain ⟨v, hv⟩ := Option.ne_none_iff_exists'.mp hbound
  obtain ⟨reviewerId, happroval⟩ :=
    approved_gates hfresh history gate (Table.get?_eq_some.mp happroves.stored).1 happroves.approved
  exact ⟨gate, reviewerId, happroval, rfl, happroves.workspace, happroves.run, item, v, hitem,
    hworkspace,
    hversion.symm.trans hv, hv⟩

/-- The approved item of the small workspace. -/
theorem publication_safe_approved :
    ∃ gate reviewerId, ApprovedBy demoDesk (replay deskStep demoDesk approvedHistory) gate
      reviewerId ∧
      gate.id = 0 ∧ gate.contentVersionId = some 0 := by
  have hadmits : admits deskStep (fun _ _ => true) demoDesk approvedHistory = true := by
    decide +kernel
  have hreach : Reach DeskSteps (fun _ _ => True) demoDesk
      (replay deskStep demoDesk approvedHistory) :=
    (reach_replay approvedHistory _ hadmits).mono fun _ _ _ => trivial
  have hanswer :
      assertPublishable (replay deskStep demoDesk approvedHistory) 0 0 (some "YouTube ") =
        .ok ⟨0, "youtube", 0, 0⟩ := by decide +kernel
  obtain ⟨gate, reviewerId, happroval, hid, -, -, item, v, hitem, -, hcurrent, hversion⟩ :=
    publication_safe demoDesk_fresh hreach hanswer
  have hzero : ∀ item ∈ (replay deskStep demoDesk approvedHistory).db.contentItems,
      item.currentVersionId = some 0 := by decide +kernel
  rw [hzero item (Table.get?_eq_some.mp hitem).1] at hcurrent
  exact ⟨gate, reviewerId, happroval, hid, hversion.trans hcurrent.symm⟩

end ContentOrchestrator

import ContentOrchestrator.Orchestration.Tenancy
import ContentOrchestrator.Orchestration.AssignmentMoves

/-! # Every row in the workspace of its run

The engine writes the workspace into every row it makes, from a run, a job, a gate or an
assignment it has at hand, and no later pass over the row changes it. So in every history
each assignment, gate and reservation belongs to a stored run and is filed under the
workspace of that run, each job under that of its run or, if it is a review timeout, of its
gate: what is selected by workspace is selected by tenant. -/

namespace ContentOrchestrator

open Lib

variable {s t u : Db} {home : Nat → Nat → Prop}

/-! ## Reservations -/

/-- The row is about the same run for the same workspace. -/
structure SamePlace (v w : SpendReservation) : Prop where
  pipelineRunId : w.pipelineRunId = v.pipelineRunId
  workspaceId : w.workspaceId = v.workspaceId

theorem SamePlace.refl (v : SpendReservation) : SamePlace v v := ⟨rfl, rfl⟩

/-- Old rows keep their place, and new ones are at home. -/
abbrev Reserves (home : Nat → Nat → Prop) (s t : Db) : Prop :=
  Table.Evolves SamePlace (fun v => home v.pipelineRunId v.workspaceId) s.reservations
    t.reservations

namespace Reserves

theorem of_eq (h : t.reservations = s.reservations) : Reserves home s t :=
  Table.Evolves.of_eq .refl h

theorem trans (h : Reserves home s t) (h' : Reserves home t u) : Reserves home s u := by
  refine Table.Evolves.trans (fun _ _ _ h h' => ?_) (fun v w hv h => ?_) h h'
  · exact ⟨h'.pipelineRunId.trans h.pipelineRunId, h'.workspaceId.trans h.workspaceId⟩
  · rw [h.pipelineRunId, h.workspaceId]
    exact hv

theorem releaseSpend {run : PipelineRun} {v : SpendReservation} :
    Reserves home s (releaseSpend run v s) := by
  unfold ContentOrchestrator.releaseSpend
  split
  · exact .of_eq rfl
  · exact Table.Evolves.modify .refl (fun _ _ => ⟨rfl, rfl⟩) rfl

theorem releaseEach {run : PipelineRun} {rows : List SpendReservation} :
    Reserves home s (releaseEach run rows s) := by
  unfold ContentOrchestrator.releaseEach
  induction rows generalizing s with
  | nil => exact .of_eq rfl
  | cons v rest ih => exact releaseSpend.trans ih

theorem releaseAll {run : PipelineRun} : Reserves home s (releaseAllReservations run s) :=
  releaseEach

theorem releaseStage {run : PipelineRun} {stage : ContentStage} :
    Reserves home s (releaseStageReservations run stage s) := releaseEach

theorem commit {run : PipelineRun} {v : SpendReservation} {cost : Nat} :
    Reserves home s (commitReservation run v cost s) :=
  Table.Evolves.modify .refl (fun _ _ => ⟨rfl, rfl⟩) commitReservation_frame.2.2.2.2.1

theorem openReservation {run : PipelineRun} {stage : ContentStage} {provider : String}
    {estimate : Nat} (hhome : home run.id run.workspaceId) :
    Reserves home s (openReservation run stage provider estimate s) := by
  refine Table.Evolves.insert .refl ?_ openReservation_frame.2.2.2.2.1
  exact hhome

theorem pauseForSpend {run : PipelineRun} : Reserves home s (pauseForSpend run s) :=
  .of_eq (by simp)

/-- What comes before is about other tables. -/
theorem after (h : Reserves home t u) (heq : t.reservations = s.reservations) :
    Reserves home s u := trans (of_eq heq) h

theorem failRun {run : PipelineRun} : Reserves home s (failRun run s) := releaseAll.after rfl

theorem modifyJob {jobId : Nat} {v : Update JobSchedule} : Reserves home s (modifyJob jobId v s) :=
  .of_eq rfl

theorem modifyRun {runId : Nat} {v : Update PipelineRun} : Reserves home s (modifyRun runId v s) :=
  .of_eq rfl

theorem createAssignment {q : DispatchRequest} {stage : ContentStage}
    {worker : Option WorkerRegistration} {priority : Int} :
    Reserves home s (createAssignment q stage worker priority s) := .of_eq rfl

theorem grantAssignment {a : StageAssignment} {workerId : Nat} {claimToken : Option Nat} :
    Reserves home s (grantAssignment a workerId claimToken s) := .of_eq rfl

theorem enqueueCompensations {run : PipelineRun} {stages : List ContentStage} :
    Reserves home s (enqueueCompensations run stages s) := by
  unfold ContentOrchestrator.enqueueCompensations
  induction stages generalizing s with
  | nil => exact .of_eq rfl
  | cons stage rest ih => exact ih.after rfl

end Reserves

theorem FailureHandled.reserves {run : PipelineRun} {stage : ContentStage} {attempt : Nat}
    {message : String} (h : FailureHandled run stage attempt message s t) : Reserves home s t := by
  have hfail : Reserves home s (failStage run stage attempt message s) := Reserves.failRun.after rfl
  cases h with
  | retried => exact .of_eq rfl
  | failed => exact hfail
  | compensated =>
    have hbegin : Reserves home s (modifyRun run.id (PipelineRun.setStatus .compensating)
        (failStage run stage attempt message s)) := hfail.trans .modifyRun
    exact (hbegin.trans .enqueueCompensations).trans .modifyRun

theorem Submitted.reserves {a : StageAssignment} {result : Option (List (String × Json))}
    {success : Bool} {message : String} (h : Submitted a result message s success t) :
    Reserves home s t := by
  cases h with
  | orphaned => exact .of_eq rfl
  | @succeeded run s1 _ _ _ settled advanced =>
    have hsettled : Reserves home s s1 := by
      rcases settled with ⟨_, rfl⟩ | ⟨_, _, _, rfl⟩
      · exact .of_eq rfl
      · exact Reserves.commit.after rfl
    rcases advanced with ⟨_, rfl⟩ | ⟨_, ha⟩
    · exact hsettled
    · exact hsettled.trans (.of_eq (by cases ha <;> rfl))
  | @failed run s1 _ _ _ settled handled =>
    have hsettled : Reserves home s s1 := by
      rcases settled with ⟨_, rfl⟩ | ⟨_, _, rfl⟩
      · exact .of_eq rfl
      · exact Reserves.releaseSpend.after rfl
    exact hsettled.trans handled.reserves

theorem Recovered.reserves {a : StageAssignment} {reason : RecoveryReason}
    (h : Recovered a reason s t) : Reserves home s t := by
  have hslot : (releaseWorkerSlot a.workerId s).reservations = s.reservations := by
    unfold releaseWorkerSlot
    split <;> rfl
  cases h with
  | skipped => exact .of_eq rfl
  | requeued =>
    unfold requeueAssignment
    split
    · exact Reserves.releaseStage.after hslot
    · exact .of_eq hslot
  | exhausted =>
    unfold deadLetterAssignment
    dsimp only
    split
    · split
      · exact .of_eq hslot
      · exact Reserves.failRun.after hslot
    · exact .of_eq hslot

theorem Claimed.reserves {workerId : Nat} {claimToken : Option Nat} {locked : List Nat}
    (h : Claimed workerId claimToken locked s t)
    (hhome : ∀ runId run, s.runs.get? runId = some run → home run.id run.workspaceId) :
    Reserves home s t := by
  cases h with
  | idle => exact .of_eq rfl
  | chosen _ _ _ _ _ _ _ settled =>
    cases settled with
    | held => exact Reserves.trans .releaseStage .pauseForSpend
    | reserved found =>
      exact (Reserves.trans .releaseStage (.openReservation (hhome _ _ found))).trans
        .grantAssignment
    | granted => exact .of_eq rfl

theorem handleReviewTimeout_reserves {gateId : Nat} :
    Reserves home s (handleReviewTimeout gateId s) := by
  unfold handleReviewTimeout
  split
  · exact .of_eq rfl
  split
  · exact .of_eq rfl
  split
  · exact .of_eq rfl
  · unfold timeOutGate
    split
    · exact .of_eq rfl
    · exact Reserves.failRun.after rfl

theorem Processed.reserves {job : JobSchedule} {lockedWorkers : List Nat}
    (h : Processed job lockedWorkers s t) (hkind : job.jobType ≠ .stageTimeout)
    (hhome : ∀ runId run, s.runs.get? runId = some run → home run.id run.workspaceId) :
    Reserves home s t := by
  cases h with
  | held => exact (Reserves.trans .releaseStage .pauseForSpend).trans .modifyJob
  | assigned _ _ _ found =>
    exact ((Reserves.trans .releaseStage (.openReservation (hhome _ _ found))).trans
      .createAssignment).trans .modifyJob
  | exhausted _ _ _ exhausted =>
    cases exhausted with
    | alone _ routed => exact .of_eq (by rw [routed]; rfl)
    | @withRun run stage _ _ _ routed =>
      rw [routed]
      have hreleased : Reserves home (modifyJob job.id JobSchedule.exhaust s)
          (releaseAllReservations run (modifyJob job.id JobSchedule.exhaust s)) := .releaseAll
      exact hreleased.after rfl
  | stageTimedOut kind => exact absurd kind hkind
  | reviewTimedOut => exact handleReviewTimeout_reserves.trans .modifyJob
  | _ => exact .of_eq rfl

theorem Resumed.reserves {gate : ReviewGate} {approved : Bool} (h : Resumed gate approved s t) :
    Reserves home s t := by
  cases h with
  | rejected => exact Reserves.failRun.after rfl
  | advanced _ _ advanced => exact .of_eq (by cases advanced <;> rfl)
  | stuck _ _ raised =>
    rcases (advanceOrFinish_raises raised).1 with rfl | ⟨_, _, _, _, rfl⟩ <;> exact .of_eq rfl
  | unrouted => exact .of_eq rfl
  | unloaded => exact .of_eq rfl

theorem Revivals.reservations {workspaceId : Nat} {targets : List RetryTarget}
    (h : Revivals workspaceId s targets t) : t.reservations = s.reservations := by
  induction h with
  | nothing same => exact same.reservations
  | more _ once ih =>
    obtain ⟨run, _, _, _, hsame⟩ := once
    rw [hsame.reservations, ← ih]
    exact reviveRun_frame.2.2.2.1

theorem Effect.reserves {op : Op} (h : Effect op s t)
    (hkinds : ∀ j ∈ s.jobs, j.jobType ≠ .stageTimeout)
    (hhome : ∀ runId run, s.runs.get? runId = some run → home run.id run.workspaceId) :
    Reserves home s t := by
  cases h with
  | started => exact .of_eq rfl
  | polled => exact .of_eq rfl
  | processed found _ done => exact done.reserves (hkinds _ (Table.get?_eq_some.mp found).1) hhome
  | reaped => exact .of_eq rfl
  | claimed done => exact done.reserves hhome
  | acknowledged => exact .of_eq rfl
  | renewed => exact .of_eq rfl
  | submitted _ _ _ done => exact done.reserves
  | recovered _ done => exact done.reserves
  | decided _ _ _ recorded applied booked =>
    have hrecorded : Reserves home s _ := .of_eq recorded.reservations
    exact (hrecorded.trans applied.reserves).trans (.of_eq booked.reservations)
  | cancelled =>
    unfold cancelRun
    split
    · exact .of_eq rfl
    · exact Reserves.releaseAll.after rfl
  | retried => exact .of_eq retryFailedJobs_revivals.reservations
  | changed => exact .of_eq rfl

/-! ## Every table -/

/-- Every row is filed under the workspace of its run, and the run is there. -/
structure Db.Housed (db : Db) : Prop where
  lodged : db.Lodged
  assignments : ∀ a ∈ db.assignments, db.houses a.pipelineRunId a.workspaceId
  gates : ∀ g ∈ db.gates, db.houses g.pipelineRunId g.workspaceId
  reservations : ∀ v ∈ db.reservations, db.houses v.pipelineRunId v.workspaceId

theorem AssignmentMove.place {op : Op} {a a' : StageAssignment} (h : AssignmentMove op s a a') :
    a'.pipelineRunId = a.pipelineRunId ∧ a'.workspaceId = a.workspaceId := by
  cases h <;> exact ⟨rfl, rfl⟩

/-- The scheduler files the assignment where it found the job. -/
theorem IsDispatched.housed {op : Op} {a : StageAssignment} (h : IsDispatched op s a)
    (hlodged : s.Lodged) : s.houses a.pipelineRunId a.workspaceId := by
  cases h with
  | @made job _ runId _ _ _ _ _ _ found _ ref =>
    have hin := (hlodged job (Table.get?_eq_some.mp found).1).place
    rw [refId_of_runId? ref] at hin
    exact hin

theorem Effect.housed {op : Op} (h : Effect op s t) (hs : s.Sound) (hhoused : s.Housed) :
    t.Housed := by
  have hruns := h.runs hs.jobs hs.gates
  have hstay : ∀ {runId workspaceId : Nat}, s.houses runId workspaceId →
      t.houses runId workspaceId := hruns.houses
  have hfound : ∀ runId run, s.runs.get? runId = some run → t.houses run.id run.workspaceId := by
    intro runId run hrun
    have hid : run.id = runId := (Table.get?_eq_some.mp hrun).2
    exact hstay ⟨run, hid ▸ hrun, rfl⟩
  refine ⟨?_, fun a' ha' => ?_, fun g' hg' => ?_, fun v' hv' => ?_⟩
  · exact (h.lodges hs).lodged hhoused.lodged (h.housesRef hs)
  · rcases (h.assignments fun _ _ _ _ => hs.jobs).new a' ha' with ⟨a, ha, hmove⟩ | hnew
    · obtain ⟨hrun, hworkspace⟩ := hmove.place
      rw [hrun, hworkspace]
      exact hstay (hhoused.assignments a ha)
    · exact hstay (hnew.housed hhoused.lodged)
  · rcases (h.gates hs.jobs hs.gates).new g' hg' with ⟨g, hg, hmove⟩ | ⟨run, _, _, hrun, -, -, rfl⟩
    · obtain ⟨-, hrun, hworkspace⟩ := hmove.place
      rw [hrun, hworkspace]
      exact hstay (hhoused.gates g hg)
    · exact hfound _ run hrun
  · rcases (h.reserves hs.jobs hfound).new v' hv' with ⟨v, hv, hplace⟩ | hnew
    · rw [hplace.pipelineRunId, hplace.workspaceId]
      exact hstay (hhoused.reservations v hv)
    · exact hnew

/-- **The step lemma.** -/
theorem step_housed (hs : s.Sound) (hhoused : s.Housed) (op : Op) :
    (step s op).Housed ∧
      ∀ runId workspaceId, s.houses runId workspaceId → (step s op).houses runId workspaceId := by
  rcases step_cases s op with heq | heffect
  · rw [heq]
    exact ⟨hhoused, fun _ _ h => h⟩
  · exact ⟨heffect.housed hs hhoused, fun _ _ => (heffect.runs hs.jobs hs.gates).houses⟩

/-- **The run lemma.** -/
theorem replay_housed (hs : s.Sound) (hhoused : s.Housed) (ops : List Op) :
    (replay step s ops).Sound ∧ (replay step s ops).Housed ∧
      ∀ runId workspaceId, s.houses runId workspaceId →
        (replay step s ops).houses runId workspaceId := by
  refine (reach_any ops s).invariant (P := fun t => t.Sound ∧ t.Housed ∧
    ∀ runId workspaceId, s.houses runId workspaceId → t.houses runId workspaceId)
    ⟨hs, hhoused, fun _ _ h => h⟩ ?_
  rintro t op _ ⟨hsound, hkept, hstay⟩ - rfl
  obtain ⟨hnext, hlater⟩ := step_housed hsound hkept op
  exact ⟨step_sound t op hsound, hnext, fun _ _ h => hlater _ _ (hstay _ _ h)⟩

theorem Db.Fresh.housed (h : s.Fresh) : s.Housed := by
  refine ⟨fun j hj => ?_, fun a ha => ?_, fun g hg => ?_, fun v hv => ?_⟩
  · rw [h.jobs] at hj
    cases hj
  · rw [h.assignments] at ha
    cases ha
  · rw [h.gates] at hg
    cases hg
  · rw [h.reservations] at hv
    cases hv

/-- In every history all rows are filed under the workspace of their run, and no run moves to
another workspace. -/
theorem rows_in_workspace_of_run {db : Db} (hfresh : db.Fresh) (earlier later : List Op) :
    (replay step db (earlier ++ later)).Housed ∧
      ∀ runId workspaceId, (replay step db earlier).houses runId workspaceId →
        (replay step db (earlier ++ later)).houses runId workspaceId := by
  obtain ⟨hsound, hhoused, -⟩ := replay_housed hfresh.sound hfresh.housed earlier
  have hsplit : replay step db (earlier ++ later) = replay step (replay step db earlier) later :=
    List.foldl_append
  rw [hsplit]
  exact (replay_housed hsound hhoused later).2

/-- The first stage of the run is assigned, and its cost reserved. -/
theorem rows_in_workspace_of_run_demo :
    let db := replay step demoDb ([.startRun 0 0 0] ++ [.poll 10 [], .processJob 0 [] 0])
    db.houses 0 0 ∧ db.assignments.count (fun _ => true) = 1 ∧
      db.reservations.count (fun _ => true) = 1 ∧ db.Housed ∧
      ∀ runId workspaceId, (replay step demoDb [.startRun 0 0 0]).houses runId workspaceId →
        db.houses runId workspaceId :=
  ⟨⟨_, rfl, rfl⟩, by decide +kernel, by decide +kernel,
    rows_in_workspace_of_run demoDb_fresh [.startRun 0 0 0] [.poll 10 [], .processJob 0 [] 0]⟩

end ContentOrchestrator

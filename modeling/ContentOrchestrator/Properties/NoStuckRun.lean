import ContentOrchestrator.Orchestration.RunInvariants

/-! # No stuck run

A running run has work for its current stage, in every history in which no step makes
it lose its last work. The three steps that do are `losesWork`; the other
operations either hand the work on or end the run. -/

namespace ContentOrchestrator

open Lib

/-- The engine has a queued job or a live assignment for the run's current stage. -/
def Db.HasWork (db : Db) (run : PipelineRun) : Prop :=
  (∃ j ∈ db.jobs, j.isStageJob = true ∧ j.isActive = true ∧ j.refId = .run run.id ∧
    j.refTable = run.currentStage.value) ∨
  ∃ a ∈ db.assignments, a.pipelineRunId = run.id ∧ a.stage = run.currentStage ∧
    a.status.isLive = true

instance {db : Db} {run : PipelineRun} : Decidable (db.HasWork run) :=
  inferInstanceAs (Decidable (_ ∨ _))

/-- No started run is running without work. -/
def Db.NoStuckRun (db : Db) : Prop :=
  ∀ run ∈ db.runs, run.startedAt.isSome = true → run.status = .running → db.HasWork run

instance {db : Db} : Decidable db.NoStuckRun :=
  inferInstanceAs (Decidable (∀ run ∈ db.runs, _ → _ → _))

variable {s t : Db} {r : Nat}

/-- The invariant of a run: attended, with its token at the cursor. -/
def RunView.OnTrack (v : RunView) : Prop := v.AtCursor ∧ v.Attended

theorem RunView.onTrack_start {stage : ContentStage} {d job : Nat} : (start stage d job).OnTrack :=
  ⟨fun _ htok => by cases htok; rfl, fun _ => ⟨_, rfl, rfl⟩⟩

/-- Work at the cursor of the view is work in the tables. -/
theorem Shows.hasWork {v : RunView} (h : Shows (s.slice r) v) (hv : v.OnTrack) {run : PipelineRun}
    (hrun : s.runs.get? r = some run) (hrunning : run.status = .running) : s.HasWork run := by
  obtain ⟨hcursor, hattended⟩ := hv
  have hid : run.id = r := (Table.get?_eq_some.mp hrun).2
  have hrow : (s.slice r).run = some run := hrun
  generalize hx : s.slice r = x at h hrow
  cases h with
  | idle _ =>
    cases hrow
    obtain ⟨_, htok, _⟩ := hattended hrunning
    cases htok
  | @queued _ _ job _ =>
    cases hrow
    have hin : job ∈ (s.slice r).jobs := by rw [hx]; exact List.mem_singleton_self job
    obtain ⟨hmem, hactive⟩ := mem_slice_jobs.mp hin
    simp only [JobSchedule.isActiveFor, Bool.and_eq_true, beq_iff_eq] at hactive
    exact .inl ⟨job, hmem, hactive.1.1.1,
      hactive.1.1.2, by rw [hid]; exact hactive.1.2, hcursor _ rfl⟩
  | @waiting _ _ a _ _ =>
    cases hrow
    have hin : a ∈ (s.slice r).assignments := by rw [hx]; exact List.mem_singleton_self a
    obtain ⟨hmem, hlive⟩ := mem_slice_assignments.mp hin
    simp only [StageAssignment.isLiveOf, Bool.and_eq_true, beq_iff_eq] at hlive
    exact .inr ⟨a, hmem, by rw [hid]; exact hlive.1,
      ContentStage.value_injective (hcursor _ rfl), hlive.2⟩
  | @working _ _ a _ _ _ _ =>
    cases hrow
    have hin : a ∈ (s.slice r).assignments := by rw [hx]; exact List.mem_singleton_self a
    obtain ⟨hmem, hlive⟩ := mem_slice_assignments.mp hin
    simp only [StageAssignment.isLiveOf, Bool.and_eq_true, beq_iff_eq] at hlive
    exact .inr ⟨a, hmem, by rw [hid]; exact hlive.1,
      ContentStage.value_injective (hcursor _ rfl), hlive.2⟩
  | reviewing _ =>
    cases hrow
    obtain ⟨_, htok, hwork⟩ := hattended hrunning
    cases htok
    cases hwork

/-- A step that keeps a run's work has no move that loses it. -/
theorem not_losesWork {op : Op} {v : RunView} {l : Label} (hv : Shows (s.slice r) v)
    (hkeeps : losesWork s op r = false) (hcause : l.cause s op r) : ¬ l.losesWork v.status := by
  obtain ⟨run, hrun, hstatus, _⟩ := hv.run_some
  have hget : s.runs.get? r = some run := hrun
  simp only [losesWork, Bool.or_eq_false_iff, hget, Option.any_some] at hkeeps
  obtain ⟨⟨hgives, hrepeats⟩, hstrands⟩ := hkeeps
  intro hloses
  cases l with
  | exhausted =>
    rw [hcause, Bool.true_and, beq_eq_false_iff_ne, hstatus] at hgives
    exact hgives hloses
  | dropped => rw [show repeatsKey s op r = true from hcause] at hrepeats; cases hrepeats
  | stranded => rw [show strandsRun s op r = true from hcause] at hstrands; cases hstrands
  | _ => exact hloses

/-- No run loses its last work in this step. -/
def keepsWork (s : Db) (op : Op) : Bool := decide (∀ run ∈ s.runs, losesWork s op run.id = false)

/-- **No stuck run**: in every history without operator retries whose steps keep every run's
work, a running run has work for its current stage. -/
theorem no_stuck_run {db : Db} (hfresh : db.Fresh)
    (h : Reach Steps (fun s op => op.isOperatorRetry = false ∧ keepsWork s op = true) db t) :
    t.NoStuckRun := by
  intro run hmem _ hrunning
  have hget : t.runs.get? run.id = some run := Table.get?_of_mem hmem
  have hfollows := history_follows (r := run.id) (P := RunView.OnTrack) hfresh
    (fun _ _ _ hok _ => retryFits_of_other hok.1) (fun _ _ _ _ _ => RunView.onTrack_start) ?_ h
  · rcases hfollows.2 with habs | ⟨v, hshow, _, htrack⟩
    · exact absurd rfl (slice_empty_run habs hget)
    · exact hshow.hasWork htrack hget hrunning
  · rintro s op v l v' ⟨hretry, hkeeps⟩ hshow ⟨hcursor, hattended⟩ hcause hmove
    obtain ⟨row, hrow, _⟩ := hshow.run_some
    have hkept : losesWork s op run.id = false := by
      have hin := Table.get?_eq_some.mp (show s.runs.get? run.id = some row from hrow)
      rw [keepsWork, decide_eq_true_eq] at hkeeps
      rw [← hin.2]
      exact hkeeps row hin.1
    have hnone : l ≠ .revived := by
      rintro rfl
      obtain ⟨workspaceId, rfl⟩ := hcause
      cases hretry
    exact ⟨hmove.atCursor hnone hcursor,
      hmove.attended (not_losesWork hshow hkept hcause) hnone hattended⟩

/-- The first stage is done and the second one queued. -/
def halfwayHistory : List Op :=
  [.startRun 0 0 0, .poll 10 [], .processJob 0 [] 0, .ack 0 none 0,
   .submit 0 true none "" (some 0) 0]

theorem no_stuck_run_halfway :
    (replay step demoDb halfwayHistory).NoStuckRun ∧
      ∃ run ∈ (replay step demoDb halfwayHistory).runs, run.status = .running := by
  have hadmits : admits step (fun s op => !op.isOperatorRetry && keepsWork s op) demoDb
      halfwayHistory = true := by decide +kernel
  refine ⟨no_stuck_run demoDb_fresh ((reach_replay halfwayHistory demoDb hadmits).mono ?_),
    by decide +kernel⟩
  intro s op h
  simpa using h

/-! ## Exhaustion leaves a run running -/

/-- Two runs on one slot; the first is at work all the time. -/
def exhaustionHistory : List Op := occupiedHistory ++ limitedPasses 20

/-- The property does not hold of every history: a job given up at the ceiling leaves its run
running with nothing to do. -/
theorem stuck_run_after_exhaustion :
    ¬ ∀ db t : Db, db.Fresh → Reach Steps (fun _ op => op.isOperatorRetry = false) db t →
        t.NoStuckRun := by
  intro h
  have hadmits : admits step (fun _ op => !op.isOperatorRetry) narrowDb exhaustionHistory =
      true := by
    decide +kernel
  have hreach : Reach Steps (fun _ op => op.isOperatorRetry = false) narrowDb
      (replay step narrowDb exhaustionHistory) :=
    (reach_replay exhaustionHistory narrowDb hadmits).mono fun _ op hop => by simpa using hop
  have hstuck : ¬ (replay step narrowDb exhaustionHistory).NoStuckRun := by decide +kernel
  exact hstuck (h _ _ narrowDb_fresh hreach)

end ContentOrchestrator

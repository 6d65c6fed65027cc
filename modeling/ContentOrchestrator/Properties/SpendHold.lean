import ContentOrchestrator.Orchestration.TableInvariants

/-! # A spend hold does not end

A denied reservation pauses the run. The grant never undoes the pause: dispatch turns a
held run away before it asks for budget, and a claim that finds budget hands out the
assignment and leaves the run paused. Only a verdict on a review gate or an operator's
retry sets a run running. -/

namespace ContentOrchestrator

open Lib

variable {s t u : Db} {r : Nat}

/-- The run is paused for lack of budget. -/
def PipelineRun.isHeld (run : PipelineRun) : Bool :=
  run.status == .paused && run.pauseReason == some .spendHold

/-- Everything but a verdict and an operator's retry: scheduler passes, claims, submissions,
recoveries, and changes of time and caps. -/
def Op.isAutomatic : Op → Bool
  | .decide _ _ _ _ _ | .retryFailedJobs _ => false
  | _ => true

/-- What a hold is meant to allow: some course of passes, claims and budget changes ends it. -/
def Db.HoldEnds (db : Db) (runId : Nat) : Prop :=
  ∃ t, Reach Steps (fun _ op => op.isAutomatic = true) db t ∧
    ∃ run, t.runs.get? runId = some run ∧ run.status = .running ∧ run.pauseReason = none

/-! ## A run that is not running stays so -/

/-- The run was not running, and is not. -/
def StaysIdle (r : Nat) (s t : Db) : Prop :=
  ∀ run, s.runs.get? r = some run → run.status ≠ .running →
    ∃ run', t.runs.get? r = some run' ∧ run'.status ≠ .running

namespace StaysIdle

theorem of_eq (h : t.runs = s.runs) : StaysIdle r s t := by
  intro run hrun hidle
  exact ⟨run, by rw [h, hrun], hidle⟩

theorem trans (h : StaysIdle r s t) (h' : StaysIdle r t u) : StaysIdle r s u := by
  intro run hrun hidle
  obtain ⟨run', hrun', hidle'⟩ := h run hrun hidle
  exact h' run' hrun' hidle'

/-- The row is changed by an update that does not set it running. -/
theorem modify (u : Update PipelineRun) (k : Nat) (ht : t.runs = s.runs.modify k u)
    (hu : ∀ run : PipelineRun, run.status ≠ .running → (u.apply run).status ≠ .running) :
    StaysIdle r s t := by
  intro run hrun hidle
  rw [ht, Table.get?_modify]
  split
  · rename_i hk
    rw [← hk, hrun]
    exact ⟨_, rfl, hu run hidle⟩
  · exact ⟨run, hrun, hidle⟩

theorem moveTo {k : Nat} {stage : ContentStage} :
    StaysIdle r s (modifyRun k (PipelineRun.moveTo stage) s) :=
  .modify _ k rfl fun _ h => h

theorem finish {k now : Nat} {status : PipelineRunStatus}
    (ht : t.runs = s.runs.modify k (PipelineRun.finish status now)) (hstatus : status ≠ .running) :
    StaysIdle r s t :=
  .modify _ k ht fun _ _ => hstatus

theorem setStatus {k : Nat} {status : PipelineRunStatus}
    (ht : t.runs = s.runs.modify k (PipelineRun.setStatus status)) (hstatus : status ≠ .running) :
    StaysIdle r s t :=
  .modify _ k ht fun _ _ => hstatus

theorem failRun {run : PipelineRun} : StaysIdle r s (failRun run s) := by
  have hruns : (ContentOrchestrator.failRun run s).runs =
      s.runs.modify run.id (PipelineRun.finish .failed s.now) := by
    simp
  exact .finish hruns (by simp)

theorem pauseForSpend {run : PipelineRun} (ht : t.runs = s.runs) :
    StaysIdle r s (pauseForSpend run t) := by
  have hruns : (ContentOrchestrator.pauseForSpend run t).runs =
      s.runs.modify run.id PipelineRun.holdForSpend := by
    simp [ht]
  exact .modify _ _ hruns fun _ _ h => by cases h

end StaysIdle

theorem Advanced.staysIdle {run : PipelineRun} {stage : ContentStage}
    {trigger : WorkflowTransitionTrigger} {context : List (String × Json)}
    {stored : Table ReviewGate} (h : Advanced run stage trigger context stored s t) :
    StaysIdle r s t := by
  cases h with
  | @finished _ last _ _ =>
    have hfinish : StaysIdle r s (modifyRun run.id (PipelineRun.finish .succeeded s.now) s) :=
      .finish rfl (by simp)
    exact hfinish.trans (.modify (PipelineRun.moveTo last) run.id (by simp [succeedRun])
      fun _ h => h)
  | queued _ _ => exact StaysIdle.moveTo.trans (.of_eq rfl)
  | @gated _ stageDef _ _ _ _ _ =>
    have hmove : StaysIdle r s (modifyRun run.id (PipelineRun.moveTo stageDef.stageKey) s) :=
      .moveTo
    refine hmove.trans (.modify PipelineRun.pauseForReview run.id ?_ fun _ _ h => by cases h)
    simp only [openReviewGate_frame]
  | kept _ _ _ _ => exact .moveTo

theorem FailureHandled.staysIdle {run : PipelineRun} {stage : ContentStage} {attempt : Nat}
    {message : String} (h : FailureHandled run stage attempt message s t) : StaysIdle r s t := by
  have hruns : (failStage run stage attempt message s).runs =
      s.runs.modify run.id (PipelineRun.finish .failed s.now) := by
    simp [failStage]
  have hfail : StaysIdle r s (failStage run stage attempt message s) := .finish hruns (by simp)
  cases h with
  | retried _ _ _ _ => exact .of_eq (by simp)
  | failed => exact hfail
  | @compensated stages =>
    have hstart : StaysIdle r s (modifyRun run.id (PipelineRun.setStatus .compensating)
        (failStage run stage attempt message s)) := hfail.trans (.setStatus rfl (by simp))
    exact (hstart.trans (.of_eq enqueueCompensations_frame.1)).trans (.setStatus rfl (by simp))

theorem Submitted.staysIdle {a : StageAssignment} {result : Option (List (String × Json))}
    {success : Bool} {message : String} (h : Submitted a result message s success t) :
    StaysIdle r s t := by
  cases h with
  | orphaned _ => exact .of_eq (by simp)
  | @succeeded run s1 _ _ _ settled advanced =>
    have hs1 : StaysIdle r s s1 := by
      rcases settled with ⟨_, rfl⟩ | ⟨_, _, _, rfl⟩
      · exact .of_eq (by simp [recordSuccess])
      · exact .of_eq (by simp [recordSuccess])
    rcases advanced with ⟨_, rfl⟩ | ⟨_, ha⟩
    · exact hs1
    · exact hs1.trans ha.staysIdle
  | @failed run s1 _ _ _ settled handled =>
    have hs1 : StaysIdle r s s1 := by
      rcases settled with ⟨_, rfl⟩ | ⟨_, _, rfl⟩
      · exact .of_eq (by simp [recordFailedAttempt])
      · exact .of_eq (by simp [recordFailedAttempt])
    exact hs1.trans handled.staysIdle

theorem Recovered.staysIdle {a : StageAssignment} {reason : RecoveryReason}
    (h : Recovered a reason s t) : StaysIdle r s t := by
  cases h with
  | skipped _ => exact .of_eq rfl
  | requeued _ _ _ =>
    refine .of_eq ?_
    unfold requeueAssignment
    cases (releaseWorkerSlot a.workerId s).runs.get? a.pipelineRunId <;> simp
  | exhausted _ _ =>
    have hslot : StaysIdle r s (releaseWorkerSlot a.workerId s) := .of_eq (by simp)
    refine hslot.trans ?_
    unfold deadLetterAssignment
    split
    · split
      · exact .of_eq (by simp)
      · rename_i run _ _
        exact .modify (PipelineRun.finish .failed (releaseWorkerSlot a.workerId s).now) run.id
          (by simp)
          fun _ _ h => by cases h
    · exact .of_eq (by simp)

theorem Claimed.staysIdle {workerId : Nat} {claimToken : Option Nat} {locked : List Nat}
    (h : Claimed workerId claimToken locked s t) : StaysIdle r s t := by
  cases h with
  | idle => exact .of_eq rfl
  | chosen _ _ _ _ _ _ _ settled =>
    cases settled with
    | held _ _ => exact .pauseForSpend (by simp)
    | reserved _ _ => exact .of_eq (by simp)
    | granted _ => exact .of_eq (by simp)

theorem handleReviewTimeout_staysIdle {gateId : Nat} :
    StaysIdle r s (handleReviewTimeout gateId s) := by
  unfold handleReviewTimeout
  split
  · exact .of_eq rfl
  split
  · exact .of_eq rfl
  split
  · exact .of_eq (by simp only [escalateGate_frame])
  · unfold timeOutGate
    split
    · exact .of_eq (by simp)
    · have hclosed : ∀ gate : ReviewGate, StaysIdle r s
          (emit EventType.reviewTimedOut gate.workspaceId
          (.pipelineRun gate.pipelineRunId) (some gate.id)
            (modifyGate gate.id ReviewGate.timeOut s)) :=
        fun _ => .of_eq (by simp)
      exact (hclosed _).trans .failRun

theorem Processed.staysIdle {job : JobSchedule} {lockedWorkers : List Nat}
    (h : Processed job lockedWorkers s t) (hkind : job.jobType ≠ .stageTimeout) :
    StaysIdle r s t := by
  cases h with
  | held _ _ _ _ _ _ _ => exact (StaysIdle.pauseForSpend (by simp)).trans (.of_eq rfl)
  | exhausted _ _ _ exhausted =>
    cases exhausted with
    | alone _ routed => exact .of_eq (by simp [routed])
    | withRun _ _ routed => exact .of_eq (by simp [routed])
  | stageTimedOut kind => exact absurd kind hkind
  | reviewTimedOut _ _ => exact handleReviewTimeout_staysIdle.trans (.of_eq rfl)
  | _ => exact .of_eq (by simp)

theorem Effect.staysIdle {op : Op} (h : Effect op s t) (hs : s.Sound)
    (hop : op.isAutomatic = true) :
    StaysIdle r s t := by
  cases h with
  | @started _ _ _ _ _ _ row _ _ hrow =>
    intro run hrun hidle
    have hne : r ≠ s.runs.next := by
      rintro rfl
      rw [Table.get?_next] at hrun
      cases hrun
    have hother : r ≠ row.id := by
      rw [hrow]
      exact hne
    refine ⟨run, ?_, hidle⟩
    simp only [enqueueStage_frame, modifyRun_frame, createRun]
    rw [Table.get?_modify, if_neg hother, Table.get?_insert, if_neg hne, hrun]
  | polled => exact .of_eq rfl
  | processed found leased done =>
    exact done.staysIdle (hs.jobs _ (Table.get?_eq_some.mp found).1)
  | reaped => exact .of_eq rfl
  | claimed done => exact done.staysIdle
  | acknowledged _ _ => exact .of_eq rfl
  | renewed _ _ => exact .of_eq rfl
  | submitted _ _ _ done => exact done.staysIdle
  | recovered _ done => exact done.staysIdle
  | decided => cases hop
  | @cancelled _ _ row _ =>
    unfold cancelRun
    split
    · exact .of_eq rfl
    · exact .modify (PipelineRun.finish .cancelled s.now) row.id (by simp) fun _ _ h => by cases h
  | retried => cases hop
  | changed => exact .of_eq rfl

/-- Nothing automatic ends a hold. -/
theorem Db.Sound.not_holdEnds {run : PipelineRun} (hs : s.Sound) (hrun : s.runs.get? r = some run)
    (hheld : run.isHeld = true) : ¬ s.HoldEnds r := by
  rintro ⟨t, after, row, hrow, hrunning, -⟩
  have hinv : t.Sound ∧ StaysIdle r s t := by
    refine after.invariant (P := fun u => u.Sound ∧ StaysIdle r s u) ⟨hs, .of_eq rfl⟩ ?_
    rintro u op v ⟨hu, hidle⟩ hop rfl
    refine ⟨step_sound u op hu, ?_⟩
    rcases step_cases u op with heq | heffect
    · rw [heq]
      exact hidle
    · exact hidle.trans (heffect.staysIdle hu hop)
  simp only [PipelineRun.isHeld, Bool.and_eq_true, beq_iff_eq] at hheld
  obtain ⟨row', hrow', hidle⟩ := hinv.2 run hrun (by rw [hheld.1]; simp)
  rw [hrow] at hrow'
  cases hrow'
  exact hidle hrunning

/-- **A spend hold is a trap**: whatever led to it, no course of passes, claims, submissions and
budget changes sets the run running again. -/
theorem spend_hold_never_ends {db : Db} {run : PipelineRun} (hfresh : db.Fresh)
    (before : Reach Steps (fun _ _ => True) db s) (hrun : s.runs.get? r = some run)
    (hheld : run.isHeld = true) : ¬ s.HoldEnds r :=
  (history_sound hfresh.sound before).not_holdEnds hrun hheld

/-! ## A hold for want of budget -/

/-- There is no money at all. -/
def pennilessDb : Db :=
  { demoDb with
    spendCaps := oneRow (fun id => { id, workspaceId := 0, provider := none, dailyCapUsd := 0,
                                     monthlyCapUsd := 0 }) fun _ => rfl }

theorem pennilessDb_fresh : pennilessDb.Fresh := ⟨rfl, rfl, rfl, rfl, rfl, rfl, rfl, rfl⟩

/-- The first dispatch is denied. -/
def deniedHistory : List Op := [.startRun 0 0 0, .poll 10 [], .processJob 0 [] 0]

theorem spend_hold_never_ends_denied : ¬ (replay step pennilessDb deniedHistory).HoldEnds 0 := by
  have hadmits : admits step (fun _ _ => true) pennilessDb deniedHistory = true := by decide +kernel
  have hrun : ∃ run ∈ (replay step pennilessDb deniedHistory).runs, run.id = 0 ∧
      run.isHeld = true := by
    decide +kernel
  obtain ⟨run, hmem, hid, hheld⟩ := hrun
  exact spend_hold_never_ends pennilessDb_fresh
    ((reach_replay deniedHistory pennilessDb hadmits).mono fun _ _ _ => trivial)
    (Table.get?_eq_some.mpr ⟨hmem, hid⟩) hheld

/-- The hold is not released even though the budget can be had for the asking. -/
theorem spend_hold_traps :
    ¬ ∀ (db s : Db) (r : Nat) (run : PipelineRun), db.Fresh → Reach Steps (fun _ _ => True) db s →
        s.runs.get? r = some run → run.isHeld = true → s.HoldEnds r := by
  intro h
  have hadmits : admits step (fun _ _ => true) pennilessDb deniedHistory = true := by decide +kernel
  have hreach : Reach Steps (fun _ _ => True) pennilessDb (replay step pennilessDb deniedHistory) :=
    (reach_replay deniedHistory pennilessDb hadmits).mono fun _ _ _ => trivial
  have hrun : ∃ run ∈ (replay step pennilessDb deniedHistory).runs, run.id = 0 ∧
      run.isHeld = true := by
    decide +kernel
  obtain ⟨run, hmem, hid, hheld⟩ := hrun
  have hget := Table.get?_eq_some.mpr ⟨hmem, hid⟩
  exact (history_sound pennilessDb_fresh.sound hreach).not_holdEnds hget hheld
    (h _ _ 0 run pennilessDb_fresh hreach hget hheld)

end ContentOrchestrator

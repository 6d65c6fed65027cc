import ContentOrchestrator.Orchestration.RunInvariants

/-! # What the operator's retry restores

Three writers put a run and a stage into a dead letter: a failed stage names the run and
leaves the stage in the text of the job type, an exhausted recovery names the assignment,
and a job given up names itself. The retry request reads all three back the same way, so
it finds the stage of a recovered assignment alone; and it meets that assignment once more
among the failed ones. -/

namespace ContentOrchestrator

open Lib

variable {s t : Db} {workspaceId r : Nat} {stage : ContentStage}

/-! ## What the writers encode -/

/-- The letter is about this stage of this run, as one of its writers has put it. -/
inductive Encodes (db : Db) (entry : DeadLetterJob) : Nat → ContentStage → Prop
  | stageFailure {runId : Nat} {stage : ContentStage} {text : String}
      (table : entry.relatedTable = "pipeline_runs") (names : entry.relatedId = .run runId)
      (written : text = stage.formatted ∨ text = stage.value)
      (jobType : entry.jobType = "stage:" ++ text) :
      Encodes db entry runId stage
  | recovery {a : StageAssignment} (table : entry.relatedTable = "stage_assignments")
      (names : entry.relatedId = .assignment a.id) (stored : db.assignments.get? a.id = some a)
      (jobType : entry.jobType = "stage:" ++ a.stage.formatted) :
      Encodes db entry a.pipelineRunId a.stage
  | exhaustion {job : JobSchedule} {runId : Nat} {stage : ContentStage}
      (table : entry.relatedTable = "job_schedule") (names : entry.relatedId = .job job.id)
      (stored : db.jobs.get? job.id = some job) (run : job.refId = .run runId)
        (ref : job.refTable = stage.value)
      (jobType : entry.jobType = "stage_dispatch:" ++ job.refTable) :
      Encodes db entry runId stage

/-! ## What the request reads -/

/-- The run and the stage text the request takes from a letter. -/
def decodedWork (db : Db) (entry : DeadLetterJob) : Option (Nat × String) :=
  (deadLetterTarget db entry).map fun target => (target.1.id, target.2)

def retriable (db : Db) (workspaceId runId : Nat) : Bool :=
  (db.runs.get? runId).any (·.isRetryableIn workspaceId)

theorem retriable_run (h : retriable s workspaceId r = true) :
    ∃ run, s.runs.get? r = some run ∧ run.id = r ∧ run.isRetryableIn workspaceId = true := by
  obtain ⟨run, hrun, hok⟩ := (Option.any_eq_true _ _).mp h
  exact ⟨run, hrun, (Table.get?_eq_some.mp hrun).2, hok⟩

theorem prefixed_ne_value (stage : ContentStage) (text : String) :
    "stage:" ++ text ≠ stage.value := by
  intro h
  have hlist := congrArg String.toList h
  rw [String.toList_append] at hlist
  cases stage <;> simp [ContentStage.value] at hlist

/-- **Only the letters of recovered assignments are read back as they were written.** -/
theorem decodedWork_eq_iff {e : DeadLetterJob} (h : Encodes s e r stage)
    (hretriable : retriable s workspaceId r = true) :
    decodedWork s e = some (r, stage.value) ↔ e.relatedTable = "stage_assignments" := by
  obtain ⟨run, hrun, hid, -⟩ := retriable_run hretriable
  cases h with
  | stageFailure table names written jobType =>
    rw [table, decodedWork, deadLetterTarget, names]
    simp only [hrun, Option.map_some, jobType, Option.some.injEq, Prod.mk.injEq]
    exact ⟨fun h => absurd h.2 (prefixed_ne_value _ _), fun h => absurd h (by decide)⟩
  | recovery table names stored jobType =>
    rw [table, decodedWork, deadLetterTarget, names]
    simp [stored, hrun, hid]
  | exhaustion table names stored ref jobType =>
    rw [table, decodedWork, deadLetterTarget, names]
    constructor
    · intro h
      cases h
    · intro h
      exact absurd h (by decide)

/-! ## What the request queues -/

/-- The retry jobs of the run that the later state has in addition. -/
def newRetries (s t : Db) (runId : Nat) : List JobSchedule :=
  t.jobs.select fun j =>
    decide (s.jobs.next ≤ j.id) && (j.jobType == .retry && j.refId == .run runId)

/-- A failed run set running. -/
def PipelineRun.revived (run : PipelineRun) : PipelineRun :=
  if run.status = .failed then (PipelineRun.setStatus .running).apply run else run

theorem PipelineRun.revived_revived (run : PipelineRun) : run.revived.revived = run.revived := by
  unfold revived
  split
  · rw [if_neg (by simp [PipelineRun.setStatus])]
  · rfl

theorem reviveRun_runs {run : PipelineRun} (hrun : s.runs.get? run.id = some run) (runId : Nat) :
    (reviveRun run s).runs.get? runId =
      if runId = run.id then some run.revived else s.runs.get? runId := by
  unfold reviveRun PipelineRun.revived
  split
  · rw [modifyRun_frame.1, Table.get?_modify, hrun]
    rfl
  · split
    · rename_i h
      rw [h, hrun]
    · rfl

/-- One new job for every target, at its text. -/
theorem Revivals.newRetries {targets : List RetryTarget} (h : Revivals workspaceId s targets t) :
    s.jobs.next ≤ t.jobs.next ∧
      (newRetries s t r).map (·.refTable) = (targets.filter (·.runId == r)).map (·.stageKey) := by
  induction h with
  | nothing same =>
    unfold ContentOrchestrator.newRetries
    rw [same.jobs]
    refine ⟨Nat.le_refl _, ?_⟩
    rw [Table.select_eq_nil.mpr
      fun j hj => by simp [Nat.not_le.mpr (show j.id < _ from Table.key_lt hj)]]
    rfl
  | @more targets target t u before once ih =>
    obtain ⟨run, attempt, hrun, -, hsame⟩ := once
    have hid : run.id = target.runId := (Table.get?_eq_some.mp hrun).2
    have hjobs := hsame.jobs
    simp only [enqueueOperatorRetry, reviveRun_frame] at hjobs
    obtain ⟨hnext, hmap⟩ := ih
    unfold ContentOrchestrator.newRetries at hmap ⊢
    rw [hjobs, Table.select_insert, List.filter_append, List.map_append, List.map_append, hmap]
    refine ⟨Nat.le_succ_of_le hnext, congrArg _ ?_⟩
    by_cases hr : target.runId = r
    · simp [hid, hr, hnext]
    · simp [hid, hr]

/-- The runs of the targets are set running, and no other run changes. -/
theorem Revivals.runs_revived {targets : List RetryTarget} (h : Revivals workspaceId s targets t) :
    t.runs.get? r = (s.runs.get? r).map fun run =>
      if targets.any (·.runId == r) then run.revived else run := by
  induction h with
  | nothing same => simp [same.runs]
  | @more targets target t u before once ih =>
    obtain ⟨run, attempt, hrun, -, hsame⟩ := once
    have hid : run.id = target.runId := (Table.get?_eq_some.mp hrun).2
    rw [hsame.runs, enqueueOperatorRetry, reviveRun_runs (hid ▸ hrun), List.any_append]
    by_cases hr : target.runId = r
    · subst hr
      rw [if_pos hid.symm]
      rw [hrun] at ih
      cases hbefore : s.runs.get? target.runId with
      | none => simp [hbefore] at ih
      | some old =>
        rw [hbefore, Option.map_some, Option.some.injEq] at ih
        rw [ih]
        split <;> simp [PipelineRun.revived_revived]
    · rw [if_neg fun h => hr (by rw [← hid, h]), ih]
      simp [hr]

/-! ## The failed stages -/

/-- A stage the request has to restore: a letter is about it, or an assignment of the last days
failed at it and no retry is waiting for its run. -/
inductive FailedStage (s : Db) (workspaceId runId : Nat) (stage : ContentStage) : Prop
  | lettered {e : DeadLetterJob} (pending : e ∈ pendingDeadLetters s workspaceId)
      (about : Encodes s e runId stage) : FailedStage s workspaceId runId stage
  | failed {a : StageAssignment} (recent : a ∈ recentFailures s workspaceId)
      (free : hasStoredRetry s workspaceId runId = false) (run : a.pipelineRunId = runId)
      (stands : a.stage = stage) : FailedStage s workspaceId runId stage

/-- Every pending letter was put by one of the three writers, about a run that can be retried. -/
def LettersRetriable (s : Db) (workspaceId : Nat) : Prop :=
  ∀ e ∈ pendingDeadLetters s workspaceId, ∃ runId stage, Encodes s e runId stage ∧
    retriable s workspaceId runId = true

/-- **What the retry owes.** -/
structure Restores (workspaceId : Nat) (s t : Db) : Prop where
  decoded : ∀ e ∈ pendingDeadLetters s workspaceId, ∀ runId stage, Encodes s e runId stage →
    decodedWork s e = some (runId, stage.value)
  running : ∀ runId stage, FailedStage s workspaceId runId stage →
    retriable s workspaceId runId = true →
    ∃ run, t.runs.get? runId = some run ∧ run.status = .running
  once : ∀ runId stage, FailedStage s workspaceId runId stage →
    retriable s workspaceId runId = true →
    (newRetries s t runId).countP (·.refTable == stage.value) = 1
  only : ∀ runId, retriable s workspaceId runId = true → ∀ j ∈ newRetries s t runId,
    ∃ stage, FailedStage s workspaceId runId stage ∧ j.refTable = stage.value
  requeued : ∀ e ∈ pendingDeadLetters s workspaceId, ∀ runId stage, Encodes s e runId stage →
    ∀ e', t.deadLetters.get? e.id = some e' → e'.status = .resolved →
      ∃ j ∈ newRetries s t runId, j.refTable = stage.value

/-! ## The assignments it goes through -/

def letterAssignment (db : Db) (entry : DeadLetterJob) : Option StageAssignment :=
  match entry.relatedId with
  | .assignment assignmentId => db.assignments.get? assignmentId
  | _ => none

/-- The failed assignment is taken up by the second loop. -/
def takesUp (s : Db) (workspaceId : Nat) (a : StageAssignment) : Bool :=
  !hasStoredRetry s workspaceId a.pipelineRunId && retriable s workspaceId a.pipelineRunId

/-- The assignments behind the letters, then the failed ones the second loop takes up. -/
def foundFailures (s : Db) (workspaceId : Nat) : List StageAssignment :=
  (pendingDeadLetters s workspaceId).filterMap (letterAssignment s) ++
    (recentFailures s workspaceId).filter (takesUp s workspaceId)

def StageAssignment.place (a : StageAssignment) : Nat × ContentStage := (a.pipelineRunId, a.stage)

def StageAssignment.retried (a : StageAssignment) : RetryTarget := ⟨a.pipelineRunId, a.stage.value⟩

/-- Every letter comes from a recovery, every run found is failed or running, and no stage of a run
is found twice: the assignment behind a letter is not among the failed ones of the last days, unless
a retry waits. -/
structure FoundOnce (s : Db) (workspaceId : Nat) : Prop where
  byRecovery : ∀ e ∈ pendingDeadLetters s workspaceId, e.relatedTable = "stage_assignments"
  active : ∀ a ∈ foundFailures s workspaceId, ∀ run, s.runs.get? a.pipelineRunId = some run →
    run.status = .failed ∨ run.status = .running
  distinct : ((foundFailures s workspaceId).map StageAssignment.place).Nodup

theorem Encodes.letterAssignment {e : DeadLetterJob} (h : Encodes s e r stage)
    (htable : e.relatedTable = "stage_assignments") :
    ∃ a, letterAssignment s e = some a ∧ a.pipelineRunId = r ∧ a.stage = stage := by
  cases h with
  | stageFailure table =>
    rw [table] at htable
    exact absurd htable (by decide)
  | @recovery a table names stored jobType =>
    refine ⟨a, ?_, rfl, rfl⟩
    rw [ContentOrchestrator.letterAssignment, names]
    exact stored
  | exhaustion table =>
    rw [table] at htable
    exact absurd htable (by decide)

theorem retryTarget_retriable {a : StageAssignment} :
    ((s.runs.get? a.pipelineRunId).bind fun run => retryTarget workspaceId run a.stage.value) =
      if retriable s workspaceId a.pipelineRunId then some a.retried else none := by
  unfold retriable retryTarget StageAssignment.retried
  cases hrun : s.runs.get? a.pipelineRunId with
  | none => rfl
  | some run =>
    rw [← (Table.get?_eq_some.mp hrun).2]
    rfl

theorem deadLetterRetry_recovered {e : DeadLetterJob} {a : StageAssignment}
    (ha : letterAssignment s e = some a)
    (hretriable : retriable s workspaceId a.pipelineRunId = true) :
    deadLetterRetry s workspaceId e = some a.retried := by
  unfold letterAssignment at ha
  split at ha
  · rename_i assignmentId hnames
    have hread : deadLetterRetry s workspaceId e =
        (s.runs.get? a.pipelineRunId).bind fun run =>
          retryTarget workspaceId run a.stage.value := by
      unfold deadLetterRetry deadLetterTarget
      rw [hnames]
      simp only [ha, Option.bind_eq_bind, Option.bind_some]
      cases s.runs.get? a.pipelineRunId <;> rfl
    rw [hread, retryTarget_retriable, if_pos hretriable]
  · cases ha

theorem failedAssignmentRetry_takesUp {a : StageAssignment} :
    failedAssignmentRetry s s workspaceId a = if takesUp s workspaceId a then some a.retried
      else none := by
  unfold failedAssignmentRetry takesUp
  rw [retryTarget_retriable]
  cases hasStoredRetry s workspaceId a.pipelineRunId <;> rfl

/-- With letters of recoveries only, the targets are the assignments found. -/
theorem retryTargets_eq (h : LettersRetriable s workspaceId)
    (hrecovery : ∀ e ∈ pendingDeadLetters s workspaceId, e.relatedTable = "stage_assignments") :
    retryTargets s workspaceId = (foundFailures s workspaceId).map StageAssignment.retried := by
  unfold retryTargets foundFailures
  rw [List.map_append, List.map_filterMap]
  refine congrArg₂ _ (List.filterMap_congr fun e he => ?_) ?_
  · obtain ⟨runId, stage, habout, hretriable⟩ := h e he
    obtain ⟨a, ha, rfl, rfl⟩ := habout.letterAssignment (hrecovery e he)
    rw [deadLetterRetry_recovered ha hretriable, ha]
    rfl
  · rw [← List.filterMap_eq_map, List.filterMap_filter]
    exact List.filterMap_congr fun a _ => failedAssignmentRetry_takesUp

theorem foundFailures_retriable (h : LettersRetriable s workspaceId)
    (hrecovery : ∀ e ∈ pendingDeadLetters s workspaceId, e.relatedTable = "stage_assignments")
    {a : StageAssignment} (ha : a ∈ foundFailures s workspaceId) :
    FailedStage s workspaceId a.pipelineRunId a.stage ∧
      retriable s workspaceId a.pipelineRunId = true := by
  rcases List.mem_append.mp ha with ha | ha
  · obtain ⟨e, he, hletter⟩ := List.mem_filterMap.mp ha
    obtain ⟨runId, stage, habout, hretriable⟩ := h e he
    obtain ⟨b, hb, rfl, rfl⟩ := habout.letterAssignment (hrecovery e he)
    cases Option.some.inj (hb.symm.trans hletter)
    exact ⟨.lettered he habout, hretriable⟩
  · obtain ⟨hrecent, htakes⟩ := List.mem_filter.mp ha
    simp only [takesUp, Bool.and_eq_true, Bool.not_eq_true'] at htakes
    exact ⟨.failed hrecent htakes.1 rfl rfl, htakes.2⟩

theorem FailedStage.found
    (hrecovery : ∀ e ∈ pendingDeadLetters s workspaceId, e.relatedTable = "stage_assignments")
    (h : FailedStage s workspaceId r stage) (hretriable : retriable s workspaceId r = true) :
    ∃ a ∈ foundFailures s workspaceId, a.pipelineRunId = r ∧ a.stage = stage := by
  cases h with
  | lettered pending about =>
    obtain ⟨a, ha, hplace⟩ := about.letterAssignment (hrecovery _ pending)
    exact ⟨a, List.mem_append_left _ (List.mem_filterMap.mpr ⟨_, pending, ha⟩), hplace⟩
  | @failed a recent free run stands =>
    refine ⟨a, List.mem_append_right _ (List.mem_filter.mpr ⟨recent, ?_⟩), run, stands⟩
    rw [takesUp, run, free, hretriable]
    rfl

/-- The new jobs of a run at a stage are counted by the assignments found there. -/
theorem count_newRetries {found : List StageAssignment}
    (h : Revivals workspaceId s (found.map StageAssignment.retried) t) :
    (newRetries s t r).countP (·.refTable == stage.value) =
      (found.map StageAssignment.place).count (r, stage) := by
  have htexts : (newRetries s t r).countP (·.refTable == stage.value) =
      ((newRetries s t r).map (·.refTable)).countP (· == stage.value) := by
    rw [List.countP_map]
    rfl
  rw [htexts, h.newRetries.2, List.countP_map, List.countP_filter, List.countP_map, List.count,
    List.countP_map]
  refine List.countP_congr fun a _ => ?_
  simp only [Function.comp, StageAssignment.retried, StageAssignment.place, Bool.and_eq_true,
    beq_iff_eq, Prod.mk.injEq]
  exact ⟨fun h => ⟨h.2, ContentStage.value_injective h.1⟩, fun h => ⟨congrArg _ h.2, h.1⟩⟩

theorem revived_running_iff {run : PipelineRun} :
    run.revived.status = .running ↔ run.status = .failed ∨ run.status = .running := by
  unfold PipelineRun.revived
  split
  · rename_i h
    simp [PipelineRun.setStatus, h]
  · rename_i h
    simp [h]

/-- The run of an assignment found ends up revived. -/
theorem Revivals.run_of_found {found : List StageAssignment} {a : StageAssignment}
    {run : PipelineRun} (h : Revivals workspaceId s (found.map StageAssignment.retried) t)
    (ha : a ∈ found) (hrun : s.runs.get? a.pipelineRunId = some run) :
    t.runs.get? a.pipelineRunId = some run.revived := by
  rw [h.runs_revived, hrun, Option.map_some, if_pos]
  exact List.any_eq_true.mpr ⟨_, List.mem_map_of_mem ha, beq_self_eq_true _⟩

/-- **When a retry restores what failed**: exactly when every pending letter was put by a recovery,
every run found is failed or running, and no stage is found a second time. -/
theorem retry_restores_iff (h : LettersRetriable s workspaceId) :
    Restores workspaceId s (retryFailedJobs workspaceId s) ↔ FoundOnce s workspaceId := by
  have hrevivals : Revivals workspaceId s (retryTargets s workspaceId)
      (retryFailedJobs workspaceId s) :=
    retryFailedJobs_revivals
  constructor
  · intro hrestores
    have hrecovery :
        ∀ e ∈ pendingDeadLetters s workspaceId, e.relatedTable = "stage_assignments" := by
      intro e he
      obtain ⟨runId, stage, habout, hretriable⟩ := h e he
      exact (decodedWork_eq_iff habout hretriable).mp (hrestores.decoded e he runId stage habout)
    rw [retryTargets_eq h hrecovery] at hrevivals
    refine ⟨hrecovery, fun a ha run hrun => ?_,
      List.nodup_iff_count_eq_one.mpr fun place hplace => ?_⟩
    · obtain ⟨hfailed, hretriable⟩ := foundFailures_retriable h hrecovery ha
      obtain ⟨after, hafter, hrunning⟩ := hrestores.running _ _ hfailed hretriable
      rw [hrevivals.run_of_found ha hrun, Option.some.injEq] at hafter
      exact revived_running_iff.mp (hafter ▸ hrunning)
    · obtain ⟨a, ha, rfl⟩ := List.mem_map.mp hplace
      obtain ⟨hfailed, hretriable⟩ := foundFailures_retriable h hrecovery ha
      exact (count_newRetries hrevivals).symm.trans (hrestores.once _ _ hfailed hretriable)
  · rintro ⟨hrecovery, hactive, hdistinct⟩
    rw [retryTargets_eq h hrecovery] at hrevivals
    have honce : ∀ runId stage, FailedStage s workspaceId runId stage →
        retriable s workspaceId runId = true →
        (newRetries s (retryFailedJobs workspaceId s) runId).countP (·.refTable == stage.value) =
          1 := by
      intro runId stage hfailed hretriable
      obtain ⟨a, ha, rfl, rfl⟩ := hfailed.found hrecovery hretriable
      rw [count_newRetries hrevivals]
      exact List.nodup_iff_count_eq_one.mp hdistinct _ (List.mem_map_of_mem ha)
    have hsame : ∀ e ∈ pendingDeadLetters s workspaceId, ∀ runId stage, Encodes s e runId stage →
        retriable s workspaceId runId = true := by
      intro e he runId stage habout
      obtain ⟨runId', stage', habout', hretriable⟩ := h e he
      obtain ⟨a, ha, rfl, -⟩ := habout.letterAssignment (hrecovery e he)
      obtain ⟨a', ha', rfl, -⟩ := habout'.letterAssignment (hrecovery e he)
      cases Option.some.inj (ha.symm.trans ha')
      exact hretriable
    refine ⟨fun e he runId stage habout => ?_, fun runId stage hfailed hretriable => ?_, honce,
      fun runId hretriable j hj => ?_, fun e he runId stage habout _ _ _ => ?_⟩
    · exact (decodedWork_eq_iff habout (hsame e he runId stage habout)).mpr (hrecovery e he)
    · obtain ⟨a, ha, rfl, rfl⟩ := hfailed.found hrecovery hretriable
      obtain ⟨run, hrun, -⟩ := retriable_run hretriable
      exact ⟨_, hrevivals.run_of_found ha hrun, revived_running_iff.mpr (hactive a ha run hrun)⟩
    · have htext : j.refTable ∈ (newRetries s (retryFailedJobs workspaceId s) runId).map
          (·.refTable) :=
        List.mem_map_of_mem hj
      rw [hrevivals.newRetries.2] at htext
      obtain ⟨target, htarget, hread⟩ := List.mem_map.mp htext
      obtain ⟨hmem, hrun⟩ := List.mem_filter.mp htarget
      obtain ⟨a, ha, rfl⟩ := List.mem_map.mp hmem
      cases beq_iff_eq.mp hrun
      exact ⟨a.stage, (foundFailures_retriable h hrecovery ha).1, hread.symm⟩
    · have hcount := honce runId stage (.lettered he habout) (hsame e he runId stage habout)
      obtain ⟨j, hj, htext⟩ := List.countP_pos_iff.mp (hcount ▸ Nat.one_pos)
      exact ⟨j, hj, beq_iff_eq.mp htext⟩

/-- The only stage is lost three times, and the last recovery gives it up. -/
def givenUpHistory : List Op :=
  [.startRun 0 0 0, .poll 10 [], .processJob 0 [] 0, .recover 0 .leaseExpired, .claim 0 none [],
   .recover 0 .leaseExpired, .claim 0 none [], .recover 0 .leaseExpired]

/-- A recovery's letter, about a run that can be retried. -/
def isRecoveryLetter (s : Db) (workspaceId : Nat) (e : DeadLetterJob) : Bool :=
  e.relatedTable == "stage_assignments" && (letterAssignment s e).any fun a =>
    e.relatedId == .assignment a.id && e.jobType == "stage:" ++ a.stage.formatted &&
      retriable s workspaceId a.pipelineRunId

theorem lettersRetriable_of_recoveries
    (h : ∀ e ∈ pendingDeadLetters s workspaceId, isRecoveryLetter s workspaceId e = true) :
    LettersRetriable s workspaceId := by
  intro e he
  have hletter := h e he
  simp only [isRecoveryLetter, Bool.and_eq_true, beq_iff_eq] at hletter
  obtain ⟨htable, hfound⟩ := hletter
  obtain ⟨a, ha, hchecks⟩ := (Option.any_eq_true _ _).mp hfound
  simp only [Bool.and_eq_true, beq_iff_eq] at hchecks
  rw [letterAssignment, hchecks.1.1] at ha
  exact ⟨_, _, .recovery htable hchecks.1.1 ha hchecks.1.2, hchecks.2⟩

/-- Eight days later the failed assignment is out of the second loop's reach. -/
theorem retry_restores_iff_late :
    Restores 0 (replay step demoDb (givenUpHistory ++ [elapse (days 8)]))
      (retryFailedJobs 0 (replay step demoDb (givenUpHistory ++ [elapse (days 8)]))) := by
  refine (retry_restores_iff (lettersRetriable_of_recoveries (by decide +kernel))).mpr
    ⟨by decide +kernel, ?_,
    by decide +kernel⟩
  have hactive : ∀ a ∈ foundFailures (replay step demoDb (givenUpHistory ++ [elapse (days 8)])) 0,
      ((replay step demoDb (givenUpHistory ++ [elapse (days 8)])).runs.get? a.pipelineRunId).any
        (·.status == .failed) = true := by
    decide +kernel
  intro a ha run hrun
  have hfailed := hactive a ha
  rw [hrun] at hfailed
  exact .inl (beq_iff_eq.mp hfailed)

/-- The only stage fails with an error that is not retried. -/
def rejectedInputHistory : List Op :=
  [.startRun 0 0 0, .poll 10 [], .processJob 0 [] 0,
   .submit 0 false none "invalid input" (some 0) 0]

/-- The letter of a failed stage is read back as a stage there is not; and the letter of a given-up
assignment is retried twice, once for the letter and once for the assignment. -/
theorem retry_misreads_and_repeats :
    (¬ ∀ s workspaceId, Reach Steps (fun _ _ => True) demoDb s → LettersRetriable s workspaceId →
      Restores workspaceId s (retryFailedJobs workspaceId s)) ∧
    LettersRetriable (replay step demoDb givenUpHistory) 0 ∧
    (newRetries (replay step demoDb givenUpHistory)
    (retryFailedJobs 0 (replay step demoDb givenUpHistory)) 0).map
      (·.refTable) = ["idea", "idea"] := by
  refine ⟨fun h => ?_, lettersRetriable_of_recoveries (by decide +kernel), by decide +kernel⟩
  have hletters : ∀ e ∈ pendingDeadLetters (replay step demoDb rejectedInputHistory) 0,
      e.relatedTable = "pipeline_runs" ∧ e.relatedId = .run 0 ∧
        e.jobType = "stage:" ++ ContentStage.idea.formatted := by
    decide +kernel
  have habout : ∀ e ∈ pendingDeadLetters (replay step demoDb rejectedInputHistory) 0,
      Encodes (replay step demoDb rejectedInputHistory) e 0 .idea := fun e he =>
    .stageFailure (hletters e he).1 (hletters e he).2.1 (.inl rfl) (hletters e he).2.2
  have hrestores := h _ 0 (reach_any rejectedInputHistory demoDb)
    fun e he => ⟨0, .idea, habout e he, by decide +kernel⟩
  have hread : ∃ e ∈ pendingDeadLetters (replay step demoDb rejectedInputHistory) 0,
      decodedWork (replay step demoDb rejectedInputHistory) e =
        some (0, "stage:ContentStage.IDEA") := by
    decide +kernel
  obtain ⟨e, he, hdecoded⟩ := hread
  have hidea := hrestores.decoded e he 0 .idea (habout e he)
  rw [hdecoded] at hidea
  exact absurd hidea (by decide)

end ContentOrchestrator

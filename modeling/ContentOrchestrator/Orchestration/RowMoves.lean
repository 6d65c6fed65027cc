import ContentOrchestrator.Orchestration.TableInvariants

/-! # What an operation makes of a run and of a gate

A run keeps its workspace, item and definition for good. Its status and cursor are
moved by a worker's result, a verdict, a lost lease, a cancellation, a spend hold or an
operator's retry, and by nothing else. A gate row changes once at most: by the verdict
on it, or by its first timeout. -/

namespace ContentOrchestrator

open Lib

variable {s t : Db}

/-! ## Runs -/

/-- The run as it was created. -/
structure SameRun (run run' : PipelineRun) : Prop where
  id : run'.id = run.id
  workspaceId : run'.workspaceId = run.workspaceId
  contentItemId : run'.contentItemId = run.contentItemId
  definitionId : run'.definitionId = run.definitionId
  idempotencyKey : run'.idempotencyKey = run.idempotencyKey

theorem SameRun.refl (run : PipelineRun) : SameRun run run := ⟨rfl, rfl, rfl, rfl, rfl⟩

theorem SameRun.trans {a b c : PipelineRun} (h : SameRun a b) (h' : SameRun b c) : SameRun a c :=
  ⟨h'.id.trans h.id, h'.workspaceId.trans h.workspaceId, h'.contentItemId.trans h.contentItemId,
    h'.definitionId.trans h.definitionId, h'.idempotencyKey.trans h.idempotencyKey⟩

/-- Only this run's row changes. -/
structure Touches (runId : Nat) (run run' : PipelineRun) : Prop where
  same : SameRun run run'
  other : run.id ≠ runId → run' = run

/-- The table holds the same runs, and only one of them may have changed. -/
def TouchesOnly (runId : Nat) (s t : Table PipelineRun) : Prop :=
  Table.Evolves (Touches runId) (fun _ => False) s t

namespace TouchesOnly

variable {runId : Nat} {a b c : Table PipelineRun}

theorem of_eq (h : b = a) : TouchesOnly runId a b :=
  Table.Evolves.of_eq (fun run => ⟨.refl run, fun _ => rfl⟩) h

theorem modify {u : Update PipelineRun} (hu : ∀ run, SameRun run (u.apply run))
    (h : b = a.modify runId u) : TouchesOnly runId a b := by
  refine Table.Evolves.modify (fun run => ⟨.refl run, fun _ => rfl⟩) (fun run hrun => ?_) h
  have hid : run.id = runId := (Table.get?_eq_some.mp hrun).2
  exact ⟨hu run, fun hne => absurd hid hne⟩

theorem trans (h : TouchesOnly runId a b) (h' : TouchesOnly runId b c) : TouchesOnly runId a c := by
  refine Table.Evolves.trans (fun x y z hxy hyz => ⟨hxy.same.trans hyz.same, fun hne => ?_⟩)
    (fun _ _ hnone _ => hnone) h h'
  have hy : y = x := hxy.other hne
  have hz : z = y := hyz.other (by rw [hy]; exact hne)
  rw [hz, hy]

end TouchesOnly

theorem sameRun_finish {status : PipelineRunStatus} {now : Nat} (run : PipelineRun) :
    SameRun run ((PipelineRun.finish status now).apply run) := ⟨rfl, rfl, rfl, rfl, rfl⟩

theorem sameRun_setStatus {status : PipelineRunStatus} (run : PipelineRun) :
    SameRun run ((PipelineRun.setStatus status).apply run) := ⟨rfl, rfl, rfl, rfl, rfl⟩

theorem sameRun_moveTo {stage : ContentStage} (run : PipelineRun) :
    SameRun run ((PipelineRun.moveTo stage).apply run) := ⟨rfl, rfl, rfl, rfl, rfl⟩

theorem sameRun_pauseForReview (run : PipelineRun) :
    SameRun run (PipelineRun.pauseForReview.apply run) :=
  ⟨rfl, rfl, rfl, rfl, rfl⟩

theorem sameRun_clearPause (run : PipelineRun) : SameRun run (PipelineRun.clearPause.apply run) :=
  ⟨rfl, rfl, rfl, rfl, rfl⟩

theorem sameRun_resume (run : PipelineRun) : SameRun run (PipelineRun.resume.apply run) :=
  ⟨rfl, rfl, rfl, rfl, rfl⟩

theorem Advanced.runs {run : PipelineRun} {stage : ContentStage}
    {trigger : WorkflowTransitionTrigger} {context : List (String × Json)}
    {stored : Table ReviewGate} (h : Advanced run stage trigger context stored s t) :
    TouchesOnly run.id s.runs t.runs := by
  have hmove : ∀ stage, TouchesOnly run.id s.runs
      (modifyRun run.id (PipelineRun.moveTo stage) s).runs :=
    fun _ => .modify sameRun_moveTo rfl
  cases h with
  | finished _ _ =>
    exact (TouchesOnly.modify sameRun_finish rfl).trans (.modify sameRun_moveTo succeedRun_frame.1)
  | queued _ _ => exact hmove _
  | gated _ _ _ _ => exact (hmove _).trans (.modify sameRun_pauseForReview openReviewGate_frame.1)
  | kept _ _ _ _ => exact hmove _

theorem FailureHandled.runs {run : PipelineRun} {stage : ContentStage} {attempt : Nat}
    {message : String} (h : FailureHandled run stage attempt message s t) :
    TouchesOnly run.id s.runs t.runs := by
  have hfail : TouchesOnly run.id s.runs (failStage run stage attempt message s).runs :=
    .modify sameRun_finish failRun_frame.1
  cases h with
  | retried _ _ _ _ => exact .of_eq (by simp)
  | failed => exact hfail
  | @compensated stages =>
    have hbegin : TouchesOnly run.id s.runs (modifyRun run.id (PipelineRun.setStatus .compensating)
        (failStage run stage attempt message s)).runs := hfail.trans (.modify sameRun_setStatus rfl)
    refine hbegin.trans (.modify (u := PipelineRun.setStatus .failed) sameRun_setStatus ?_)
    simp only [modifyRun_frame, enqueueCompensations_frame]

/-- Closing and settling an attempt leaves the runs, the queue and the gates alone. -/
theorem settled_frame {a : StageAssignment} {run : PipelineRun}
    {result : Option (List (String × Json))} {s1 : Db}
    (h : newestOpenReservation (recordSuccess a result s) run.id a.stage = none ∧
        s1 = recordSuccess a result s ∨
      ∃ v cost, newestOpenReservation (recordSuccess a result s) run.id a.stage = some v ∧
        s1 = commitReservation run v cost (recordSuccess a result s)) :
    s1.runs = s.runs ∧ s1.jobs = s.jobs ∧ s1.gates = s.gates ∧ s1.config = s.config := by
  rcases h with ⟨_, rfl⟩ | ⟨_, _, _, rfl⟩
  · exact ⟨by simp [recordSuccess], by simp [recordSuccess], by simp [recordSuccess],
           recordSuccess_config⟩
  · exact ⟨by simp [recordSuccess], by simp [recordSuccess], by simp [recordSuccess],
      commitReservation_config.trans recordSuccess_config⟩

theorem Submitted.runs {a : StageAssignment} {result : Option (List (String × Json))}
    {success : Bool} {message : String} (h : Submitted a result message s success t) :
    TouchesOnly a.pipelineRunId s.runs t.runs := by
  cases h with
  | orphaned _ => exact .of_eq (by simp)
  | @succeeded run s1 _ found _ settled advanced =>
    have hid : run.id = a.pipelineRunId := (Table.get?_eq_some.mp found).2
    have hs1 : s1.runs = s.runs := (settled_frame settled).1
    rcases advanced with ⟨_, rfl⟩ | ⟨_, ha⟩
    · exact .of_eq hs1
    · have hruns := ha.runs
      rw [hid, hs1] at hruns
      exact hruns
  | @failed run s1 _ found _ settled handled =>
    have hid : run.id = a.pipelineRunId := (Table.get?_eq_some.mp found).2
    have hs1 : s1.runs = s.runs := by
      rcases settled with ⟨_, rfl⟩ | ⟨_, _, rfl⟩ <;> simp [recordFailedAttempt]
    have hruns := handled.runs
    rw [hid, hs1] at hruns
    exact hruns

theorem Resumed.runs {gate : ReviewGate} {approved : Bool} (h : Resumed gate approved s t) :
    TouchesOnly gate.pipelineRunId s.runs t.runs := by
  have hresume : ∀ {run : PipelineRun}, s.runs.get? gate.pipelineRunId = some run →
      run.id = gate.pipelineRunId ∧
        TouchesOnly run.id s.runs (resumeRun gate approved run.id s).runs :=
    fun found => ⟨(Table.get?_eq_some.mp found).2, .modify sameRun_resume rfl⟩
  cases h with
  | @rejected run found _ =>
    have hid : run.id = gate.pipelineRunId := (Table.get?_eq_some.mp found).2
    rw [← hid]
    have hclear : TouchesOnly run.id s.runs (s.runs.modify run.id PipelineRun.clearPause) :=
      .modify sameRun_clearPause rfl
    exact hclear.trans (.modify sameRun_finish failRun_frame.1)
  | advanced found _ advanced =>
    obtain ⟨hid, htouch⟩ := hresume found
    exact hid ▸ htouch.trans advanced.runs
  | stuck found _ raised =>
    obtain ⟨hid, htouch⟩ := hresume found
    rw [← hid]
    rcases (advanceOrFinish_raises raised).1 with rfl | ⟨_, _, _, _, rfl⟩
    · exact htouch
    · exact htouch.trans (.modify sameRun_moveTo rfl)
  | unrouted _ _ => exact .of_eq rfl
  | unloaded => exact .of_eq rfl

theorem FailureHandled.cursor {run row row' : PipelineRun} {stage : ContentStage} {attempt : Nat}
    {message : String} (h : FailureHandled run stage attempt message s t)
    (hrow : s.runs.get? run.id = some row) (hrow' : t.runs.get? run.id = some row') :
    row'.currentStage = row.currentStage := by
  have hfail : (failStage run stage attempt message s).runs.get? run.id =
      some ((PipelineRun.finish .failed s.now).apply row) := by
    have hruns : (failStage run stage attempt message s).runs =
        s.runs.modify run.id (PipelineRun.finish .failed s.now) := failRun_frame.1
    rw [hruns]
    exact Table.get?_modified _ hrow
  cases h with
  | retried _ _ _ _ =>
    have hsame : s.runs.get? run.id = some row' := by simpa using hrow'
    rw [hrow] at hsame
    cases hsame
    rfl
  | failed =>
    rw [hfail] at hrow'
    cases hrow'
    rfl
  | compensated =>
    simp only [modifyRun_frame, enqueueCompensations_frame, Table.get?_modify, if_true, hfail,
      Option.map_some, Option.some.injEq] at hrow'
    cases hrow'
    rfl

/-- A result moves the cursor along its route only. -/
theorem Submitted.cursor {a : StageAssignment} {result : Option (List (String × Json))}
    {success : Bool} {message : String} {workerId : Option Nat} {jitter : Nat}
    {row row' : PipelineRun} (h : Submitted a result message s success t)
    (found : s.assignments.get? a.id = some a) (held : a.status.inFlight = true)
    (admitted : assertSubmittable s a workerId = .ok ())
    (hrow : s.runs.get? a.pipelineRunId = some row)
    (hrow' : t.runs.get? a.pipelineRunId = some row') :
    OnRoute s (.submit a.id success result message workerId jitter) row row' := by
  have hstays : t.runs = s.runs →
      OnRoute s (.submit a.id success result message workerId jitter) row row' := by
    intro hruns
    rw [hruns, hrow] at hrow'
    cases hrow'
    exact .inl rfl
  cases h with
  | orphaned _ => exact hstays (by simp)
  | @succeeded run s1 _ hrun _ settled advanced =>
    have hid : run.id = a.pipelineRunId := (Table.get?_eq_some.mp hrun).2
    obtain ⟨hruns, -, -, hconfig⟩ := settled_frame settled
    have hdefs : s1.definitions = s.definitions := congrArg Configuration.definitions hconfig
    rcases advanced with ⟨_, rfl⟩ | ⟨live, ha⟩
    · exact hstays hruns
    · rw [← hid] at hrow'
      obtain ⟨d, way, pinned, routed, hleads⟩ := ha.leads hrow'
      rw [route_congr hdefs] at routed
      have htaken := submittedRoute_eq found held admitted hrun live pinned routed
      rw [hrow] at hrun
      cases hrun
      rw [← hid] at htaken
      exact .inr ⟨way, htaken, hleads⟩
  | @failed run s1 _ hrun _ settled handled =>
    have hid : run.id = a.pipelineRunId := (Table.get?_eq_some.mp hrun).2
    have hs1 : s1.runs = s.runs := by
      rcases settled with ⟨_, rfl⟩ | ⟨_, _, rfl⟩ <;> simp [recordFailedAttempt]
    rw [← hs1, ← hid] at hrow
    rw [← hid] at hrow'
    exact .inl (handled.cursor hrow hrow')

/-- A verdict moves the cursor along its route only. -/
theorem Resumed.cursor {gate : ReviewGate} {approved : Bool} {row row' : PipelineRun}
    (h : Resumed gate approved s t) (hrow : s.runs.get? gate.pipelineRunId = some row)
    (hrow' : t.runs.get? gate.pipelineRunId = some row') :
    row'.currentStage = row.currentStage ∨ ∃ d way, row.definitionId = some d ∧
      resumesRun s d gate approved = true ∧
        route s d gate.stage (reviewTrigger approved) [] = .ok way ∧ way.LeadsTo row' := by
  cases h with
  | @rejected run found _ =>
    have hid : run.id = gate.pipelineRunId := (Table.get?_eq_some.mp found).2
    left
    rw [← hid] at hrow hrow'
    simp only [failRun_frame, modifyRun_frame, modifyGate_frame, Table.get?_modify, if_true, hrow,
      Option.map_some, Option.some.injEq] at hrow'
    subst hrow'
    rfl
  | @advanced run _ found resumes advanced =>
    have hid : run.id = gate.pipelineRunId := (Table.get?_eq_some.mp found).2
    rw [hrow] at found
    cases found
    rw [← hid] at hrow'
    obtain ⟨d, way, pinned, routed, hleads⟩ := advanced.leads hrow'
    have hsame : route s d gate.stage (reviewTrigger approved) [] = .ok way := routed
    exact .inr ⟨d, way, pinned, resumes d pinned, hsame, hleads⟩
  | @stuck run _ e found resumes raised =>
    have hid : run.id = gate.pipelineRunId := (Table.get?_eq_some.mp found).2
    rw [hrow] at found
    cases found
    have hresumed : (resumeRun gate approved row.id s).runs.get? row.id =
        some (PipelineRun.resume.apply row) := by
      simp only [resumeRun, modifyRun_frame, modifyGate_frame, Table.get?_modify, if_true]
      rw [hid, hrow]
      rfl
    rw [← hid] at hrow'
    rcases (advanceOrFinish_raises raised).1 with rfl | ⟨d, stageDef, pinned, routed, rfl⟩
    · rw [hresumed] at hrow'
      cases hrow'
      exact .inl rfl
    · have hsame : route s d gate.stage (reviewTrigger approved) [] = .ok (.gate stageDef) := routed
      simp only [modifyRun_frame, Table.get?_modify, if_true, hresumed, Option.map_some,
        Option.some.injEq] at hrow'
      subst hrow'
      exact .inr ⟨d, _, pinned, resumes d pinned, hsame, rfl⟩
  | unrouted _ _ =>
    simp only [modifyGate_frame] at hrow'
    rw [hrow] at hrow'
    cases hrow'
    exact .inl rfl
  | unloaded =>
    rw [hrow] at hrow'
    cases hrow'
    exact .inl rfl

/-- What an operation makes of a run. -/
inductive RunMove (op : Op) (s : Db) (run : PipelineRun) : PipelineRun → Prop
  | kept : RunMove op s run run
  | held : RunMove op s run (PipelineRun.holdForSpend.apply run)
  | cancelled (request : op = .cancelRun run.id) (live : run.status.isTerminal = false) :
      RunMove op s run ((PipelineRun.finish .cancelled s.now).apply run)
  | revived (retry : op.isOperatorRetry = true) (failed : run.status = .failed) :
      RunMove op s run ((PipelineRun.setStatus .running).apply run)
  | lost {a : StageAssignment} {reason : RecoveryReason} (request : op = .recover a.id reason)
      (mem : a ∈ s.assignments) (own : a.pipelineRunId = run.id) (held : a.status.inFlight = true)
      (spent : canRequeue s a = false) (live : run.status.isTerminal = false) {now : Nat} :
      RunMove op s run ((PipelineRun.finish .failed now).apply run)
  | submitted {a : StageAssignment} {success : Bool} {result : Option (List (String × Json))}
      {message : String} {workerId : Option Nat} {jitter : Nat} {run' : PipelineRun}
      (request : op = .submit a.id success result message workerId jitter) (mem : a ∈ s.assignments)
      (own : a.pipelineRunId = run.id) (held : a.status.inFlight = true)
      (admitted : assertSubmittable s a workerId = .ok ()) (same : SameRun run run')
      (cursor : OnRoute s op run run') : RunMove op s run run'
  | decided {gate : ReviewGate} {reviewerId : Nat} {approved : Bool} {expected : Option Nat}
      {run' : PipelineRun} (request : op =
        .decide gate.workspaceId gate.id reviewerId approved expected)
      (mem : gate ∈ s.gates) (own : gate.pipelineRunId = run.id)
      (admitted : assertDecidable gate approved expected = .ok ()) (same : SameRun run run')
      (cursor : OnRoute s op run run') : RunMove op s run run'

/-- A run as it is started. -/
def IsStarted (op : Op) (s : Db) (run : PipelineRun) : Prop :=
  ∃ workspaceId contentItemId definitionId definition first,
    op = .startRun workspaceId contentItemId definitionId ∧
      s.definitions.get? definitionId = some definition ∧ definition.firstStage = some first ∧
        run = (PipelineRun.pin definition.id first.stageKey s.now).apply
          { id := s.runs.next, workspaceId, contentItemId }

theorem RunMove.same {op : Op} {run run' : PipelineRun} (h : RunMove op s run run') :
    SameRun run run' := by
  cases h with
  | submitted _ _ _ _ _ same _ => exact same
  | decided _ _ _ _ same _ => exact same
  | _ => exact ⟨rfl, rfl, rfl, rfl, rfl⟩

/-- The runs move, and a start adds one. -/
abbrev RunsMove (op : Op) (s t : Db) : Prop :=
  Table.Evolves (RunMove op s) (IsStarted op s) s.runs t.runs

theorem RunsMove.of_eq {op : Op} (h : t.runs = s.runs) : RunsMove op s t :=
  Table.Evolves.of_eq (fun _ => .kept) h

theorem RunsMove.get? {op : Op} {r : Nat} {run : PipelineRun} (h : RunsMove op s t)
    (hrun : s.runs.get? r = some run) : ∃ run', t.runs.get? r = some run' ∧ RunMove op s run run' :=
  Table.Evolves.get? h (fun _ _ hmove => hmove.same.id) hrun

theorem RunsMove.back {op : Op} {r : Nat} {run' : PipelineRun} (h : RunsMove op s t)
    (hrun : t.runs.get? r = some run') :
    (∃ run, s.runs.get? r = some run ∧ RunMove op s run run') ∨ IsStarted op s run' :=
  Table.Evolves.back h (fun _ _ hmove => hmove.same.id) hrun

/-- A change of one run alone is judged on that run. -/
theorem RunsMove.of_touches {op : Op} {runId : Nat} (h : TouchesOnly runId s.runs t.runs)
    (hmove : ∀ run run', s.runs.get? runId = some run → t.runs.get? runId = some run' →
      SameRun run run' → RunMove op s run run') : RunsMove op s t := by
  refine Table.Evolves.mono (fun run hrun run' hrun' htouch => ?_) (fun _ _ hnone => hnone.elim) h
  by_cases hid : run.id = runId
  · have hget : s.runs.get? runId = some run := Table.get?_eq_some.mpr ⟨hrun, hid⟩
    have hget' : t.runs.get? runId = some run' :=
      Table.get?_eq_some.mpr ⟨hrun', htouch.same.id.trans hid⟩
    exact hmove run run' hget hget' htouch.same
  · rw [htouch.other hid]
    exact .kept

theorem pauseForSpend_moves {op : Op} {run : PipelineRun} {m : Db} (hm : m.runs = s.runs)
    (h : t.runs = (pauseForSpend run m).runs) : RunsMove op s t := by
  have hruns : t.runs = s.runs.modify run.id PipelineRun.holdForSpend := by
    rw [h, ← hm]
    exact pauseForSpend_frame.1
  exact Table.Evolves.modify (fun _ => .kept) (fun _ _ => .held) hruns

theorem Processed.runs {op : Op} {job : JobSchedule} {lockedWorkers : List Nat}
    (h : Processed job lockedWorkers s t) (hkind : job.jobType ≠ .stageTimeout)
    (hgates : Unescalated s.gates) : RunsMove op s t := by
  cases h with
  | @held _ _ run stage _ _ _ _ _ _ _ =>
    have hrelease : (releaseStageReservations run stage s).runs = s.runs := by simp
    exact pauseForSpend_moves hrelease rfl
  | assigned _ _ _ _ _ _ _ => exact .of_eq (by simp)
  | waiting _ _ _ _ _ _ _ => exact .of_eq (by simp)
  | exhausted _ _ _ exhausted =>
    cases exhausted with
    | alone _ routed => exact .of_eq (by simp [routed])
    | withRun _ _ routed => exact .of_eq (by simp [routed])
  | stageTimedOut kind => exact absurd kind hkind
  | @reviewTimedOut gateId _ _ =>
    refine .of_eq ?_
    simp only [modifyJob_frame]
    unfold handleReviewTimeout
    split
    · rfl
    rename_i gate hgate
    split
    · rfl
    rename_i hawait
    -- an awaiting gate has not been escalated, so this timeout escalates it
    rw [if_pos (hgates gate (Table.get?_eq_some.mp hgate).1 (by simpa using hawait))]
    simp only [escalateGate_frame]
  | _ => exact .of_eq rfl

theorem Claimed.runs {op : Op} {workerId : Nat} {claimToken : Option Nat} {locked : List Nat}
    (h : Claimed workerId claimToken locked s t) : RunsMove op s t := by
  cases h with
  | idle => exact .of_eq rfl
  | @chosen _ _ row _ _ _ _ _ _ _ _ _ settled =>
    cases settled with
    | @held run _ _ =>
      have hrelease : (releaseStageReservations run row.stage s).runs = s.runs := by simp
      exact pauseForSpend_moves hrelease rfl
    | reserved _ _ => exact .of_eq (by simp)
    | granted _ => exact .of_eq (by simp)

theorem deadLetterAssignment_runs {a : StageAssignment} {reason : RecoveryReason} :
    (deadLetterAssignment a reason s).runs = s.runs ∨
    ∃ run, s.runs.get? a.pipelineRunId = some run ∧
      run.status.isTerminal = false ∧
        (deadLetterAssignment a reason s).runs =
          s.runs.modify run.id (PipelineRun.finish .failed s.now) := by
  unfold deadLetterAssignment
  split
  · rename_i run hrun
    split
    · exact .inl (by simp)
    · rename_i hlive
      exact .inr ⟨run, hrun, by simpa using hlive, by simp⟩
  · exact .inl (by simp)

theorem Recovered.runs {a : StageAssignment} {reason : RecoveryReason} (h : Recovered a reason s t)
    (hmem : a ∈ s.assignments) : RunsMove (.recover a.id reason) s t := by
  cases h with
  | skipped _ => exact .of_eq rfl
  | requeued _ _ _ => exact .of_eq (by rw [requeueAssignment_frame.1]; simp)
  | exhausted held left =>
    rcases deadLetterAssignment_runs (a := a) (s := releaseWorkerSlot a.workerId s) with
      hsame | ⟨run, hrun, hlive, hruns⟩
    · exact .of_eq (by rw [hsame]; simp)
    · simp only [releaseWorkerSlot_frame] at hrun hruns
      refine Table.Evolves.modify (fun _ => .kept) (fun row hrow => ?_) hruns
      have hid : run.id = a.pipelineRunId := (Table.get?_eq_some.mp hrun).2
      rw [hid, hrun] at hrow
      cases hrow
      exact .lost rfl hmem hid.symm held left hlive

theorem Revivals.runs {workspaceId : Nat} {targets : List RetryTarget}
    (h : Revivals workspaceId s targets t) : RunsMove (.retryFailedJobs workspaceId) s t := by
  have hchain : Table.Evolves (fun run run' => run' = run ∨
      run.status = .failed ∧ run' = (PipelineRun.setStatus .running).apply run)
      (fun _ => False) s.runs t.runs := by
    induction h with
    | nothing same => exact .of_eq (fun _ => .inl rfl) same.runs
    | more _ once ih =>
      obtain ⟨run, _, hrun, _, hsame⟩ := once
      have hid : run.id = _ := (Table.get?_eq_some.mp hrun).2
      rw [← hid] at hrun
      refine Table.Evolves.trans ?_ (fun _ _ hnone _ => hnone) ih ?_
      · rintro x y z (rfl | ⟨hx, rfl⟩) (rfl | ⟨hy, rfl⟩)
        · exact .inl rfl
        · exact .inr ⟨hy, rfl⟩
        · exact .inr ⟨hx, rfl⟩
        · cases hy
      · rw [hsame.runs]
        simp only [enqueueOperatorRetry, reviveRun]
        split
        · rename_i hfailed
          refine Table.Evolves.modify (k := run.id) (u := PipelineRun.setStatus .running)
            (fun _ => .inl rfl) (fun row hrow => ?_) rfl
          rw [hrun] at hrow
          cases hrow
          exact .inr ⟨hfailed, rfl⟩
        · exact .of_eq (fun _ => .inl rfl) rfl
  refine hchain.mono ?_ fun _ _ hnone => hnone.elim
  rintro run _ run' _ (rfl | ⟨hfailed, rfl⟩)
  · exact .kept
  · exact .revived rfl hfailed

/-- **What one operation does to the runs.** -/
theorem Effect.runs {op : Op} (h : Effect op s t) (hkinds : ∀ j ∈ s.jobs, j.jobType ≠ .stageTimeout)
    (hgates : Unescalated s.gates) : RunsMove op s t := by
  cases h with
  | @started _ workspaceId contentItemId definitionId definition first run defined opens row =>
    have hid : run.id = s.runs.next := by rw [row]
    have hcreated : (createRun workspaceId contentItemId s).runs = s.runs.insert
        ⟨fun id => { id, workspaceId, contentItemId }, fun _ => rfl⟩ := rfl
    have hrow : ∀ b ∈ s.runs, Keyed.key b ≠ run.id := fun b hb heq =>
        (Table.key_lt hb).ne (heq.trans hid)
    refine ⟨fun b hb => ⟨b, ?_, .kept⟩, fun b hb => ?_⟩
    · simp only [enqueueStage_frame, modifyRun_frame, hcreated]
      exact Table.mem_modify.mpr ⟨b, Table.mem_insert.mpr (.inl hb), if_neg (hrow b hb)⟩
    · simp only [enqueueStage_frame, modifyRun_frame, hcreated] at hb
      obtain ⟨c, hc, rfl⟩ := Table.mem_modify.mp hb
      rcases Table.mem_insert.mp hc with hc | rfl
      · rw [if_neg (hrow c hc)]
        exact .inl ⟨c, hc, .kept⟩
      · have hnew : Keyed.key ({ id := s.runs.next, workspaceId, contentItemId } : PipelineRun) =
            run.id :=
          hid.symm
        rw [if_pos hnew]
        exact .inr ⟨workspaceId, contentItemId, definitionId, definition, first, rfl, defined,
          opens, rfl⟩
  | polled => exact .of_eq rfl
  | processed found _ done => exact done.runs (hkinds _ (Table.get?_eq_some.mp found).1) hgates
  | reaped => exact .of_eq rfl
  | claimed done => exact done.runs
  | acknowledged _ _ => exact .of_eq rfl
  | renewed _ _ => exact .of_eq rfl
  | @submitted _ _ _ _ _ _ _ _ a found held admitted done =>
    obtain ⟨hmem, hid⟩ := Table.get?_eq_some.mp found
    subst hid
    refine .of_touches done.runs fun run run' hrun hrun' hsame => ?_
    have hid : run.id = a.pipelineRunId := (Table.get?_eq_some.mp hrun).2
    exact .submitted rfl hmem hid.symm held admitted hsame
      (done.cursor found held admitted hrun hrun')
  | recovered found done =>
    obtain ⟨hmem, hid⟩ := Table.get?_eq_some.mp found
    subst hid
    exact done.runs hmem
  | @decided _ s1 s2 _ _ gateId reviewerId _ _ gate _ found owned admitted recorded applied booked _
      _ =>
    obtain ⟨hmem, hid⟩ := Table.get?_eq_some.mp found
    subst hid
    have htouch := applied.runs
    rw [recorded.runs, ← booked.runs] at htouch
    refine .of_touches htouch fun run run' hrun hrun' hsame => ?_
    have hid : run.id = gate.pipelineRunId := (Table.get?_eq_some.mp hrun).2
    subst owned
    refine .decided rfl hmem hid.symm admitted hsame ?_
    have hrun₁ : s1.runs.get? gate.pipelineRunId = some run := by rw [recorded.runs]; exact hrun
    have hrun₂ : s2.runs.get? gate.pipelineRunId = some run' := by rw [← booked.runs]; exact hrun'
    rcases applied.cursor hrun₁ hrun₂ with hstays | ⟨d, way, pinned, resumes, routed, hleads⟩
    · exact .inl hstays
    · rw [resumesRun_congr recorded.definitions] at resumes
      rw [route_congr recorded.definitions] at routed
      have htaken := decidedRoute_eq found rfl admitted hrun pinned resumes routed
      rw [← hid] at htaken
      exact .inr ⟨way, htaken, hleads⟩
  | @cancelled _ runId run found =>
    have hid : run.id = runId := (Table.get?_eq_some.mp found).2
    subst hid
    unfold cancelRun
    split
    · exact .of_eq rfl
    · rename_i hlive
      refine Table.Evolves.modify (u := PipelineRun.finish .cancelled s.now) (k := run.id)
        (fun _ => .kept) (fun row hrow => ?_) (by simp)
      rw [found] at hrow
      cases hrow
      exact .cancelled rfl (by simpa using hlive)
  | retried => exact retryFailedJobs_revivals.runs
  | changed => exact .of_eq rfl

/-! ## Gates -/

/-- What an operation makes of a gate. -/
inductive GateMove (op : Op) (s : Db) (g : ReviewGate) : ReviewGate → Prop
  | kept : GateMove op s g g
  | escalated {job : JobSchedule} {lockedWorkers : List Nat} {jitter timeoutAt : Nat}
      (request : op = .processJob job.id lockedWorkers jitter) (mem : job ∈ s.jobs)
      (leased : job.status = .leased) (kind : job.jobType = .reviewTimeout)
        (ref : job.refId = .gate g.id)
      (awaiting : g.status = .awaiting) : GateMove op s g ((ReviewGate.escalate timeoutAt).apply g)
  | decided {reviewerId now : Nat} {approved : Bool} {expected : Option Nat}
      (request : op = .decide g.workspaceId g.id reviewerId approved expected)
      (admitted : assertDecidable g approved expected = .ok ()) :
      GateMove op s g
        ((ReviewGate.decide approved now).apply ((ReviewGate.recordReviewer reviewerId).apply g))

/-- A gate as a run that reaches it opens it, over the item's current version. -/
def IsOpened (op : Op) (s : Db) (g : ReviewGate) : Prop :=
  ∃ run item stageDef, s.runs.get? run.id = some run ∧
    s.contentItems.get? run.contentItemId = some item ∧
    takenRoute s op run.id = some (.gate stageDef) ∧
      g = (newGate run item stageDef.stageKey stageDef.timeoutSeconds s).make s.gates.next

/-- The gates move, and a run that reaches a gate adds one. -/
abbrev GatesMove (op : Op) (s t : Db) : Prop :=
  Table.Evolves (GateMove op s) (IsOpened op s) s.gates t.gates

theorem GatesMove.of_eq {op : Op} (h : t.gates = s.gates) : GatesMove op s t :=
  Table.Evolves.of_eq (fun _ => .kept) h

theorem Processed.gates {job : JobSchedule} {lockedWorkers lockedWorkers' : List Nat} {jitter : Nat}
    (h : Processed job lockedWorkers s t) (hmem : job ∈ s.jobs) (hleased : job.status = .leased)
    (hkind : job.jobType ≠ .stageTimeout) (hgates : Unescalated s.gates) :
    GatesMove (.processJob job.id lockedWorkers' jitter) s t := by
  cases h with
  | held _ _ _ _ _ _ _ => exact .of_eq (by simp)
  | assigned _ _ _ _ _ _ _ => exact .of_eq (by simp)
  | waiting _ _ _ _ _ _ _ => exact .of_eq (by simp)
  | exhausted _ _ _ exhausted =>
    cases exhausted with
    | alone _ routed => exact .of_eq (by simp [routed])
    | withRun _ _ routed => exact .of_eq (by simp [routed])
  | stageTimedOut kind => exact absurd kind hkind
  | @reviewTimedOut gateId kind ref =>
    simp only [GatesMove, modifyJob_frame]
    unfold handleReviewTimeout
    split
    · exact GatesMove.of_eq rfl
    rename_i gate hgate
    obtain ⟨hgmem, hid⟩ := Table.get?_eq_some.mp hgate
    split
    · exact GatesMove.of_eq rfl
    rename_i hawait
    have hawaiting : gate.status = .awaiting := by simpa using hawait
    rw [if_pos (hgates gate hgmem hawaiting)]
    refine Table.Evolves.modify (fun _ => .kept) (fun g hg => ?_) escalateGate_frame.2.2.2.1
    have hsame : s.gates.get? gate.id = some gate := Table.get?_of_mem hgmem
    rw [hsame] at hg
    cases hg
    have href : job.refId = .gate gate.id := by rw [ref, ← hid]; rfl
    exact .escalated rfl hmem hleased kind href hawaiting
  | _ => exact .of_eq rfl

/-- An accepted success opens a gate only where the route leads to one, and only for a run that
waits at none. -/
theorem Submitted.opens {a : StageAssignment} {result : Option (List (String × Json))}
    {success : Bool} {message : String} (h : Submitted a result message s success t) :
    t.gates = s.gates ∨ success = true ∧ ∃ run item d stageDef,
      s.runs.get? a.pipelineRunId = some run ∧ run.status.isTerminal = false ∧
        run.definitionId = some d ∧
        route s d a.stage .onSuccess (result.getD []) = .ok (.gate stageDef) ∧
        s.contentItems.get? run.contentItemId = some item ∧
        (∀ g ∈ s.gates, g.isAwaitingFor run.id = false) ∧
        t.gates =
          s.gates.insert (newGate run item stageDef.stageKey stageDef.timeoutSeconds s) := by
  cases h with
  | orphaned _ => exact .inl (by simp)
  | @succeeded run s1 _ found _ settled advanced =>
    obtain ⟨-, -, hgates, hconfig⟩ := settled_frame settled
    have hdefs : s1.definitions = s.definitions := congrArg Configuration.definitions hconfig
    rcases advanced with ⟨_, rfl⟩ | ⟨live, advanced⟩
    · exact .inl hgates
    cases advanced with
    | finished _ _ => exact .inl (by simpa using hgates)
    | queued _ _ => exact .inl (by simpa using hgates)
    | @gated d stageDef item pinned routed clear hitem =>
      have hitems : s.contentItems.get? run.contentItemId = some item := by
        rw [← hitem]
        exact congrArg (fun c => c.contentItems.get? run.contentItemId) hconfig.symm
      have hnow : s1.now = s.now := congrArg Configuration.now hconfig
      rw [route_congr hdefs] at routed
      rw [hgates] at clear
      refine .inr ⟨rfl, run, item, d, stageDef, found, live, pinned, routed, hitems, clear, ?_⟩
      rw [openReviewGate_frame.2.2.2.1]
      simp only [modifyRun_frame, hgates]
      unfold newGate
      simp only [modifyRun, hnow]
    | kept _ _ _ _ => exact .inl hgates
  | @failed run s1 _ _ _ settled handled =>
    have hs1 : s1.gates = s.gates := by
      rcases settled with ⟨_, rfl⟩ | ⟨_, _, rfl⟩ <;> simp [recordFailedAttempt]
    refine .inl ?_
    rw [← hs1]
    cases handled with
    | retried _ _ _ _ => simp
    | failed => simp [failStage]
    | compensated => simp [failStage, enqueueCompensations_frame]

theorem Submitted.gates {a : StageAssignment} {result : Option (List (String × Json))}
    {success : Bool} {message : String} {workerId : Option Nat} {jitter : Nat}
    (h : Submitted a result message s success t) (found : s.assignments.get? a.id = some a)
    (held : a.status.inFlight = true) (admitted : assertSubmittable s a workerId = .ok ()) :
    GatesMove (.submit a.id success result message workerId jitter) s t := by
  rcases h.opens with hsame |
    ⟨rfl, run, item, d, stageDef, hrun, live, pinned, routed, hitem, -, hrows⟩
  · exact .of_eq hsame
  have hid : run.id = a.pipelineRunId := (Table.get?_eq_some.mp hrun).2
  have htaken : submittedRoute s run.id a.id result workerId = some (.gate stageDef) := by
    rw [hid]
    exact submittedRoute_eq found held admitted hrun live pinned routed
  exact Table.Evolves.insert (fun _ => .kept)
    ⟨run, item, stageDef, by rw [hid]; exact hrun, hitem, htaken, rfl⟩ hrows

theorem Recovered.gates {a : StageAssignment} {reason : RecoveryReason}
    (h : Recovered a reason s t) :
    t.gates = s.gates := by
  cases h with
  | skipped _ => rfl
  | requeued _ _ _ => rw [requeueAssignment_frame.2.2.2.1, releaseWorkerSlot_frame.2.2.2.1]
  | exhausted _ _ => rw [deadLetterAssignment_frame.2.2.1, releaseWorkerSlot_frame.2.2.2.1]

theorem Claimed.gates {workerId : Nat} {claimToken : Option Nat} {locked : List Nat}
    (h : Claimed workerId claimToken locked s t) : t.gates = s.gates := by
  cases h with
  | idle => rfl
  | chosen _ _ _ _ _ _ _ settled => cases settled <;> simp

/-- A verdict that takes effect closes its gate and opens no other. -/
theorem Resumed.gates {gate : ReviewGate} {approved : Bool} (h : Resumed gate approved s t)
    (hmem : gate ∈ s.gates) (hawait : gate.status = .awaiting) :
    t.gates = s.gates ∨ t.gates = s.gates.modify gate.id (ReviewGate.decide approved s.now) := by
  cases h with
  | rejected _ _ => exact .inr (by simp)
  | @advanced run _ found _ advanced =>
    have hid : run.id = gate.pipelineRunId := (Table.get?_eq_some.mp found).2
    refine .inr ?_
    cases advanced with
    | gated _ _ clear _ =>
      -- the run's own gate is still among the stored ones
      have hclear := clear gate hmem
      simp [ReviewGate.isAwaitingFor, hid, hawait] at hclear
    | finished _ _ => simp [resumeRun]
    | queued _ _ => simp [resumeRun]
    | kept _ _ _ _ => rfl
  | stuck _ _ raised =>
    rcases (advanceOrFinish_raises raised).1 with rfl | ⟨_, _, _, _, rfl⟩
    · exact .inr rfl
    · exact .inr rfl
  | unrouted _ _ => exact .inr rfl
  | unloaded => exact .inl rfl

/-- A verdict that is reported as done closes its gate, and writes no other row. -/
theorem decided_rows {s1 s2 : Db} {gateId reviewerId : Nat} {approved : Bool}
    {expected : Option Nat} {gate decided : ReviewGate} (found : s.gates.get? gateId = some gate)
    (admitted : assertDecidable gate approved expected = .ok ())
    (recorded : SameWork (modifyGate gateId (ReviewGate.recordReviewer reviewerId) s) s1)
    (applied : Resumed ((ReviewGate.recordReviewer reviewerId).apply gate) approved s1 s2)
    (booked : SameWork s2 t) (result : t.gates.get? gateId = some decided)
    (settled : decided.status ≠ .awaiting) :
    t.gates = s.gates.modify gateId
      ((ReviewGate.recordReviewer reviewerId).andThen (ReviewGate.decide approved s1.now)) := by
  obtain ⟨hmem, hid⟩ := Table.get?_eq_some.mp found
  have hkey : gate.id = gateId := hid
  subst hkey
  have hrow : s1.gates = s.gates.modify gate.id (ReviewGate.recordReviewer reviewerId) :=
    recorded.gates
  have hget := recorded.recorded_gate found
  have hawait := awaiting_of_decidable admitted
  rcases applied.gates (Table.get?_eq_some.mp hget).1 hawait with hsame | hclosed
  · -- a gate that still waits is not reported as decided
    rw [booked.gates, hsame, hget] at result
    cases result
    exact absurd hawait settled
  · rw [booked.gates, hclosed, hrow]
    exact Table.modify_modify

theorem decided_gates {s1 s2 : Db} {workspaceId gateId reviewerId : Nat} {approved : Bool}
    {expected : Option Nat} {gate decided : ReviewGate}
    {New : ReviewGate → Prop}
    (found : s.gates.get? gateId = some gate) (owned : gate.workspaceId = workspaceId)
      (admitted : assertDecidable gate approved expected = .ok ())
    (recorded : SameWork (modifyGate gateId (ReviewGate.recordReviewer reviewerId) s) s1)
    (applied : Resumed ((ReviewGate.recordReviewer reviewerId).apply gate) approved s1 s2)
    (booked : SameWork s2 t) (result : t.gates.get? gateId = some decided)
    (settled : decided.status ≠ .awaiting) :
    Table.Evolves (GateMove (.decide workspaceId gateId reviewerId approved expected) s) New s.gates
      t.gates := by
  have hrows := decided_rows found admitted recorded applied booked result settled
  have hkey : gate.id = gateId := (Table.get?_eq_some.mp found).2
  subst hkey owned
  refine Table.Evolves.modify (fun _ => .kept) (fun g hg => ?_) hrows
  rw [found] at hg
  cases hg
  exact .decided rfl admitted

/-- **What one operation does to the gates.** -/
theorem Effect.gates {op : Op} (h : Effect op s t)
    (hkinds : ∀ j ∈ s.jobs, j.jobType ≠ .stageTimeout) (hgates : Unescalated s.gates) :
    GatesMove op s t := by
  cases h with
  | started _ _ _ => exact .of_eq rfl
  | polled => exact .of_eq rfl
  | processed found leased done =>
    obtain ⟨hmem, rfl⟩ := Table.get?_eq_some.mp found
    exact done.gates hmem leased (hkinds _ hmem) hgates
  | reaped => exact .of_eq rfl
  | claimed done => exact .of_eq done.gates
  | acknowledged _ _ => exact .of_eq rfl
  | renewed _ _ => exact .of_eq rfl
  | submitted found held admitted done =>
    obtain ⟨hmem, hid⟩ := Table.get?_eq_some.mp found
    subst hid
    exact done.gates found held admitted
  | recovered _ done => exact .of_eq done.gates
  | decided found owned admitted recorded applied booked result settled =>
    exact decided_gates found owned admitted recorded applied booked result settled
  | cancelled _ =>
    refine .of_eq ?_
    unfold cancelRun
    split <;> simp
  | retried => exact .of_eq retryFailedJobs_revivals.gates
  | changed => exact .of_eq rfl

/-- **A gate is opened only for a run that waits at none**, one at a time. -/
theorem Effect.opens {op : Op} (h : Effect op s t)
    (hkinds : ∀ j ∈ s.jobs, j.jobType ≠ .stageTimeout) (hgates : Unescalated s.gates) :
    Table.Evolves (GateMove op s) (fun _ => False) s.gates t.gates ∨
      ∃ run item stage timeout m, s.runs.get? run.id = some run ∧
        s.contentItems.get? run.contentItemId = some item ∧
          (∀ g ∈ s.gates, g.isAwaitingFor run.id = false) ∧
          t.gates = s.gates.insert (newGate run item stage timeout m) := by
  have hmove := h.gates hkinds hgates
  cases op with
  | submit assignmentId success result message workerId jitter =>
    cases h with
    | submitted _ _ _ done =>
      rcases done.opens with hsame |
        ⟨-, run, item, d, stageDef, hrun, -, -, -, hitem, hclear, hrows⟩
      · exact .inl (.of_eq (fun _ => .kept) hsame)
      · have hid : run.id = _ := (Table.get?_eq_some.mp hrun).2
        exact .inr ⟨run, item, stageDef.stageKey, stageDef.timeoutSeconds, s,
          by rw [hid]; exact hrun, hitem, hclear, hrows⟩
  | decide workspaceId gateId reviewerId approved expected =>
    cases h with
    | decided found owned admitted recorded applied booked result settled =>
      exact .inl (decided_gates found owned admitted recorded applied booked result settled)
  | _ =>
    -- no other operation takes a route
    refine .inl (hmove.mono (fun _ _ _ _ hmove => hmove) ?_)
    rintro g - ⟨_, _, _, -, -, htaken, -⟩
    cases htaken

end ContentOrchestrator

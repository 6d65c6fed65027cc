import ContentOrchestrator.Orchestration.EngineOutcomes

/-! # Jobs that cannot be processed

Which rows of the queue raise when their turn comes, read off the rows they refer to: a
recurring row always, a stage row that the dispatcher gets as far as its assignment with
no such stage or run, and a stage timeout whose run has lost a stage row it needs. -/

namespace ContentOrchestrator

open Lib

/-- The dispatcher comes to the point where it makes the assignment of this request. -/
def reachesAssignment (db : Db) (q : DispatchRequest) : Bool :=
  !atConcurrencyLimit db q.workspaceId &&
    ((db.runs.get? q.pipelineRunId).bind statusOutcome).isNone &&
    (assignmentByKey db q.workspaceId q.key).isNone

/-- The text names no stage. -/
def unknownStage (text : String) : Bool := (ContentStage.ofValue? text).isNone

/-- The stage row a run's definition has for a stage. -/
def pinnedStageDef (db : Db) (run : PipelineRun) (stage : ContentStage) : Option WorkflowStage :=
  run.definitionId.bind fun definitionId => stageDef? db definitionId stage

/-- The stages of a run that succeeded. -/
def completedStages (db : Db) (run : PipelineRun) : List PipelineStageRun :=
  db.stageRuns.select fun s => s.pipelineRunId == run.id && s.status == .succeeded

/-- Compensating the run asks for a stage row that is not there. -/
def compensationStuck (db : Db) (run : PipelineRun) : Bool :=
  (completedStages db run).any fun s => (pinnedStageDef db run s.stage).isNone

/-- A timeout of the run's stage is not to be handled. -/
def timeoutStuck (db : Db) (run : PipelineRun) : Bool :=
  match pinnedStageDef db run run.currentStage with
  | none => true
  | some stageDef =>
    let attempts :=
      db.stageRuns.count fun s => s.pipelineRunId == run.id && s.stage == run.currentStage
    decide (stageDef.maxAttempts ≤ attempts + 1) && stageDef.compensationStageKey.isSome &&
      compensationStuck db run

namespace JobSchedule

/-- The dispatch of a stage row raises, or else giving the row up does. -/
def dispatchStuck (db : Db) (job : JobSchedule) (runId : Nat) : Bool :=
  if atConcurrencyLimit db job.workspaceId then
    job.atCeiling && (db.runs.get? runId).isSome && unknownStage job.refTable
  else
    reachesAssignment db (job.request runId []) &&
      (unknownStage job.refTable || (db.runs.get? runId).isNone)

/-- **Processing this row raises.** -/
def isPoisoned (db : Db) (job : JobSchedule) : Bool :=
  match job.jobType with
  | .stage | .retry => job.runId?.all (job.dispatchStuck db)
  | .stageTimeout =>
    (job.runId?.bind db.runs.get?).any fun run =>
      run.currentStage.value == job.refTable && run.status == .running && timeoutStuck db run
  | .reviewTimeout | .compensation => false
  | .recurring => true

end JobSchedule

/-! ## What raises -/

section Programs

variable {s t : Db}

@[simp] theorem fails_getStageDef {definitionId : Nat} {stage : ContentStage} :
    Fails (getStageDef definitionId stage) s ↔ (stageDef? s definitionId stage).isNone = true := by
  simp [getStageDef]

theorem reserveSpend_not_fails {run : PipelineRun} {stage : ContentStage} {provider : String}
    {estimate : Nat} :
    ¬ Fails (reserveSpend run stage provider estimate) s := by
  unfold reserveSpend
  simp only [fails_bind, fails_modify, fails_get, false_or, not_exists, not_and]
  rintro _ u _ _ _ _ h
  split at h <;> simp at h

/-- The dispatcher raises only when it makes the assignment. -/
theorem dispatchStage_fails {q : DispatchRequest} :
    Fails (dispatchStage q) s ↔
      reachesAssignment s q = true ∧
        (unknownStage q.stage = true ∨ (s.runs.get? q.pipelineRunId).isNone = true) := by
  unfold dispatchStage reachesAssignment unknownStage
  rw [(returns_get.mpr ⟨rfl, rfl⟩ : Returns get s s s).fails_bind]
  cases hlimit : atConcurrencyLimit s q.workspaceId with
  | true => simp
  | false =>
    simp only [Bool.false_eq_true, if_false, Bool.not_false, Bool.true_and]
    cases hstatus : (s.runs.get? q.pipelineRunId).bind statusOutcome with
    | some outcome => simp
    | none =>
      cases hkey : assignmentByKey s q.workspaceId q.key with
      | some already => simp
      | none =>
        simp only [Option.isNone_none, Bool.and_self, true_and]
        cases hstage : ContentStage.ofValue? q.stage with
        | none => simp
        | some stage =>
          cases hrun : s.runs.get? q.pipelineRunId with
          | none => simp
          | some run =>
            simp only [require, pure_bind, Option.isNone_some, Bool.false_eq_true, or_self,
              iff_false]
            generalize (if hasProviderCapacity s q.workspaceId q.provider = true then
              selectWorker s q.stage q.lockedWorkers else none) = worker
            cases worker with
            | none => simp
            | some w =>
              simp only [Option.isSome_some, if_true, fails_bind]
              rintro (h | ⟨r, u, _, h⟩)
              · exact reserveSpend_not_fails h
              · cases r <;> simp at h

/-! ### Stage timeouts -/

theorem compensationLoop_fails {run : PipelineRun} {definitionId : Nat}
    {completed : List PipelineStageRun} :
    Fails (forM completed fun stageRun => do
      let stageDef ← getStageDef definitionId stageRun.stage
      match stageDef.compensationStageKey with
      | some key => modify (enqueueCompensation run key)
      | none => pure ()) s ↔ completed.any (fun r => (stageDef? s definitionId r.stage).isNone) =
          true := by
  induction completed generalizing s with
  | nil => simp
  | cons stageRun rest ih =>
    rw [List.forM_cons, List.any_cons, Bool.or_eq_true]
    cases hdef : stageDef? s definitionId stageRun.stage with
    | none => simp [hdef]
    | some stageDef =>
      have hfound : Returns (getStageDef definitionId stageRun.stage) s stageDef
          s := returns_getStageDef.mpr ⟨hdef, rfl⟩
      cases hkey : stageDef.compensationStageKey with
      | none =>
        have hfirst : Returns (do
            let stageDef ← getStageDef definitionId stageRun.stage
            match stageDef.compensationStageKey with
            | some key => modify (enqueueCompensation run key)
            | none => pure ()) s () s := by
          refine returns_bind.mpr ⟨stageDef, s, hfound, ?_⟩
          rw [hkey]
          exact returns_pure.mpr ⟨rfl, rfl⟩
        rw [hfirst.fails_bind, ih]
        simp
      | some key =>
        have hfirst : Returns (do
            let stageDef ← getStageDef definitionId stageRun.stage
            match stageDef.compensationStageKey with
            | some key => modify (enqueueCompensation run key)
            | none => pure ()) s () (enqueueCompensation run key s) := by
          refine returns_bind.mpr ⟨stageDef, s, hfound, ?_⟩
          rw [hkey]
          exact returns_modify.mpr rfl
        rw [hfirst.fails_bind, ih]
        simp [stageDef?]

theorem failRun_stageRuns {run : PipelineRun} : (failRun run s).stageRuns = s.stageRuns := by
  unfold failRun releaseAllReservations releaseEach
  have hrelease : ∀ (rows : List SpendReservation) (db : Db),
      (rows.foldl (fun db v => releaseSpend run v db) db).stageRuns = db.stageRuns := by
    intro rows
    induction rows with
    | nil => exact fun _ => rfl
    | cons v rest ih =>
      intro db
      rw [List.foldl_cons, ih]
      unfold releaseSpend
      split <;> rfl
  exact hrelease _ _

theorem triggerCompensation_fails {run : PipelineRun} {definitionId : Nat}
    (hpin : run.definitionId = some definitionId) :
    Fails (triggerCompensation run) s ↔ compensationStuck s run = true := by
  have hpinned : Returns (definitionIdOf run)
      (modifyRun run.id (PipelineRun.setStatus .compensating) s) definitionId
      (modifyRun run.id (PipelineRun.setStatus .compensating) s) := returns_require.mpr ⟨hpin, rfl⟩
  unfold triggerCompensation compensationStuck completedStages
  rw [(returns_modify.mpr rfl : Returns _ s () _).fails_bind,
    (returns_get.mpr ⟨rfl, rfl⟩ : Returns get _ _ _).fails_bind, hpinned.fails_bind]
  simp only [fails_bind, fails_modify, and_false, exists_false, or_false]
  refine compensationLoop_fails.trans ?_
  rw [List.Perm.any_eq (List.perm_insertionSort _ _)]
  simp [pinnedStageDef, hpin, stageDef?, modifyRun]

theorem handleStageFailure_fails {run : PipelineRun} {stage : ContentStage}
    {attemptNumber jitter : Nat} {message : String} :
    Fails (handleStageFailure run stage attemptNumber message jitter) s ↔
      (match pinnedStageDef s run stage with
      | none => true
      | some stageDef => !(isRetryable message && decide (attemptNumber < stageDef.maxAttempts)) &&
          stageDef.compensationStageKey.isSome && compensationStuck s run) = true := by
  unfold handleStageFailure
  rw [(returns_modify.mpr rfl : Returns _ s () _).fails_bind]
  unfold definitionIdOf
  cases hpin : run.definitionId with
  | none => simp [pinnedStageDef, hpin]
  | some definitionId =>
    have hdefinition : stageDef? (emitForRun EventType.stageFailed run s) definitionId stage =
        stageDef? s definitionId stage := by simp [stageDef?]
    simp only [pinnedStageDef, hpin, Option.bind_some, require, pure_bind]
    cases hdef : stageDef? s definitionId stage with
    | none => simp [hdefinition, hdef]
    | some stageDef =>
      have hfound : Returns (getStageDef definitionId stage)
          (emitForRun EventType.stageFailed run s) stageDef
          (emitForRun EventType.stageFailed run s) := returns_getStageDef.mpr
            ⟨hdefinition.trans hdef, rfl⟩
      rw [hfound.fails_bind]
      by_cases hretried : isRetryable message = true ∧ attemptNumber < stageDef.maxAttempts
      · simp [hretried]
      · have hdead : (isRetryable message && decide (attemptNumber < stageDef.maxAttempts)) =
            false := by
          rw [← Bool.not_eq_true]
          simpa using hretried
        simp only [hretried, hdead, if_false, Bool.not_false, Bool.true_and]
        rw [(returns_modify.mpr rfl : Returns _ _ () _).fails_bind,
          (returns_modify.mpr rfl : Returns _ _ () _).fails_bind]
        cases hkey : stageDef.compensationStageKey with
        | none => simp
        | some key =>
          simp only [Option.isSome_some, if_true, Bool.true_and]
          rw [triggerCompensation_fails hpin]
          have hstuck : compensationStuck
              (failRun run (routeToDeadLetter run.workspaceId "pipeline_runs" (.run run.id)
                ("stage:" ++ stage.formatted) message attemptNumber
                  (emitForRun EventType.stageFailed run s))) run =
              compensationStuck s run := by
            simp [compensationStuck, completedStages, pinnedStageDef, stageDef?, failRun_stageRuns,
              routeToDeadLetter, emitForRun, emit]
          rw [hstuck]

theorem handleStageTimeout_fails {runId jitter : Nat} {stageText : String} :
    Fails (handleStageTimeout runId stageText jitter) s ↔
      (s.runs.get? runId).any (fun run =>
        run.currentStage.value == stageText && run.status == .running && timeoutStuck s run) =
            true := by
  unfold handleStageTimeout
  rw [(returns_get.mpr ⟨rfl, rfl⟩ : Returns get s s s).fails_bind]
  cases hrun : s.runs.get? runId with
  | none => simp
  | some run =>
    obtain ⟨_, rfl⟩ := Table.get?_eq_some.mp hrun
    by_cases hstage : run.currentStage.value = stageText
    · by_cases hstatus : run.status = .running
      · have htimeout : isRetryable "timeout" = true := by decide
        simp only [hstage, hstatus, ne_eq, not_true_eq_false, or_self, if_false, Option.any_some,
          beq_self_eq_true, Bool.true_and]
        rw [handleStageFailure_fails, htimeout, timeoutStuck]
        simp only [Bool.true_and, ← decide_not, Nat.not_lt]
        rfl
      · simp [hstatus]
    · simp [hstage]

/-! ### Stage rows -/

theorem exhaustJob_fails {job : JobSchedule} :
    Fails (exhaustJob job) s ↔
      ((job.runId?.bind s.runs.get?).isSome && unknownStage job.refTable) = true := by
  unfold exhaustJob unknownStage
  rw [(returns_modify.mpr rfl : Returns _ s () _).fails_bind,
    (returns_get.mpr ⟨rfl, rfl⟩ : Returns get _ _ _).fails_bind]
  rw [modifyJob_frame.1]
  cases hrun : job.runId?.bind s.runs.get? with
  | none => simp
  | some run => cases hstage : ContentStage.ofValue? job.refTable <;> simp

theorem settleStageJob_fails {job : JobSchedule} {result : DispatchResult} {jitter : Nat} :
    Fails (settleStageJob job result jitter) s ↔
      (result.outcome = .backpressure ∨ result.outcome = .noWorker ∧ result.assignment = none) ∧
        job.atCeiling = true ∧ Fails (exhaustJob job) s := by
  have hreschedule : Fails (rescheduleJob job jitter) s ↔
      job.atCeiling = true ∧ Fails (exhaustJob job) s := by
    unfold rescheduleJob
    cases job.atCeiling <;> simp
  obtain ⟨outcome, assignment⟩ := result
  cases outcome <;> cases assignment <;> simp [settleStageJob, hreschedule]

/-- A stage row whose dispatch is over the limit is put off. -/
theorem dispatchStage_atLimit {q : DispatchRequest}
    (hlimit : atConcurrencyLimit s q.workspaceId = true) :
    Returns (dispatchStage q) s ⟨.backpressure, none⟩ s := by
  unfold dispatchStage
  refine returns_bind.mpr ⟨s, s, returns_get.mpr ⟨rfl, rfl⟩, ?_⟩
  simp [hlimit]

/-- Below the limit the row is not put off. -/
theorem dispatchStage_placed {q : DispatchRequest} {result : DispatchResult}
    (hlimit : atConcurrencyLimit s q.workspaceId = false)
    (h : Returns (dispatchStage q) s result t) :
    ¬ (result.outcome = .backpressure ∨ result.outcome = .noWorker ∧ result.assignment = none) := by
  cases dispatchStage_returns h with
  | limited limit =>
    rw [hlimit] at limit
    cases limit
  | turned _ _ status => rcases statusOutcome_cases status with rfl | rfl <;> simp
  | repeated => simp
  | held => simp
  | assigned => simp
  | waiting => simp

theorem stageRow_fails {job : JobSchedule} {runId jitter : Nat} {lockedWorkers : List Nat}
    (hrun : job.runId? = some runId) :
    Fails (do
        let result ← dispatchStage (job.request runId lockedWorkers)
        settleStageJob job result jitter) s ↔ job.dispatchStuck s runId = true := by
  unfold JobSchedule.dispatchStuck
  cases hlimit : atConcurrencyLimit s job.workspaceId with
  | true =>
    rw [(dispatchStage_atLimit (q := job.request runId lockedWorkers) hlimit).fails_bind,
      settleStageJob_fails, exhaustJob_fails, hrun]
    simp [and_assoc]
  | false =>
    have hsettle : ∀ result t, Returns (dispatchStage (job.request runId lockedWorkers)) s result
        t →
        ¬ Fails (settleStageJob job result jitter) t := fun result t h hfails =>
      dispatchStage_placed hlimit h (settleStageJob_fails.mp hfails).1
    rw [fails_bind, dispatchStage_fails]
    simp only [Bool.false_eq_true, if_false, Bool.and_eq_true, Bool.or_eq_true]
    constructor
    · rintro (h | ⟨result, t, hreturns, hfails⟩)
      · exact h
      · exact (hsettle result t hreturns hfails).elim
    · exact fun h => .inl h

/-- **Processing a row raises exactly when the row is poisoned.** -/
theorem processLeasedJob_fails {job : JobSchedule} {lockedWorkers : List Nat} {jitter : Nat} :
    Fails (processLeasedJob job lockedWorkers jitter) s ↔ job.isPoisoned s = true := by
  have hstageRow : Fails (do
        let runId ← require job.runId? (.integrityError "stage_assignments_pipeline_run_id_fkey")
        let result ← dispatchStage (job.request runId lockedWorkers)
        settleStageJob job result jitter) s ↔ job.runId?.all (job.dispatchStuck s) = true := by
    cases hrun : job.runId? with
    | none => simp
    | some runId => exact stageRow_fails hrun
  unfold processLeasedJob JobSchedule.isPoisoned
  cases job.jobType with
  | stage => exact hstageRow
  | retry => exact hstageRow
  | stageTimeout =>
    cases job.runId? with
    | none => simp
    | some runId =>
      simp only [fails_bind, fails_modify, and_false, exists_false, or_false]
      exact handleStageTimeout_fails
  | reviewTimeout =>
    dsimp only
    split <;> simp
  | compensation => simp
  | recurring => simp

end Programs

end ContentOrchestrator

import ContentOrchestrator.Orchestration.Payloads
import ContentOrchestrator.Properties.SingleExecution

/-! # Results of a stage the run has left

A reported success is routed from the stage it names. A timeout or a retry leaves the
earlier assignment with its worker, so the result of a stage the run is past can still
come; the only check that stops it is that the run has not ended. -/

namespace ContentOrchestrator

open Lib

variable {db : Db} {run : PipelineRun} {stage : ContentStage} {context : List (String × Json)}

/-- The result is of another stage than the run's, or the run waits at a gate. -/
def PipelineRun.StaleFor (run : PipelineRun) (stage : ContentStage) : Prop :=
  run.currentStage ≠ stage ∨ (run.status = .paused ∧ run.pauseReason = some .reviewGate)

instance : Decidable (run.StaleFor stage) := inferInstanceAs (Decidable (_ ∨ _))

/-- Position and status of the run, its gates and its stage jobs are as before. -/
structure SuccessIgnored (run : PipelineRun) (db db' : Db) : Prop where
  kept : ∃ run', db'.runs.get? run.id = some run' ∧ run'.currentStage = run.currentStage ∧
    run'.status = run.status
  gates : db'.gates.select (·.pipelineRunId == run.id) = db.gates.select (·.pipelineRunId == run.id)
  jobs : db'.jobs.select (·.refId == .run run.id) = db.jobs.select (·.refId == .run run.id)

/-- What a reported success commits. -/
def successEffect (run : PipelineRun) (stage : ContentStage) (context : List (String × Json))
    (db : Db) : Db :=
  if run.status.isTerminal then db
  else
    match run.definitionId with
    | none => db
    | some definitionId =>
      match route db definitionId stage .onSuccess context with
      | .error _ => db
      | .ok (.finish final) => succeedRun run final db
      | .ok (.work stageDef) =>
        enqueueStage run stageDef.stageKey 0 none
          (modifyRun run.id (PipelineRun.moveTo stageDef.stageKey) db)
      | .ok (.gate stageDef) =>
        if (db.gates.select (·.isAwaitingFor run.id)).isEmpty then
          match db.contentItems.get? run.contentItemId with
          | none => db
          | some item => openReviewGate run item stageDef.stageKey stageDef.timeoutSeconds
              (modifyRun run.id (PipelineRun.moveTo stageDef.stageKey) db)
        else modifyRun run.id (PipelineRun.moveTo stageDef.stageKey) db

/-- What a pause does for a run that has not ended: a gate of the run is kept, else a new one is
opened for its item. -/
theorem pauseForReview_effect {current : PipelineRun} (timeout : Nat) (stored : Table ReviewGate)
    (hrun : db.runs.get? run.id = some current) (hopen : current.status.isTerminal = false) :
    ((stored.select (·.isAwaitingFor run.id)).isEmpty = false →
      ∃ g, Returns (pauseForReview run stage timeout stored) db g db) ∧
    ((stored.select (·.isAwaitingFor run.id)).isEmpty = true →
    db.contentItems.get? run.contentItemId = none →
      Fails (pauseForReview run stage timeout stored) db) ∧
    ((stored.select (·.isAwaitingFor run.id)).isEmpty = true → ∀ item,
      db.contentItems.get? run.contentItemId = some item →
        ∃ g, Returns (pauseForReview run stage timeout stored) db g
          (openReviewGate run item stage timeout db)) := by
  have hload : Returns (loadRun run.id) db current db := returns_loadRun.mpr ⟨hrun, rfl⟩
  unfold pauseForReview
  cases hgates : stored.select (·.isAwaitingFor run.id) with
  | cons existing rest =>
    refine ⟨fun _ => ⟨existing.id, returns_bind.mpr ⟨current, db, hload, ?_⟩⟩,
      fun h => (by cases h), fun h => (by cases h)⟩
    simp [hopen]
  | nil =>
    refine ⟨fun h => (by cases h), fun _ hitem => ?_, fun _ item hitem => ?_⟩
    · rw [hload.fails_bind]
      simp [hopen, hitem]
    · refine ⟨db.gates.next, returns_bind.mpr ⟨current, db, hload, ?_⟩⟩
      simp [hopen, hitem]

theorem handleStageSuccess_atomically (hrun : db.runs.get? run.id = some run) :
    atomically (handleStageSuccess run stage context) db = successEffect run stage context db := by
  have hload : Returns (loadRun run.id) db run db := returns_loadRun.mpr ⟨hrun, rfl⟩
  unfold handleStageSuccess successEffect
  rw [hload.atomically_bind]
  split
  · exact (returns_pure.mpr ⟨rfl, rfl⟩ : Returns _ db () db).atomically
  · rename_i hopen
    rw [(returns_get.mpr ⟨rfl, rfl⟩ : Returns get db db db).atomically_bind]
    unfold advanceOrFinish definitionIdOf
    cases hpin : run.definitionId with
    | none => exact Fails.atomically (fails_bind.mpr (.inl (fails_require.mpr rfl)))
    | some definitionId =>
      rw [(returns_require.mpr ⟨rfl, rfl⟩ : Returns (require (some definitionId) _) db definitionId
        db).atomically_bind, (returns_get.mpr ⟨rfl, rfl⟩ : Returns get db db db).atomically_bind]
      dsimp only
      cases hroute : route db definitionId stage .onSuccess context with
      | error e => exact Fails.atomically (fails_bind.mpr (.inl (liftExcept_fails.mpr rfl)))
      | ok way =>
        rw [(returns_liftExcept.mpr ⟨rfl, rfl⟩ : Returns (liftExcept (.ok way)) db way
          db).atomically_bind]
        cases way with
        | finish final => exact (returns_modify.mpr rfl : Returns _ db () _).atomically
        | work stageDef =>
          refine Returns.atomically (a := ()) (returns_bind.mpr ⟨(), _, returns_modify.mpr rfl, ?_⟩)
          exact returns_modify.mpr rfl
        | gate stageDef =>
          have hmoved : (modifyRun run.id (PipelineRun.moveTo stageDef.stageKey) db).runs.get?
              run.id =
              some ((PipelineRun.moveTo stageDef.stageKey).apply run) := by
            simp [Table.get?_modify, hrun]
          have hpause :=
            @pauseForReview_effect _ _ stageDef.stageKey _ stageDef.timeoutSeconds db.gates hmoved
            (Bool.not_eq_true _ ▸ hopen)
          cases hfree : (db.gates.select (·.isAwaitingFor run.id)).isEmpty with
          | false =>
            obtain ⟨g, hg⟩ := hpause.1 hfree
            refine Returns.atomically (a := ())
              (returns_bind.mpr ⟨(), _, returns_modify.mpr rfl, ?_⟩)
            exact returns_bind.mpr ⟨g, _, hg, returns_pure.mpr ⟨rfl, rfl⟩⟩
          | true =>
            cases hitem : db.contentItems.get? run.contentItemId with
            | none =>
              refine Fails.atomically (fails_bind.mpr (.inr ⟨(), _, returns_modify.mpr rfl, ?_⟩))
              exact fails_bind.mpr (.inl (hpause.2.1 hfree hitem))
            | some item =>
              obtain ⟨g, hg⟩ := hpause.2.2 hfree item hitem
              refine Returns.atomically (a := ())
                (returns_bind.mpr ⟨(), _, returns_modify.mpr rfl, ?_⟩)
              exact returns_bind.mpr ⟨g, _, hg, returns_pure.mpr ⟨rfl, rfl⟩⟩

/-- The success comes to nothing: the run has ended, there is no way on from the named stage, or the
way leads to the gate at which the run already stands. -/
def sparesRun (run : PipelineRun) (stage : ContentStage) (context : List (String × Json))
    (db : Db) : Bool :=
  run.status.isTerminal ||
    match run.definitionId with
    | none => true
    | some definitionId =>
      match route db definitionId stage .onSuccess context with
      | .error _ => true
      | .ok (.finish _) => false
      | .ok (.work _) => false
      | .ok (.gate stageDef) =>
        if (db.gates.select (·.isAwaitingFor run.id)).isEmpty then
          (db.contentItems.get? run.contentItemId).isNone
        else run.currentStage == stageDef.stageKey

theorem ignored_self (hrun : db.runs.get? run.id = some run) : SuccessIgnored run db db :=
  ⟨⟨run, hrun, rfl, rfl⟩, rfl, rfl⟩

theorem SuccessIgnored.position {db' : Db} {after : PipelineRun} (h : SuccessIgnored run db db')
    (hafter : db'.runs.get? run.id = some after) :
    after.currentStage = run.currentStage ∧ after.status = run.status := by
  obtain ⟨⟨run', hget, hstage, hstatus⟩, _, _⟩ := h
  rw [hafter, Option.some_inj] at hget
  subst hget
  exact ⟨hstage, hstatus⟩

theorem succeedRun_not_ignored {final : ContentStage} (hrun : db.runs.get? run.id = some run)
    (hopen : run.status.isTerminal = false) :
    ¬ SuccessIgnored run db (succeedRun run final db) := by
  intro h
  have hafter : (succeedRun run final db).runs.get? run.id =
      some ((PipelineRun.moveTo final).apply
        ((PipelineRun.finish .succeeded db.now).apply run)) := by
    simp [succeedRun, modifyRun, Table.get?_modify, hrun]
  have hstatus : PipelineRunStatus.succeeded = run.status := (h.position hafter).2
  rw [← hstatus] at hopen
  cases hopen

theorem enqueueStage_not_ignored {stageKey : ContentStage} :
    ¬ SuccessIgnored run db
      (enqueueStage run stageKey 0 none (modifyRun run.id (PipelineRun.moveTo stageKey) db)) := by
  intro h
  have hjobs := h.jobs
  rw [enqueueStage, Table.select_insert] at hjobs
  simp [stageJob, modifyRun] at hjobs

theorem openReviewGate_not_ignored {item : ContentItem} {stageKey : ContentStage} {timeout : Nat} :
    ¬ SuccessIgnored run db (openReviewGate run item stageKey timeout
      (modifyRun run.id (PipelineRun.moveTo stageKey) db)) := by
  intro h
  have hgates := h.gates
  simp [openReviewGate, Table.select_insert, newGate, modifyRun] at hgates

theorem moveTo_ignored_iff {stageKey : ContentStage} (hrun : db.runs.get? run.id = some run) :
    SuccessIgnored run db (modifyRun run.id (PipelineRun.moveTo stageKey) db) ↔
      run.currentStage = stageKey := by
  have hafter : (modifyRun run.id (PipelineRun.moveTo stageKey) db).runs.get? run.id =
      some ((PipelineRun.moveTo stageKey).apply run) := by
    simp [modifyRun, Table.get?_modify, hrun]
  constructor
  · intro h
    exact (h.position hafter).1.symm
  · intro h
    exact ⟨⟨_, hafter, h.symm, rfl⟩, rfl, rfl⟩

theorem successEffect_ignored_iff (hrun : db.runs.get? run.id = some run) :
    SuccessIgnored run db (successEffect run stage context db) ↔
      sparesRun run stage context db = true := by
  have hself := ignored_self hrun
  unfold successEffect sparesRun
  cases hterminal : run.status.isTerminal with
  | true => simp [hself]
  | false =>
    simp only [Bool.false_eq_true, if_false, Bool.false_or]
    cases run.definitionId with
    | none => simp [hself]
    | some definitionId =>
      dsimp only
      cases route db definitionId stage .onSuccess context with
      | error e => simp [hself]
      | ok way =>
        cases way with
        | finish final => simp [succeedRun_not_ignored hrun hterminal]
        | work stageDef => simp [enqueueStage_not_ignored]
        | gate stageDef =>
          dsimp only
          split
          · cases db.contentItems.get? run.contentItemId with
            | none => simp [hself]
            | some item => simp [openReviewGate_not_ignored]
          · rw [moveTo_ignored_iff hrun, beq_iff_eq]

/-- **A stale success is ignored exactly** when it comes to nothing anyway: for all stored runs,
stages and contexts. -/
theorem stale_success_ignored_iff (hrun : db.runs.get? run.id = some run) (stage : ContentStage)
    (context : List (String × Json)) :
    (run.StaleFor stage →
    SuccessIgnored run db (atomically (handleStageSuccess run stage context) db)) ↔
      (run.StaleFor stage → sparesRun run stage context db = true) := by
  rw [handleStageSuccess_atomically hrun, successEffect_ignored_iff hrun]

/-- An idea whose stage was retried while its first worker still had it; the retry brought the run
to its gate. -/
def overtakenHistory : List Op :=
  doubleRetryHistory ++
    [.submit 2 true none "" (some 0) 0, .poll 10 [], .processJob 3 [] 0,
     .submit 3 true none "" (some 0) 0, .claim 0 none []]

/-- A repeated success of the stage before the gate finds the run at that gate. -/
theorem stale_success_ignored_at_gate :
    ∃ run, (replay step demoDb overtakenHistory).runs.get? 0 = some run ∧
    run.StaleFor .scripting ∧
      SuccessIgnored run (replay step demoDb overtakenHistory)
        (atomically (handleStageSuccess run .scripting [])
          (replay step demoDb overtakenHistory)) := by
  have hfound : ((replay step demoDb overtakenHistory).runs.get? 0).any (fun run =>
      decide (run.id = 0 ∧ run.StaleFor .scripting) &&
        sparesRun run .scripting [] (replay step demoDb overtakenHistory)) = true := by
          decide +kernel
  obtain ⟨run, hrun, hfound⟩ := (Option.any_eq_true _ _).mp hfound
  simp only [Bool.and_eq_true, decide_eq_true_eq] at hfound
  obtain ⟨⟨hid, hstale⟩, hspared⟩ := hfound
  exact ⟨run, hrun, hstale,
    (stale_success_ignored_iff (hid.symm ▸ hrun) .scripting []).mpr (fun _ => hspared) hstale⟩

/-- The worker of the earlier attempt reports its success late: the run is taken from its gate back
to a stage it has left, and that stage is queued again. -/
theorem late_success_moves_run :
    ¬ ∀ (history : List Op) (run : PipelineRun) (stage : ContentStage)
      (context : List (String × Json)),
      (replay step demoDb history).runs.get? run.id = some run → run.StaleFor stage →
        SuccessIgnored run (replay step demoDb history)
          (atomically (handleStageSuccess run stage context) (replay step demoDb history)) := by
  intro h
  have hfound : ((replay step demoDb overtakenHistory).runs.get? 0).any (fun run =>
      decide (run.id = 0 ∧ run.StaleFor .idea) &&
        !sparesRun run .idea [] (replay step demoDb overtakenHistory)) = true := by decide +kernel
  obtain ⟨run, hrun, hfound⟩ := (Option.any_eq_true _ _).mp hfound
  simp only [Bool.and_eq_true, Bool.not_eq_true', decide_eq_true_eq] at hfound
  obtain ⟨⟨hid, hstale⟩, hspared⟩ := hfound
  have hrun : (replay step demoDb overtakenHistory).runs.get? run.id = some run := hid.symm ▸ hrun
  have hignored := h overtakenHistory run .idea [] hrun hstale
  rw [handleStageSuccess_atomically hrun, successEffect_ignored_iff hrun, hspared] at hignored
  cases hignored

end ContentOrchestrator

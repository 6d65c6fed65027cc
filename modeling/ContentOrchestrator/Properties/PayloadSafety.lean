import ContentOrchestrator.Orchestration.Payloads
import ContentOrchestrator.System

/-! # Payloads that wedge a submission

A submission is one transaction, so a payload that makes it raise rolls it back, and
again on every retry. Which payloads do is decided by the open reservation, the run's
status and the edges of the stage; a reported failure never looks at its payload. -/

namespace ContentOrchestrator

open Lib

variable {db : Db} {assignmentId jitter : Nat} {workerId : Option Nat} {message : String}
  {a : StageAssignment} {run : PipelineRun} {w : WorkflowDefinition}

/-- An owned, unexpired assignment in flight, whose attempt is not recorded yet, on a started run of
a well-formed workflow. -/
structure Submittable (db : Db) (assignmentId : Nat) (workerId : Option Nat) (a : StageAssignment)
    (run : PipelineRun) (w : WorkflowDefinition) : Prop where
  stored : db.assignments.get? assignmentId = some a
  owned : assertSubmittable db a workerId = .ok ()
  unrecorded : stageRunExists db a = false
  ofRun : db.runs.get? a.pipelineRunId = some run
  pinned : run.definitionId = some w.id
  definition : db.definitions.get? w.id = some w
  wellFormed : w.WellFormed
  stage : ∃ row ∈ w.stages, row.stageKey = a.stage
  item : (db.contentItems.get? run.contentItemId).isSome = true

/-- The cost is settled or defaulted, and no condition up to the first that holds raises. -/
def PayloadSettles (db : Db) (a : StageAssignment) (run : PipelineRun) (w : WorkflowDefinition)
    (result : Option (List (String × Json))) : Prop :=
  ((newestOpenReservation db run.id a.stage).all fun v =>
      costSettles db.settings v.estimatedCostUsd result) = true ∧
    (run.status.isTerminal = true ∨
      routable (result.getD []) (outgoing db w.id a.stage .onSuccess) = true)

/-- What stands between the checks of a successful submission and its routing. -/
def recorded (a : StageAssignment) (result : Option (List (String × Json))) (db : Db) : Db :=
  emit EventType.stageCompleted a.workspaceId (.pipelineRun a.pipelineRunId) none
    (recordStageRun a true (closeAssignment a true result db))

/-- The routing of a submission reads runs, definitions and items only. -/
theorem Submittable.handleStageSuccess_fails (h : Submittable db assignmentId workerId a run w)
    {s : Db} {context : List (String × Json)} (hruns : s.runs = db.runs)
    (hdefinitions : s.definitions = db.definitions) (hitems : s.contentItems = db.contentItems) :
    Fails (handleStageSuccess run a.stage context) s ↔
      ¬ (run.status.isTerminal = true ∨ routable context (outgoing db w.id a.stage .onSuccess) =
        true) := by
  obtain ⟨_, hid⟩ := Table.get?_eq_some.mp h.ofRun
  have hid : run.id = a.pipelineRunId := hid
  have hrun : s.runs.get? run.id = some run := by rw [hruns, hid, h.ofRun]
  unfold handleStageSuccess
  rw [(returns_loadRun.mpr ⟨hrun, rfl⟩ : Returns (loadRun run.id) s run s).fails_bind]
  cases hterminal : run.status.isTerminal with
  | true => simp
  | false =>
    simp only [Bool.false_eq_true, if_false, false_or]
    rw [(returns_get.mpr ⟨rfl, rfl⟩ : Returns get s s s).fails_bind,
      advanceOrFinish_fails h.pinned hrun hterminal (.inr (hitems ▸ h.item)),
      route_isOk (hdefinitions ▸ h.definition) h.wellFormed h.stage, Bool.not_eq_true, outgoing,
        outgoing, hdefinitions]

theorem submitResult_success_fails (h : Submittable db assignmentId workerId a run w)
    (result : Option (List (String × Json))) :
    Fails (submitResult assignmentId true result message workerId jitter) db ↔
      ¬ PayloadSettles db a run w result := by
  obtain ⟨_, hid⟩ := Table.get?_eq_some.mp h.ofRun
  have hid : run.id = a.pipelineRunId := hid
  have hrun : (closeAssignment a true result db).runs.get? a.pipelineRunId = some run := by
    rw [closeAssignment_frame.1]
    exact h.ofRun
  have hunrecorded : stageRunExists (closeAssignment a true result db) a = false := h.unrecorded
  unfold submitResult
  rw [(returns_loadAssignment.mpr ⟨h.stored, rfl⟩ : Returns (loadAssignment assignmentId) db a
    db).fails_bind, (returns_get.mpr ⟨rfl, rfl⟩ : Returns get db db db).fails_bind,
    (returns_liftExcept.mpr ⟨h.owned, rfl⟩ : Returns (liftExcept _) db () db).fails_bind,
    (returns_modify.mpr rfl : Returns _ db () _).fails_bind,
    (returns_get.mpr ⟨rfl, rfl⟩ : Returns get _ _ _).fails_bind]
  rw [hrun]
  dsimp only
  rw [(returns_get.mpr ⟨rfl, rfl⟩ : Returns get _ _ _).fails_bind, hunrecorded]
  simp only [Bool.false_eq_true, if_false, if_true]
  rw [(returns_modify.mpr rfl : Returns _ _ () _).fails_bind,
    (returns_modify.mpr rfl : Returns _ _ () _).fails_bind,
      (returns_get.mpr ⟨rfl, rfl⟩ : Returns get _ _ _).fails_bind]
  -- the recorded outcome leaves the rows that the rest reads
  generalize hfound : newestOpenReservation _ run.id a.stage = found
  have hreservation : newestOpenReservation db run.id a.stage = found := hfound
  rw [PayloadSettles, hreservation]
  cases found with
  | none =>
    change Fails (handleStageSuccess run a.stage (result.getD [])) (recorded a result db) ↔ _
    rw [h.handleStageSuccess_fails (s := recorded a result db) rfl rfl rfl]
    simp only [Option.all_none, true_and]
  | some v =>
    have hreserved : v.status = .reserved :=
      status_of_isOpenFor (newestOpenReservation_isOpen hreservation).2
    change Fails (commitSpend run v (reportedCost db.settings result) >>= fun _ =>
      handleStageSuccess run a.stage (result.getD [])) (recorded a result db) ↔ _
    rw [fails_bind, commitSpend_fails hreserved, Option.all_some]
    have hafter : ∀ t, Returns (commitSpend run v (reportedCost db.settings result))
        (recorded a result db) () t →
        (Fails (handleStageSuccess run a.stage (result.getD [])) t ↔
          ¬ (run.status.isTerminal = true ∨
            routable (result.getD []) (outgoing db w.id a.stage .onSuccess) = true)) := by
      intro t hcommit
      obtain ⟨-, rfl⟩ := commitSpend_returns hreserved hcommit
      refine h.handleStageSuccess_fails ?_ ?_ ?_
      · exact commitReservation_frame.1
      · exact commitReservation_frame.2.2.2.2.2
      · rfl
    constructor
    · rintro (hcost | ⟨_, t, hcommit, hfails⟩) ⟨hsettles, hroutes⟩
      · rw [hcost] at hsettles
        cases hsettles
      · exact (hafter t hcommit).mp hfails hroutes
    · intro hnot
      cases hcost : costSettles db.settings v.estimatedCostUsd result with
      | false => exact .inl rfl
      | true =>
        have hsettled : ¬ Fails (commitSpend run v (reportedCost db.settings result))
            (recorded a result db) := by
          rw [commitSpend_fails hreserved, hcost]
          exact Bool.noConfusion
        have hcommit := returns_of_commits (commits_eq_true.mpr hsettled)
        exact .inr ⟨(), _, hcommit, (hafter _ hcommit).mpr fun hroutes =>
          hnot ⟨hcost, hroutes⟩⟩

/-! ## Reported failures -/

theorem releaseSpend_stageRuns {run : PipelineRun} {v : SpendReservation} {s : Db} :
    (releaseSpend run v s).stageRuns = s.stageRuns := by
  unfold releaseSpend
  split <;> rfl

theorem handleStageFailure_congr {s t : Db} {stage : ContentStage} {attempt : Nat}
    (hstageRuns : t.stageRuns = s.stageRuns) (hdefinitions : t.definitions = s.definitions) :
    Fails (handleStageFailure run stage attempt message jitter) t ↔
      Fails (handleStageFailure run stage attempt message jitter) s := by
  have hstageDef : ∀ stage, pinnedStageDef t run stage = pinnedStageDef s run stage := by
    intro stage
    simp only [pinnedStageDef, stageDef?, hdefinitions]
  have hstuck : compensationStuck t run = compensationStuck s run := by
    simp only [compensationStuck, completedStages, hstageRuns, hstageDef]
  rw [handleStageFailure_fails, handleStageFailure_fails, hstageDef, hstuck]

/-- What a reported failure raises on; its payload is not among it. -/
def failureStuck (db : Db) (assignmentId : Nat) (workerId : Option Nat) (message : String)
    (jitter : Nat) : Prop :=
  match db.assignments.get? assignmentId with
  | none => True
  | some a =>
    (assertSubmittable db a workerId).isOk = false ∨
      match db.runs.get? a.pipelineRunId with
      | none => False
      | some run =>
        stageRunExists db a = true ∨
          Fails (handleStageFailure run a.stage a.attemptNumber message jitter)
            (recordStageRun a false db)

theorem submitResult_failure_fails (result : Option (List (String × Json))) :
    Fails (submitResult assignmentId false result message workerId jitter) db ↔
      failureStuck db assignmentId workerId message jitter := by
  unfold submitResult failureStuck
  cases hstored : db.assignments.get? assignmentId with
  | none => simp [loadAssignment, hstored]
  | some a =>
    rw [(returns_loadAssignment.mpr ⟨hstored, rfl⟩ : Returns (loadAssignment assignmentId) db a
      db).fails_bind, (returns_get.mpr ⟨rfl, rfl⟩ : Returns get db db db).fails_bind]
    dsimp only
    cases howned : assertSubmittable db a workerId with
    | error e => simp [fails_bind, liftExcept_fails, Except.isOk, Except.toBool]
    | ok u =>
      rw [(returns_liftExcept.mpr ⟨rfl, rfl⟩ : Returns (liftExcept (.ok u)) db u db).fails_bind,
        (returns_modify.mpr rfl : Returns _ db () _).fails_bind,
        (returns_get.mpr ⟨rfl, rfl⟩ : Returns get _ _ _).fails_bind, closeAssignment_frame.1]
      change _ ↔ true = false ∨ _
      simp only [Bool.true_eq_false, false_or]
      cases hrun : db.runs.get? a.pipelineRunId with
      | none => simp
      | some run =>
        dsimp only
        rw [(returns_get.mpr ⟨rfl, rfl⟩ : Returns get _ _ _).fails_bind]
        change Fails (if stageRunExists db a = true then _ else _) _ ↔ _
        cases hrecorded : stageRunExists db a with
        | true => simp
        | false =>
          simp only [Bool.false_eq_true, if_false, false_or]
          rw [(returns_modify.mpr rfl : Returns _ _ () _).fails_bind,
            (returns_get.mpr ⟨rfl, rfl⟩ : Returns get _ _ _).fails_bind]
          generalize newestOpenReservation _ run.id a.stage = reservation
          cases reservation with
          | none => exact handleStageFailure_congr rfl rfl
          | some v =>
            dsimp only
            rw [(returns_modify.mpr rfl : Returns _ _ () _).fails_bind]
            exact handleStageFailure_congr releaseSpend_stageRuns releaseSpend_frame.2.2.1

/-! ## Exactly the payloads that raise -/

/-- **A payload wedges a submission exactly** when a condition compares what the interpreter does
not, or the reported cost is negative or not a number while a reservation is open: for all
conditions of the fixed shape, all searches for an edge, and all submittable states and results. A
reported failure raises or not whatever its payload is. -/
theorem payload_raises_iff (db : Db) (context : List (String × Json)) :
    (∀ condition path op operand, conditionItem condition "field" = .ok (.str path) →
      conditionItem condition "op" = .ok (.str op) → (conditionOp op).isSome = true →
      conditionItem condition "value" = .ok operand →
        (evaluateCondition (some condition) context).isOk =
          operandsFit op (valueAt context path) operand) ∧
    (∀ definitionId fromStage trigger,
    (findTransition db definitionId fromStage trigger context).isOk
      = routable context (outgoing db definitionId fromStage trigger)) ∧
    ∀ assignmentId workerId a run w, Submittable db assignmentId workerId a run w →
      ∀ result message jitter,
        (Fails (submitResult assignmentId true result message workerId jitter) db ↔
          ¬ PayloadSettles db a run w result) ∧
        (Fails (submitResult assignmentId false result message workerId jitter) db ↔
          failureStuck db assignmentId workerId message jitter) := by
  refine ⟨?_, fun d fromStage trigger => firstMatching_isOk context _,
    fun assignmentId workerId a run w h result message jitter =>
      ⟨submitResult_success_fails h result, submitResult_failure_fails result⟩⟩
  intro condition path op operand hfield hop hknown hvalue
  rw [evaluateCondition_isOk, evaluable, hfield, hop, hvalue]
  dsimp only
  rw [hknown, Bool.true_and]

/-! ## A scored stage -/

def scoredStages : List WorkflowStage :=
  [{ stageKey := .idea }, { stageKey := .published, ordinal := 1, isTerminal := true }]

/-- A good score publishes; so does everything else, by the unconditional edge ranked last. -/
def scoredTransitions : List WorkflowTransition :=
  [{ fromStage := .idea, toStage := .published, trigger := .onSuccess,
     condition := some [("field", .str "score"), ("op", .str "gt"), ("value", .num (.int 5))] },
   { fromStage := .idea, toStage := .published, trigger := .onSuccess, priority := 1 }]

theorem scoredStages_unique : (scoredStages.map (·.stageKey)).Nodup := by decide

/-- The only stage is at work, with its reservation open. -/
def scoredDb : Db :=
  replay step
    { demoDb with definitions := demoDefinition scoredStages scoredTransitions scoredStages_unique }
    [.startRun 0 0 0, .poll 10 [], .processJob 0 [] 0]

def scoredDefinition : WorkflowDefinition :=
  { id := 0, stages := scoredStages, transitions := scoredTransitions
    unique := scoredStages_unique }

theorem scoredDefinition_wellFormed : scoredDefinition.WellFormed where
  conditions t ht c hc := by
    rcases List.mem_cons.mp ht with rfl | ht
    · cases hc
      exact ⟨"score", "gt", .num (.int 5), rfl, rfl, rfl, rfl⟩
    · rw [List.mem_singleton.mp ht] at hc
      cases hc
  fallback s hs hopen := by
    rcases List.mem_cons.mp hs with rfl | hs
    · exact ⟨_, List.mem_cons_of_mem _ (List.mem_cons_self ..), rfl, rfl, rfl, by decide⟩
    · rw [List.mem_singleton.mp hs] at hopen
      cases hopen
  rows t ht := by
    refine ⟨{ stageKey := .published, ordinal := 1, isTerminal := true },
      List.mem_cons_of_mem _ (List.mem_cons_self ..), ?_⟩
    rcases List.mem_cons.mp ht with rfl | ht
    · rfl
    · rw [List.mem_singleton.mp ht]

/-- No cost is reported. -/
def goodScore : Option (List (String × Json)) := some [("score", .num (.int 7))]

theorem scoredDb_submittable :
    ∃ a run, Submittable scoredDb 0 (some 0) a run scoredDefinition ∧
      PayloadSettles scoredDb a run scoredDefinition goodScore := by
  have hfound : ((scoredDb.assignments.get? 0).any fun a =>
      (assertSubmittable scoredDb a (some 0)).isOk && !stageRunExists scoredDb a &&
        a.stage == .idea &&
        (scoredDb.runs.get? a.pipelineRunId).any fun run => run.definitionId == some 0 &&
          (scoredDb.contentItems.get? run.contentItemId).isSome &&
          (newestOpenReservation scoredDb run.id a.stage).all (fun v =>
            costSettles scoredDb.settings v.estimatedCostUsd goodScore) &&
          routable (goodScore.getD []) (outgoing scoredDb 0 a.stage .onSuccess)) = true := by
    decide +kernel
  obtain ⟨a, hstored, hfound⟩ := (Option.any_eq_true _ _).mp hfound
  simp only [Bool.and_eq_true, Bool.not_eq_true', beq_iff_eq] at hfound
  obtain ⟨⟨⟨howned, hunrecorded⟩, hstage⟩, hrun⟩ := hfound
  obtain ⟨run, hofRun, hrun⟩ := (Option.any_eq_true _ _).mp hrun
  simp only [Bool.and_eq_true, beq_iff_eq] at hrun
  obtain ⟨⟨⟨hpinned, hitem⟩, hcost⟩, hroutes⟩ := hrun
  refine ⟨a, run, ⟨hstored, ?_, hunrecorded, hofRun, hpinned, rfl, scoredDefinition_wellFormed, ?_,
    hitem⟩, hcost, .inr hroutes⟩
  · cases hchecks : assertSubmittable scoredDb a (some 0) with
    | ok u => rfl
    | error e =>
      rw [hchecks] at howned
      cases howned
  · exact ⟨{ stageKey := .idea }, List.mem_cons_self .., hstage.symm⟩

/-- A score that is a number is compared, and the submission goes through. -/
theorem payload_raises_iff_scored :
    ¬ Fails (submitResult 0 true goodScore "" (some 0) 0) scoredDb := by
  obtain ⟨a, run, h, hsettles⟩ := scoredDb_submittable
  exact (not_congr ((payload_raises_iff scoredDb []).2.2 0 (some 0) a run scoredDefinition h
    goodScore "" 0).1).mpr (not_not_intro hsettles)

/-- A text where the edge compares with a number: the submission raises, on every retry. -/
theorem text_score_wedges :
    ¬ ∀ db assignmentId workerId a run w, Submittable db assignmentId workerId a run w →
      ∀ result message jitter,
        ¬ Fails (submitResult assignmentId true result message workerId jitter) db := by
  intro h
  obtain ⟨a, run, hsubmittable, -⟩ := scoredDb_submittable
  refine h scoredDb 0 (some 0) a run scoredDefinition hsubmittable
    (some [("score", .str "high")]) "" 0 ?_
  exact commits_eq_false.mp (by decide +kernel)

end ContentOrchestrator

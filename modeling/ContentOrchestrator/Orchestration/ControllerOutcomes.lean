import ContentOrchestrator.Lib.Failing
import ContentOrchestrator.Orchestration.Controller

/-! # What each controller operation can do

One inversion lemma for every operation: from a finished run of the body, the list of
states it can have left behind, with the guards that lead there. The invariants are
derived from these lists and never unfold a body. -/

namespace ContentOrchestrator

open Lib

theorem startRun_returns {run : PipelineRun} {definition : WorkflowDefinition} {s t : Db} {u : Unit}
    (h : Returns (startRun run definition) s u t) :
    ∃ first, definition.firstStage = some first ∧
      t = enqueueStage run first.stageKey 0 none
        (modifyRun run.id (PipelineRun.pin definition.id first.stageKey s.now) s) := by
  unfold startRun at h
  split at h
  · simp at h
  · rename_i first hfirst
    simp only [returns_bind, returns_modify] at h
    obtain ⟨_, _, rfl, h⟩ := h
    exact ⟨first, hfirst, h.symm⟩

theorem pauseForReview_returns {run : PipelineRun} {stageKey : ContentStage} {timeout g : Nat}
    {stored : Table ReviewGate} {s t : Db}
    (h : Returns (pauseForReview run stageKey timeout stored) s g t) :
    (∃ existing ∈ stored, existing.isAwaitingFor run.id = true ∧ t = s) ∨
    ((∀ g ∈ stored, g.isAwaitingFor run.id = false) ∧ ∃ item,
      s.contentItems.get? run.contentItemId = some item ∧
        t = openReviewGate run item stageKey timeout s) := by
  unfold pauseForReview at h
  simp only [returns_bind, returns_loadRun] at h
  obtain ⟨current, _, ⟨hcur, rfl⟩, h⟩ := h
  split at h
  · simp at h
  cases hsel : (stored.select (·.isAwaitingFor run.id)).head? with
  | some existing =>
    rw [hsel] at h
    obtain ⟨hmem, haw⟩ := Table.mem_select.mp (List.mem_of_mem_head? hsel)
    simp only [returns_pure] at h
    exact .inl ⟨existing, hmem, haw, h.2.symm⟩
  | none =>
    rw [hsel] at h
    simp only [returns_bind, returns_get, returns_require, returns_modify, returns_pure] at h
    obtain ⟨_, _, ⟨rfl, rfl⟩, item, _, ⟨hitem, rfl⟩, _, _, rfl, _, rfl⟩ := h
    refine .inr ⟨fun g hg => ?_, item, hitem, rfl⟩
    have hnil := List.head?_eq_none_iff.mp hsel
    cases haw : g.isAwaitingFor run.id with
    | false => rfl
    | true =>
      have hin := Table.mem_select.mpr ⟨hg, haw⟩
      rw [hnil] at hin
      cases hin

theorem pauseForReview_raises {run : PipelineRun} {stageKey : ContentStage} {timeout : Nat}
    {stored : Table ReviewGate} {s t : Db} {e : OrchestrationError}
    (h : Raises (pauseForReview run stageKey timeout stored) s e t) : t = s := by
  unfold pauseForReview at h
  simp only [raises_bind, returns_loadRun] at h
  rcases h with h | ⟨current, _, ⟨hcur, rfl⟩, h⟩
  · simp [loadRun, raises_require] at h
    exact h.2.2.symm
  · split at h
    · simp at h
      exact h.2.symm
    · split at h
      · simp at h
      · simp [raises_require] at h
        exact h.2.2.symm

/-- Where leaving a stage can end up. -/
inductive Advanced (run : PipelineRun) (fromStage : ContentStage)
    (trigger : WorkflowTransitionTrigger) (context : List (String × Json))
    (stored : Table ReviewGate) (s : Db) : Db → Prop
  | finished {definitionId : Nat} {stage : ContentStage}
      (pinned : run.definitionId = some definitionId)
      (routed : route s definitionId fromStage trigger context = .ok (.finish stage)) :
      Advanced run fromStage trigger context stored s (succeedRun run stage s)
  | queued {definitionId : Nat} {stageDef : WorkflowStage}
      (pinned : run.definitionId = some definitionId)
      (routed : route s definitionId fromStage trigger context = .ok (.work stageDef)) :
      Advanced run fromStage trigger context stored s
        (enqueueStage run stageDef.stageKey 0 none
          (modifyRun run.id (PipelineRun.moveTo stageDef.stageKey) s))
  | gated {definitionId : Nat} {stageDef : WorkflowStage} {item : ContentItem}
      (pinned : run.definitionId = some definitionId)
      (routed : route s definitionId fromStage trigger context = .ok (.gate stageDef))
      (clear : ∀ g ∈ stored, g.isAwaitingFor run.id = false)
      (found : s.contentItems.get? run.contentItemId = some item) :
      Advanced run fromStage trigger context stored s
        (openReviewGate run item stageDef.stageKey stageDef.timeoutSeconds
          (modifyRun run.id (PipelineRun.moveTo stageDef.stageKey) s))
  | kept {definitionId : Nat} {stageDef : WorkflowStage} {existing : ReviewGate}
      (pinned : run.definitionId = some definitionId)
      (routed : route s definitionId fromStage trigger context = .ok (.gate stageDef))
      (mem : existing ∈ stored) (awaiting : existing.isAwaitingFor run.id = true) :
      Advanced run fromStage trigger context stored s
        (modifyRun run.id (PipelineRun.moveTo stageDef.stageKey) s)

theorem advanceOrFinish_returns {run : PipelineRun} {fromStage : ContentStage}
    {trigger : WorkflowTransitionTrigger} {context : List (String × Json)}
    {stored : Table ReviewGate} {s t : Db} {u : Unit}
    (h : Returns (advanceOrFinish run fromStage trigger context stored) s u t) :
    Advanced run fromStage trigger context stored s t := by
  unfold advanceOrFinish definitionIdOf at h
  simp only [returns_bind, returns_require, returns_get, returns_liftExcept] at h
  obtain ⟨definitionId, _, ⟨hpin, rfl⟩, _, _, ⟨rfl, rfl⟩, r, _, ⟨hr, rfl⟩, h⟩ := h
  cases r with
  | finish stage =>
    simp only [returns_modify] at h
    exact h ▸ .finished hpin hr
  | work stageDef =>
    simp only [returns_bind, returns_modify] at h
    obtain ⟨_, _, rfl, rfl⟩ := h
    exact .queued hpin hr
  | gate stageDef =>
    simp only [returns_bind, returns_modify, returns_pure] at h
    obtain ⟨_, _, rfl, g, _, hp, _, rfl⟩ := h
    rcases pauseForReview_returns hp with ⟨existing, hmem, haw, rfl⟩ | ⟨hclear, item, hitem, rfl⟩
    · exact .kept hpin hr hmem haw
    · exact .gated hpin hr hclear hitem

/-- The route ends the run or queues its next stage. -/
def movesOn : Except OrchestrationError Route → Bool
  | .ok (.finish _) | .ok (.work _) => true
  | _ => false

/-- A raise leaves the cursor at most moved to a gate stage that could not be opened. -/
theorem advanceOrFinish_raises {run : PipelineRun} {fromStage : ContentStage}
    {trigger : WorkflowTransitionTrigger} {context : List (String × Json)}
    {stored : Table ReviewGate} {s t : Db} {e : OrchestrationError}
    (h : Raises (advanceOrFinish run fromStage trigger context stored) s e t) :
    (t = s ∨ ∃ definitionId stageDef, run.definitionId = some definitionId ∧
      route s definitionId fromStage trigger context = .ok (.gate stageDef) ∧
        t = modifyRun run.id (PipelineRun.moveTo stageDef.stageKey) s) ∧
      ∀ definitionId, run.definitionId = some definitionId →
        movesOn (route s definitionId fromStage trigger context) = false := by
  unfold advanceOrFinish definitionIdOf at h
  simp only [raises_bind, returns_require, raises_require, returns_get, raises_get,
    returns_liftExcept, raises_liftExcept, false_or] at h
  rcases h with ⟨hpin, _, rfl⟩ |
    ⟨definitionId, _, ⟨hpin, rfl⟩, _, _, ⟨rfl, rfl⟩, ⟨hroute, rfl⟩ | ⟨r, _, ⟨hroute, rfl⟩, h⟩⟩
  · refine ⟨.inl rfl, fun d hd => ?_⟩
    rw [hpin] at hd
    cases hd
  · refine ⟨.inl rfl, fun d hd => ?_⟩
    rw [hpin] at hd
    cases hd
    rw [hroute]
    rfl
  · cases r with
    | finish stage => simp at h
    | work stageDef => simp at h
    | gate stageDef =>
      simp only [raises_bind, raises_modify, returns_modify, raises_pure, false_or, and_false,
        exists_false, or_false] at h
      obtain ⟨_, _, rfl, h⟩ := h
      refine ⟨.inr ⟨definitionId, stageDef, hpin, hroute, pauseForReview_raises h⟩, fun d hd => ?_⟩
      rw [hpin] at hd
      cases hd
      rw [hroute]
      rfl

@[simp] theorem fails_require {α : Type} {row : Option α} {error : OrchestrationError} {s : Db} :
    Fails (require row error) s ↔ row.isNone = true := by
  cases row <;> simp [require]

theorem liftExcept_fails {α : Type} {x : Except OrchestrationError α} {s : Db} :
    Fails (liftExcept x) s ↔ x.isOk = false := by
  cases x with
  | error e => exact ⟨fun _ => rfl, fun _ => fails_throw⟩
  | ok a => exact ⟨fun h => absurd h fails_pure, fun h => by cases h⟩

/-- Pausing a run that has not ended raises where there is neither a gate to keep nor an item to
open one for. -/
theorem pauseForReview_fails {run current : PipelineRun} {stageKey : ContentStage} {timeout : Nat}
    {stored : Table ReviewGate} {s : Db} (hrun : s.runs.get? run.id = some current)
    (hopen : current.status.isTerminal = false) :
    Fails (pauseForReview run stageKey timeout stored) s ↔
      (∀ g ∈ stored, g.isAwaitingFor run.id = false) ∧
        s.contentItems.get? run.contentItemId = none := by
  unfold pauseForReview
  rw [(returns_loadRun.mpr ⟨hrun, rfl⟩ : Returns (loadRun run.id) s current s).fails_bind]
  simp only [hopen, Bool.false_eq_true, if_false]
  cases hsel : (stored.select (·.isAwaitingFor run.id)).head? with
  | some existing =>
    obtain ⟨hmem, hawaiting⟩ := Table.mem_select.mp (List.mem_of_mem_head? hsel)
    refine iff_of_false fails_pure fun hnone => ?_
    rw [hnone.1 existing hmem] at hawaiting
    cases hawaiting
  | none =>
    have hclear : ∀ g ∈ stored, g.isAwaitingFor run.id = false := by
      intro g hg
      by_contra hawaiting
      have hmem := Table.mem_select.mpr ⟨hg, Bool.not_eq_false _ ▸ hawaiting⟩
      rw [List.head?_eq_none_iff.mp hsel] at hmem
      cases hmem
    cases hitem : s.contentItems.get? run.contentItemId with
    | none => simpa [hitem] using hclear
    | some item => simp [hitem]

/-- Where a pause finds its gate or its item, leaving a stage raises only where the route does. -/
theorem advanceOrFinish_fails {run current : PipelineRun} {fromStage : ContentStage}
    {trigger : WorkflowTransitionTrigger} {context : List (String × Json)}
    {stored : Table ReviewGate} {definitionId : Nat} {s : Db}
    (hpin : run.definitionId = some definitionId)
    (hrun : s.runs.get? run.id = some current) (hopen : current.status.isTerminal = false)
    (hpause : (∃ g ∈ stored, g.isAwaitingFor run.id = true) ∨
      (s.contentItems.get? run.contentItemId).isSome = true) :
    Fails (advanceOrFinish run fromStage trigger context stored) s ↔
      (route s definitionId fromStage trigger context).isOk = false := by
  unfold advanceOrFinish definitionIdOf
  rw [(returns_require.mpr ⟨hpin, rfl⟩ :
      Returns (require run.definitionId _) s definitionId s).fails_bind,
    (returns_get.mpr ⟨rfl, rfl⟩ : Returns get s s s).fails_bind, fails_bind, liftExcept_fails]
  refine ⟨fun h => h.resolve_right ?_, .inl⟩
  rintro ⟨way, t, hway, hfails⟩
  obtain ⟨-, rfl⟩ := returns_liftExcept.mp hway
  cases way with
  | finish stage => exact fails_modify hfails
  | work stageDef => simp at hfails
  | gate stageDef =>
    rw [(returns_modify.mpr rfl : Returns _ s () _).fails_bind, fails_bind] at hfails
    rcases hfails with hfails | ⟨_, _, _, hdone⟩
    · have hmoved : (modifyRun run.id (PipelineRun.moveTo stageDef.stageKey) s).runs.get? run.id =
          some ((PipelineRun.moveTo stageDef.stageKey).apply current) := by
        simp [Table.get?_modify, hrun]
      obtain ⟨hclear, hnone⟩ := (pauseForReview_fails hmoved hopen).mp hfails
      rcases hpause with ⟨g, hg, hawaiting⟩ | hitem
      · rw [hclear g hg] at hawaiting
        cases hawaiting
      · rw [Option.isSome_iff_ne_none] at hitem
        exact hitem hnone
    · exact fails_pure hdone

theorem handleStageSuccess_returns {run : PipelineRun} {stage : ContentStage}
    {context : List (String × Json)} {s t : Db} {u : Unit}
    (h : Returns (handleStageSuccess run stage context) s u t) :
    ∃ current, s.runs.get? run.id = some current ∧
      (current.status.isTerminal = true ∧ t = s ∨
        current.status.isTerminal = false ∧ Advanced run stage .onSuccess context s.gates s t) := by
  unfold handleStageSuccess at h
  simp only [returns_bind, returns_loadRun] at h
  obtain ⟨current, _, ⟨hcur, rfl⟩, h⟩ := h
  refine ⟨current, hcur, ?_⟩
  split at h
  · rename_i hterm
    simp only [returns_pure] at h
    exact .inl ⟨hterm, h.2.symm⟩
  · rename_i hterm
    simp only [returns_bind, returns_get] at h
    obtain ⟨_, _, ⟨rfl, rfl⟩, h⟩ := h
    exact .inr ⟨by simpa using hterm, advanceOrFinish_returns h⟩

/-! ## Failure -/

/-- The compensation jobs of some stages, queued in order. -/
def enqueueCompensations (run : PipelineRun) (stages : List ContentStage) (db : Db) : Db :=
  stages.foldl (fun db stage => enqueueCompensation run stage db) db

theorem enqueueCompensations_frame {run : PipelineRun} {stages : List ContentStage} {db : Db} :
    (enqueueCompensations run stages db).runs = db.runs ∧
    (enqueueCompensations run stages db).assignments = db.assignments ∧
    (enqueueCompensations run stages db).gates = db.gates ∧
    (enqueueCompensations run stages db).reservations = db.reservations ∧
    (enqueueCompensations run stages db).definitions = db.definitions := by
  unfold enqueueCompensations
  induction stages generalizing db with
  | nil => simp
  | cons stage rest ih =>
    have hrest := @ih (enqueueCompensation run stage db)
    simpa using hrest

/-- The loop over the completed stages only ever appends compensation jobs. -/
theorem compensationLoop_returns {run : PipelineRun} {definitionId : Nat}
    {completed : List PipelineStageRun} {s s' : Db} {u : PUnit}
    (h : Returns (forM completed fun stageRun => do
      let stageDef ← getStageDef definitionId stageRun.stage
      match stageDef.compensationStageKey with
      | some key => modify (enqueueCompensation run key)
      | none => pure ()) s u s') :
    ∃ stages, s' = enqueueCompensations run stages s := by
  induction completed generalizing s with
  | nil =>
    simp only [List.forM_nil, returns_pure] at h
    exact ⟨[], h.2.symm⟩
  | cons stageRun rest ih =>
    simp only [List.forM_cons, returns_bind, returns_getStageDef] at h
    obtain ⟨_, s1, ⟨stageDef, _, ⟨_, rfl⟩, hkey⟩, hrest⟩ := h
    obtain ⟨stages, rfl⟩ := ih hrest
    split at hkey
    · rename_i key _
      simp only [returns_modify] at hkey
      exact ⟨key :: stages, by rw [← hkey]; rfl⟩
    · simp only [returns_pure] at hkey
      exact ⟨stages, by rw [hkey.2]⟩

theorem triggerCompensation_returns {run : PipelineRun} {s t : Db} {u : Unit}
    (h : Returns (triggerCompensation run) s u t) :
    ∃ stages, t = modifyRun run.id (PipelineRun.setStatus .failed)
      (enqueueCompensations run stages
        (modifyRun run.id (PipelineRun.setStatus .compensating) s)) := by
  unfold triggerCompensation definitionIdOf at h
  simp only [returns_bind, returns_modify, returns_get, returns_require] at h
  obtain ⟨_, _, rfl, _, _, ⟨rfl, rfl⟩, definitionId, _, ⟨_, rfl⟩, _, s', hloop, rfl⟩ := h
  obtain ⟨stages, rfl⟩ := compensationLoop_returns hloop
  exact ⟨stages, rfl⟩

/-- The dead letter and the failed run. -/
def failStage (run : PipelineRun) (stage : ContentStage) (attemptNumber : Nat)
    (errorMessage : String) (db : Db) : Db :=
  failRun run (routeToDeadLetter run.workspaceId "pipeline_runs" (.run run.id)
    ("stage:" ++ stage.formatted) errorMessage attemptNumber
    (emitForRun EventType.stageFailed run db))

/-- What a failed stage can lead to. -/
inductive FailureHandled (run : PipelineRun) (stage : ContentStage) (attemptNumber : Nat)
    (errorMessage : String) (s : Db) : Db → Prop
  | retried {definitionId : Nat} {stageDef : WorkflowStage} {runAfter : Option Nat}
      (pinned : run.definitionId = some definitionId)
      (found : stageDef? s definitionId stage = some stageDef)
      (transient : isRetryable errorMessage = true) (left : attemptNumber < stageDef.maxAttempts) :
      FailureHandled run stage attemptNumber errorMessage s
        (enqueueStage run stage attemptNumber runAfter (emitForRun EventType.stageFailed run s))
  | failed :
      FailureHandled run stage attemptNumber errorMessage s
        (failStage run stage attemptNumber errorMessage s)
  | compensated {stages : List ContentStage} :
      FailureHandled run stage attemptNumber errorMessage s
        (modifyRun run.id (PipelineRun.setStatus .failed)
          (enqueueCompensations run stages
            (modifyRun run.id (PipelineRun.setStatus .compensating)
              (failStage run stage attemptNumber errorMessage s))))

theorem handleStageFailure_returns {run : PipelineRun} {stage : ContentStage} {attemptNumber : Nat}
    {errorMessage : String} {jitter : Nat} {s t : Db} {u : Unit}
    (h : Returns (handleStageFailure run stage attemptNumber errorMessage jitter) s u t) :
    FailureHandled run stage attemptNumber errorMessage s t := by
  unfold handleStageFailure definitionIdOf at h
  simp only [returns_bind, returns_modify, returns_require, returns_getStageDef] at h
  obtain ⟨_, _, rfl, definitionId, _, ⟨hpin, rfl⟩, stageDef, _, ⟨hdef, rfl⟩, h⟩ := h
  have hfound : stageDef? s definitionId stage = some stageDef := by
    simpa [stageDef?] using hdef
  split at h
  · rename_i hretry
    simp only [returns_modify] at h
    exact h ▸ .retried hpin hfound hretry.1 hretry.2
  · simp only [returns_bind, returns_modify] at h
    obtain ⟨_, _, rfl, _, _, rfl, h⟩ := h
    split at h
    · obtain ⟨stages, rfl⟩ := triggerCompensation_returns h
      exact .compensated
    · simp only [returns_pure] at h
      exact h.2 ▸ .failed

end ContentOrchestrator

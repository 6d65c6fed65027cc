import ContentOrchestrator.System
import ContentOrchestrator.Services.RetryOutcomes

/-! # What the engine only reads

No operation of the engine moves the clock or a worker's pin, or writes settings, content
items, workflow definitions, limits or caps: all of that changes between transactions. -/

namespace ContentOrchestrator

open Lib

section Primitives

variable {db : Db}

/-- A worker's load and status are no configuration. -/
theorem config_modifyWorker {workerId : Nat} {u : Update WorkerRegistration}
    (hu : ∀ w, (u.apply w).workspaceId = w.workspaceId) :
    ({ db with workers := db.workers.modify workerId u } : Db).config = db.config := by
  have hpins : ({ db with workers := db.workers.modify workerId u } : Db).pins = db.pins :=
    funext (pins_modify hu)
  simp [Db.config, hpins]

theorem takeSlot_config (db : Db) (workerId : Nat) :
    ({ db with workers := db.workers.modify workerId WorkerRegistration.takeSlot } : Db).config =
      db.config := config_modifyWorker fun _ => rfl

theorem submitSlot_pin (w : WorkerRegistration) :
    (WorkerRegistration.submitSlot.apply w).workspaceId = w.workspaceId := by
  unfold WorkerRegistration.submitSlot
  dsimp only
  split <;> rfl

@[simp] theorem emitForRun_config {eventType : String} {run : PipelineRun} :
    (emitForRun eventType run db).config = db.config := rfl

@[simp] theorem routeToDeadLetter_config {workspaceId attempts : Nat}
    {table jobType reason : String} {ref : Ref} :
    (routeToDeadLetter workspaceId table ref jobType reason attempts db).config =
      db.config := rfl

@[simp] theorem modifyRun_config {runId : Nat} {u : Update PipelineRun} :
    (modifyRun runId u db).config = db.config := rfl

@[simp] theorem modifyJob_config {jobId : Nat} {u : Update JobSchedule} :
    (modifyJob jobId u db).config = db.config := rfl

@[simp] theorem enqueueStage_config {run : PipelineRun} {stage : ContentStage} {attempt : Nat}
    {runAfter : Option Nat} : (enqueueStage run stage attempt runAfter db).config = db.config := rfl

@[simp] theorem enqueueCompensations_config {run : PipelineRun} {stages : List ContentStage} :
    (enqueueCompensations run stages db).config = db.config := by
  unfold enqueueCompensations
  induction stages generalizing db with
  | nil => rfl
  | cons stage rest ih => exact ih

@[simp] theorem releaseSpend_config {run : PipelineRun} {v : SpendReservation} :
    (releaseSpend run v db).config = db.config := by
  unfold releaseSpend
  split <;> rfl

theorem releaseEach_config {run : PipelineRun} {rows : List SpendReservation} :
    (releaseEach run rows db).config = db.config := by
  unfold releaseEach
  induction rows generalizing db with
  | nil => rfl
  | cons v rest ih => exact ih.trans releaseSpend_config

@[simp] theorem releaseStageReservations_config {run : PipelineRun} {stage : ContentStage} :
    (releaseStageReservations run stage db).config = db.config := releaseEach_config

@[simp] theorem releaseAllReservations_config {run : PipelineRun} :
    (releaseAllReservations run db).config = db.config := releaseEach_config

@[simp] theorem openReservation_config {run : PipelineRun} {stage : ContentStage}
    {provider : String} {estimate : Nat} :
    (openReservation run stage provider estimate db).config = db.config := rfl

@[simp] theorem pauseForSpend_config {run : PipelineRun} :
    (pauseForSpend run db).config = db.config := rfl

@[simp] theorem commitReservation_config {run : PipelineRun} {v : SpendReservation} {cost : Nat} :
    (commitReservation run v cost db).config = db.config := rfl

@[simp] theorem createAssignment_config {q : DispatchRequest} {stage : ContentStage}
    {worker : Option WorkerRegistration} {priority : Int} :
    (createAssignment q stage worker priority db).config = db.config := by
  cases worker with
  | none => rfl
  | some w =>
    exact takeSlot_config db w.id

@[simp] theorem closeAssignment_config {a : StageAssignment} {success : Bool}
    {result : Option (List (String × Json))} :
    (closeAssignment a success result db).config = db.config := by
  unfold closeAssignment
  cases a.workerId with
  | none => rfl
  | some w => exact config_modifyWorker submitSlot_pin

@[simp] theorem recordStageRun_config {a : StageAssignment} {success : Bool} :
    (recordStageRun a success db).config = db.config := rfl

@[simp] theorem grantAssignment_config {a : StageAssignment} {workerId : Nat}
    {claimToken : Option Nat} :
    (grantAssignment a workerId claimToken db).config = db.config := takeSlot_config db workerId

@[simp] theorem releaseWorkerSlot_config {workerId : Option Nat} :
    (releaseWorkerSlot workerId db).config = db.config := by
  cases workerId with
  | none => rfl
  | some w => exact config_modifyWorker fun _ => rfl

@[simp] theorem failRun_config {run : PipelineRun} : (failRun run db).config = db.config := by
  unfold failRun
  exact releaseAllReservations_config

@[simp] theorem succeedRun_config {run : PipelineRun} {stage : ContentStage} :
    (succeedRun run stage db).config = db.config := rfl

@[simp] theorem openReviewGate_config {run : PipelineRun} {item : ContentItem}
    {stage : ContentStage} {timeoutSeconds : Nat} :
    (openReviewGate run item stage timeoutSeconds db).config = db.config := rfl

@[simp] theorem abandonStage_config {run : PipelineRun} {stage : ContentStage} :
    (abandonStage run stage db).config = db.config := releaseAllReservations_config

@[simp] theorem reviveRun_config {run : PipelineRun} : (reviveRun run db).config = db.config := by
  unfold reviveRun
  split <;> rfl

@[simp] theorem cancelRun_config {run : PipelineRun} : (cancelRun run db).config = db.config := by
  unfold cancelRun
  split
  · rfl
  · exact releaseAllReservations_config

theorem handleReviewTimeout_config {gateId : Nat} :
    (handleReviewTimeout gateId db).config = db.config := by
  unfold handleReviewTimeout
  split
  · rfl
  split
  · rfl
  split
  · rfl
  · unfold timeOutGate
    split
    · rfl
    · exact failRun_config

end Primitives

section Outcomes

variable {s t : Db}

theorem Advanced.config {run : PipelineRun} {stage : ContentStage}
    {trigger : WorkflowTransitionTrigger} {context : List (String × Json)}
    {stored : Table ReviewGate} (h : Advanced run stage trigger context stored s t) :
    t.config = s.config := by
  cases h <;> simp

theorem FailureHandled.config {run : PipelineRun} {stage : ContentStage} {attempt : Nat}
    {message : String} (h : FailureHandled run stage attempt message s t) :
    t.config = s.config := by
  cases h <;> simp [failStage]

theorem recordSuccess_config {a : StageAssignment} {result : Option (List (String × Json))} :
    (recordSuccess a result s).config = s.config := by
  have hclose : (closeAssignment a true result s).config = s.config := closeAssignment_config
  exact hclose

theorem recordFailedAttempt_config {a : StageAssignment} {result : Option (List (String × Json))} :
    (recordFailedAttempt a result s).config = s.config := by
  have hclose : (closeAssignment a false result s).config = s.config := closeAssignment_config
  exact hclose

theorem Submitted.config {a : StageAssignment} {result : Option (List (String × Json))}
    {success : Bool} {message : String} (h : Submitted a result message s success t) :
    t.config = s.config := by
  cases h with
  | orphaned _ => simp
  | succeeded _ _ settled advanced =>
    rcases advanced with ⟨_, rfl⟩ | ⟨_, ha⟩
    · rcases settled with ⟨_, rfl⟩ | ⟨_, _, _, rfl⟩ <;> simp [recordSuccess_config]
    · rw [ha.config]
      rcases settled with ⟨_, rfl⟩ | ⟨_, _, _, rfl⟩ <;> simp [recordSuccess_config]
  | failed _ _ settled handled =>
    rw [handled.config]
    rcases settled with ⟨_, rfl⟩ | ⟨_, _, rfl⟩ <;> simp [recordFailedAttempt_config]

theorem requeueAssignment_config {a : StageAssignment} :
    (requeueAssignment a db).config = db.config := by
  unfold requeueAssignment
  split
  · exact releaseStageReservations_config
  · rfl

theorem deadLetterAssignment_config {a : StageAssignment} {reason : RecoveryReason} :
    (deadLetterAssignment a reason db).config = db.config := by
  unfold deadLetterAssignment
  split
  · split
    · rfl
    · exact failRun_config
  · rfl

theorem Recovered.config {a : StageAssignment} {reason : RecoveryReason}
    (h : Recovered a reason s t) :
    t.config = s.config := by
  cases h with
  | skipped _ => rfl
  | requeued _ _ _ => exact requeueAssignment_config.trans releaseWorkerSlot_config
  | exhausted _ _ => exact deadLetterAssignment_config.trans releaseWorkerSlot_config

theorem Claimed.config {workerId : Nat} {claimToken : Option Nat} {locked : List Nat}
    (h : Claimed workerId claimToken locked s t) : t.config = s.config := by
  cases h with
  | idle => rfl
  | chosen _ _ _ _ _ _ _ settled => cases settled <;> simp

theorem Processed.config {job : JobSchedule} {lockedWorkers : List Nat}
    (h : Processed job lockedWorkers s t) (hkind : job.jobType ≠ .stageTimeout) :
    t.config = s.config := by
  cases h with
  | exhausted _ _ _ exhausted =>
    cases exhausted with
    | alone _ routed => simp [routed]
    | withRun _ _ routed => simp [routed]
  | stageTimedOut kind => exact absurd kind hkind
  | reviewTimedOut _ _ => simp [handleReviewTimeout_config]
  | _ => simp

theorem Resumed.config {gate : ReviewGate} {approved : Bool} (h : Resumed gate approved s t) :
    t.config = s.config := by
  have hdecide : (modifyGate gate.id (ReviewGate.decide approved s.now) s).config = s.config := rfl
  have hresume : ∀ runId, (resumeRun gate approved runId s).config = s.config := fun _ => rfl
  cases h with
  | rejected _ _ => simp [hdecide]
  | advanced _ _ advanced => rw [advanced.config, hresume]
  | stuck _ _ raised =>
    rcases (advanceOrFinish_raises raised).1 with rfl | ⟨_, _, _, _, rfl⟩ <;> simp [hresume]
  | unrouted _ _ => exact hdecide
  | unloaded => rfl

theorem Revivals.config {workspaceId : Nat} {targets : List RetryTarget}
    (h : Revivals workspaceId s targets t) : t.config = s.config := by
  induction h with
  | nothing same => exact same.config
  | more _ once ih =>
    obtain ⟨run, attempt, _, _, hsame⟩ := once
    rw [hsame.config, ← ih]
    exact reviveRun_config

/-- **The engine only reads its configuration.** -/
theorem Effect.configuration {op : Op} (h : Effect op s t)
    (hkinds : ∀ jobId lockedWorkers jitter, op = .processJob jobId lockedWorkers jitter →
      ∀ j ∈ s.jobs, j.jobType ≠ .stageTimeout)
    (hop : ∀ elapsed environment, op ≠ .change elapsed environment) : t.config = s.config := by
  cases h with
  | started _ _ _ => rfl
  | polled => rfl
  | processed found _ done => exact done.config (hkinds _ _ _ rfl _ (Table.get?_eq_some.mp found).1)
  | reaped => rfl
  | claimed done => exact done.config
  | acknowledged _ _ => rfl
  | renewed _ _ => rfl
  | submitted _ _ _ done => exact done.config
  | recovered _ done => exact done.config
  | decided _ _ _ recorded applied booked _ _ =>
    rw [booked.config, applied.config, recorded.config]
    rfl
  | cancelled _ => exact cancelRun_config
  | retried => exact retryFailedJobs_revivals.config
  | changed => exact absurd rfl (hop _ _)

theorem Effect.config {op : Op} (h : Effect op s t)
    (hkinds : ∀ j ∈ s.jobs, j.jobType ≠ .stageTimeout)
    (hop : ∀ elapsed environment, op ≠ .change elapsed environment) : t.config = s.config :=
  h.configuration (fun _ _ _ _ => hkinds) hop

/-! ## Pins -/

/-- Registered workers stay registered, each pinned as it was. -/
def keepsPins (s : Db) : Op → Bool
  | .change _ (some environment) =>
    decide (∀ w ∈ s.workers,
      (environment.workers.get? w.id).any (·.workspaceId == w.workspaceId) = true)
  | _ => true

/-- No operation moves the pin of a registered worker. -/
theorem Effect.pins {op : Op} (h : Effect op s t) (hkinds : ∀ j ∈ s.jobs, j.jobType ≠ .stageTimeout)
    (hkeeps : keepsPins s op = true) {workerId : Nat} {pin : Option Nat}
    (hpin : s.pins workerId = some pin) : t.pins workerId = some pin := by
  cases hop : op with
  | change elapsed environment =>
    subst hop
    cases h with
    | changed =>
      cases environment with
      | none => exact hpin
      | some environment =>
        obtain ⟨worker, hworker, rfl⟩ := Option.map_eq_some_iff.mp hpin
        obtain ⟨hmem, rfl⟩ := Table.get?_eq_some.mp hworker
        simp only [keepsPins, decide_eq_true_eq] at hkeeps
        have hkept := hkeeps worker hmem
        cases hafter : environment.workers.get? worker.id with
        | none =>
          rw [hafter] at hkept
          cases hkept
        | some worker' =>
          rw [hafter] at hkept
          have hsame : worker'.workspaceId = worker.workspaceId := by simpa using hkept
          exact Option.map_eq_some_iff.mpr ⟨worker', hafter, hsame⟩
  | _ =>
    have hconfig : t.config = s.config := h.config hkinds (by rw [hop]; simp)
    have hpins : t.pins = s.pins := congrArg Configuration.pins hconfig
    rw [hpins]
    exact hpin

end Outcomes

end ContentOrchestrator

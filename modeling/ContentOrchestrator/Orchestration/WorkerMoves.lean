import ContentOrchestrator.Orchestration.AssignmentMoves
import ContentOrchestrator.Services.RetryOutcomes

/-! # What an operation makes of the workers' slots

Only three places of the engine write a worker's row: a grant takes a slot, a submission
and a recovery give one back. `Effect.slots` sets each operation's write beside what it
does to the assignments the workers hold. -/

namespace ContentOrchestrator

open Lib

/-! ## Operations that leave the workers alone -/

section Primitives

variable {db : Db}

@[simp] theorem emitForRun_workers {eventType : String} {run : PipelineRun} :
    (emitForRun eventType run db).workers = db.workers := rfl

@[simp] theorem modifyRun_workers {runId : Nat} {u : Update PipelineRun} :
    (modifyRun runId u db).workers = db.workers := rfl

@[simp] theorem modifyGate_workers {gateId : Nat} {u : Update ReviewGate} :
    (modifyGate gateId u db).workers = db.workers := rfl

@[simp] theorem modifyJob_workers {jobId : Nat} {u : Update JobSchedule} :
    (modifyJob jobId u db).workers = db.workers := rfl

@[simp] theorem enqueueStage_workers {run : PipelineRun} {stage : ContentStage} {attempt : Nat}
    {runAfter : Option Nat} : (enqueueStage run stage attempt runAfter db).workers = db.workers :=
  rfl

theorem enqueueCompensations_workers {run : PipelineRun} {stages : List ContentStage} :
    (enqueueCompensations run stages db).workers = db.workers := by
  unfold enqueueCompensations
  induction stages generalizing db with
  | nil => rfl
  | cons stage rest ih => exact ih

theorem releaseSpend_workers {run : PipelineRun} {v : SpendReservation} :
    (releaseSpend run v db).workers = db.workers := by
  unfold releaseSpend
  split <;> rfl

theorem releaseEach_workers {run : PipelineRun} {rows : List SpendReservation} :
    (releaseEach run rows db).workers = db.workers := by
  unfold releaseEach
  induction rows generalizing db with
  | nil => rfl
  | cons v rest ih => exact ih.trans releaseSpend_workers

@[simp] theorem releaseStageReservations_workers {run : PipelineRun} {stage : ContentStage} :
    (releaseStageReservations run stage db).workers = db.workers := releaseEach_workers

@[simp] theorem releaseAllReservations_workers {run : PipelineRun} :
    (releaseAllReservations run db).workers = db.workers := releaseEach_workers

@[simp] theorem openReservation_workers {run : PipelineRun} {stage : ContentStage}
    {provider : String} {estimate : Nat} :
    (openReservation run stage provider estimate db).workers = db.workers := rfl

@[simp] theorem pauseForSpend_workers {run : PipelineRun} :
    (pauseForSpend run db).workers = db.workers := rfl

@[simp] theorem failRun_workers {run : PipelineRun} : (failRun run db).workers = db.workers := by
  unfold failRun
  exact releaseAllReservations_workers

@[simp] theorem succeedRun_workers {run : PipelineRun} {stage : ContentStage} :
    (succeedRun run stage db).workers = db.workers := rfl

@[simp] theorem openReviewGate_workers {run : PipelineRun} {item : ContentItem}
    {stage : ContentStage} {timeoutSeconds : Nat} :
    (openReviewGate run item stage timeoutSeconds db).workers = db.workers := rfl

@[simp] theorem abandonStage_workers {run : PipelineRun} {stage : ContentStage} :
    (abandonStage run stage db).workers = db.workers := releaseAllReservations_workers

theorem cancelRun_workers {run : PipelineRun} : (cancelRun run db).workers = db.workers := by
  unfold cancelRun
  split
  · rfl
  · exact releaseAllReservations_workers

theorem handleReviewTimeout_workers {gateId : Nat} :
    (handleReviewTimeout gateId db).workers = db.workers := by
  unfold handleReviewTimeout
  split
  · rfl
  split
  · rfl
  split
  · rfl
  · unfold timeOutGate
    split
    · rfl
    · exact failRun_workers

end Primitives

section Outcomes

variable {s t : Db}

theorem Advanced.workers {run : PipelineRun} {stage : ContentStage}
    {trigger : WorkflowTransitionTrigger} {context : List (String × Json)}
    {stored : Table ReviewGate} (h : Advanced run stage trigger context stored s t) :
    t.workers = s.workers := by
  cases h <;> simp

theorem FailureHandled.workers {run : PipelineRun} {stage : ContentStage} {attempt : Nat}
    {message : String} (h : FailureHandled run stage attempt message s t) :
    t.workers = s.workers := by
  have hfailed : (failStage run stage attempt message s).workers = s.workers := failRun_workers
  cases h with
  | retried _ _ _ _ => rfl
  | failed => exact hfailed
  | compensated => rw [modifyRun_workers, enqueueCompensations_workers, modifyRun_workers, hfailed]

theorem Resumed.workers {gate : ReviewGate} {approved : Bool} (h : Resumed gate approved s t) :
    t.workers = s.workers := by
  have hresume : ∀ runId, (resumeRun gate approved runId s).workers = s.workers := fun _ => rfl
  cases h with
  | rejected _ _ => rw [failRun_workers, modifyRun_workers, modifyGate_workers]
  | advanced _ _ advanced => rw [advanced.workers, hresume]
  | stuck _ _ raised =>
    rcases (advanceOrFinish_raises raised).1 with rfl | ⟨_, _, _, _, rfl⟩
    · exact hresume _
    · rw [modifyRun_workers, hresume]
  | unrouted _ _ => exact modifyGate_workers
  | unloaded => rfl

theorem Revivals.workers {workspaceId : Nat} {targets : List RetryTarget}
    (h : Revivals workspaceId s targets t) : t.workers = s.workers := by
  induction h with
  | nothing same => exact same.workers
  | more _ once ih =>
    obtain ⟨run, attempt, _, _, hsame⟩ := once
    rw [hsame.workers, ← ih]
    change (reviveRun run _).workers = _
    unfold reviveRun
    split <;> rfl

end Outcomes

/-! ## Slots -/

/-- The assignment is in flight, in the hands of this worker. -/
def StageAssignment.isHeldBy (workerId : Nat) (a : StageAssignment) : Bool :=
  a.workerId == some workerId && a.status.inFlight

/-- How many assignments the worker holds. -/
def heldBy (db : Db) (workerId : Nat) : Nat := db.assignments.count (·.isHeldBy workerId)

/-- The operation cancels an assignment that is in a worker's hands: a run is cancelled, or its
stage given up at the scheduler's ceiling, while an attempt is under way. -/
def cancelsHeld (s : Db) : Op → Bool
  | .cancelRun runId =>
    decide (∃ a ∈ s.assignments, a.pipelineRunId = runId ∧
      (a.workerId.isSome && a.status.inFlight) = true) &&
      (s.runs.get? runId).any fun run => !run.status.isTerminal
  | .processJob jobId _ _ =>
    (s.jobs.get? jobId).any fun job =>
      job.status == .leased && job.isStageJob && job.atCeiling &&
        atConcurrencyLimit s job.workspaceId &&
        decide (∃ a ∈ s.assignments, (s.runs.get? a.pipelineRunId).isSome ∧
          job.runId? = some a.pipelineRunId ∧
          ContentStage.ofValue? job.refTable = some a.stage ∧
            (a.workerId.isSome && a.status.inFlight) = true)
  | _ => false

/-- What an operation does to one worker's slots. -/
inductive SlotMove (op : Op) (s t : Db) : Prop
  | kept (workers : t.workers = s.workers) (held : ∀ v, heldBy t v = heldBy s v)
  | granted {w : WorkerRegistration} (found : s.workers.get? w.id = some w)
      (serving : w.status = .online ∨ w.status = .busy) (listed : w.deregisteredAt = none)
      (room : w.currentLoad < w.maxConcurrency)
      (workers : t.workers = s.workers.modify w.id WorkerRegistration.takeSlot)
      (held : ∀ v, heldBy t v = heldBy s v + if v = w.id then 1 else 0)
  | freed {owner : Nat} {u : Update WorkerRegistration}
      (slot : u = WorkerRegistration.submitSlot ∨ u = WorkerRegistration.releaseSlot)
      (workers : t.workers = s.workers.modify owner u)
      (held : ∀ v, heldBy s v = heldBy t v + if v = owner then 1 else 0)
  | cancelled (cancels : cancelsHeld s op = true) (workers : t.workers = s.workers)
      (held : ∀ v, heldBy t v ≤ heldBy s v)

variable {s t : Db} {op : Op}

theorem isHeldBy_iff {a : StageAssignment} {v : Nat} :
    a.isHeldBy v = true ↔ a.workerId = some v ∧ a.status.inFlight = true := by
  simp [StageAssignment.isHeldBy]

theorem SlotMove.of_eq (hw : t.workers = s.workers) (ha : t.assignments = s.assignments) :
    SlotMove op s t :=
  .kept hw fun v => by rw [heldBy, ha, heldBy]

/-- The row's owner and its being in flight stay as they were. -/
theorem SlotMove.of_row {a : StageAssignment} {k : Nat} {u : Update StageAssignment}
    (hw : t.workers = s.workers) (ha : t.assignments = s.assignments.modify k u)
    (found : s.assignments.get? k = some a) (hheld : ∀ v, (u.apply a).isHeldBy v = a.isHeldBy v) :
    SlotMove op s t := by
  refine .kept hw fun v => ?_
  rw [heldBy, ha]
  refine Table.count_modify_of_eq fun b hb => ?_
  rw [found] at hb
  rw [← Option.some.inj hb]
  exact hheld v

/-- The row ends, and its owner, if any, gets a slot back. -/
theorem SlotMove.of_end {a : StageAssignment} {u : Update StageAssignment}
    {f : Update WorkerRegistration} (slot : f = WorkerRegistration.submitSlot ∨
    f = WorkerRegistration.releaseSlot) (hw : t.workers = match a.workerId with
      | some w => s.workers.modify w f
      | none => s.workers)
    (ha : t.assignments = s.assignments.modify a.id u) (found : s.assignments.get? a.id = some a)
    (held : a.status.inFlight = true) (hend : ∀ v, (u.apply a).isHeldBy v = false) :
    SlotMove op s t := by
  have hcount : ∀ v, heldBy t v + (a.isHeldBy v).toNat = heldBy s v := fun v => by
    have hmodify := Table.count_modify (u := u) found (·.isHeldBy v)
    rw [hend v, ← ha] at hmodify
    exact hmodify
  cases howner : a.workerId with
  | none =>
    rw [howner] at hw
    refine .kept hw fun v => ?_
    have hnone : a.isHeldBy v = false := by simp [StageAssignment.isHeldBy, howner]
    have hv := hcount v
    rw [hnone] at hv
    exact hv
  | some owner =>
    rw [howner] at hw
    refine .freed slot hw fun v => ?_
    rw [← hcount v]
    by_cases hv : v = owner
    · simp [StageAssignment.isHeldBy, howner, held, hv]
    · simp [StageAssignment.isHeldBy, howner, hv, Ne.symm hv]

theorem SlotMove.of_cancel {q : StageAssignment → Bool} (hw : t.workers = s.workers)
    (ha : t.assignments = s.assignments.modifyWhere q (StageAssignment.cancel s.now))
    (hcancels : ∀ a ∈ s.assignments, q a = true → (a.workerId.isSome && a.status.inFlight) = true →
      cancelsHeld s op = true) : SlotMove op s t := by
  have hend : ∀ (a : StageAssignment) v, ((StageAssignment.cancel s.now).apply a).isHeldBy v =
      false := by
    intro a v
    simp [StageAssignment.isHeldBy, StageAssignment.cancel, StageAssignmentStatus.inFlight]
  have hheld : ∀ v, heldBy t v =
      s.assignments.count fun a =>
        (if q a then (StageAssignment.cancel s.now).apply a else a).isHeldBy v := by
    intro v
    rw [heldBy, ha, Table.count_modifyWhere]
  cases hop : cancelsHeld s op with
  | true =>
    refine .cancelled hop hw fun v => ?_
    rw [hheld]
    refine Table.count_mono fun a _ hav => ?_
    split at hav
    · rw [hend] at hav
      cases hav
    · exact hav
  | false =>
    refine .kept hw fun v => ?_
    rw [hheld]
    refine Table.count_congr fun a hmem => ?_
    split
    · rename_i hq
      rw [hend]
      cases hav : a.isHeldBy v with
      | false => rfl
      | true =>
        obtain ⟨howner, hflight⟩ := isHeldBy_iff.mp hav
        rw [hcancels a hmem hq (by simp [howner, hflight])] at hop
        cases hop
    · rfl

/-- Only the submission's own worker is written, whatever the result leads to. -/
theorem Submitted.workers {a : StageAssignment} {result : Option (List (String × Json))}
    {message : String} {success : Bool} (h : Submitted a result message s success t) :
    t.workers = match a.workerId with
      | some w => s.workers.modify w WorkerRegistration.submitSlot
      | none => s.workers := by
  have hclosed : ∀ success, (closeAssignment a success result s).workers =
      match a.workerId with
        | some w => s.workers.modify w WorkerRegistration.submitSlot
        | none => s.workers := fun _ => rfl
  cases h with
  | orphaned _ => exact hclosed _
  | @succeeded run s1 _ _ _ settled advanced =>
    have hs1 : s1.workers = (closeAssignment a true result s).workers := by
      rcases settled with ⟨_, rfl⟩ | ⟨_, _, _, rfl⟩ <;> rfl
    rcases advanced with ⟨_, rfl⟩ | ⟨_, ha⟩
    · exact hs1
    · exact ha.workers.trans hs1
  | @failed run s1 _ _ _ settled handled =>
    have hs1 : s1.workers = (closeAssignment a false result s).workers := by
      rcases settled with ⟨_, rfl⟩ | ⟨_, _, rfl⟩
      · rfl
      · exact releaseSpend_workers
    exact handled.workers.trans hs1

theorem requeueAssignment_workers {a : StageAssignment} {db : Db} :
    (requeueAssignment a db).workers = db.workers := by
  unfold requeueAssignment
  split
  · exact releaseStageReservations_workers
  · rfl

theorem deadLetterAssignment_workers {a : StageAssignment} {reason : RecoveryReason} {db : Db} :
    (deadLetterAssignment a reason db).workers = db.workers := by
  unfold deadLetterAssignment
  split
  · split
    · rfl
    · exact failRun_workers
  · rfl

theorem releaseWorkerSlot_workers {workerId : Option Nat} : (releaseWorkerSlot workerId s).workers =
    match workerId with
      | some w => s.workers.modify w WorkerRegistration.releaseSlot
      | none => s.workers := by
  cases workerId <;> rfl

theorem Recovered.slots {a : StageAssignment} {reason : RecoveryReason} (h : Recovered a reason s t)
    (found : s.assignments.get? a.id = some a) : SlotMove op s t := by
  cases h with
  | skipped _ => exact .of_eq rfl rfl
  | requeued held _ _ =>
    refine .of_end (.inr rfl) ?_ requeueAssignment_assignments found held fun v => ?_
    · rw [requeueAssignment_workers, releaseWorkerSlot_workers]
    · simp [StageAssignment.isHeldBy, StageAssignment.requeue, StageAssignmentStatus.inFlight]
  | exhausted held _ =>
    refine .of_end (.inr rfl) ?_ deadLetterAssignment_assignments found held fun v => ?_
    · rw [deadLetterAssignment_workers, releaseWorkerSlot_workers]
    · simp [StageAssignment.isHeldBy, StageAssignment.exhaust, StageAssignmentStatus.inFlight]

theorem refusal_none {w : WorkerRegistration} (h : w.refusal s = none) :
    w.status = .online ∧ w.deregisteredAt = none ∧ w.currentLoad < w.maxConcurrency := by
  unfold WorkerRegistration.refusal at h
  split at h
  · cases h
  split at h
  · cases h
  rename_i hserving
  split at h
  · cases h
  split at h
  · cases h
  rename_i hroom
  simp only [not_or, Option.isSome_iff_ne_none, ne_eq, not_not] at hserving
  exact ⟨hserving.2, hserving.1, Nat.lt_of_not_le hroom⟩

/-- A waiting row goes to the worker. -/
theorem SlotMove.of_grant {w : WorkerRegistration} {row : StageAssignment}
    {u : Update StageAssignment} (found : s.workers.get? w.id = some w)
    (admitted : w.refusal s = none)
    (hw : t.workers = s.workers.modify w.id WorkerRegistration.takeSlot)
    (ha : t.assignments = s.assignments.modify row.id u) (mem : row ∈ s.assignments)
    (waiting : row.status = .pending)
    (hgranted : ∀ v, (u.apply row).isHeldBy v = decide (v = w.id)) :
    SlotMove op s t := by
  obtain ⟨hserving, hlisted, hroom⟩ := refusal_none admitted
  refine .granted found (.inl hserving) hlisted hroom hw fun v => ?_
  have hrow : s.assignments.get? row.id = some row := Table.get?_of_mem mem
  have hmodify := Table.count_modify (u := u) hrow (·.isHeldBy v)
  have hwaiting : row.isHeldBy v = false := by
    simp [StageAssignment.isHeldBy, waiting, StageAssignmentStatus.inFlight]
  rw [hwaiting, hgranted v] at hmodify
  rw [heldBy, ha, heldBy]
  by_cases hv : v = w.id <;> simpa [hv] using hmodify

theorem Claimed.slots {workerId : Nat} {claimToken : Option Nat} {locked : List Nat}
    (h : Claimed workerId claimToken locked s t) : SlotMove op s t := by
  cases h with
  | idle => exact .of_eq rfl rfl
  | @chosen worker _ row _ _ registered _ admitted _ _ mem waiting settled =>
    obtain ⟨_, rfl⟩ := Table.get?_eq_some.mp registered
    have hgranted : ∀ now lease v,
        ((StageAssignment.grant worker.id claimToken now lease).apply row).isHeldBy v =
          decide (v = worker.id) := by
      intro now lease v
      by_cases hv : v = worker.id
      · simp [StageAssignment.isHeldBy, StageAssignment.grant, StageAssignmentStatus.inFlight, hv]
      · simp [StageAssignment.isHeldBy, StageAssignment.grant, StageAssignmentStatus.inFlight, hv,
          Ne.symm hv]
    cases settled with
    | held _ _ => exact .of_eq (by simp) (by simp)
    | @reserved run provider estimate _ _ =>
      have hclock := reserved_clock s run row.stage provider estimate
      refine .of_grant (u := StageAssignment.grant worker.id claimToken s.now
        s.settings.assignmentLeaseSeconds)
        registered admitted ?_ ?_ mem waiting fun v => hgranted _ _ v
      · simp [grantAssignment]
        rfl
      · simp [hclock.1, hclock.2]
        rfl
    | granted _ =>
      exact .of_grant registered admitted rfl (grantAssignment_frame).2.2.1 mem waiting fun v =>
        hgranted _ _ v

/-- A row made for a worker is in its hands. -/
theorem createAssignment_slots {q : DispatchRequest} {stage : ContentStage} {w : WorkerRegistration}
    {priority : Int} {db : Db} (hw : db.workers = s.workers) (ha : db.assignments = s.assignments)
    (selected : selectWorker s q.stage q.lockedWorkers = some w)
    (workers : t.workers = (createAssignment q stage (some w) priority db).workers)
    (assignments : t.assignments = (createAssignment q stage (some w) priority db).assignments) :
    SlotMove op s t := by
  obtain ⟨hmem, heligible⟩ := selectWorker_some selected
  simp only [WorkerRegistration.isEligible, Bool.and_eq_true, Bool.or_eq_true, beq_iff_eq,
    Option.isNone_iff_eq_none, decide_eq_true_eq] at heligible
  obtain ⟨⟨⟨⟨⟨hserving, _⟩, hlisted⟩, _⟩, _⟩, hroom⟩ := heligible
  refine .granted (Table.get?_of_mem hmem) hserving hlisted hroom ?_ fun v => ?_
  · rw [workers, ← hw]
    rfl
  · rw [heldBy, assignments, (createAssignment_frame).2.2.1, Table.count_insert, ha, heldBy]
    congr 1
    by_cases hv : v = w.id
    · simp [StageAssignment.isHeldBy, newAssignment, StageAssignmentStatus.inFlight, hv]
    · simp [StageAssignment.isHeldBy, newAssignment, hv, Ne.symm hv]

/-- A row made without a worker waits. -/
theorem createAssignment_waiting {q : DispatchRequest} {stage : ContentStage} {priority : Int}
    (workers : t.workers = s.workers)
    (assignments : t.assignments = (createAssignment q stage none priority s).assignments) :
    SlotMove op s t := by
  refine .kept workers fun v => ?_
  rw [heldBy, assignments, (createAssignment_frame).2.2.1, Table.count_insert]
  simp [StageAssignment.isHeldBy, newAssignment, heldBy]

theorem Processed.slots {job : JobSchedule} {lockedWorkers : List Nat} {jitter : Nat}
    (h : Processed job lockedWorkers s t) (found : s.jobs.get? job.id = some job)
    (leased : job.status = .leased) (hkind : job.jobType ≠ .stageTimeout) :
    SlotMove (.processJob job.id lockedWorkers jitter) s t := by
  cases h with
  | held _ _ _ _ _ _ _ => exact .of_eq (by simp) (by simp)
  | assigned _ _ _ _ _ _ _ selected =>
    exact createAssignment_slots (by simp) (by simp) selected rfl rfl
  | waiting _ _ _ _ _ _ _ => exact createAssignment_waiting rfl rfl
  | exhausted stageJob limit ceiling exhausted =>
    cases exhausted with
    | alone _ routed => exact .of_eq (by rw [routed]; rfl) (by rw [routed]; rfl)
    | @withRun run stage href parsed _ routed =>
      refine .of_cancel (q := fun a => a.isLiveFor run.id stage) ?_ ?_ fun a hmem hlive hheld => ?_
      · have hworkers : (abandonStage run stage (modifyJob job.id JobSchedule.exhaust s)).workers =
            s.workers :=
          abandonStage_workers
        rw [routed]
        exact hworkers
      · rw [routed]
        exact (abandonStage_frame).2.2.1
      · obtain ⟨runId, hrunId, hrun⟩ := Option.bind_eq_some_iff.mp href
        obtain ⟨_, rfl⟩ := Table.get?_eq_some.mp hrun
        simp only [StageAssignment.isLiveFor, Bool.and_eq_true, beq_iff_eq] at hlive
        obtain ⟨⟨howns, rfl⟩, _⟩ := hlive
        have hknown : (s.runs.get? a.pipelineRunId).isSome = true := by
          rw [howns]
          exact Option.isSome_iff_exists.mpr ⟨run, hrun⟩
        have hrow : ∃ a ∈ s.assignments, (s.runs.get? a.pipelineRunId).isSome = true ∧
            job.runId? = some a.pipelineRunId ∧ ContentStage.ofValue? job.refTable = some a.stage ∧
              (a.workerId.isSome && a.status.inFlight) = true :=
          ⟨a, hmem, hknown, by rw [hrunId, howns]; rfl, parsed, hheld⟩
        unfold cancelsHeld
        dsimp only
        rw [found, Option.any_some, leased, stageJob, ceiling, limit]
        exact decide_eq_true hrow
  | stageTimedOut kind => exact absurd kind hkind
  | reviewTimedOut _ _ => exact .of_eq handleReviewTimeout_workers handleReviewTimeout_assignments
  | _ => exact .of_eq rfl rfl

/-- **What one operation does to the workers' slots.** -/
theorem Effect.slots (h : Effect op s t)
    (hkinds : ∀ jobId lockedWorkers jitter, op = .processJob jobId lockedWorkers jitter →
      ∀ j ∈ s.jobs, j.jobType ≠ .stageTimeout)
    (hop : ∀ elapsed environment, op ≠ .change elapsed environment) : SlotMove op s t := by
  cases h with
  | started _ _ _ => exact .of_eq rfl rfl
  | polled => exact .of_eq rfl rfl
  | processed found leased done =>
    obtain ⟨hmem, rfl⟩ := Table.get?_eq_some.mp found
    exact done.slots found leased (hkinds _ _ _ rfl _ hmem)
  | reaped => exact .of_eq rfl rfl
  | claimed done => exact done.slots
  | @acknowledged _ _ _ duration _ a found held =>
    refine .of_row (u := (StageAssignment.acknowledged s.now).andThen
      (StageAssignment.extendLease s.now duration)) rfl Table.modify_modify found fun v => ?_
    simp [StageAssignment.isHeldBy, Update.andThen, StageAssignment.acknowledged,
      StageAssignment.extendLease, held, StageAssignmentStatus.inFlight]
  | renewed found held => exact .of_row rfl rfl found fun _ => rfl
  | @submitted _ _ _ _ success _ _ _ a found held admitted done =>
    obtain ⟨_, rfl⟩ := Table.get?_eq_some.mp found
    refine .of_end (.inl rfl) done.workers done.assignments found held fun v => ?_
    cases success <;> simp [StageAssignment.isHeldBy, StageAssignment.complete,
      StageAssignmentStatus.inFlight]
  | recovered found done =>
    obtain ⟨_, rfl⟩ := Table.get?_eq_some.mp found
    exact done.slots found
  | decided _ _ _ recorded applied booked _ _ =>
    refine .of_eq ?_ ((booked.assignments.trans applied.assignments).trans recorded.assignments)
    exact (booked.workers.trans applied.workers).trans recorded.workers
  | @cancelled _ runId run found =>
    have hid : run.id = runId := (Table.get?_eq_some.mp found).2
    subst hid
    have hworkers : (cancelRun run s).workers = s.workers := cancelRun_workers
    by_cases hterminal : run.status.isTerminal = true
    · exact .of_eq hworkers (by rw [cancelRun, if_pos hterminal])
    · refine .of_cancel (q := fun a => a.isLiveOf run.id) hworkers ?_ fun a hmem hlive hheld => ?_
      · rw [cancelRun, if_neg hterminal]
        simp
      · simp only [StageAssignment.isLiveOf, Bool.and_eq_true, beq_iff_eq] at hlive
        have hrow : ∃ a ∈ s.assignments, a.pipelineRunId = run.id ∧
            (a.workerId.isSome && a.status.inFlight) = true := ⟨a, hmem, hlive.1, hheld⟩
        have hopen : (s.runs.get? run.id).any (fun run => !run.status.isTerminal) = true := by
          rw [found]
          simpa using hterminal
        exact Bool.and_eq_true_iff.mpr ⟨decide_eq_true hrow, hopen⟩
  | retried => exact .of_eq retryFailedJobs_revivals.workers retryFailedJobs_revivals.assignments
  | changed => exact absurd rfl (hop _ _)

end ContentOrchestrator

import ContentOrchestrator.Orchestration.TableInvariants

/-! # What an operation makes of an assignment row

An attempt is in flight from the moment a worker gets the row, by the scheduler's
choice or by its own claim, until the row is closed or requeued for the next attempt.
`Effect.assignments` says which operation takes a row from where to where. -/

namespace ContentOrchestrator

open Lib

variable {s t : Db}

/-- The scheduler picks a registered worker that is fit for the stage. -/
theorem selectWorker_some {stage : String} {lockedWorkers : List Nat} {w : WorkerRegistration}
    (h : selectWorker s stage lockedWorkers = some w) :
    w ∈ s.workers ∧ w.isEligible stage 50 = true := by
  unfold selectWorker at h
  have hmem := (List.mem_insertionSort _).mp (List.mem_of_find?_eq_some h)
  exact Table.mem_select.mp hmem

/-! ## The rows of one operation -/

theorem Submitted.assignments {a : StageAssignment} {result : Option (List (String × Json))}
    {success : Bool} {message : String} (h : Submitted a result message s success t) :
    t.assignments = s.assignments.modify a.id (StageAssignment.complete success result s.now) := by
  cases h with
  | orphaned _ => exact (closeAssignment_frame).2.2.1
  | @succeeded run s1 _ _ _ settled advanced =>
    have hs1 : s1.assignments =
        s.assignments.modify a.id (StageAssignment.complete true result s.now) := by
      rcases settled with ⟨_, rfl⟩ | ⟨_, _, _, rfl⟩ <;> simp [recordSuccess]
    rcases advanced with ⟨_, rfl⟩ | ⟨_, ha⟩
    · exact hs1
    · exact ha.assignments.trans hs1
  | @failed run s1 _ _ _ settled handled =>
    have hs1 : s1.assignments =
        s.assignments.modify a.id (StageAssignment.complete false result s.now) := by
      rcases settled with ⟨_, rfl⟩ | ⟨_, _, rfl⟩ <;> simp [recordFailedAttempt]
    exact handled.assignments.trans hs1

theorem releaseWorkerSlot_now {workerId : Option Nat} :
    (releaseWorkerSlot workerId s).now = s.now := by
  cases workerId <;> rfl

theorem requeueAssignment_assignments {a : StageAssignment} :
    (requeueAssignment a (releaseWorkerSlot a.workerId s)).assignments =
      s.assignments.modify a.id (StageAssignment.requeue s.now) := by
  rw [requeueAssignment_frame.2.2.1, releaseWorkerSlot_frame.2.2.1, releaseWorkerSlot_now]

theorem deadLetterAssignment_assignments {a : StageAssignment} {reason : RecoveryReason} :
    (deadLetterAssignment a reason (releaseWorkerSlot a.workerId s)).assignments =
      s.assignments.modify a.id (StageAssignment.exhaust s.now) := by
  rw [deadLetterAssignment_frame.2.1, releaseWorkerSlot_frame.2.2.1, releaseWorkerSlot_now]

/-- A reservation leaves the clock and the settings alone. -/
theorem reserved_clock (s : Db) (run : PipelineRun) (stage : ContentStage) (provider : String)
    (estimate : Nat) :
    (openReservation run stage provider estimate (releaseStageReservations run stage s)).now =
    s.now ∧
      (openReservation run stage provider estimate
        (releaseStageReservations run stage s)).settings =
        s.settings := by
  have hconfig :
      (openReservation run stage provider estimate (releaseStageReservations run stage s)).config =
      s.config := by simp
  exact ⟨congrArg Configuration.now hconfig, congrArg Configuration.settings hconfig⟩

/-- A claim changes no row, or hands its candidate to the worker. -/
theorem ClaimSettled.assignments {row : StageAssignment} {workerId : Nat} {claimToken : Option Nat}
    (h : ClaimSettled row workerId claimToken s t) :
    t.assignments = s.assignments ∨
      t.assignments = s.assignments.modify row.id
        (StageAssignment.grant workerId claimToken s.now s.settings.assignmentLeaseSeconds) := by
  cases h with
  | held _ _ => exact .inl (by simp)
  | @reserved run provider estimate _ _ =>
    refine .inr ?_
    have hclock := reserved_clock s run row.stage provider estimate
    simp [hclock.1, hclock.2]
  | granted _ => exact .inr (grantAssignment_frame).2.2.1

/-! ## Moves -/

/-- What an operation makes of a row. -/
inductive AssignmentMove (op : Op) (s : Db) (a : StageAssignment) : StageAssignment → Prop
  | kept : AssignmentMove op s a a
  | granted {workerId : Nat} {claimToken : Option Nat} {locked : List Nat}
      {worker : WorkerRegistration}
      (request : op = .claim workerId claimToken locked)
      (registered : s.workers.get? workerId = some worker)
      (waiting : a.status = .pending) (serves : worker.serves a.workspaceId = true) :
      AssignmentMove op s a
        ((StageAssignment.grant workerId claimToken s.now s.settings.assignmentLeaseSeconds).apply
          a)
  | acknowledged {workerId duration : Nat} {leaseSeconds : Option Nat}
      (request : op = .ack a.id leaseSeconds workerId) (held : a.status = .dispatched) :
      AssignmentMove op s a ((StageAssignment.extendLease s.now duration).apply
        ((StageAssignment.acknowledged s.now).apply a))
  | renewed {workerId duration : Nat} {leaseSeconds : Option Nat}
      (request : op = .renew a.id leaseSeconds workerId) (held : a.status.inFlight = true) :
      AssignmentMove op s a ((StageAssignment.extendLease s.now duration).apply a)
  | submitted {success : Bool} {result : Option (List (String × Json))} {message : String}
      {workerId : Option Nat} {jitter : Nat}
      (request : op = .submit a.id success result message workerId jitter)
      (held : a.status.inFlight = true) (admitted : assertSubmittable s a workerId = .ok ()) :
      AssignmentMove op s a ((StageAssignment.complete success result s.now).apply a)
  | requeued {reason : RecoveryReason} (request : op = .recover a.id reason)
      (held : a.status.inFlight = true) : AssignmentMove op s a
        ((StageAssignment.requeue s.now).apply a)
  | exhausted {reason : RecoveryReason} (request : op = .recover a.id reason)
      (held : a.status.inFlight = true) : AssignmentMove op s a
        ((StageAssignment.exhaust s.now).apply a)
  | cancelled (live : a.status.isLive = true)
      (request : (∃ runId, op = .cancelRun runId ∧ a.isLiveOf runId = true) ∨
        ∃ jobId lockedWorkers jitter, op = .processJob jobId lockedWorkers jitter) :
      AssignmentMove op s a ((StageAssignment.cancel s.now).apply a)

/-- The row the scheduler makes for a stage job it leased. -/
inductive IsDispatched (op : Op) (s : Db) : StageAssignment → Prop
  | made {job : JobSchedule} {run : PipelineRun} {runId : Nat} {lockedWorkers : List Nat}
      {jitter : Nat}
      {stage : ContentStage} {worker : Option WorkerRegistration} {priority : Int}
      (request : op = .processJob job.id lockedWorkers jitter)
        (found : s.jobs.get? job.id = some job)
      (stageJob : job.isStageJob = true) (ref : job.runId? = some runId)
      (room : atConcurrencyLimit s job.workspaceId = false)
      (known : s.runs.get? runId = some run) (status : statusOutcome run = none)
      (free : assignmentByKey s job.workspaceId ⟨runId, job.refTable, job.attempt + 1⟩ = none)
      (selected : ∀ w, worker = some w → selectWorker s job.refTable lockedWorkers = some w) :
      IsDispatched op s
        ((newAssignment (job.request runId lockedWorkers) stage worker priority s).make
        s.assignments.next)

/-- Old rows are moved, and new ones are dispatched. -/
abbrev AssignmentsMove (op : Op) (s t : Db) : Prop :=
  Table.Evolves (AssignmentMove op s) (IsDispatched op s) s.assignments t.assignments

variable {op : Op}

theorem AssignmentMove.id {a a' : StageAssignment} (h : AssignmentMove op s a a') :
    a'.id = a.id := by
  cases h <;> rfl

theorem AssignmentsMove.of_eq (h : t.assignments = s.assignments) : AssignmentsMove op s t :=
  Table.Evolves.of_eq (fun _ => .kept) h

theorem Processed.assignments {job : JobSchedule} {lockedWorkers : List Nat} {jitter : Nat}
    (h : Processed job lockedWorkers s t) (found : s.jobs.get? job.id = some job)
    (hkind : job.jobType ≠ .stageTimeout) :
    AssignmentsMove (.processJob job.id lockedWorkers jitter) s t := by
  cases h with
  | held _ _ _ _ _ _ _ => exact .of_eq (by simp)
  | @assigned runId estimate run stage worker priority stageJob ref room known status free _
      selected =>
    have hrow : IsDispatched (.processJob job.id lockedWorkers jitter) s
        ((newAssignment (job.request runId lockedWorkers) stage (some worker) priority s).make
          s.assignments.next) := by
      refine .made rfl found stageJob ref room known status free fun w hw => ?_
      rw [← Option.some.inj hw]
      exact selected
    refine Table.Evolves.insert (fun _ => .kept) hrow ?_
    have hclock := reserved_clock s run stage draftDeskProvider estimate
    simp [newAssignment, hclock.1, hclock.2]
  | waiting stageJob ref room known status free _ =>
    refine Table.Evolves.insert (fun _ => .kept)
      (.made rfl found stageJob ref room known status free ?_) rfl
    simp
  | exhausted _ _ _ exhausted =>
    cases exhausted with
    | alone _ routed => exact .of_eq (by simp [routed])
    | @withRun run stage _ _ _ routed =>
      refine Table.Evolves.modifyWhere (fun _ => .kept) (fun a _ hlive =>
        .cancelled ?_ (.inr ⟨_, _, _, rfl⟩))
        (q := fun a => a.isLiveFor run.id stage) (by simp [routed]; rfl)
      simp only [StageAssignment.isLiveFor, Bool.and_eq_true] at hlive
      exact hlive.2
  | stageTimedOut kind => exact absurd kind hkind
  | reviewTimedOut _ _ => exact .of_eq handleReviewTimeout_assignments
  | _ => exact .of_eq rfl

/-- The row an operation names is the one it moves. -/
theorem AssignmentsMove.row {a : StageAssignment} {u : Update StageAssignment}
    (h : t.assignments = s.assignments.modify a.id u) (found : s.assignments.get? a.id = some a)
    (hmove : AssignmentMove op s a (u.apply a)) : AssignmentsMove op s t := by
  refine Table.Evolves.modify (fun _ => .kept) (fun b hb => ?_) h
  rw [found] at hb
  rw [← Option.some.inj hb]
  exact hmove

/-- **What one operation does to the assignments.** -/
theorem Effect.assignments (h : Effect op s t)
    (hkinds : ∀ jobId lockedWorkers jitter, op = .processJob jobId lockedWorkers jitter →
      ∀ j ∈ s.jobs, j.jobType ≠ .stageTimeout) : AssignmentsMove op s t := by
  cases h with
  | started _ _ _ => exact .of_eq rfl
  | polled => exact .of_eq rfl
  | processed found _ done =>
    obtain ⟨hmem, rfl⟩ := Table.get?_eq_some.mp found
    exact done.assignments found (hkinds _ _ _ rfl _ hmem)
  | reaped => exact .of_eq rfl
  | claimed done =>
    cases done with
    | idle => exact .of_eq rfl
    | @chosen worker stages row blocked t registered _ _ _ chosen mem waiting settled =>
      have hserves : worker.serves row.workspaceId = true := by
        have hclaimable := (searchCandidate_some chosen).2
        simp only [StageAssignment.isClaimableBy, Bool.and_eq_true] at hclaimable
        exact hclaimable.2
      rcases settled.assignments with heq | hgrant
      · exact .of_eq heq
      · exact .row hgrant (Table.get?_of_mem mem) (.granted rfl registered waiting hserves)
  | @acknowledged _ _ workerId duration leaseSeconds a found held =>
    obtain ⟨_, rfl⟩ := Table.get?_eq_some.mp found
    refine .row (u := (StageAssignment.acknowledged s.now).andThen
      (StageAssignment.extendLease s.now duration)) ?_ found (.acknowledged rfl held)
    exact Table.modify_modify
  | renewed found held =>
    obtain ⟨_, rfl⟩ := Table.get?_eq_some.mp found
    exact .row rfl found (.renewed rfl held)
  | submitted found held admitted done =>
    obtain ⟨_, rfl⟩ := Table.get?_eq_some.mp found
    exact .row done.assignments found (.submitted rfl held admitted)
  | recovered found done =>
    obtain ⟨_, rfl⟩ := Table.get?_eq_some.mp found
    cases done with
    | skipped _ => exact .of_eq rfl
    | requeued held _ _ => exact .row requeueAssignment_assignments found (.requeued rfl held)
    | exhausted held _ => exact .row deadLetterAssignment_assignments found (.exhausted rfl held)
  | decided _ _ _ recorded applied booked _ _ =>
    exact .of_eq ((booked.assignments.trans applied.assignments).trans recorded.assignments)
  | @cancelled _ runId run found =>
    have hid : run.id = runId := (Table.get?_eq_some.mp found).2
    unfold cancelRun
    split
    · exact .of_eq rfl
    · refine Table.Evolves.modifyWhere (fun _ => .kept)
        (fun a _ hlive => .cancelled ?_ (.inl ⟨runId, rfl, hid ▸ hlive⟩))
        (q := fun a => a.isLiveOf run.id) (by simp)
      simp only [StageAssignment.isLiveOf, Bool.and_eq_true] at hlive
      exact hlive.2
  | retried => exact .of_eq retryFailedJobs_revivals.assignments
  | changed => exact .of_eq rfl

theorem step_assignments (op : Op) (hs : s.Sound) : AssignmentsMove op s (step s op) := by
  rcases step_cases s op with heq | heffect
  · exact .of_eq (by rw [heq])
  · exact heffect.assignments fun _ _ _ _ => hs.jobs

end ContentOrchestrator

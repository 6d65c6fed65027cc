import ContentOrchestrator.Orchestration.ControllerOutcomes
import ContentOrchestrator.Orchestration.Scheduler

/-! # What dispatch, submission, recovery, claiming and the scheduler can do

Inversion lemmas again, one for every operation that moves an assignment or a queue
row, each with the guards of the branch it took. -/

namespace ContentOrchestrator

open Lib

/-! ## Dispatch -/

inductive Dispatched (q : DispatchRequest) (s : Db) : DispatchResult → Db → Prop
  | limited (limit : atConcurrencyLimit s q.workspaceId = true) :
      Dispatched q s ⟨.backpressure, none⟩ s
  | turned {run : PipelineRun} {outcome : DispatchOutcome}
      (room : atConcurrencyLimit s q.workspaceId = false)
      (found : s.runs.get? q.pipelineRunId = some run)
      (status : statusOutcome run = some outcome) : Dispatched q s ⟨outcome, none⟩ s
  | repeated {already : StageAssignment}
      (room : atConcurrencyLimit s q.workspaceId = false)
      (open_ : ∀ run, s.runs.get? q.pipelineRunId = some run → statusOutcome run = none)
      (taken : assignmentByKey s q.workspaceId q.key = some already) :
      Dispatched q s ⟨.idempotent, some already.id⟩ s
  | held {run : PipelineRun} {stage : ContentStage}
      (room : atConcurrencyLimit s q.workspaceId = false)
      (found : s.runs.get? q.pipelineRunId = some run) (status : statusOutcome run = none)
      (free : assignmentByKey s q.workspaceId q.key = none)
      (parsed : ContentStage.ofValue? q.stage = some stage) :
      Dispatched q s ⟨.spendHold, none⟩
        (pauseForSpend run (releaseStageReservations run stage s))
  | assigned {run : PipelineRun} {stage : ContentStage} {worker : WorkerRegistration}
      {priority : Int}
      {estimate : Nat}
      (room : atConcurrencyLimit s q.workspaceId = false)
      (found : s.runs.get? q.pipelineRunId = some run) (status : statusOutcome run = none)
      (free : assignmentByKey s q.workspaceId q.key = none)
      (parsed : ContentStage.ofValue? q.stage = some stage)
      (selected : selectWorker s q.stage q.lockedWorkers = some worker) :
      Dispatched q s ⟨.dispatched, some s.assignments.next⟩
        (createAssignment q stage (some worker) priority
          (openReservation run stage (effectiveProvider q.provider) estimate
            (releaseStageReservations run stage s)))
  | waiting {run : PipelineRun} {stage : ContentStage} {priority : Int}
      (room : atConcurrencyLimit s q.workspaceId = false)
      (found : s.runs.get? q.pipelineRunId = some run) (status : statusOutcome run = none)
      (free : assignmentByKey s q.workspaceId q.key = none)
      (parsed : ContentStage.ofValue? q.stage = some stage) :
      Dispatched q s ⟨.noWorker, some s.assignments.next⟩
        (createAssignment q stage none priority s)

theorem statusOutcome_cases {run : PipelineRun} {outcome : DispatchOutcome}
    (h : statusOutcome run = some outcome) : outcome = .spendHold ∨ outcome = .skipped := by
  unfold statusOutcome at h
  split at h
  · exact .inr (Option.some.inj h).symm
  · split at h
    · split at h
      · exact .inl (Option.some.inj h).symm
      · exact .inr (Option.some.inj h).symm
    · cases h

theorem dispatchStage_returns {q : DispatchRequest} {s t : Db} {r : DispatchResult}
    (h : Returns (dispatchStage q) s r t) : Dispatched q s r t := by
  unfold dispatchStage at h
  simp only [returns_bind, returns_get] at h
  obtain ⟨_, _, ⟨rfl, rfl⟩, h⟩ := h
  split at h
  · rename_i hlimit
    simp only [returns_pure] at h
    obtain ⟨rfl, rfl⟩ := h
    exact .limited hlimit
  rename_i hlimit
  have hroom : atConcurrencyLimit s q.workspaceId = false := by simpa using hlimit
  cases hstatus : (s.runs.get? q.pipelineRunId).bind statusOutcome with
  | some outcome =>
    obtain ⟨run, hfound, hout⟩ := Option.bind_eq_some_iff.mp hstatus
    simp only [hstatus, returns_pure] at h
    obtain ⟨rfl, rfl⟩ := h
    exact .turned hroom hfound hout
  | none =>
    simp only [hstatus] at h
    have hopen : ∀ run, s.runs.get? q.pipelineRunId = some run → statusOutcome run = none := by
      intro run hfound
      rw [hfound] at hstatus
      exact hstatus
    cases hkey : assignmentByKey s q.workspaceId q.key with
    | some already =>
      simp only [hkey, returns_pure] at h
      obtain ⟨rfl, rfl⟩ := h
      exact .repeated hroom hopen hkey
    | none =>
      simp only [hkey, returns_bind, returns_require] at h
      obtain ⟨stage, _, ⟨hparse, rfl⟩, run, _, ⟨hfound, rfl⟩, h⟩ := h
      cases hworker : (if hasProviderCapacity s q.workspaceId q.provider = true then
          selectWorker s q.stage q.lockedWorkers else none) with
      | none =>
        simp only [hworker, Option.isSome_none, Bool.false_eq_true, if_false, returns_bind,
          returns_modify, returns_pure] at h
        obtain ⟨_, _, rfl, rfl, rfl⟩ := h
        exact .waiting hroom hfound (hopen run hfound) hkey hparse
      | some worker =>
        have hselected : selectWorker s q.stage q.lockedWorkers = some worker := by
          split at hworker
          · exact hworker
          · cases hworker
        simp only [hworker, Option.isSome_some, if_true, returns_bind] at h
        obtain ⟨reservation, s1, hres, h⟩ := h
        rcases reserveSpend_returns.mp hres with ⟨kind, _, rfl, rfl⟩ | ⟨_, rfl, rfl⟩
        · simp only [returns_pure] at h
          obtain ⟨rfl, rfl⟩ := h
          exact .held hroom hfound (hopen run hfound) hkey hparse
        · simp only [returns_bind, returns_get, returns_modify, returns_pure] at h
          obtain ⟨_, _, ⟨rfl, rfl⟩, _, _, rfl, rfl, rfl⟩ := h
          have hcase : Dispatched q s ⟨.dispatched, some s.assignments.next⟩
              (createAssignment q stage (some worker)
                (q.priority.getD (workspacePriority s q.workspaceId))
                (openReservation run stage (effectiveProvider q.provider)
                  s.settings.defaultStageEstimateUsd (releaseStageReservations run stage s))) :=
            .assigned hroom hfound (hopen run hfound) hkey hparse hselected
          simpa using hcase

/-! ## Leases -/

theorem assertLeaseExtendable_ok {db : Db} {a : StageAssignment} {workerId leaseSeconds : Nat}
    (h : assertLeaseExtendable db a workerId leaseSeconds = .ok ()) : a.status.inFlight = true := by
  unfold assertLeaseExtendable at h
  cases hs : a.status.inFlight with
  | true => rfl
  | false =>
    simp only [hs, Bool.not_false, if_true] at h
    split at h <;> cases h

/-- An acknowledgement by a worker moves a dispatched row to acknowledged. -/
theorem acknowledge_returns {assignmentId workerId : Nat} {leaseSeconds : Option Nat} {s t : Db}
    {u : Unit} (h : Returns (acknowledge assignmentId leaseSeconds (some workerId)) s u t) :
    ∃ a duration, s.assignments.get? assignmentId = some a ∧ a.status = .dispatched ∧
      t = { s with
            assignments := (s.assignments.modify assignmentId
              (StageAssignment.acknowledged s.now)).modify assignmentId
                (StageAssignment.extendLease s.now duration) } := by
  unfold acknowledge at h
  simp only [returns_bind, returns_loadAssignment, returns_get] at h
  obtain ⟨a, _, ⟨hload, rfl⟩, _, _, ⟨rfl, rfl⟩, h⟩ := h
  simp only [returns_liftExcept] at h
  obtain ⟨_, _, ⟨_, rfl⟩, h⟩ := h
  split at h
  · simp at h
  · rename_i hstatus
    simp only [returns_modify] at h
    exact ⟨a, _, hload, by simpa using hstatus, h.symm⟩

theorem renewLease_returns {assignmentId workerId : Nat} {leaseSeconds : Option Nat} {s t : Db}
    {u : Unit} (h : Returns (renewLease assignmentId leaseSeconds (some workerId)) s u t) :
    ∃ a duration, s.assignments.get? assignmentId = some a ∧ a.status.inFlight = true ∧
      t = { s with
            assignments := s.assignments.modify assignmentId
              (StageAssignment.extendLease s.now duration) } := by
  unfold renewLease at h
  simp only [returns_bind, returns_loadAssignment, returns_get] at h
  obtain ⟨a, _, ⟨hload, rfl⟩, _, _, ⟨rfl, rfl⟩, h⟩ := h
  simp only [returns_liftExcept, returns_modify] at h
  obtain ⟨_, _, ⟨hok, rfl⟩, hmod⟩ := h
  exact ⟨a, _, hload, assertLeaseExtendable_ok hok, hmod.symm⟩

/-! ## Submission -/

theorem assertSubmittable_ok {db : Db} {a : StageAssignment} {workerId : Option Nat}
    (h : assertSubmittable db a workerId = .ok ()) : a.status.inFlight = true := by
  unfold assertSubmittable at h
  cases hs : a.status.inFlight with
  | true => rfl
  | false =>
    simp only [hs, Bool.not_false, if_true] at h
    split at h <;> cases h

/-- The attempt is closed and on record. -/
def recordSuccess (a : StageAssignment) (result : Option (List (String × Json))) (db : Db) : Db :=
  emit EventType.stageCompleted a.workspaceId (.pipelineRun a.pipelineRunId) none
    (recordStageRun a true (closeAssignment a true result db))

def recordFailedAttempt (a : StageAssignment) (result : Option (List (String × Json))) (db : Db) :
    Db :=
  recordStageRun a false (closeAssignment a false result db)

/-- What a submission can lead to. -/
inductive Submitted (a : StageAssignment) (result : Option (List (String × Json)))
    (message : String) (s : Db) : Bool → Db → Prop
  | orphaned {success : Bool}
      (missing : s.runs.get? a.pipelineRunId = none) :
      Submitted a result message s success (closeAssignment a success result s)
  | succeeded {run : PipelineRun} {s1 t : Db}
      (found : s.runs.get? a.pipelineRunId = some run)
      (unrecorded : stageRunExists s a = false)
      (settled : newestOpenReservation (recordSuccess a result s) run.id a.stage = none ∧
          s1 = recordSuccess a result s ∨
        ∃ v cost, newestOpenReservation (recordSuccess a result s) run.id a.stage = some v ∧
          s1 = commitReservation run v cost (recordSuccess a result s))
      (advanced : run.status.isTerminal = true ∧ t = s1 ∨
        run.status.isTerminal = false ∧
          Advanced run a.stage .onSuccess (result.getD []) s1.gates s1 t) :
      Submitted a result message s true t
  | failed {run : PipelineRun} {s1 t : Db}
      (found : s.runs.get? a.pipelineRunId = some run)
      (unrecorded : stageRunExists s a = false)
      (settled : newestOpenReservation (recordFailedAttempt a result s) run.id a.stage = none ∧
          s1 = recordFailedAttempt a result s ∨
        ∃ v, newestOpenReservation (recordFailedAttempt a result s) run.id a.stage = some v ∧
          s1 = releaseSpend run v (recordFailedAttempt a result s))
      (handled : FailureHandled run a.stage a.attemptNumber message s1 t) :
      Submitted a result message s false t

theorem newestOpenReservation_isOpen {db : Db} {runId : Nat} {stage : ContentStage}
    {v : SpendReservation} (h : newestOpenReservation db runId stage = some v) :
    v ∈ db.reservations ∧ v.isOpenFor runId stage = true := by
  unfold newestOpenReservation at h
  have hmem := (List.mem_insertionSort _).mp (List.mem_of_mem_head? h)
  exact Table.mem_select.mp hmem

theorem submitResult_returns {assignmentId : Nat} {success : Bool}
    {result : Option (List (String × Json))} {message : String} {workerId : Option Nat}
    {jitter : Nat} {s t : Db} {u : Unit}
    (h : Returns (submitResult assignmentId success result message workerId jitter) s u t) :
    ∃ a, s.assignments.get? assignmentId = some a ∧ a.status.inFlight = true ∧
      assertSubmittable s a workerId = .ok () ∧ Submitted a result message s success t := by
  unfold submitResult at h
  simp only [returns_bind, returns_loadAssignment, returns_get, returns_liftExcept,
    returns_modify] at h
  obtain ⟨a, _, ⟨hload, rfl⟩, _, _, ⟨rfl, rfl⟩, _, _, ⟨hok, rfl⟩, _, _, rfl, _, _, ⟨rfl, rfl⟩, h⟩ :=
    h
  refine ⟨a, hload, assertSubmittable_ok hok, hok, ?_⟩
  cases hrun : s.runs.get? a.pipelineRunId with
  | none =>
    simp only [closeAssignment_frame, hrun, returns_pure] at h
    exact h.2 ▸ .orphaned hrun
  | some run =>
    simp only [closeAssignment_frame, hrun, returns_bind, returns_get] at h
    obtain ⟨_, _, ⟨rfl, rfl⟩, h⟩ := h
    split at h
    · simp at h
    rename_i hexists
    have hfresh : stageRunExists s a = false := by
      simpa [stageRunExists, closeAssignment] using hexists
    have hid : run.id = a.pipelineRunId := (Table.get?_eq_some.mp hrun).2
    cases success with
    | true =>
      simp only [if_true, returns_bind, returns_modify, returns_get] at h
      obtain ⟨_, _, rfl, _, _, rfl, _, _, ⟨rfl, rfl⟩, h⟩ := h
      split at h
      · rename_i v hv
        simp only [returns_bind] at h
        obtain ⟨_, s1, hsettle, h⟩ := h
        have hstatus := status_of_isOpenFor (newestOpenReservation_isOpen hv).2
        obtain ⟨_, rfl⟩ := commitSpend_returns hstatus hsettle
        obtain ⟨current, hcur, hcase⟩ := handleStageSuccess_returns h
        have hsame : current = run := by
          simpa [recordSuccess, hid, hrun, eq_comm] using hcur
        exact .succeeded hrun hfresh (.inr ⟨v, _, hv, rfl⟩) (hsame ▸ hcase)
      · rename_i hv
        obtain ⟨current, hcur, hcase⟩ := handleStageSuccess_returns h
        have hsame : current = run := by
          simpa [recordSuccess, hid, hrun, eq_comm] using hcur
        exact .succeeded hrun hfresh (.inl ⟨hv, rfl⟩) (hsame ▸ hcase)
    | false =>
      simp only [Bool.false_eq_true, if_false, returns_bind, returns_modify, returns_get] at h
      obtain ⟨_, _, rfl, _, _, ⟨rfl, rfl⟩, h⟩ := h
      split at h
      · rename_i v hv
        simp only [returns_bind, returns_modify] at h
        obtain ⟨_, _, rfl, h⟩ := h
        exact .failed hrun hfresh (.inr ⟨v, hv, rfl⟩) (handleStageFailure_returns h)
      · rename_i hv
        exact .failed hrun hfresh (.inl ⟨hv, rfl⟩) (handleStageFailure_returns h)

/-! ## Recovery -/

inductive Recovered (a : StageAssignment) (reason : RecoveryReason) (s : Db) : Db → Prop
  | skipped (idle : a.status.inFlight = false) : Recovered a reason s s
  | requeued (held : a.status.inFlight = true) (left : canRequeue s a = true)
      (free : assignmentByKey s a.workspaceId
        ⟨a.pipelineRunId, a.stage.value, a.attemptNumber + 1⟩ = none) :
      Recovered a reason s (requeueAssignment a (releaseWorkerSlot a.workerId s))
  | exhausted (held : a.status.inFlight = true) (left : canRequeue s a = false) :
      Recovered a reason s (deadLetterAssignment a reason (releaseWorkerSlot a.workerId s))

theorem canRequeue_releaseWorkerSlot {workerId : Option Nat} {s : Db} {a : StageAssignment} :
    canRequeue (releaseWorkerSlot workerId s) a = canRequeue s a := by
  cases workerId <;> rfl

theorem recoverAssignment_returns {assignmentId : Nat} {reason : RecoveryReason} {s t : Db}
    {kind : RecoveryResultKind} (h : Returns (recoverAssignment assignmentId reason) s kind t) :
    ∃ a, s.assignments.get? assignmentId = some a ∧ Recovered a reason s t := by
  unfold recoverAssignment at h
  simp only [returns_bind, returns_loadAssignment] at h
  obtain ⟨a, _, ⟨hload, rfl⟩, h⟩ := h
  refine ⟨a, hload, ?_⟩
  split at h
  · rename_i hidle
    simp only [returns_pure] at h
    exact h.2 ▸ .skipped (by simpa using hidle)
  rename_i hheld
  have hflight : a.status.inFlight = true := by simpa using hheld
  simp only [returns_bind, returns_modify, returns_get] at h
  obtain ⟨_, _, rfl, _, _, ⟨rfl, rfl⟩, h⟩ := h
  rw [canRequeue_releaseWorkerSlot] at h
  split at h
  · rename_i hleft
    split at h
    · simp at h
    · rename_i hkey
      simp only [returns_bind, returns_modify, returns_pure] at h
      obtain ⟨_, _, rfl, _, rfl⟩ := h
      refine .requeued hflight hleft ?_
      simpa [assignmentByKey] using hkey
  · rename_i hleft
    simp only [returns_bind, returns_modify, returns_pure] at h
    obtain ⟨_, _, rfl, _, rfl⟩ := h
    exact .exhausted hflight (by simpa using hleft)

/-! ## Claiming -/

theorem nextCandidate_some {db : Db} {w : WorkerRegistration} {stages : List ContentStage}
    {excluded : List Nat} {row : StageAssignment}
    (h : nextCandidate db w stages excluded = some row) :
    row ∈ db.assignments ∧ row.isClaimableBy w stages = true ∧ row.id ∉ excluded := by
  unfold nextCandidate at h
  have hmem := (List.mem_insertionSort _).mp (List.mem_of_mem_head? h)
  obtain ⟨hrow, hclaim⟩ := Table.mem_select.mp hmem
  obtain ⟨hclaimable, hfree⟩ := Bool.and_eq_true_iff.mp hclaim
  exact ⟨hrow, hclaimable, by simpa using hfree⟩

theorem searchCandidate_some {db : Db} {w : WorkerRegistration} {stages : List ContentStage}
    {row : StageAssignment} {blocked : Bool} :
    ∀ {n : Nat} {excluded : List Nat} {saw : Bool},
      searchCandidate db w stages n excluded saw = (some row, blocked) →
        row ∈ db.assignments ∧ row.isClaimableBy w stages = true
  | 0, _, _, h => by simp [searchCandidate] at h
  | n + 1, excluded, saw, h => by
    unfold searchCandidate at h
    cases hnext : nextCandidate db w stages excluded with
    | none => simp [hnext] at h
    | some candidate =>
      simp only [hnext] at h
      split at h
      · cases h
        obtain ⟨hrow, hclaimable, _⟩ := nextCandidate_some hnext
        exact ⟨hrow, hclaimable⟩
      · exact searchCandidate_some h

/-- What claiming one waiting row can do. -/
inductive ClaimSettled (row : StageAssignment) (workerId : Nat) (claimToken : Option Nat) (s : Db) :
    Db → Prop
  | held {run : PipelineRun} (found : s.runs.get? row.pipelineRunId = some run)
      (unreserved : s.reservations.select (·.isOpenFor row.pipelineRunId row.stage) = []) :
      ClaimSettled row workerId claimToken s
        (pauseForSpend run (releaseStageReservations run row.stage s))
  | reserved {run : PipelineRun} {provider : String} {estimate : Nat}
      (found : s.runs.get? row.pipelineRunId = some run)
      (unreserved : s.reservations.select (·.isOpenFor row.pipelineRunId row.stage) = []) :
      ClaimSettled row workerId claimToken s
        (grantAssignment row workerId claimToken
          (openReservation run row.stage provider estimate
            (releaseStageReservations run row.stage s)))
  | granted (covered : s.runs.get? row.pipelineRunId = none ∨
        ∃ v ∈ s.reservations, v.isOpenFor row.pipelineRunId row.stage = true) :
      ClaimSettled row workerId claimToken s (grantAssignment row workerId claimToken s)

/-- What a claim can do: nothing, unless a candidate was chosen. -/
inductive Claimed (workerId : Nat) (claimToken : Option Nat) (locked : List Nat) (s : Db) :
    Db → Prop
  | idle : Claimed workerId claimToken locked s s
  | chosen {worker : WorkerRegistration} {stages : List ContentStage} {row : StageAssignment}
      {blocked : Bool} {t : Db} (registered : s.workers.get? workerId = some worker)
      (fresh : heldByToken s worker claimToken = none) (admitted : worker.refusal s = none)
      (parsed : worker.supportedStages.mapM ContentStage.ofValue? = some stages)
      (chosen : claimCandidate s worker stages locked = (some row, blocked))
      (mem : row ∈ s.assignments) (waiting : row.status = .pending)
      (settled : ClaimSettled row workerId claimToken s t) : Claimed workerId claimToken locked s t

theorem claimAssignment_returns {workerId : Nat} {claimToken : Option Nat} {locked : List Nat}
    {s t : Db} {r : ClaimResult} (h : Returns (claimAssignment workerId claimToken locked) s r t) :
    Claimed workerId claimToken locked s t := by
  unfold claimAssignment at h
  simp only [returns_bind, returns_get] at h
  obtain ⟨_, _, ⟨rfl, rfl⟩, h⟩ := h
  split at h
  · simp only [returns_pure] at h
    exact h.2 ▸ .idle
  rename_i worker hworker
  split at h
  · simp only [returns_pure] at h
    exact h.2 ▸ .idle
  rename_i hfresh
  split at h
  · simp only [returns_pure] at h
    exact h.2 ▸ .idle
  rename_i hadmitted
  simp only [returns_bind, returns_require] at h
  obtain ⟨stages, _, ⟨hstages, rfl⟩, h⟩ := h
  split at h
  · simp only [returns_pure] at h
    exact h.2 ▸ .idle
  · simp only [returns_pure] at h
    exact h.2 ▸ .idle
  rename_i row blocked hchosen
  obtain ⟨hmem, hclaimable⟩ := searchCandidate_some hchosen
  have hwaiting : row.status = .pending := by
    simp only [StageAssignment.isClaimableBy, Bool.and_eq_true, beq_iff_eq] at hclaimable
    exact hclaimable.1.1
  refine .chosen hworker hfresh hadmitted hstages hchosen hmem hwaiting ?_
  unfold claimReservation at h
  simp only [returns_bind, returns_get] at h
  obtain ⟨ok, s1, ⟨_, _, ⟨rfl, rfl⟩, hgate⟩, h⟩ := h
  cases hrun : s.runs.get? row.pipelineRunId with
  | none =>
    simp only [hrun, returns_pure] at hgate
    obtain ⟨rfl, rfl⟩ := hgate
    simp only [if_true, returns_bind, returns_modify, returns_pure] at h
    obtain ⟨_, _, rfl, _, rfl⟩ := h
    exact .granted (.inl hrun)
  | some run =>
    simp only [hrun] at hgate
    cases hopen : (s.reservations.select (·.isOpenFor row.pipelineRunId row.stage)).head? with
    | some v =>
      simp only [hopen, returns_pure] at hgate
      obtain ⟨rfl, rfl⟩ := hgate
      simp only [if_true, returns_bind, returns_modify, returns_pure] at h
      obtain ⟨_, _, rfl, _, rfl⟩ := h
      obtain ⟨hv, hvo⟩ := Table.mem_select.mp (List.mem_of_mem_head? hopen)
      exact .granted (.inr ⟨v, hv, hvo⟩)
    | none =>
      have hnone := List.head?_eq_none_iff.mp hopen
      simp only [hopen, returns_bind, returns_pure] at hgate
      obtain ⟨reservation, s2, hres, rfl, rfl⟩ := hgate
      rcases reserveSpend_returns.mp hres with ⟨kind, _, rfl, rfl⟩ | ⟨_, rfl, rfl⟩
      · simp only [Option.isSome_none, Bool.false_eq_true, if_false, returns_pure] at h
        exact h.2 ▸ .held hrun hnone
      · simp only [Option.isSome_some, if_true, returns_bind, returns_modify, returns_pure] at h
        obtain ⟨_, _, rfl, _, rfl⟩ := h
        exact .reserved hrun hnone

/-! ## The scheduler -/

/-- The exhausted branch. -/
inductive Exhausted (job : JobSchedule) (s : Db) : Db → Prop
  | alone (missing : job.runId?.bind s.runs.get? = none) {t : Db}
      (routed : t = routeToDeadLetter job.workspaceId "job_schedule" (.job job.id)
        ("stage_dispatch:" ++ job.refTable)
        "no eligible worker available after repeated attempts" (job.attempt + 1)
        (modifyJob job.id JobSchedule.exhaust s)) : Exhausted job s t
  | withRun {run : PipelineRun} {stage : ContentStage}
      (found : job.runId?.bind s.runs.get? = some run)
      (parsed : ContentStage.ofValue? job.refTable = some stage) {t : Db}
      (routed : t = routeToDeadLetter job.workspaceId "job_schedule" (.job job.id)
        ("stage_dispatch:" ++ job.refTable)
        "no eligible worker available after repeated attempts" (job.attempt + 1)
        (abandonStage run stage (modifyJob job.id JobSchedule.exhaust s))) : Exhausted job s t

theorem exhaustJob_returns {job : JobSchedule} {s t : Db} {u : Unit}
    (h : Returns (exhaustJob job) s u t) : Exhausted job s t := by
  unfold exhaustJob at h
  simp only [returns_bind, returns_modify, returns_get] at h
  obtain ⟨_, _, rfl, _, _, ⟨rfl, rfl⟩, h⟩ := h
  simp only [modifyJob_frame] at h
  split at h
  · rename_i hnone
    simp only [returns_modify] at h
    exact .alone hnone h.symm
  · rename_i run hrun
    simp only [returns_bind, returns_require, returns_modify] at h
    obtain ⟨stage, _, ⟨hstage, rfl⟩, _, _, rfl, h⟩ := h
    exact .withRun hrun hstage h.symm

/-- What processing a leased row can do. -/
inductive Processed (job : JobSchedule) (lockedWorkers : List Nat) (s : Db) : Db → Prop
  | parked {runId runAfter : Nat} {run : PipelineRun}
      (stageJob : job.isStageJob = true) (ref : job.runId? = some runId)
      (room : atConcurrencyLimit s job.workspaceId = false)
      (found : s.runs.get? runId = some run) (status : statusOutcome run = some .spendHold) :
      Processed job lockedWorkers s (modifyJob job.id (JobSchedule.park runAfter) s)
  | retired {runId : Nat} {run : PipelineRun}
      (stageJob : job.isStageJob = true) (ref : job.runId? = some runId)
      (room : atConcurrencyLimit s job.workspaceId = false)
      (found : s.runs.get? runId = some run) (status : statusOutcome run = some .skipped) :
      Processed job lockedWorkers s (modifyJob job.id JobSchedule.retire s)
  | repeated {runId : Nat} {already : StageAssignment}
      (stageJob : job.isStageJob = true) (ref : job.runId? = some runId)
      (room : atConcurrencyLimit s job.workspaceId = false)
      (open_ : ∀ run, s.runs.get? runId = some run → statusOutcome run = none)
      (taken : assignmentByKey s job.workspaceId ⟨runId, job.refTable, job.attempt + 1⟩
        = some already) :
      Processed job lockedWorkers s (modifyJob job.id JobSchedule.done s)
  | held {runId runAfter : Nat} {run : PipelineRun} {stage : ContentStage}
      (stageJob : job.isStageJob = true) (ref : job.runId? = some runId)
      (room : atConcurrencyLimit s job.workspaceId = false)
      (found : s.runs.get? runId = some run) (status : statusOutcome run = none)
      (free : assignmentByKey s job.workspaceId ⟨runId, job.refTable, job.attempt + 1⟩ = none)
      (parsed : ContentStage.ofValue? job.refTable = some stage) :
      Processed job lockedWorkers s
        (modifyJob job.id (JobSchedule.park runAfter)
          (pauseForSpend run (releaseStageReservations run stage s)))
  | assigned {runId estimate : Nat} {run : PipelineRun} {stage : ContentStage}
      {worker : WorkerRegistration} {priority : Int}
      (stageJob : job.isStageJob = true) (ref : job.runId? = some runId)
      (room : atConcurrencyLimit s job.workspaceId = false)
      (found : s.runs.get? runId = some run) (status : statusOutcome run = none)
      (free : assignmentByKey s job.workspaceId ⟨runId, job.refTable, job.attempt + 1⟩ = none)
      (parsed : ContentStage.ofValue? job.refTable = some stage)
      (selected : selectWorker s job.refTable lockedWorkers = some worker) :
      Processed job lockedWorkers s
        (modifyJob job.id JobSchedule.done
          (createAssignment (job.request runId lockedWorkers) stage (some worker) priority
            (openReservation run stage draftDeskProvider estimate
              (releaseStageReservations run stage s))))
  | waiting {runId : Nat} {run : PipelineRun} {stage : ContentStage} {priority : Int}
      (stageJob : job.isStageJob = true) (ref : job.runId? = some runId)
      (room : atConcurrencyLimit s job.workspaceId = false)
      (found : s.runs.get? runId = some run) (status : statusOutcome run = none)
      (free : assignmentByKey s job.workspaceId ⟨runId, job.refTable, job.attempt + 1⟩ = none)
      (parsed : ContentStage.ofValue? job.refTable = some stage) :
      Processed job lockedWorkers s
        (modifyJob job.id JobSchedule.done
          (createAssignment (job.request runId lockedWorkers) stage none priority s))
  | rescheduled {delay : Nat} (stageJob : job.isStageJob = true)
      (limit : atConcurrencyLimit s job.workspaceId = true) (below : job.atCeiling = false) :
      Processed job lockedWorkers s
        (modifyJob job.id (JobSchedule.reschedule (s.now + delay)) s)
  | exhausted {t : Db} (stageJob : job.isStageJob = true)
      (limit : atConcurrencyLimit s job.workspaceId = true) (ceiling : job.atCeiling = true)
      (exhausted : Exhausted job s t) : Processed job lockedWorkers s t
  | stageTimedOut {t : Db} (kind : job.jobType = .stageTimeout) : Processed job lockedWorkers s t
  | reviewTimedOut {gateId : Nat} (kind : job.jobType = .reviewTimeout)
      (ref : job.refId = .gate gateId) :
      Processed job lockedWorkers s
        (modifyJob job.id JobSchedule.done (handleReviewTimeout gateId s))
  | finished (kind : job.isStageJob = false) :
      Processed job lockedWorkers s (modifyJob job.id JobSchedule.done s)

theorem processLeasedJob_returns {job : JobSchedule} {lockedWorkers : List Nat} {jitter : Nat}
    {s t : Db} {u : Unit} (h : Returns (processLeasedJob job lockedWorkers jitter) s u t) :
    Processed job lockedWorkers s t := by
  have hstage : ∀ runId result s1, job.isStageJob = true → job.runId? = some runId →
      Dispatched (job.request runId lockedWorkers) s result s1 →
      Returns (settleStageJob job result jitter) s1 u t → Processed job lockedWorkers s t := by
    intro runId result s1 hkind href hdispatch hsettle
    cases hdispatch with
    | limited limit =>
      simp only [settleStageJob, rescheduleJob] at hsettle
      split at hsettle
      · rename_i hceiling
        exact .exhausted hkind limit hceiling (exhaustJob_returns hsettle)
      · rename_i hceiling
        simp only [returns_modify] at hsettle
        exact hsettle ▸ .rescheduled hkind limit (by simpa using hceiling)
    | @turned run outcome room found status =>
      rcases statusOutcome_cases status with rfl | rfl
      · simp only [settleStageJob, returns_modify] at hsettle
        exact hsettle ▸ .parked hkind href room found status
      · simp only [settleStageJob, returns_modify] at hsettle
        exact hsettle ▸ .retired hkind href room found status
    | repeated room open_ taken =>
      simp only [settleStageJob, returns_modify] at hsettle
      exact hsettle ▸ .repeated hkind href room open_ taken
    | held room found status free parsed =>
      simp only [settleStageJob, returns_modify] at hsettle
      exact hsettle ▸ .held hkind href room found status free parsed
    | assigned room found status free parsed selected =>
      simp only [settleStageJob, returns_modify] at hsettle
      exact hsettle ▸ .assigned hkind href room found status free parsed selected
    | waiting room found status free parsed =>
      simp only [settleStageJob, returns_modify] at hsettle
      exact hsettle ▸ .waiting hkind href room found status free parsed
  have hdispatch : job.isStageJob = true →
      Returns (do
        let runId ← require job.runId? (.integrityError "stage_assignments_pipeline_run_id_fkey")
        let result ← dispatchStage (job.request runId lockedWorkers)
        settleStageJob job result jitter) s u t → Processed job lockedWorkers s t := by
    intro hkind h
    simp only [returns_bind, returns_require] at h
    obtain ⟨runId, _, ⟨href, rfl⟩, result, s1, hd, hsettle⟩ := h
    exact hstage runId result s1 hkind href (dispatchStage_returns hd) hsettle
  unfold processLeasedJob at h
  cases hkind : job.jobType with
  | stage =>
    simp only [hkind] at h
    exact hdispatch (by simp [JobSchedule.isStageJob, hkind]) h
  | retry =>
    simp only [hkind] at h
    exact hdispatch (by simp [JobSchedule.isStageJob, hkind]) h
  | stageTimeout => exact .stageTimedOut hkind
  | reviewTimeout =>
    simp only [hkind] at h
    split at h
    · rename_i gateId href
      simp only [returns_bind, returns_modify] at h
      obtain ⟨_, _, rfl, rfl⟩ := h
      exact .reviewTimedOut hkind href
    · simp only [returns_modify] at h
      exact h ▸ .finished (by simp [JobSchedule.isStageJob, hkind])
  | compensation =>
    simp only [hkind, returns_modify] at h
    exact h ▸ .finished (by simp [JobSchedule.isStageJob, hkind])
  | recurring => simp [hkind] at h

end ContentOrchestrator

import ContentOrchestrator.Orchestration.RunRefinement

/-! # Every operation is a move of every run

The operations not yet treated, and the step of the whole system: from a state that
shows a view for a run, each operation leads to a state that shows a view one move
further. -/

namespace ContentOrchestrator

open Lib

variable {s t : Db} {r : Nat}

/-! ## Recovery -/

theorem keepsLive_requeue {now : Nat} : KeepsLive (StageAssignment.requeue now) :=
  ⟨fun _ => rfl, fun _ _ => rfl⟩

theorem slice_releaseWorkerSlot {workerId : Option Nat} :
    (releaseWorkerSlot workerId s).slice r = s.slice r :=
  slice_congr (by simp) (by simp) (by simp) (by simp) (by simp)

/-- A requeued row gives its stage's reservations back, if its run exists. -/
theorem slice_requeueAssignment {a : StageAssignment} {run : PipelineRun} (ha : a ∈ s.assignments)
    (hlive : a.status.isLive = true) (hrun : s.runs.get? a.pipelineRunId = some run) :
    (requeueAssignment a s).slice r =
      { (releaseStageReservations run a.stage s).slice r with
        assignments := (s.slice r).assignments.map fun b =>
          if b.id == a.id then (StageAssignment.requeue s.now).apply b else b } := by
  unfold requeueAssignment
  simp only [hrun]
  have hget : (releaseStageReservations run a.stage s).assignments.get? a.id = some a := by
    rw [releaseStageReservations_frame.2.2.2.2.2.2.1]
    exact Table.get?_of_mem ha
  have hnow : (releaseStageReservations run a.stage s).now = s.now := by simp
  have hrows : ((releaseStageReservations run a.stage s).slice r).assignments =
      (s.slice r).assignments := by rw [slice_releaseStageReservations]
  rw [slice_rewriteAssignment (s := releaseStageReservations run a.stage s) (k := a.id)
    (u := StageAssignment.requeue s.now) keepsLive_requeue hget hlive
    (by simp) (by simp) (by simp) (by simp) (by simp), hrows]

theorem slice_deadLetterAssignment {a : StageAssignment} {reason : RecoveryReason}
    {run : PipelineRun} (hrun : s.runs.get? a.pipelineRunId = some run)
    (hlive : run.status.isTerminal = false) :
    (deadLetterAssignment a reason s).slice r =
      if r = run.id then
        { s.slice r with
          run := (s.slice r).run.map (PipelineRun.finish .failed s.now).apply
          assignments := (s.slice r).assignments.filter fun b => !(b.id == a.id)
          reservations := [] }
      else
        { s.slice r with
          assignments := (s.slice r).assignments.filter fun b => !(b.id == a.id) } := by
  unfold deadLetterAssignment
  simp only [hrun, hlive, Bool.false_eq_true, if_false]
  rw [slice_failRun]
  have hmid : ∀ m : Db, m = routeToDeadLetter a.workspaceId "stage_assignments" (.assignment a.id)
      ("stage:" ++ a.stage.formatted)
      ("recovery exhausted (" ++ reason.value ++ ") after " ++ toString a.attemptNumber ++
        " attempts")
      a.attemptNumber
      { s with assignments := s.assignments.modify a.id (StageAssignment.exhaust s.now) } →
      m.slice r = { s.slice r with
        assignments := (s.slice r).assignments.filter fun b => !(b.id == a.id) } ∧
            m.now = s.now := by
    rintro m rfl
    refine ⟨slice_endAssignment (u := StageAssignment.exhaust s.now) (fun _ => rfl)
      (by simp) (by simp) (by simp) (by simp) (by simp), by simp⟩
  obtain ⟨hslice, hnow⟩ := hmid _ rfl
  rw [hslice, hnow]

/-- A run that has ended loses the attempt and nothing else. -/
theorem slice_deadLetterEnded {a : StageAssignment} {reason : RecoveryReason} {run : PipelineRun}
    (hrun : s.runs.get? a.pipelineRunId = some run) (hterm : run.status.isTerminal = true) :
    (deadLetterAssignment a reason s).slice r =
      { s.slice r with
        assignments := (s.slice r).assignments.filter fun b => !(b.id == a.id) } := by
  unfold deadLetterAssignment
  simp only [hrun, hterm, if_true]
  exact slice_endAssignment (u := StageAssignment.exhaust s.now) (fun _ => rfl) (by simp) (by simp)
    (by simp)
    (by simp) (by simp)

/-- A terminal run, or none, keeps its row when an attempt is dead-lettered. -/
theorem slice_deadLetterOther {a : StageAssignment} {reason : RecoveryReason}
    (ha : a ∈ s.assignments) (hr : r ≠ a.pipelineRunId) :
    (deadLetterAssignment a reason s).slice r = s.slice r := by
  have hdrop := slice_assignments_without ha (isLiveOf_other hr)
  have hfailed : ∀ m : Db, m = routeToDeadLetter a.workspaceId "stage_assignments"
      (.assignment a.id) ("stage:" ++ a.stage.formatted)
      ("recovery exhausted (" ++ reason.value ++ ") after " ++ toString a.attemptNumber ++
        " attempts")
      a.attemptNumber
      { s with assignments := s.assignments.modify a.id (StageAssignment.exhaust s.now) } →
      m.slice r = s.slice r := by
    rintro m rfl
    rw [← hdrop]
    exact slice_endAssignment (u := StageAssignment.exhaust s.now) (fun _ => rfl)
      (by simp) (by simp) (by simp) (by simp) (by simp)
  unfold deadLetterAssignment
  split
  · rename_i run hrun
    have hid : run.id = a.pipelineRunId := (Table.get?_eq_some.mp hrun).2
    split
    · exact hfailed _ rfl
    · rw [slice_failRun, if_neg (hid ▸ hr)]
      exact hfailed _ rfl
  · exact hfailed _ rfl

theorem Recovered.other {a : StageAssignment} {reason : RecoveryReason} (h : Recovered a reason s t)
    (ha : a ∈ s.assignments) (hr : r ≠ a.pipelineRunId) : t.slice r = s.slice r := by
  have hslot : a ∈ (releaseWorkerSlot a.workerId s).assignments := by simpa using ha
  cases h with
  | skipped _ => rfl
  | requeued held _ _ =>
    have hmap := slice_assignments_unchanged
      (f := (StageAssignment.requeue (releaseWorkerSlot a.workerId s).now).apply) hslot
      (isLiveOf_other hr)
    cases hrun : (releaseWorkerSlot a.workerId s).runs.get? a.pipelineRunId with
    | some run =>
      have hid : run.id = a.pipelineRunId := (Table.get?_eq_some.mp hrun).2
      rw [slice_requeueAssignment hslot (isLive_of_inFlight held) hrun,
        slice_releaseOther (hid ▸ hr), hmap, slice_releaseWorkerSlot]
    | none =>
      have hslice : (releaseWorkerSlot a.workerId s).slice r = s.slice r := slice_releaseWorkerSlot
      rw [← hslice, ← hmap]
      unfold requeueAssignment
      simp only [hrun]
      exact slice_rewriteAssignment (u := StageAssignment.requeue _) keepsLive_requeue
        (Table.get?_of_mem hslot) (isLive_of_inFlight held)
        (by simp) (by simp) (by simp) (by simp) (by simp)
  | exhausted _ _ => rw [slice_deadLetterOther hslot hr, slice_releaseWorkerSlot]

theorem resolveMaxAttempts_of_limit {a : StageAssignment} {run : PipelineRun} {d m : Nat}
    (hrun : s.runs.get? a.pipelineRunId = some run) (hpin : run.definitionId = some d)
    (hm : stageLimit s d a.stage = some m) : resolveMaxAttempts s a = m := by
  obtain ⟨stageDef, hdef, rfl⟩ := Option.map_eq_some_iff.mp hm
  unfold resolveMaxAttempts
  simp [hrun, hpin, hdef]

theorem Recovered.moves {a : StageAssignment} {reason : RecoveryReason} {op : Op} {v : RunView}
    (h : Recovered a reason s t) (ha : a ∈ s.assignments) (hv : Shows (s.slice a.pipelineRunId) v)
    (hset : v.Settled) : Simulated s t op a.pipelineRunId v := by
  have hslot : a ∈ (releaseWorkerSlot a.workerId s).assignments := by simpa using ha
  cases h with
  | skipped _ => exact .quiet hv rfl
  | requeued held left _ =>
    have hmem := mem_slice_assignments.mpr ⟨ha, isLiveOf_self (isLive_of_inFlight held)⟩
    obtain ⟨row, d, w, hpin, hcovers, hx, rfl⟩ := hv.of_inFlight hmem held
    have hrow : s.runs.get? a.pipelineRunId = some row := by rw [← slice_run, hx]
    have hid : row.id = a.pipelineRunId := (Table.get?_eq_some.mp hrow).2
    have hw : w ∈ (s.slice a.pipelineRunId).reservations := by
      rw [hx]; exact List.mem_singleton_self w
    have hopen := (mem_slice_reservations.mp hw).2
    refine ⟨.requeued, _, .requeued rfl fun m hm => ?_, trivial, ?_⟩
    · have hmax := resolveMaxAttempts_of_limit hrow hpin hm
      rw [canRequeue, hmax, decide_eq_true_eq] at left
      exact left
    · rw [slice_requeueAssignment hslot (isLive_of_inFlight held) (by simpa using hrow),
        slice_releaseStageReservations, slice_releaseWorkerSlot, hx]
      have hgone : w.isOpenFor row.id a.stage = true := by
        simp only [SpendReservation.isOpenOf, Bool.and_eq_true, beq_iff_eq] at hopen
        simp [SpendReservation.isOpenFor, hopen, hid, hcovers]
      simp only [List.map_cons, List.map_nil, beq_self_eq_true, if_true, List.filter_cons, hgone,
        Bool.not_true, Bool.false_eq_true, if_false, List.filter_nil]
      exact .waiting hpin rfl
  | exhausted held _ =>
    have hmem := mem_slice_assignments.mpr ⟨ha, isLiveOf_self (isLive_of_inFlight held)⟩
    obtain ⟨row, d, w, hpin, hcovers, hx, rfl⟩ := hv.of_inFlight hmem held
    have hrow : s.runs.get? a.pipelineRunId = some row := by rw [← slice_run, hx]
    have hid : row.id = a.pipelineRunId := (Table.get?_eq_some.mp hrow).2
    have hlive : row.status.isTerminal = false := by
      cases hterm : row.status.isTerminal with
      | false => rfl
      | true => cases hset hterm _ rfl
    refine ⟨.failed, _, .failed rfl rfl, trivial, ?_⟩
    rw [slice_deadLetterAssignment (by simpa using hrow) hlive, if_pos hid.symm,
      slice_releaseWorkerSlot, hx]
    simp only [List.filter_cons, beq_self_eq_true, Bool.not_true, Bool.false_eq_true, if_false,
      List.filter_nil]
    exact .idle hpin

/-! ## Leases -/

theorem keepsLive_grant {workerId now leaseSeconds : Nat} {claimToken : Option Nat} :
    KeepsLive (StageAssignment.grant workerId claimToken now leaseSeconds) :=
  ⟨fun _ => rfl, fun _ _ => rfl⟩

theorem keepsLive_extendLease {now leaseSeconds : Nat} :
    KeepsLive (StageAssignment.extendLease now leaseSeconds) :=
  ⟨fun _ => rfl, fun _ h => h⟩

theorem keepsLive_acknowledged {now : Nat} : KeepsLive (StageAssignment.acknowledged now) :=
  ⟨fun _ => rfl, fun _ _ => rfl⟩

/-! ## Claims -/

theorem slice_grantAssignment {a : StageAssignment} {workerId : Nat} {claimToken : Option Nat}
    (ha : a ∈ s.assignments) (hlive : a.status.isLive = true) :
    (grantAssignment a workerId claimToken s).slice r =
      { s.slice r with
        assignments := (s.slice r).assignments.map fun b =>
          if b.id == a.id then
            (StageAssignment.grant workerId claimToken s.now
              s.settings.assignmentLeaseSeconds).apply b
          else b } :=
  slice_rewriteAssignment keepsLive_grant (Table.get?_of_mem ha) hlive
    (by simp) (by simp) (by simp) (by simp) (by simp)

theorem isLive_pending {a : StageAssignment} (h : a.status = .pending) :
    a.status.isLive = true := by
  rw [h]
  rfl

theorem ClaimSettled.other {row : StageAssignment} {workerId : Nat} {claimToken : Option Nat}
    (h : ClaimSettled row workerId claimToken s t) (hmem : row ∈ s.assignments)
    (hwaiting : row.status = .pending) (hr : r ≠ row.pipelineRunId) : t.slice r = s.slice r := by
  cases h with
  | @held run found _ =>
    have hid : run.id = row.pipelineRunId := (Table.get?_eq_some.mp found).2
    rw [slice_pauseForSpend, if_neg (hid ▸ hr), slice_releaseOther (hid ▸ hr)]
  | @reserved run provider estimate found _ =>
    have hid : run.id = row.pipelineRunId := (Table.get?_eq_some.mp found).2
    have hrow : row ∈ (openReservation run row.stage provider estimate
        (releaseStageReservations run row.stage s)).assignments := by simpa using hmem
    rw [slice_grantAssignment hrow (isLive_pending hwaiting),
      slice_assignments_unchanged hrow (isLiveOf_other hr), slice_openReservation,
      if_neg (hid ▸ hr), slice_releaseOther (hid ▸ hr)]
  | granted _ =>
    rw [slice_grantAssignment hmem (isLive_pending hwaiting),
      slice_assignments_unchanged hmem (isLiveOf_other hr)]

theorem ClaimSettled.moves {row : StageAssignment} {workerId : Nat} {claimToken : Option Nat}
    {op : Op} {v : RunView} (h : ClaimSettled row workerId claimToken s t)
    (hmem : row ∈ s.assignments) (hwaiting : row.status = .pending)
    (hv : Shows (s.slice row.pipelineRunId) v) (hset : v.Settled) :
    Simulated s t op row.pipelineRunId v := by
  have hin := mem_slice_assignments.mpr ⟨hmem, isLiveOf_self (isLive_pending hwaiting)⟩
  obtain ⟨run, d, hpin, hx, rfl⟩ := hv.of_pending hin hwaiting
  have hrow : s.runs.get? row.pipelineRunId = some run := by rw [← slice_run, hx]
  have hid : run.id = row.pipelineRunId := (Table.get?_eq_some.mp hrow).2
  have hlive : run.status.isTerminal = false := by
    cases hterm : run.status.isTerminal with
    | false => rfl
    | true => cases hset hterm _ rfl
  cases h with
  | held found _ =>
    rw [hrow] at found
    cases found
    refine ⟨.held, _, .held rfl rfl hlive, trivial, ?_⟩
    rw [slice_pauseForSpend, if_pos hid.symm, slice_releaseStageReservations, hx]
    exact .waiting hpin hwaiting
  | @reserved _ provider estimate found _ =>
    rw [hrow] at found
    cases found
    have hmem' : row ∈ (openReservation run row.stage provider estimate
        (releaseStageReservations run row.stage s)).assignments := by simpa using hmem
    refine ⟨.claimed, _, .claimed rfl, trivial, ?_⟩
    rw [slice_grantAssignment hmem' (isLive_pending hwaiting), slice_openReservation,
      if_pos hid.symm, slice_releaseStageReservations, hx]
    simp only [List.map_cons, List.map_nil, beq_self_eq_true, if_true, List.filter_nil,
      List.nil_append]
    exact .working hpin rfl rfl
  | granted covered =>
    -- a waiting row holds no budget, and its run exists
    rcases covered with hnone | ⟨w, hw, hopen⟩
    · rw [hrow] at hnone
      cases hnone
    · have hsel : s.reservations.select (·.isOpenFor row.pipelineRunId row.stage) = _ :=
        select_isOpenFor
      rw [hx] at hsel
      have hwin := Table.mem_select.mpr ⟨hw, hopen⟩
      rw [hsel] at hwin
      cases hwin

/-! ## The scheduler -/

theorem Simulated.of_slice {op : Op} {v : RunView} {u : Db} (h : Simulated s t op r v)
    (hsame : u.slice r = t.slice r) : Simulated s u op r v := by
  obtain ⟨l, v', hmove, hcause, hshow⟩ := h
  exact ⟨l, v', hmove, hcause, hsame ▸ hshow⟩

theorem runId?_eq_some {job : JobSchedule} : job.runId? = some r ↔ job.refId = .run r := by
  unfold JobSchedule.runId?
  cases job.refId <;> simp

/-- A leased stage job with a stage's text carries its run. -/
theorem isActiveFor_of_leased {job : JobSchedule} {stage : ContentStage}
    (hkind : job.isStageJob = true) (hleased : job.status = .leased) (href : job.runId? = some r)
    (hparsed : ContentStage.ofValue? job.refTable = some stage) : job.isActiveFor r = true := by
  simp [JobSchedule.isActiveFor, JobSchedule.isActive, hkind, hleased, runId?_eq_some.mp href,
    hparsed]

/-- A job that starts work on a stage is no other run's job. -/
theorem run_ne_of_inactive {job : JobSchedule} {q : Nat} {stage : ContentStage}
    (hp : job.isActiveFor r = false) (hkind : job.isStageJob = true)
    (hleased : job.status = .leased) (href : job.runId? = some q)
    (hparsed : ContentStage.ofValue? job.refTable = some stage) : r ≠ q := by
  rintro rfl
  rw [isActiveFor_of_leased hkind hleased href hparsed] at hp
  cases hp

theorem stageJob_of_isActiveFor {job : JobSchedule} (h : job.isActiveFor r = true) :
    job.isStageJob = true ∧ job.runId? = some r := by
  simp only [JobSchedule.isActiveFor, Bool.and_eq_true, beq_iff_eq] at h
  exact ⟨h.1.1.1, runId?_eq_some.mpr h.1.2⟩

/-- A queue row of other work is closed without a trace in this slice. -/
theorem slice_closeOtherJob {job : JobSchedule} {u : Update JobSchedule}
    (hu : ∀ j, (u.apply j).isActive = false) (hmem : job ∈ t.jobs)
    (hp : job.isActiveFor r = false) :
    (modifyJob job.id u t).slice r = t.slice r := by
  rw [slice_closeJob hu, slice_jobs_without hmem hp]

theorem slice_rewriteOtherJob {job : JobSchedule} {u : Update JobSchedule} (hu : KeepsActive u)
    (hmem : job ∈ t.jobs) (hactive : job.isActive = true) (hp : job.isActiveFor r = false) :
    (modifyJob job.id u t).slice r = t.slice r := by
  have hget : t.jobs.get? job.id = some job := Table.get?_of_mem hmem
  rw [slice_rewriteJob hu hget hactive, slice_jobs_unchanged hmem hp]

theorem isActive_done (j : JobSchedule) : (JobSchedule.done.apply j).isActive = false := rfl

theorem isActive_retire (j : JobSchedule) : (JobSchedule.retire.apply j).isActive = false := rfl

theorem isActive_exhaust (j : JobSchedule) : (JobSchedule.exhaust.apply j).isActive = false := rfl

theorem isLiveFor_other {a : StageAssignment} {q : Nat} {stage : ContentStage}
    (ha : a ∈ (s.slice r).assignments) (hr : r ≠ q) : a.isLiveFor q stage = false := by
  have hlive := (mem_slice_assignments.mp ha).2
  simp only [StageAssignment.isLiveOf, Bool.and_eq_true, beq_iff_eq] at hlive
  simp only [StageAssignment.isLiveFor, Bool.and_eq_false_iff, beq_eq_false_iff_ne]
  exact .inl (.inl fun hq => hr (hlive.1.symm.trans hq))

theorem slice_abandonOther {run : PipelineRun} {stage : ContentStage} (hr : r ≠ run.id) :
    (abandonStage run stage s).slice r = s.slice r := by
  rw [slice_abandonStage, if_neg hr]
  refine congrArg (fun assignments => { s.slice r with assignments }) ?_
  refine List.filter_eq_self.mpr fun a ha => ?_
  rw [isLiveFor_other ha hr]
  rfl

theorem slice_routeToDeadLetter {workspaceId attempts : Nat} {table jobType reason : String}
    {ref : Ref} :
    (routeToDeadLetter workspaceId table ref jobType reason attempts s).slice r = s.slice r :=
  slice_congr (by simp) (by simp) (by simp) (by simp) (by simp)

theorem Exhausted.other {job : JobSchedule} (h : Exhausted job s t) (hmem : job ∈ s.jobs)
    (hkind : job.isStageJob = true) (hleased : job.status = .leased)
    (hp : job.isActiveFor r = false) :
    t.slice r = s.slice r := by
  have hclosed := slice_closeOtherJob isActive_exhaust hmem hp
  cases h with
  | alone _ routed => rw [routed, slice_routeToDeadLetter, hclosed]
  | @withRun run stage found parsed _ routed =>
    obtain ⟨q, hq, hget⟩ := Option.bind_eq_some_iff.mp found
    have hid : run.id = q := (Table.get?_eq_some.mp hget).2
    have hne : r ≠ q := run_ne_of_inactive hp hkind hleased hq parsed
    rw [routed, slice_routeToDeadLetter, slice_abandonOther (hid ▸ hne), hclosed]

/-- Giving up the job of a run that only waits in the queue leaves it with nothing. -/
theorem Exhausted.self {job : JobSchedule} {row : PipelineRun} (h : Exhausted job s t)
    (hx : s.slice r = ⟨some row, [job], [], [], []⟩) : t.slice r = ⟨some row, [], [], [], []⟩ := by
  have hclosed : (modifyJob job.id JobSchedule.exhaust s).slice r = ⟨some row, [], [], [], []⟩ := by
    rw [slice_closeJob isActive_exhaust, hx]
    simp
  cases h with
  | alone _ routed => rw [routed, slice_routeToDeadLetter, hclosed]
  | withRun _ _ routed =>
    rw [routed, slice_routeToDeadLetter, slice_abandonStage, hclosed]
    simp

/-! ### Review timeouts -/

theorem handleReviewTimeout_simulated {gateId : Nat} {op : Op} {v : RunView} (hs : s.Sound)
    (hv : Shows (s.slice r) v) : Simulated s (handleReviewTimeout gateId s) op r v := by
  unfold handleReviewTimeout
  split
  · exact .quiet hv rfl
  rename_i gate hgate
  split
  · exact .quiet hv rfl
  rename_i hawait
  have hmem := (Table.get?_eq_some.mp hgate).1
  have hlevel := hs.gates gate hmem (by simpa using hawait)
  rw [if_pos hlevel]
  cases hin : gate.isAwaitingFor r with
  | false =>
    refine .quiet hv ?_
    rw [slice_escalateGate, slice_gates_without hmem hin]
  | true =>
    obtain ⟨row, d, hpin, hx, rfl⟩ := hv.of_gate (mem_slice_gates.mpr ⟨hmem, hin⟩)
    refine ⟨.released, _, .released rfl, trivial, ?_⟩
    rw [slice_escalateGate, hx]
    simp only [List.filter_cons, beq_self_eq_true, Bool.not_true, Bool.false_eq_true, if_false,
      List.filter_nil]
    exact .idle hpin

theorem handleReviewTimeout_absent {gateId : Nat} (hs : s.Sound) (hgates : (s.slice r).gates = []) :
    (handleReviewTimeout gateId s).slice r = s.slice r := by
  unfold handleReviewTimeout
  split
  · rfl
  rename_i gate hgate
  split
  · rfl
  rename_i hawait
  have hmem := (Table.get?_eq_some.mp hgate).1
  rw [if_pos (hs.gates gate hmem (by simpa using hawait)), slice_escalateGate]
  cases hin : gate.isAwaitingFor r with
  | false => exact slice_gates_without hmem hin
  | true =>
    have hbad := mem_slice_gates.mpr ⟨hmem, hin⟩
    rw [hgates] at hbad
    cases hbad

theorem mem_jobs_handleReviewTimeout {gateId : Nat} {job : JobSchedule} (h : job ∈ s.jobs) :
    job ∈ (handleReviewTimeout gateId s).jobs := by
  unfold handleReviewTimeout
  split
  · exact h
  split
  · exact h
  split
  · simp only [escalateGate_frame]
    exact Table.mem_insert.mpr (.inl h)
  · unfold timeOutGate
    split <;> simpa using h

/-! ### One leased row -/

theorem isOpen_of_statusOutcome {run : PipelineRun} (h : statusOutcome run = none) :
    run.status.isOpen = true := by
  unfold statusOutcome at h
  split at h
  · cases h
  · rename_i hterm
    split at h
    · split at h <;> cases h
    · rename_i hpaused
      simp [PipelineRunStatus.isOpen, hterm, hpaused]

theorem isOpen_of_skipped {run : PipelineRun} (h : statusOutcome run = some .skipped) :
    run.status.isOpen = false := by
  unfold statusOutcome at h
  split at h
  · rename_i hterm
    simp [PipelineRunStatus.isOpen, hterm]
  · split at h
    · rename_i hpaused
      simp [PipelineRunStatus.isOpen, hpaused]
    · cases h

/-- A row that carries another run, or none. -/
theorem Processed.other {job : JobSchedule} {lockedWorkers : List Nat}
    (h : Processed job lockedWorkers s t) (hmem : job ∈ s.jobs) (hleased : job.status = .leased)
    (hs : s.Sound) (hp : job.isActiveFor r = false)
    (hgates : job.isStageJob = false → (s.slice r).gates = []) : t.slice r = s.slice r := by
  have hactive := isActive_of_leased hleased
  have hid : ∀ {q : Nat} {run : PipelineRun}, s.runs.get? q = some run → run.id = q :=
    fun hget => (Table.get?_eq_some.mp hget).2
  cases h with
  | parked _ _ _ _ _ => exact slice_rewriteOtherJob keepsActive_park hmem hactive hp
  | retired _ _ _ _ _ => exact slice_closeOtherJob isActive_retire hmem hp
  | repeated _ _ _ _ _ => exact slice_closeOtherJob isActive_done hmem hp
  | held kind ref _ found _ _ parsed =>
    have hne := run_ne_of_inactive hp kind hleased ref parsed
    rw [slice_rewriteOtherJob keepsActive_park (by simpa using hmem) hactive hp,
      slice_pauseForSpend, if_neg (hid found ▸ hne), slice_releaseOther (hid found ▸ hne)]
  | @assigned q _ _ _ _ _ kind ref _ found _ _ parsed =>
    have hne := run_ne_of_inactive hp kind hleased ref parsed
    have hq : r ≠ (job.request q lockedWorkers).pipelineRunId := hne
    rw [slice_closeOtherJob isActive_done (by simpa using hmem) hp, slice_createAssignment,
      if_neg hq, slice_openReservation, if_neg (hid found ▸ hne),
        slice_releaseOther (hid found ▸ hne)]
  | @waiting q _ _ _ kind ref _ found _ _ parsed =>
    have hq : r ≠ (job.request q lockedWorkers).pipelineRunId :=
      run_ne_of_inactive hp kind hleased ref parsed
    rw [slice_closeOtherJob isActive_done (by simpa using hmem) hp, slice_createAssignment,
      if_neg hq]
  | rescheduled _ _ _ => exact slice_rewriteOtherJob keepsActive_reschedule hmem hactive hp
  | exhausted kind _ _ exhausted => exact exhausted.other hmem kind hleased hp
  | stageTimedOut kind => exact absurd kind (hs.jobs job hmem)
  | reviewTimedOut kind _ =>
    have hkind : job.isStageJob = false := by simp [JobSchedule.isStageJob, kind]
    rw [slice_closeOtherJob isActive_done (mem_jobs_handleReviewTimeout hmem) hp,
      handleReviewTimeout_absent hs (hgates hkind)]
  | finished _ => exact slice_closeOtherJob isActive_done hmem hp

theorem Processed.moves {job : JobSchedule} {lockedWorkers lockedWorkers' : List Nat} {jitter : Nat}
    {v : RunView} (h : Processed job lockedWorkers s t) (hmem : job ∈ s.jobs)
    (hleased : job.status = .leased) (hactiveFor : job.isActiveFor r = true)
    (hv : Shows (s.slice r) v) : Simulated s t (.processJob job.id lockedWorkers' jitter) r v := by
  have hactive := isActive_of_leased hleased
  obtain ⟨hkind, href⟩ := stageJob_of_isActiveFor hactiveFor
  obtain ⟨row, d, hpin, hx, rfl⟩ := hv.of_job (mem_slice_jobs.mpr ⟨hmem, hactiveFor⟩)
  have hrow : s.runs.get? r = some row := by rw [← slice_run, hx]
  have hid : row.id = r := (Table.get?_eq_some.mp hrow).2
  have hget : s.jobs.get? job.id = some job := Table.get?_of_mem hmem
  have hprocessed : processedJob s (.processJob job.id lockedWorkers' jitter) r = some job := by
    simp [processedJob, hget, hleased, hactiveFor]
  cases h with
  | @parked q runAfter _ _ _ _ _ _ =>
    refine ⟨.quiet, _, .quiet, trivial, ?_⟩
    rw [slice_rewriteJob keepsActive_park hget hactive, hx]
    simp only [List.map_cons, List.map_nil, beq_self_eq_true, if_true]
    exact .queued hpin
  | @retired q run _ ref _ found status =>
    rw [href] at ref
    cases ref
    rw [hrow] at found
    cases found
    refine ⟨.retired, _, .retired rfl (isOpen_of_skipped status), trivial, ?_⟩
    rw [slice_closeJob isActive_retire, hx]
    simp only [List.filter_cons, beq_self_eq_true, Bool.not_true, Bool.false_eq_true, if_false,
      List.filter_nil]
    exact .idle hpin
  | @repeated q already _ ref room open_ taken =>
    rw [href] at ref
    cases ref
    have hopen := isOpen_of_statusOutcome (open_ row hrow)
    refine ⟨.dropped, _, .dropped rfl hopen, ?_, ?_⟩
    · simp [Label.cause, repeatsKey, hprocessed, room, hrow, hopen, taken]
    rw [slice_closeJob isActive_done, hx]
    simp only [List.filter_cons, beq_self_eq_true, Bool.not_true, Bool.false_eq_true, if_false,
      List.filter_nil]
    exact .idle hpin
  | @held q runAfter run stage _ ref _ found status _ _ =>
    rw [href] at ref
    cases ref
    rw [hrow] at found
    cases found
    have hlive := isTerminal_of_isOpen (isOpen_of_statusOutcome status)
    refine ⟨.held, _, .held rfl rfl hlive, trivial, ?_⟩
    rw [slice_rewriteJob keepsActive_park (by simpa using hget) hactive, slice_pauseForSpend,
      if_pos hid.symm, slice_releaseStageReservations, hx]
    simp only [List.map_cons, List.map_nil, beq_self_eq_true, if_true, List.filter_nil]
    exact .queued hpin
  | @assigned q estimate run stage worker priority _ ref _ found status _ parsed =>
    rw [href] at ref
    cases ref
    rw [hrow] at found
    cases found
    have hopen := isOpen_of_statusOutcome status
    have htext := ContentStage.ofValue?_eq_some.mp parsed
    have hmove : Move (stageLimit s d)
        ⟨row.status, row.currentStage, d, some (.queued job.id job.refTable job.attempt)⟩ .assigned
        ⟨row.status, row.currentStage, d,
          some (.working s.assignments.next stage (job.attempt + 1))⟩ :=
      .assigned (by rw [htext]) hopen
    refine ⟨.assigned, _, hmove, trivial, ?_⟩
    have hrequest : r = (job.request r lockedWorkers).pipelineRunId := rfl
    rw [slice_closeJob isActive_done, slice_createAssignment, if_pos hrequest,
      slice_openReservation, if_pos hid.symm, slice_releaseStageReservations, hx]
    simp only [List.filter_cons, beq_self_eq_true, Bool.not_true, Bool.false_eq_true, if_false,
      List.filter_nil, List.nil_append]
    have hnext : (openReservation row stage draftDeskProvider estimate
        (releaseStageReservations row stage s)).assignments = s.assignments := by simp
    rw [hnext]
    exact .working hpin rfl rfl
  | @waiting q run stage priority _ ref _ found status _ parsed =>
    rw [href] at ref
    cases ref
    rw [hrow] at found
    cases found
    have hopen := isOpen_of_statusOutcome status
    have htext := ContentStage.ofValue?_eq_some.mp parsed
    have hmove : Move (stageLimit s d)
        ⟨row.status, row.currentStage, d, some (.queued job.id job.refTable job.attempt)⟩ .offered
        ⟨row.status, row.currentStage, d,
          some (.waiting s.assignments.next stage (job.attempt + 1))⟩ :=
      .offered (by rw [htext]) hopen
    refine ⟨.offered, _, hmove, trivial, ?_⟩
    have hrequest : r = (job.request r lockedWorkers).pipelineRunId := rfl
    rw [slice_closeJob isActive_done, slice_createAssignment, if_pos hrequest, hx]
    simp only [List.filter_cons, beq_self_eq_true, Bool.not_true, Bool.false_eq_true, if_false,
      List.filter_nil, List.nil_append]
    exact .waiting hpin rfl
  | @rescheduled delay _ limit below =>
    refine ⟨.delayed, _, .delayed rfl, ?_, ?_⟩
    · simp [Label.cause, delaysJob, postpones, hprocessed, limit, below]
    rw [slice_rewriteJob keepsActive_reschedule hget hactive, hx]
    simp only [List.map_cons, List.map_nil, beq_self_eq_true, if_true]
    exact .queued hpin
  | exhausted _ limit ceiling exhausted =>
    refine ⟨.exhausted, _, .exhausted rfl, ?_, ?_⟩
    · simp [Label.cause, givesUp, hprocessed, limit, ceiling]
    rw [exhausted.self hx]
    exact .idle hpin
  | stageTimedOut kind => simp [JobSchedule.isStageJob, kind] at hkind
  | reviewTimedOut kind _ => simp [JobSchedule.isStageJob, kind] at hkind
  | finished kind =>
    rw [hkind] at kind
    cases kind

/-! ## Verdicts -/

theorem status_decide {approved : Bool} {now : Nat} (g : ReviewGate) :
    ((ReviewGate.decide approved now).apply g).status ≠ .awaiting := by
  cases approved <;> (intro h; cases h)

theorem slice_resumeRun {gate : ReviewGate} {approved : Bool} {q : Nat} (hr : r ≠ q)
    (hmem : gate ∈ s.gates) (hp : gate.isAwaitingFor r = false) :
    (resumeRun gate approved q s).slice r = s.slice r := by
  rw [resumeRun, slice_modifyRun, if_neg hr, slice_closeGate status_decide,
    slice_gates_without hmem hp]

theorem Resumed.other {gate : ReviewGate} {approved : Bool} (h : Resumed gate approved s t)
    (hmem : gate ∈ s.gates) (hr : r ≠ gate.pipelineRunId) : t.slice r = s.slice r := by
  have hp : gate.isAwaitingFor r = false := by simp [ReviewGate.isAwaitingFor, Ne.symm hr]
  have hne : ∀ {run : PipelineRun}, s.runs.get? gate.pipelineRunId = some run → r ≠ run.id := by
    intro run hget
    have hid : run.id = gate.pipelineRunId := (Table.get?_eq_some.mp hget).2
    exact hid ▸ hr
  have hclosed : (modifyGate gate.id (ReviewGate.decide approved s.now) s).slice r = s.slice r := by
    rw [slice_closeGate status_decide, slice_gates_without hmem hp]
  cases h with
  | rejected found _ =>
    rw [slice_failRun, if_neg (hne found), slice_modifyRun, if_neg (hne found), hclosed]
  | advanced found _ advanced =>
    rw [advanced.other (hne found), slice_resumeRun (hne found) hmem hp]
  | stuck found _ raised =>
    rcases (advanceOrFinish_raises raised).1 with rfl | ⟨_, _, _, _, rfl⟩
    · rw [slice_resumeRun (hne found) hmem hp]
    · rw [slice_modifyRun, if_neg (hne found), slice_resumeRun (hne found) hmem hp]
  | unrouted _ _ => exact hclosed
  | unloaded => rfl

/-- A verdict, from the recorded reviewer to the delivered decision, leaves other runs alone. -/
theorem Resumed.other_booked {s₁ s₂ : Db} {gateId reviewerId : Nat} {approved : Bool}
    {gate : ReviewGate}
    (h : Resumed ((ReviewGate.recordReviewer reviewerId).apply gate) approved s₁ s₂)
    (found : s.gates.get? gateId = some gate)
    (recorded : SameWork (modifyGate gateId (ReviewGate.recordReviewer reviewerId) s) s₁)
    (booked : SameWork s₂ t) (hr : r ≠ gate.pipelineRunId) : t.slice r = s.slice r := by
  have hgate := (Table.get?_eq_some.mp (recorded.recorded_gate found)).1
  obtain ⟨hmem, rfl⟩ := Table.get?_eq_some.mp found
  have hne : gate.isAwaitingFor r = false := by simp [ReviewGate.isAwaitingFor, Ne.symm hr]
  rw [booked.slice, h.other hgate hr, recorded.slice]
  exact slice_recordReviewer.trans (slice_gates_unchanged hmem hne)

/-- The run at the gate resumes, fails or is let go; a verdict with no next step strands it. -/
theorem Resumed.moves {gate : ReviewGate} {approved : Bool} {q : Db} {op : Op} {row : PipelineRun}
    {d : Nat} (h : Resumed gate approved s t) (hmem : gate ∈ s.gates)
    (hawait : gate.status = .awaiting) (hpin : row.definitionId = some d)
    (hx : s.slice gate.pipelineRunId = ⟨some row, [], [], [gate], []⟩)
    (hdone : ∀ g, t.gates.get? gate.id = some g → g.status ≠ .awaiting)
    (hstrands : resumesRun s d gate approved = true →
      movesOn (route s d gate.stage (reviewTrigger approved) []) = false →
        strandsRun q op gate.pipelineRunId = true) :
    ∃ l v', Move (stageLimit s d)
        ⟨row.status, row.currentStage, d, some (.reviewing gate.id gate.stage)⟩ l v' ∧
      l.cause q op gate.pipelineRunId ∧ Shows (t.slice gate.pipelineRunId) v' := by
  have hrow : s.runs.get? gate.pipelineRunId = some row := by rw [← slice_run, hx]
  have hid : row.id = gate.pipelineRunId := (Table.get?_eq_some.mp hrow).2
  have hclosed : (modifyGate gate.id (ReviewGate.decide approved s.now) s).slice
      gate.pipelineRunId =
      ⟨some row, [], [], [], []⟩ := by
    rw [slice_closeGate status_decide, hx]
    simp
  have hresumed : (resumeRun gate approved row.id s).slice row.id =
      ⟨some (PipelineRun.resume.apply row), [], [], [], []⟩ := by
    rw [resumeRun, slice_modifyRun, if_pos rfl, hid, hclosed]
    rfl
  have hdefs : (resumeRun gate approved row.id s).definitions = s.definitions := by simp [resumeRun]
  cases h with
  | rejected found _ =>
    rw [hrow] at found
    cases found
    refine ⟨.failed, _, .failed rfl rfl, trivial, ?_⟩
    rw [slice_failRun, if_pos hid.symm, slice_modifyRun, if_pos hid.symm, hclosed]
    exact .idle hpin
  | advanced found resumes advanced =>
    rw [hrow] at found
    cases found
    rw [← hid]
    have hlimit : stageLimit (resumeRun gate approved row.id s) d = stageLimit s d := by
      funext stage
      rw [stageLimit, stageLimit, stageDef?_congr hdefs]
    have hresumes : (PipelineRun.resume.apply row).definitionId = some d := hpin
    have hmoves := advanced.shows hpin hresumes hresumed
    rw [hlimit, route_congr hdefs] at hmoves
    cases hmoves with
    | finished shown => exact ⟨.finished, _, .finished rfl rfl, trivial, shown⟩
    | queued known shown => exact ⟨.entered, _, .resumed rfl known, trivial, shown⟩
    | gated clear _ =>
      -- the gate under decision is still awaiting in the stored rows
      have hbad := clear gate hmem
      simp [ReviewGate.isAwaitingFor, hawait, hid] at hbad
    | kept _ stays shown =>
      refine ⟨.stranded, _, .stranded rfl, ?_, shown⟩
      rw [hid]
      exact hstrands (resumes d hpin) stays
  | stuck found resumes raised =>
    rw [hrow] at found
    cases found
    obtain ⟨hstate, hroute⟩ := advanceOrFinish_raises raised
    have hstays := hroute d hpin
    rw [route_congr hdefs] at hstays
    have hcause := hstrands (resumes d hpin) hstays
    rcases hstate with rfl | ⟨_, stageDef, _, _, rfl⟩
    · refine ⟨.stranded, ⟨.running, row.currentStage, d, none⟩, .stranded rfl, hcause, ?_⟩
      rw [← hid, hresumed]
      exact .idle hpin
    · refine ⟨.stranded, ⟨.running, stageDef.stageKey, d, none⟩, .stranded rfl, hcause, ?_⟩
      rw [slice_modifyRun, if_pos hid.symm, ← hid, hresumed]
      exact .idle hpin
  | unrouted _ _ =>
    refine ⟨.released, _, .released rfl, trivial, ?_⟩
    rw [hclosed]
    exact .idle hpin
  | unloaded =>
    have hget : s.gates.get? gate.id = some gate := Table.get?_of_mem hmem
    exact absurd hawait (hdone gate hget)

end ContentOrchestrator

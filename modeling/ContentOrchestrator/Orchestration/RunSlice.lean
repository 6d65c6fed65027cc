import ContentOrchestrator.Orchestration.TableInvariants

/-! # The working rows of one run

A run is carried forward by a few rows only: its queued stage jobs, its live
assignments, its awaiting gates and its open reservations. `Db.slice` cuts them out
of the database, and every operation of the engine has an equation that says what it
does to the slice of each run. What the engine does to a run can be read off these
equations without looking at a table again. -/

namespace ContentOrchestrator

open Lib

/-- A stage job that can still start work on the run: a row whose text names no stage never does. -/
def JobSchedule.isActiveFor (runId : Nat) (j : JobSchedule) : Bool :=
  j.isStageJob && j.isActive && j.refId == .run runId && (ContentStage.ofValue? j.refTable).isSome

structure RunSlice where
  run : Option PipelineRun
  jobs : List JobSchedule
  assignments : List StageAssignment
  gates : List ReviewGate
  reservations : List SpendReservation

def Db.slice (db : Db) (runId : Nat) : RunSlice where
  run := db.runs.get? runId
  jobs := db.jobs.select (·.isActiveFor runId)
  assignments := db.assignments.select (·.isLiveOf runId)
  gates := db.gates.select (·.isAwaitingFor runId)
  reservations := db.reservations.select (·.isOpenOf runId)

variable {db : Db} {r : Nat}

/-- The slice depends on five tables only. -/
theorem slice_congr {s t : Db} (hruns : t.runs = s.runs) (hjobs : t.jobs = s.jobs)
    (hassignments : t.assignments = s.assignments) (hgates : t.gates = s.gates)
    (hreservations : t.reservations = s.reservations) : t.slice r = s.slice r := by
  unfold Db.slice
  rw [hruns, hjobs, hassignments, hgates, hreservations]

theorem SameWork.slice {s t : Db} (h : SameWork s t) : t.slice r = s.slice r :=
  slice_congr h.runs h.jobs h.assignments h.gates h.reservations

/-! ## The run row -/

theorem slice_modifyRun {q : Nat} {u : Update PipelineRun} :
    (modifyRun q u db).slice r =
      if r = q then { db.slice r with run := (db.slice r).run.map u.apply } else db.slice r := by
  unfold Db.slice
  simp only [modifyRun_frame, Table.get?_modify]
  split
  · rename_i h
    rw [h]
  · rfl

theorem slice_createRun {workspaceId contentItemId : Nat} :
    (createRun workspaceId contentItemId db).slice r =
      if r = db.runs.next then
        { db.slice r with run := some { id := r, workspaceId, contentItemId } }
      else db.slice r := by
  unfold Db.slice createRun
  simp only [Table.get?_insert]
  split
  · rename_i h
    rw [h]
  · rfl

/-! ## The queue -/

theorem slice_enqueueStage {run : PipelineRun} {stage : ContentStage} {attempt : Nat}
    {runAfter : Option Nat} :
    (enqueueStage run stage attempt runAfter db).slice r =
      if r = run.id then
        { db.slice r with
          jobs := (db.slice r).jobs ++
            [(stageJob run stage attempt runAfter db).make db.jobs.next] }
      else db.slice r := by
  unfold Db.slice
  simp only [enqueueStage_frame]
  have hkind : ((stageJob run stage attempt runAfter db).make db.jobs.next).isStageJob = true := by
    by_cases h : attempt = 0 <;> simp [stageJob, JobSchedule.isStageJob, h]
  split
  · rename_i h
    rw [Table.select_insert, JobSchedule.isActiveFor, hkind]
    simp [stageJob, JobSchedule.isActive, h]
  · rename_i h
    rw [Table.select_insert_of_not]
    rw [JobSchedule.isActiveFor, hkind]
    simp [stageJob, JobSchedule.isActive, Ne.symm h]

/-- A row of another kind is no part of any slice. -/
theorem select_insert_otherJob {jobs : Table JobSchedule} {row : NewRow JobSchedule}
    (h : (row.make jobs.next).isStageJob = false) :
    (jobs.insert row).select (·.isActiveFor r) = jobs.select (·.isActiveFor r) := by
  refine Table.select_insert_of_not ?_
  rw [JobSchedule.isActiveFor, h]
  rfl

theorem slice_enqueueCompensations {run : PipelineRun} {stages : List ContentStage} :
    (enqueueCompensations run stages db).slice r = db.slice r := by
  induction stages generalizing db with
  | nil => rfl
  | cons stage rest ih =>
    change (enqueueCompensations run rest (enqueueCompensation run stage db)).slice r = _
    rw [ih]
    unfold Db.slice
    simp only [enqueueCompensation_frame]
    rw [select_insert_otherJob rfl]

/-- A queue row is closed: it no longer carries its run. -/
theorem slice_closeJob {jobId : Nat} {u : Update JobSchedule}
    (hu : ∀ j, (u.apply j).isActive = false) :
    (modifyJob jobId u db).slice r =
      { db.slice r with jobs := (db.slice r).jobs.filter fun j => !(j.id == jobId) } := by
  unfold Db.slice
  simp only [modifyJob_frame]
  rw [Table.modify, Table.select_modifyWhere_leave]
  · rfl
  · intro j
    rw [JobSchedule.isActiveFor, hu]
    simp

/-- A change of columns the engine waits by: which run the row carries is as before. -/
structure KeepsActive (u : Update JobSchedule) : Prop where
  jobType : ∀ j, (u.apply j).jobType = j.jobType
  refId : ∀ j, (u.apply j).refId = j.refId
  refTable : ∀ j, (u.apply j).refTable = j.refTable
  active : ∀ j, (u.apply j).isActive = true

theorem KeepsActive.isActiveFor {u : Update JobSchedule} (hu : KeepsActive u) {j : JobSchedule}
    (hj : j.isActive = true) : (u.apply j).isActiveFor r = j.isActiveFor r := by
  unfold JobSchedule.isActiveFor JobSchedule.isStageJob
  rw [hu.jobType, hu.refId, hu.refTable, hu.active, hj]

/-- Active queue rows are changed and stay active. -/
theorem select_rewriteJobs {jobs : Table JobSchedule} {q : JobSchedule → Bool}
    {u : Update JobSchedule} (hu : KeepsActive u)
    (hq : ∀ j ∈ jobs, q j = true → j.isActive = true) :
    (jobs.modifyWhere q u).select (·.isActiveFor r) =
      (jobs.select (·.isActiveFor r)).map fun j => if q j then u.apply j else j :=
  Table.select_modifyWhere fun j hj hqj => hu.isActiveFor (hq j hj hqj)

theorem slice_rewriteJob {jobId : Nat} {u : Update JobSchedule} {job : JobSchedule}
    (hu : KeepsActive u) (hjob : db.jobs.get? jobId = some job) (hactive : job.isActive = true) :
    (modifyJob jobId u db).slice r =
      { db.slice r with
        jobs := (db.slice r).jobs.map fun j => if j.id == jobId then u.apply j else j } := by
  unfold Db.slice
  simp only [modifyJob_frame]
  rw [Table.modify, select_rewriteJobs hu]
  · rfl
  · intro j hj hk
    have hsame : db.jobs.get? jobId = some j := Table.get?_eq_some.mpr ⟨hj, by simpa using hk⟩
    rw [hjob] at hsame
    cases hsame
    exact hactive

/-! ## Spend -/

theorem isOpenOf_release {v : SpendReservation} :
    (SpendReservation.release.apply v).isOpenOf r = false := by
  simp [SpendReservation.release, SpendReservation.isOpenOf]

theorem isOpenOf_commit {v : SpendReservation} :
    (SpendReservation.commit.apply v).isOpenOf r = false := by
  simp [SpendReservation.commit, SpendReservation.isOpenOf]

theorem slice_releaseStageReservations {run : PipelineRun} {stage : ContentStage} :
    (releaseStageReservations run stage db).slice r =
      { db.slice r with
        reservations := (db.slice r).reservations.filter fun v => !v.isOpenFor run.id stage } := by
  unfold Db.slice
  simp only [releaseStageReservations_frame, releaseStageReservations_reservations]
  rw [Table.select_modifyWhere_leave fun v => isOpenOf_release]

/-- All of a run's open reservations are given back, and nobody else's. -/
theorem select_releaseAll {reservations : Table SpendReservation} {q : Nat} :
    (reservations.modifyWhere (·.isOpenOf q) SpendReservation.release).select (·.isOpenOf r) =
      if r = q then [] else reservations.select (·.isOpenOf r) := by
  rw [Table.select_modifyWhere_leave fun v => isOpenOf_release]
  split
  · rename_i h
    refine List.filter_eq_nil_iff.mpr fun v hv hq => ?_
    rw [← h, (Table.mem_select.mp hv).2] at hq
    cases hq
  · rename_i h
    refine List.filter_eq_self.mpr fun v hv => ?_
    have hopen := (Table.mem_select.mp hv).2
    simp only [SpendReservation.isOpenOf, Bool.and_eq_true, beq_iff_eq] at hopen
    have hother : v.isOpenOf q = false := by
      simp only [SpendReservation.isOpenOf, Bool.and_eq_false_iff, beq_eq_false_iff_ne]
      exact .inl fun hq => h (hopen.1.symm.trans hq)
    rw [hother]
    rfl

theorem slice_openReservation {run : PipelineRun} {stage : ContentStage} {provider : String}
    {estimate : Nat} :
    (openReservation run stage provider estimate db).slice r =
      if r = run.id then
        { db.slice r with
          reservations := (db.slice r).reservations ++
            [(newReservation run stage provider estimate db).make db.reservations.next] }
      else db.slice r := by
  unfold Db.slice
  simp only [openReservation_frame]
  split
  · rename_i h
    rw [Table.select_insert]
    simp [newReservation, SpendReservation.isOpenOf, h]
  · rename_i h
    rw [Table.select_insert_of_not]
    simpa [newReservation, SpendReservation.isOpenOf] using Ne.symm h

theorem slice_pauseForSpend {run : PipelineRun} :
    (pauseForSpend run db).slice r =
      if r = run.id then
        { db.slice r with run := (db.slice r).run.map PipelineRun.holdForSpend.apply }
      else db.slice r := by
  rw [← slice_modifyRun]
  exact slice_congr (by simp) (by simp) (by simp) (by simp) (by simp)

/-- One reservation is settled, either way. -/
theorem slice_settle {s t : Db} {k : Nat} {u : Update SpendReservation}
    (hu : ∀ v, (u.apply v).isOpenOf r = false) (hruns : t.runs = s.runs) (hjobs : t.jobs = s.jobs)
    (hassignments : t.assignments = s.assignments) (hgates : t.gates = s.gates)
    (hreservations : t.reservations = s.reservations.modify k u) :
    t.slice r =
      { s.slice r with reservations := (s.slice r).reservations.filter fun v => !(v.id == k) } := by
  unfold Db.slice
  rw [hruns, hjobs, hassignments, hgates, hreservations, Table.modify,
    Table.select_modifyWhere_leave hu]
  rfl

/-! ## Assignments -/

theorem slice_createAssignment {q : DispatchRequest} {stage : ContentStage}
    {worker : Option WorkerRegistration} {priority : Int} :
    (createAssignment q stage worker priority db).slice r =
      if r = q.pipelineRunId then
        { db.slice r with
          assignments := (db.slice r).assignments ++
            [(newAssignment q stage worker priority db).make db.assignments.next] }
      else db.slice r := by
  unfold Db.slice
  simp only [createAssignment_frame]
  split
  · rename_i h
    rw [Table.select_insert]
    cases worker <;> simp [newAssignment, StageAssignment.isLiveOf, StageAssignmentStatus.isLive, h]
  · rename_i h
    rw [Table.select_insert_of_not]
    simp [newAssignment, StageAssignment.isLiveOf, Ne.symm h]

/-- An assignment that ends leaves its run. -/
theorem select_endAssignment {assignments : Table StageAssignment} {q : StageAssignment → Bool}
    {u : Update StageAssignment} (hu : ∀ a, (u.apply a).status.isLive = false) :
    (assignments.modifyWhere q u).select (·.isLiveOf r) =
      (assignments.select (·.isLiveOf r)).filter fun a => !q a := by
  refine Table.select_modifyWhere_leave fun a => ?_
  rw [StageAssignment.isLiveOf, hu]
  simp

/-- The assignment stays with its run and stays live. -/
structure KeepsLive (u : Update StageAssignment) : Prop where
  pipelineRunId : ∀ a, (u.apply a).pipelineRunId = a.pipelineRunId
  live : ∀ a, a.status.isLive = true → (u.apply a).status.isLive = true

theorem select_rewriteAssignment {assignments : Table StageAssignment} {k : Nat}
    {u : Update StageAssignment} {a : StageAssignment} (hu : KeepsLive u)
    (ha : assignments.get? k = some a) (hlive : a.status.isLive = true) :
    (assignments.modify k u).select (·.isLiveOf r) =
      (assignments.select (·.isLiveOf r)).map fun b => if b.id == k then u.apply b else b := by
  refine Table.select_modifyWhere fun b hb hk => ?_
  have hsame : assignments.get? k = some b := Table.get?_eq_some.mpr ⟨hb, by simpa using hk⟩
  rw [ha] at hsame
  cases hsame
  rw [StageAssignment.isLiveOf, StageAssignment.isLiveOf, hu.pipelineRunId, hu.live a hlive, hlive]

theorem slice_endAssignment {s t : Db} {k : Nat} {u : Update StageAssignment}
    (hu : ∀ a, (u.apply a).status.isLive = false) (hruns : t.runs = s.runs)
    (hjobs : t.jobs = s.jobs) (hassignments : t.assignments = s.assignments.modify k u)
    (hgates : t.gates = s.gates) (hreservations : t.reservations = s.reservations) :
    t.slice r =
      { s.slice r with assignments := (s.slice r).assignments.filter fun a => !(a.id == k) } := by
  unfold Db.slice
  rw [hruns, hjobs, hassignments, hgates, hreservations, Table.modify, select_endAssignment hu]
  rfl

theorem slice_rewriteAssignment {s t : Db} {k : Nat} {u : Update StageAssignment}
    {a : StageAssignment} (hu : KeepsLive u) (ha : s.assignments.get? k = some a)
    (hlive : a.status.isLive = true) (hruns : t.runs = s.runs) (hjobs : t.jobs = s.jobs)
    (hassignments : t.assignments = s.assignments.modify k u) (hgates : t.gates = s.gates)
    (hreservations : t.reservations = s.reservations) :
    t.slice r =
      { s.slice r with
        assignments := (s.slice r).assignments.map fun b =>
            if b.id == k then u.apply b else b } := by
  unfold Db.slice
  rw [hruns, hjobs, hassignments, hgates, hreservations, select_rewriteAssignment hu ha hlive]

/-! ## Gates -/

/-- A gate that no longer waits leaves its run. -/
theorem slice_closeGate {gateId : Nat} {u : Update ReviewGate}
    (hu : ∀ g, (u.apply g).status ≠ .awaiting) :
    (modifyGate gateId u db).slice r =
      { db.slice r with gates := (db.slice r).gates.filter fun g => !(g.id == gateId) } := by
  unfold Db.slice
  simp only [modifyGate_frame]
  rw [Table.modify, Table.select_modifyWhere_leave]
  · rfl
  · intro g
    rw [ReviewGate.isAwaitingFor, beq_eq_false_iff_ne.mpr (hu g)]
    simp

/-- Who decided is recorded; the gate still waits. -/
theorem slice_recordReviewer {gateId reviewerId : Nat} :
    (modifyGate gateId (ReviewGate.recordReviewer reviewerId) db).slice r =
      { db.slice r with
        gates := (db.slice r).gates.map fun g =>
          if g.id == gateId then (ReviewGate.recordReviewer reviewerId).apply g else g } := by
  unfold Db.slice
  simp only [modifyGate_frame]
  rw [Table.modify, Table.select_modifyWhere]
  · rfl
  · intro g _ _
    rfl

theorem slice_openReviewGate {run : PipelineRun} {item : ContentItem} {stageKey : ContentStage}
    {timeoutSeconds : Nat} :
    (openReviewGate run item stageKey timeoutSeconds db).slice r =
      if r = run.id then
        { db.slice r with
          run := (db.slice r).run.map PipelineRun.pauseForReview.apply
          gates := (db.slice r).gates ++
            [(newGate run item stageKey timeoutSeconds db).make db.gates.next] }
      else db.slice r := by
  unfold Db.slice
  simp only [openReviewGate_frame, Table.get?_modify]
  rw [select_insert_otherJob rfl]
  split
  · rename_i h
    rw [Table.select_insert, h]
    simp [newGate, ReviewGate.isAwaitingFor]
  · rename_i h
    rw [Table.select_insert_of_not]
    simp [newGate, ReviewGate.isAwaitingFor, Ne.symm h]

theorem slice_escalateGate {gate : ReviewGate} :
    (escalateGate gate db).slice r =
      { db.slice r with gates := (db.slice r).gates.filter fun g => !(g.id == gate.id) } := by
  unfold Db.slice
  simp only [escalateGate_frame]
  rw [select_insert_otherJob rfl, Table.modify, Table.select_modifyWhere_leave]
  · rfl
  · intro g
    simp [ReviewGate.escalate, ReviewGate.isAwaitingFor]

/-! ## Ends of a run -/

theorem slice_succeedRun {run : PipelineRun} {stage : ContentStage} :
    (succeedRun run stage db).slice r =
      if r = run.id then
        { db.slice r with
          run := ((db.slice r).run.map (PipelineRun.finish .succeeded db.now).apply).map
            (PipelineRun.moveTo stage).apply }
      else db.slice r := by
  unfold Db.slice
  simp only [succeedRun_frame, Table.get?_modify]
  split
  · rename_i h
    simp [h]
  · rfl

theorem slice_failRun {run : PipelineRun} :
    (failRun run db).slice r =
      if r = run.id then
        { db.slice r with
          run := (db.slice r).run.map (PipelineRun.finish .failed db.now).apply
          reservations := [] }
      else db.slice r := by
  unfold Db.slice
  simp only [failRun_frame, Table.get?_modify]
  rw [select_releaseAll]
  split
  · rename_i h
    rw [h]
  · rfl

theorem slice_abandonStage {run : PipelineRun} {stage : ContentStage} :
    (abandonStage run stage db).slice r =
      { db.slice r with
        assignments := (db.slice r).assignments.filter fun a => !a.isLiveFor run.id stage
        reservations := if r = run.id then [] else (db.slice r).reservations } := by
  unfold Db.slice
  simp only [abandonStage_frame]
  rw [select_endAssignment fun _ => rfl, select_releaseAll]

/-- All live assignments of a run are cancelled, and nobody else's. -/
theorem select_cancelAll {assignments : Table StageAssignment} {q now : Nat} :
    (assignments.modifyWhere (·.isLiveOf q) (StageAssignment.cancel now)).select (·.isLiveOf r) =
      if r = q then [] else assignments.select (·.isLiveOf r) := by
  rw [select_endAssignment fun _ => rfl]
  split
  · rename_i h
    refine List.filter_eq_nil_iff.mpr fun a ha hq => ?_
    rw [← h, (Table.mem_select.mp ha).2] at hq
    cases hq
  · rename_i h
    refine List.filter_eq_self.mpr fun a ha => ?_
    have hlive := (Table.mem_select.mp ha).2
    simp only [StageAssignment.isLiveOf, Bool.and_eq_true, beq_iff_eq] at hlive
    have hother : a.isLiveOf q = false := by
      simp only [StageAssignment.isLiveOf, Bool.and_eq_false_iff, beq_eq_false_iff_ne]
      exact .inl fun hq => h (hlive.1.symm.trans hq)
    rw [hother]
    rfl

theorem slice_cancelRun {run : PipelineRun} :
    (cancelRun run db).slice r =
      if run.status.isTerminal = false ∧ r = run.id then
        { db.slice r with
          run := (db.slice r).run.map (PipelineRun.finish .cancelled db.now).apply
          assignments := []
          reservations := [] }
      else db.slice r := by
  unfold cancelRun
  cases hterm : run.status.isTerminal with
  | true => simp
  | false =>
    simp only [Bool.false_eq_true, if_false, true_and]
    unfold Db.slice
    simp only [emit_frame, releaseAllReservations_frame, releaseAllReservations_reservations,
      modifyRun_frame, Table.get?_modify]
    rw [select_cancelAll, select_releaseAll]
    split
    · rename_i h
      rw [h]
    · rfl

theorem slice_applyEnvironment {elapsed : Nat} {e : Option Environment} :
    (applyEnvironment elapsed e db).slice r = db.slice r :=
  slice_congr rfl rfl rfl rfl rfl

/-! ## The scheduler's own updates -/

theorem keepsActive_lease {now : Nat} : KeepsActive (JobSchedule.lease now) :=
  ⟨fun _ => rfl, fun _ => rfl, fun _ => rfl, fun _ => rfl⟩

theorem keepsActive_reap : KeepsActive JobSchedule.reap :=
  ⟨fun _ => rfl, fun _ => rfl, fun _ => rfl, fun _ => rfl⟩

theorem keepsActive_park {runAfter : Nat} : KeepsActive (JobSchedule.park runAfter) :=
  ⟨fun _ => rfl, fun _ => rfl, fun _ => rfl, fun _ => rfl⟩

theorem keepsActive_reschedule {runAfter : Nat} : KeepsActive (JobSchedule.reschedule runAfter) :=
  ⟨fun _ => rfl, fun _ => rfl, fun _ => rfl, fun _ => rfl⟩

/-- Polling leases due rows and touches nothing else. -/
theorem slice_pollAndLease {batchSize : Nat} {lockedJobs : List Nat} :
    (pollAndLease batchSize lockedJobs db).slice r =
      { db.slice r with
        jobs := (db.slice r).jobs.map fun j =>
          if isPolled batchSize lockedJobs db j then (JobSchedule.lease db.now).apply j
              else j } := by
  unfold Db.slice pollAndLease
  simp only
  rw [select_rewriteJobs keepsActive_lease]
  intro j _ hj
  simp only [isPolled, Bool.and_eq_true, JobSchedule.isDue, beq_iff_eq] at hj
  simp [JobSchedule.isActive, hj.2.1]

theorem slice_reapExpiredLeases {batchSize : Nat} {lockedJobs : List Nat} :
    (reapExpiredLeases batchSize lockedJobs db).slice r =
      { db.slice r with
        jobs := (db.slice r).jobs.map fun j =>
          if isReaped batchSize lockedJobs db j then JobSchedule.reap.apply j else j } := by
  unfold Db.slice reapExpiredLeases
  simp only
  rw [select_rewriteJobs keepsActive_reap]
  intro j _ hj
  simp only [isReaped, Bool.and_eq_true, JobSchedule.leaseExpired, beq_iff_eq] at hj
  simp [JobSchedule.isActive, hj.2.1]

end ContentOrchestrator

import ContentOrchestrator.Orchestration.RunInvariants

/-! # Back-pressure puts work off

A workspace at its concurrency limit sends a leased job back to the queue. However
long the pressure lasts, and whatever the scheduler does meanwhile for other runs, the
job keeps waiting and its run keeps its assignments and reservations, as long as no
pass is the last one the scheduler grants the job: the count of passes is bounded, and
the pass that reaches the bound gives the job up. -/

namespace ContentOrchestrator

open Lib

variable {s t : Db} {r : Nat}

/-- The stage job that the operation processes. -/
def processedStageJob (s : Db) (op : Op) : Option JobSchedule :=
  match op with
  | .processJob jobId _ _ => (s.jobs.get? jobId).filter fun j => j.status == .leased && j.isStageJob
  | _ => none

/-- The pass over this job ends in back-pressure. -/
def meetsPressure (s : Db) (op : Op) (jobId : Nat) : Bool :=
  (processedStageJob s op).any fun j => j.id == jobId && atConcurrencyLimit s j.workspaceId

/-- It is the last pass the scheduler grants this job. -/
def isLastPass (s : Db) (op : Op) (jobId : Nat) : Bool :=
  (processedStageJob s op).any fun j => j.id == jobId && j.atCeiling

/-- The scheduler is at work and time passes; this job meets nothing but back-pressure, and the
other jobs that are dispatched belong to other runs. -/
def underPressure (s : Db) (op : Op) (job : JobSchedule) : Bool :=
  match op with
  | .poll _ _ | .reapJobs _ _ | .change _ _ => true
  | .processJob _ _ _ =>
    (processedStageJob s op).any (fun j => j.refId != job.refId) || meetsPressure s op job.id
  | _ => false

theorem processedStageJob_some {op : Op} {j : JobSchedule} (h : processedStageJob s op = some j) :
    (∃ lockedWorkers jitter, op = .processJob j.id lockedWorkers jitter) ∧
    s.jobs.get? j.id = some j ∧
      j.status = .leased ∧ j.isStageJob = true := by
  cases op with
  | processJob jobId lockedWorkers jitter =>
    simp only [processedStageJob, Option.filter_eq_some_iff, Bool.and_eq_true, beq_iff_eq] at h
    obtain ⟨hget, hleased, hkind⟩ := h
    obtain ⟨_, rfl⟩ := Table.get?_eq_some.mp hget
    exact ⟨⟨lockedWorkers, jitter, rfl⟩, hget, hleased, hkind⟩
  | _ => cases h

/-! ## One pass -/

/-- A pass that meets the limit and is not the last puts the job back, and does nothing else. -/
theorem step_backpressure {job : JobSchedule} {runId : Nat} (lockedWorkers : List Nat)
    (jitter : Nat) (found : s.jobs.get? job.id = some job) (leased : job.status = .leased)
    (kind : job.isStageJob = true) (ref : job.runId? = some runId)
    (limit : atConcurrencyLimit s job.workspaceId = true) (below : job.atCeiling = false) :
    ∃ delay, step s (.processJob job.id lockedWorkers jitter) =
      modifyJob job.id (JobSchedule.reschedule (s.now + delay)) s := by
  have hdispatch : Returns (dispatchStage (job.request runId lockedWorkers)) s ⟨.backpressure,
      none⟩ s := by
    unfold dispatchStage
    have hlimit : atConcurrencyLimit s (job.request runId lockedWorkers).workspaceId = true := limit
    simp [hlimit]
  have hbody : Returns (do
      let runId ← require job.runId? (.integrityError "stage_assignments_pipeline_run_id_fkey")
      let result ← dispatchStage (job.request runId lockedWorkers)
      settleStageJob job result jitter) s ()
        (modifyJob job.id (JobSchedule.reschedule (s.now + computeBackoff (job.attempt + 1)
          noWorkerRetryBaseSeconds 2 noWorkerRetryMaxSeconds jitter)) s) := by
    simp only [returns_bind, returns_require]
    refine ⟨runId, s, ⟨ref, rfl⟩, _, s, hdispatch, ?_⟩
    simp [settleStageJob, rescheduleJob, below]
  have hpass : Returns (processLeasedJob job lockedWorkers jitter) s ()
      (modifyJob job.id (JobSchedule.reschedule (s.now + computeBackoff (job.attempt + 1)
        noWorkerRetryBaseSeconds 2 noWorkerRetryMaxSeconds jitter)) s) := by
    unfold processLeasedJob
    simp only [JobSchedule.isStageJob, Bool.or_eq_true, beq_iff_eq] at kind
    rcases kind with hkind | hkind <;> simpa only [hkind] using hbody
  have hjob : Returns (processJob job.id lockedWorkers jitter) s ()
      (modifyJob job.id (JobSchedule.reschedule (s.now + computeBackoff (job.attempt + 1)
        noWorkerRetryBaseSeconds 2 noWorkerRetryMaxSeconds jitter)) s) := by
    unfold processJob
    simp only [returns_bind, returns_get, returns_require]
    refine ⟨s, s, ⟨rfl, rfl⟩, job, s, ⟨found, rfl⟩, ?_⟩
    simpa [leased] using hpass
  exact ⟨_, hjob.atomically⟩

theorem meetsPressure_some {op : Op} {jobId : Nat} (h : meetsPressure s op jobId = true) :
    ∃ row lockedWorkers jitter, op = .processJob jobId lockedWorkers jitter ∧ row.id = jobId ∧
      s.jobs.get? jobId = some row ∧ row.status = .leased ∧ row.isStageJob = true ∧
      atConcurrencyLimit s row.workspaceId = true ∧ isLastPass s op jobId = row.atCeiling := by
  simp only [meetsPressure, Option.any_eq_true, Bool.and_eq_true, beq_iff_eq] at h
  obtain ⟨row, hrow, rfl, hlimit⟩ := h
  obtain ⟨⟨lockedWorkers, jitter, hop⟩, hget, hleased, hkind⟩ := processedStageJob_some hrow
  refine ⟨row, lockedWorkers, jitter, hop, rfl, hget, hleased, hkind, hlimit, ?_⟩
  rw [isLastPass, hrow]
  simp

/-- The last pass leaves the job cancelled, or leased when the pass itself fails. -/
theorem step_lastPass {op : Op} {jobId : Nat} (hpass : meetsPressure s op jobId = true)
    (hlast : isLastPass s op jobId = true) :
    ∀ j ∈ (step s op).jobs, j.id = jobId → j.status ≠ .pending := by
  obtain ⟨row, lockedWorkers, jitter, rfl, rfl, hget, hleased, hkind, hlimit, hceiling⟩ :=
    meetsPressure_some hpass
  rw [hlast] at hceiling
  intro j hj hid
  rcases step_cases s (.processJob row.id lockedWorkers jitter) with heq | heffect
  · rw [heq] at hj
    have hsame : s.jobs.get? row.id = some j := Table.get?_eq_some.mpr ⟨hj, hid⟩
    rw [hget] at hsame
    cases hsame
    rw [hleased]
    simp
  · generalize step s (.processJob row.id lockedWorkers jitter) = t at heffect hj
    cases heffect with
    | processed found leased done =>
      rw [hget] at found
      cases found
      have hjobs : t.jobs = s.jobs.modify row.id JobSchedule.exhaust := by
        cases done with
        | exhausted _ _ _ exhausted =>
          cases exhausted with
          | alone _ routed => simp [routed]
          | withRun _ _ routed => simp [routed]
        | rescheduled _ _ below => rw [← hceiling] at below; cases below
        | stageTimedOut kind => simp [JobSchedule.isStageJob, kind] at hkind
        | reviewTimedOut kind _ => simp [JobSchedule.isStageJob, kind] at hkind
        | finished kind => rw [hkind] at kind; cases kind
        | parked _ _ room _ _ | retired _ _ room _ _ | repeated _ _ room _ _ | held _ _ room _ _ _ _
        | assigned _ _ room _ _ _ _ | waiting _ _ room _ _ _ _ => rw [hlimit] at room; cases room
      rw [hjobs] at hj
      obtain ⟨i, _, rfl⟩ := Table.mem_modify.mp hj
      split
      · intro h
        cases h
      · rename_i hne
        rw [if_neg hne] at hid
        exact absurd hid hne

/-! ## While the pressure lasts -/

/-- What the job and its run keep. -/
structure KeepsWaiting (job : JobSchedule) (s t : Db) : Prop where
  /-- The job is neither cancelled nor done, and due no earlier than before. -/
  active : ∃ j ∈ t.jobs, j.id = job.id ∧ j.jobType = job.jobType ∧ j.refId = job.refId ∧
    j.isActive = true ∧ job.runAfter ≤ j.runAfter
  letters : ∀ e ∈ t.deadLetters, e.relatedId = .job job.id → e ∈ s.deadLetters
  assignments : ∀ a ∈ s.assignments, .run a.pipelineRunId = job.refId → a.status.isLive = true →
    a ∈ t.assignments
  reservations : ∀ v ∈ s.reservations, .run v.pipelineRunId = job.refId → v.status = .reserved →
    v ∈ t.reservations

namespace KeepsWaiting

variable {u : Db} {job row : JobSchedule}

theorem refl (hmem : job ∈ s.jobs) (hactive : job.isActive = true) : KeepsWaiting job s s where
  active := ⟨job, hmem, rfl, rfl, rfl, hactive, le_rfl⟩
  letters _ he _ := he
  assignments _ ha _ _ := ha
  reservations _ hv _ _ := hv

/-- The row as it stands now keeps waiting, so the row as it stood then does. -/
theorem trans (h : KeepsWaiting job s t) (hid : row.id = job.id) (hkind : row.jobType = job.jobType)
    (href : row.refId = job.refId) (hdue : job.runAfter ≤ row.runAfter)
    (h' : KeepsWaiting row t u) :
    KeepsWaiting job s u := by
  refine ⟨?_, fun e he hrel => ?_, fun a ha hr hlive => ?_, fun v hv hr hopen => ?_⟩
  · obtain ⟨j, hj, hid', hkind', href', hactive, hdue'⟩ := h'.active
    exact ⟨j, hj, hid'.trans hid, hkind'.trans hkind, href'.trans href, hactive, hdue.trans hdue'⟩
  · exact h.letters e (h'.letters e he (by rw [hrel, hid])) hrel
  · exact h'.assignments a (h.assignments a ha hr hlive) (by rw [hr, href]) hlive
  · exact h'.reservations v (h.reservations v hv hr hopen) (by rw [hr, href]) hopen

end KeepsWaiting

/-- Dispatching a stage job dead-letters nothing but that job. -/
theorem Processed.letters {row : JobSchedule} {lockedWorkers : List Nat}
    (h : Processed row lockedWorkers s t) (hkind : row.isStageJob = true) :
    ∀ e ∈ t.deadLetters, e ∈ s.deadLetters ∨ e.relatedId = .job row.id := by
  intro e he
  cases h with
  | parked _ _ _ _ _ => exact .inl he
  | retired _ _ _ _ _ => exact .inl he
  | repeated _ _ _ _ _ => exact .inl he
  | held _ _ _ _ _ _ _ =>
    simp only [modifyJob, pauseForSpend, emit_frame, releaseStageReservations,
      releaseEach_deadLetters] at he
    exact .inl he
  | assigned _ _ _ _ _ _ _ =>
    simp only [modifyJob, createAssignment, emit_frame, openReservation,
      releaseStageReservations, releaseEach_deadLetters] at he
    exact .inl he
  | waiting _ _ _ _ _ _ _ =>
    simp only [modifyJob, createAssignment, emit_frame] at he
    exact .inl he
  | rescheduled _ _ _ => exact .inl he
  | exhausted _ _ _ exhausted =>
    cases exhausted with
    | alone _ routed =>
      rw [routed] at he
      rcases Table.mem_insert.mp he with he | rfl
      · exact .inl he
      · exact .inr rfl
    | withRun _ _ routed =>
      rw [routed] at he
      simp only [routeToDeadLetter, abandonStage, releaseAllReservations,
        releaseEach_deadLetters] at he
      rcases Table.mem_insert.mp he with he | rfl
      · exact .inl he
      · exact .inr rfl
  | stageTimedOut kind => simp [JobSchedule.isStageJob, kind] at hkind
  | reviewTimedOut kind _ => simp [JobSchedule.isStageJob, kind] at hkind
  | finished kind => rw [hkind] at kind; cases kind

/-- A row that the operation does not settle stays as it waits. -/
theorem JobMove.waits {op : Op} {j j' : JobSchedule} (h : JobMove op s j j')
    (hactive : j.isActive = true)
    (hspare : ∀ lockedWorkers jitter, op ≠ .processJob j.id lockedWorkers jitter) :
    j'.isActive = true ∧ j'.runAfter = j.runAfter := by
  cases h with
  | kept => exact ⟨hactive, rfl⟩
  | leased _ => exact ⟨rfl, rfl⟩
  | reaped _ _ => exact ⟨rfl, rfl⟩
  | settled processed _ _ => exact absurd processed (hspare _ _)

/-- **One step under pressure**: the job keeps waiting, unless this is its last pass. -/
theorem step_keepsWaiting {op : Op} {job : JobSchedule} (hs : s.Sound) (hmem : job ∈ s.jobs)
    (hkind : job.isStageJob = true) (href : job.refId = .run r) (hactive : job.isActive = true)
    (hpressed : underPressure s op job = true) (hlast : isLastPass s op job.id = false) :
    KeepsWaiting job s (step s op) := by
  have hget : s.jobs.get? job.id = some job := Table.get?_of_mem hmem
  have hrun : job.runId? = some r := by rw [JobSchedule.runId?, href]
  by_cases hmeets : meetsPressure s op job.id = true
  · obtain ⟨row, lockedWorkers, jitter, rfl, -, hrow, hleased, -, hlimit, hceiling⟩ :=
      meetsPressure_some hmeets
    rw [hget] at hrow
    cases hrow
    rw [hlast] at hceiling
    obtain ⟨delay, hstep⟩ := step_backpressure lockedWorkers jitter hget hleased hkind hrun hlimit
      hceiling.symm
    rw [hstep]
    refine ⟨⟨(JobSchedule.reschedule (s.now + delay)).apply job, ?_, rfl, rfl, rfl, rfl, ?_⟩,
      fun _ he _ => he, fun _ ha _ _ => ha, fun _ hv _ _ => hv⟩
    · exact Table.mem_modify.mpr ⟨job, hmem, if_pos rfl⟩
    · exact (hs.due job hmem hleased).trans (Nat.le_add_right _ _)
  · -- the job itself is not processed
    have hspare : ∀ lockedWorkers jitter, op ≠ .processJob job.id lockedWorkers jitter := by
      rintro lockedWorkers jitter rfl
      simp only [underPressure, hmeets, Bool.or_false, Option.any_eq_true, bne_iff_ne] at hpressed
      obtain ⟨row, hrow, hne⟩ := hpressed
      obtain ⟨⟨_, _, hop⟩, hfound, _, _⟩ := processedStageJob_some hrow
      injection hop with hid _ _
      rw [← hid, hget] at hfound
      exact hne (congrArg JobSchedule.refId (Option.some.inj hfound)).symm
    rcases step_cases s op with heq | heffect
    · rw [heq]
      exact .refl hmem hactive
    · obtain ⟨j, hj, hmoved⟩ := (heffect.tables hs.jobs hs.keyed).old job hmem
      obtain ⟨hid, htype, hrefId, -⟩ := hmoved.identity
      obtain ⟨hkept, hdue⟩ := hmoved.waits hactive hspare
      have hactive' : ∃ j ∈ (step s op).jobs, j.id = job.id ∧ j.jobType = job.jobType ∧
          j.refId = job.refId ∧ j.isActive = true ∧ job.runAfter ≤ j.runAfter :=
        ⟨j, hj, hid, htype, hrefId, hkept, hdue.ge⟩
      generalize step s op = t at heffect hactive'
      cases heffect with
      | polled => exact ⟨hactive', fun _ he _ => he, fun _ ha _ _ => ha, fun _ hv _ _ => hv⟩
      | reaped => exact ⟨hactive', fun _ he _ => he, fun _ ha _ _ => ha, fun _ hv _ _ => hv⟩
      | changed => exact ⟨hactive', fun _ he _ => he, fun _ ha _ _ => ha, fun _ hv _ _ => hv⟩
      | @processed _ _ jobId jitter lockedWorkers row found leased done =>
        obtain ⟨hrow, rfl⟩ := Table.get?_eq_some.mp found
        have hother : row.isStageJob = true ∧ row.refId ≠ .run r := by
          simp only [underPressure, hmeets, Bool.or_false, Option.any_eq_true, bne_iff_ne,
            href] at hpressed
          obtain ⟨same, hsame, hne⟩ := hpressed
          obtain ⟨⟨_, _, hop⟩, hfound, _, hstage⟩ := processedStageJob_some hsame
          injection hop with hid _ _
          rw [← hid, found] at hfound
          cases hfound
          exact ⟨hstage, hne⟩
        obtain ⟨hstage, hne⟩ := hother
        have hslice : t.slice r = s.slice r := by
          refine done.other hrow leased hs ?_ fun hno => ?_
          · simp [JobSchedule.isActiveFor, hne]
          · rw [hstage] at hno
            cases hno
        refine ⟨hactive', fun e he hrel => ?_, fun a ha hr hlive => ?_, fun v hv hr hopen => ?_⟩
        · rcases done.letters hstage e he with hold | hnew
          · exact hold
          · rw [hnew] at hrel
            exact absurd (congrArg (Op.processJob · lockedWorkers jitter) (Ref.job.inj hrel))
              (hspare _ _)
        · rw [href] at hr
          have hin : a ∈ (s.slice r).assignments :=
            mem_slice_assignments.mpr
              ⟨ha, by simp [StageAssignment.isLiveOf, Ref.run.inj hr, hlive]⟩
          rw [← hslice] at hin
          exact (mem_slice_assignments.mp hin).1
        · rw [href] at hr
          have hin : v ∈ (s.slice r).reservations :=
            mem_slice_reservations.mpr
              ⟨hv, by simp [SpendReservation.isOpenOf, Ref.run.inj hr, hopen]⟩
          rw [← hslice] at hin
          exact (mem_slice_reservations.mp hin).1
      | _ => cases hpressed

/-! ## For as long as it lasts -/

/-- The job is pending again, and due no earlier than it was. -/
def BackInQueue (job : JobSchedule) (s t : Db) : Prop :=
  ∀ i ∈ s.jobs, i.id = job.id →
    ∃ j ∈ t.jobs, j.id = job.id ∧ j.status = .pending ∧ i.runAfter ≤ j.runAfter

/-- **Back-pressure never drops work**, passes at the ceiling apart: through any number of
back-pressure outcomes that are not the last the scheduler grants, the job keeps waiting, its run
keeps its assignments and reservations, and one more such outcome puts the job back into the queue
exactly if it is not the last either. -/
theorem backpressure_keeps_work {db : Db} {job : JobSchedule} (hfresh : db.Fresh)
    (before : Reach Steps (fun _ _ => True) db s) (hmem : job ∈ s.jobs)
    (hkind : job.isStageJob = true) (href : job.refId = .run r) (hactive : job.isActive = true)
    (after : Reach Steps (fun u op => underPressure u op job = true ∧
    isLastPass u op job.id = false) s t) :
    KeepsWaiting job s t ∧ ∀ op, meetsPressure t op job.id = true →
      ((KeepsWaiting job s (step t op) ∧ BackInQueue job t (step t op)) ↔
        isLastPass t op job.id = false) := by
  have hs : s.Sound := history_sound hfresh.sound before
  -- the row as it stands now takes the place of the row as it stood
  have hstep : ∀ u op, u.Sound → KeepsWaiting job s u → underPressure u op job = true →
      isLastPass u op job.id = false → KeepsWaiting job s (step u op) := by
    intro u op hu hkeeps hpressed hlast
    obtain ⟨row, hrow, hid, htype, hrefId, hrowActive, hdue⟩ := hkeeps.active
    have hrowKind : row.isStageJob = true := by
      rw [JobSchedule.isStageJob, htype]
      exact hkind
    have hrowPressed : underPressure u op row = true := by
      unfold underPressure
      rw [hrefId, hid]
      exact hpressed
    have hrowLast : isLastPass u op row.id = false := by
      rw [hid]
      exact hlast
    exact hkeeps.trans hid htype hrefId hdue
      (step_keepsWaiting hu hrow hrowKind (hrefId.trans href) hrowActive hrowPressed hrowLast)
  have hinv : t.Sound ∧ KeepsWaiting job s t := by
    refine after.invariant (P := fun u => u.Sound ∧ KeepsWaiting job s u) ⟨hs,
      .refl hmem hactive⟩ ?_
    rintro u op v ⟨hu, hkeeps⟩ ⟨hpressed, hlast⟩ rfl
    exact ⟨step_sound u op hu, hstep u op hu hkeeps hpressed hlast⟩
  obtain ⟨ht, hkeeps⟩ := hinv
  refine ⟨hkeeps, fun op hmeets => ⟨fun hlast => ?_, fun hlast => ⟨?_, fun i hi hid => ?_⟩⟩⟩
  · have hback := hlast.2
    rw [← Bool.not_eq_true]
    intro hlast
    obtain ⟨row, hrow, hid, _⟩ := hkeeps.active
    obtain ⟨j, hj, hjid, hpending, _⟩ := hback row hrow hid
    exact step_lastPass hmeets hlast j hj hjid hpending
  · obtain ⟨_, _, _, hop, _⟩ := meetsPressure_some hmeets
    have hpressed : underPressure t op job = true := by
      rw [hop] at hmeets ⊢
      simp [underPressure, hmeets]
    exact hstep t op ht hkeeps hpressed hlast
  · obtain ⟨row, lockedWorkers, jitter, rfl, hrowId, hget, hleased, hrowKind, hlimit, hceiling⟩ :=
      meetsPressure_some hmeets
    obtain ⟨same, hsame, hsameId, _, hsameRef, _⟩ := hkeeps.active
    have hrow : row = same := Option.some.inj
        (hget.symm.trans (Table.get?_eq_some.mpr ⟨hsame, hsameId⟩))
    have hi' : row = i := Option.some.inj (hget.symm.trans (Table.get?_eq_some.mpr ⟨hi, hid⟩))
    rw [hlast] at hceiling
    rw [← hrowId] at hget ⊢
    obtain ⟨delay, hstep'⟩ := step_backpressure lockedWorkers jitter hget hleased hrowKind
      (by rw [JobSchedule.runId?, hrow, hsameRef, href]) hlimit hceiling.symm
    rw [hstep']
    refine ⟨(JobSchedule.reschedule (t.now + delay)).apply row, ?_, rfl, rfl, ?_⟩
    · exact Table.mem_modify.mpr ⟨row, (Table.get?_eq_some.mp hget).1, if_pos rfl⟩
    · rw [← hi']
      exact (ht.due row (Table.get?_eq_some.mp hget).1 hleased).trans (Nat.le_add_right _ _)

theorem backpressure_keeps_work_twice :
    ∃ job ∈ (replay step narrowDb occupiedHistory).jobs, job.id = 1 ∧
      KeepsWaiting job (replay step narrowDb occupiedHistory)
        (replay step (replay step narrowDb occupiedHistory) (limitedPasses 2)) := by
  have hbefore : admits step (fun _ _ => true) narrowDb occupiedHistory = true := by decide +kernel
  have hafter : ∃ job ∈ (replay step narrowDb occupiedHistory).jobs, job.id = 1 ∧
      job.isStageJob = true ∧ job.refId = .run 1 ∧ job.isActive = true ∧
      admits step (fun u op => underPressure u op job && !isLastPass u op job.id)
        (replay step narrowDb occupiedHistory) (limitedPasses 2) = true := by decide +kernel
  obtain ⟨job, hmem, hid, hkind, href, hactive, hadmits⟩ := hafter
  have hkeeps := backpressure_keeps_work narrowDb_fresh
    ((reach_replay occupiedHistory narrowDb hbefore).mono fun _ _ _ => trivial) hmem hkind href
      hactive
    ((reach_replay (limitedPasses 2) _ hadmits).mono fun u op h => by simpa using h)
  exact ⟨job, hmem, hid, hkeeps.1⟩

/-- The twentieth outcome cancels the job. -/
theorem backpressure_drops_work :
    ¬ ∀ (db s t : Db) (r : Nat) (job : JobSchedule), db.Fresh →
        Reach Steps (fun _ _ => True) db s → job ∈ s.jobs → job.isStageJob = true →
        job.refId = .run r → job.isActive = true →
        Reach Steps (fun u op => underPressure u op job = true) s t → KeepsWaiting job s t := by
  intro h
  have hbefore : admits step (fun _ _ => true) narrowDb occupiedHistory = true := by decide +kernel
  have hafter : ∃ job ∈ (replay step narrowDb occupiedHistory).jobs, job.id = 1 ∧
      job.isStageJob = true ∧ job.refId = .run 1 ∧ job.isActive = true ∧
      admits step (fun u op => underPressure u op job)
        (replay step narrowDb occupiedHistory) (limitedPasses 20) = true := by decide +kernel
  obtain ⟨job, hmem, hid, hkind, href, hactive, hadmits⟩ := hafter
  have hkeeps := h _ _ _ 1 job narrowDb_fresh
    ((reach_replay occupiedHistory narrowDb hbefore).mono fun _ _ _ => trivial) hmem hkind href
      hactive
    (reach_replay (limitedPasses 20) _ hadmits)
  obtain ⟨j, hj, hjid, _, _, hjactive, _⟩ := hkeeps.active
  have hcancelled : ∀ j ∈
      (replay step (replay step narrowDb occupiedHistory) (limitedPasses 20)).jobs,
      j.id = 1 → j.status = .cancelled := by decide +kernel
  have hstatus := hcancelled j hj (hjid.trans hid)
  rw [JobSchedule.isActive, hstatus] at hjactive
  cases hjactive

end ContentOrchestrator

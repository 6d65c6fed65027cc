import ContentOrchestrator.Orchestration.RowMoves

/-! # What an operation leaves to a run it does not work on

Dead letters and reservations are written for the run an operation works on. A run
without a leased job and without an assignment keeps its settled reservations as they
are and gets no letter, whatever the operation does to others. -/

namespace ContentOrchestrator

open Lib

variable {s t u : Db} {r : Nat}

/-- Every reservation of the run is committed or released. -/
def Db.SpendSettled (db : Db) (runId : Nat) : Prop :=
  ∀ v ∈ db.reservations, v.pipelineRunId = runId → v.status ≠ .reserved

def SpendReservation.isOf (runId : Nat) (v : SpendReservation) : Bool := v.pipelineRunId == runId

/-- No letter about the run is added, and its settled reservations stay. -/
structure Spares (r : Nat) (s t : Db) : Prop where
  letters : ∀ e ∈ t.deadLetters, e.relatedId = .run r → ∃ e₀ ∈ s.deadLetters, e₀.relatedId = .run r
  reservations : s.SpendSettled r →
    t.reservations.select (·.isOf r) = s.reservations.select (·.isOf r)

namespace Spares

theorem of_eq (hletters : t.deadLetters = s.deadLetters)
    (hreservations : t.reservations = s.reservations) :
    Spares r s t where
  letters e he href := ⟨e, hletters ▸ he, href⟩
  reservations _ := by rw [hreservations]

theorem refl (s : Db) : Spares r s s := .of_eq rfl rfl

theorem spendSettled (h : Spares r s t) (hs : s.SpendSettled r) : t.SpendSettled r := by
  intro v hv hown
  have hin : v ∈ t.reservations.select (·.isOf r) :=
    Table.mem_select.mpr ⟨hv, by simp [SpendReservation.isOf, hown]⟩
  rw [h.reservations hs] at hin
  exact hs v (Table.mem_select.mp hin).1 hown

theorem trans (h : Spares r s t) (h' : Spares r t u) : Spares r s u where
  letters e he href := by
    obtain ⟨e₁, he₁, href₁⟩ := h'.letters e he href
    exact h.letters e₁ he₁ href₁
  reservations hs := (h'.reservations (h.spendSettled hs)).trans (h.reservations hs)

/-- What comes before concerns other tables. -/
theorem after (h : Spares r t u) (hletters : t.deadLetters = s.deadLetters)
    (hreservations : t.reservations = s.reservations) : Spares r s u :=
  Spares.trans (.of_eq hletters hreservations) h

theorem modifyJob {jobId : Nat} {v : Update JobSchedule} : Spares r s (modifyJob jobId v s) :=
  .of_eq rfl rfl

theorem modifyRun {runId : Nat} {v : Update PipelineRun} : Spares r s (modifyRun runId v s) :=
  .of_eq rfl rfl

theorem emitForRun {eventType : String} {run : PipelineRun} :
    Spares r s (emitForRun eventType run s) :=
  .of_eq rfl rfl

theorem createAssignment {q : DispatchRequest} {stage : ContentStage}
    {worker : Option WorkerRegistration} {priority : Int} :
    Spares r s (createAssignment q stage worker priority s) := .of_eq rfl rfl

theorem grantAssignment {a : StageAssignment} {workerId : Nat} {claimToken : Option Nat} :
    Spares r s (grantAssignment a workerId claimToken s) := .of_eq rfl rfl

/-- Only open reservations are rewritten. -/
theorem settle {q : SpendReservation → Bool} {v : Update SpendReservation}
    (hopen : ∀ w ∈ s.reservations, q w = true → w.status = .reserved)
    (hown : ∀ w, (v.apply w).pipelineRunId = w.pipelineRunId)
    (hletters : t.deadLetters = s.deadLetters)
    (hreservations : t.reservations = s.reservations.modifyWhere q v) : Spares r s t where
  letters e he href := ⟨e, hletters ▸ he, href⟩
  reservations hs := by
    rw [hreservations]
    refine Table.select_modifyWhere_of_not fun w hw hq => ?_
    have hother : w.isOf r = false := by
      simp only [SpendReservation.isOf, beq_eq_false_iff_ne]
      exact fun hr => hs w hw hr (hopen w hw hq)
    exact ⟨hother, by rw [SpendReservation.isOf, hown]; exact hother⟩

theorem releaseAll {run : PipelineRun} : Spares r s (releaseAllReservations run s) := by
  refine .settle (q := (·.isOpenOf run.id)) (v := SpendReservation.release) (fun w _ hopen => ?_)
    (fun _ => rfl) (by simp [releaseAllReservations]) (by simp)
  simp only [SpendReservation.isOpenOf, Bool.and_eq_true, beq_iff_eq] at hopen
  exact hopen.2

theorem releaseStage {run : PipelineRun} {stage : ContentStage} :
    Spares r s (releaseStageReservations run stage s) :=
  .settle (q := (·.isOpenFor run.id stage)) (v := SpendReservation.release)
    (fun _ _ hopen => status_of_isOpenFor hopen) (fun _ => rfl) (by simp [releaseStageReservations])
      (by simp)

/-- The open reservation a query found is settled. -/
theorem settleOne {v : Update SpendReservation} {w : SpendReservation} {runId : Nat}
    {stage : ContentStage} (hw : w ∈ s.reservations ∧ w.isOpenFor runId stage = true)
    (hown : ∀ w, (v.apply w).pipelineRunId = w.pipelineRunId)
    (hletters : t.deadLetters = s.deadLetters)
    (hreservations : t.reservations = s.reservations.modify w.id v) : Spares r s t := by
  refine .settle (q := fun a => Keyed.key a == w.id) (v := v) (fun a ha hkey => ?_) hown hletters
    hreservations
  have hid : Keyed.key a = w.id := by simpa using hkey
  have hsame : a = w := Table.eq_of_key ha hw.1 hid
  exact hsame ▸ status_of_isOpenFor hw.2

theorem commitReservation {run : PipelineRun} {w : SpendReservation} {runId cost : Nat}
    {stage : ContentStage} (hw : w ∈ s.reservations ∧ w.isOpenFor runId stage = true) :
    Spares r s (commitReservation run w cost s) :=
  .settleOne (v := SpendReservation.commit) hw (fun _ => rfl) rfl (by simp)

theorem releaseSpend {run : PipelineRun} {w : SpendReservation} {runId : Nat} {stage : ContentStage}
    (hw : w ∈ s.reservations ∧ w.isOpenFor runId stage = true) :
    Spares r s (releaseSpend run w s) := by
  have hopen := status_of_isOpenFor hw.2
  refine .settleOne (v := SpendReservation.release) hw (fun _ => rfl) ?_
    (releaseSpend_reservations hopen)
  simp only [ContentOrchestrator.releaseSpend, hopen, ne_eq, not_true_eq_false, if_false]
  rfl

theorem openReservation {run : PipelineRun} {stage : ContentStage} {provider : String}
    {estimate : Nat} (hne : run.id ≠ r) :
    Spares r s (openReservation run stage provider estimate s) where
  letters e he href := ⟨e, he, href⟩
  reservations _ := by
    simp only [openReservation_frame]
    refine Table.select_insert_of_not ?_
    simpa [newReservation, SpendReservation.isOf] using hne

theorem pauseForSpend {run : PipelineRun} : Spares r s (pauseForSpend run s) := .of_eq rfl (by simp)

theorem failRun {run : PipelineRun} : Spares r s (failRun run s) := Spares.releaseAll.after rfl rfl

theorem abandonStage {run : PipelineRun} {stage : ContentStage} :
    Spares r s (abandonStage run stage s) := by
  have hreleased : Spares r s (releaseAllReservations run s) := .releaseAll
  exact ⟨hreleased.letters, hreleased.reservations⟩

/-- A letter about something else. -/
theorem route {workspaceId attempts : Nat} {table jobType reason : String} {ref : Ref}
    (href : ref ≠ .run r) :
    Spares r s (routeToDeadLetter workspaceId table ref jobType reason attempts s) where
  letters e he hrun := by
    rcases Table.mem_insert.mp he with he | rfl
    · exact ⟨e, he, hrun⟩
    · exact absurd hrun href
  reservations _ := rfl

theorem enqueueCompensations {run : PipelineRun} {stages : List ContentStage} :
    Spares r s (enqueueCompensations run stages s) := by
  induction stages generalizing s with
  | nil => exact .refl s
  | cons stage rest ih =>
    have hrest : Spares r (enqueueCompensation run stage s)
        (ContentOrchestrator.enqueueCompensations run rest (enqueueCompensation run stage s)) := ih
    exact hrest.after rfl rfl

end Spares

theorem SameWork.sparesRun (h : SameWork s t) : Spares r s t where
  letters e he href := h.letters e he r href
  reservations _ := by rw [h.reservations]

/-! ## The operations -/

theorem Advanced.sparesRun {run : PipelineRun} {stage : ContentStage}
    {trigger : WorkflowTransitionTrigger} {context : List (String × Json)}
    {stored : Table ReviewGate} (h : Advanced run stage trigger context stored s t) :
    Spares r s t := by
  cases h with
  | finished _ _ => exact .of_eq rfl rfl
  | queued _ _ => exact .of_eq rfl rfl
  | gated _ _ _ _ => exact .of_eq rfl rfl
  | kept _ _ _ _ => exact .of_eq rfl rfl

theorem FailureHandled.sparesRun {run : PipelineRun} {stage : ContentStage} {attempt : Nat}
    {message : String} (h : FailureHandled run stage attempt message s t) (hne : run.id ≠ r) :
    Spares r s t := by
  have hfail : Spares r s (failStage run stage attempt message s) := by
    have hroute : ∀ {m : Db}, Spares r m (routeToDeadLetter run.workspaceId "pipeline_runs"
        (.run run.id) ("stage:" ++ stage.formatted) message attempt m) := .route fun href =>
          hne (by cases href; rfl)
    have hletter := hroute (m := emitForRun EventType.stageFailed run s)
    exact (hletter.trans .failRun).after rfl rfl
  cases h with
  | retried _ _ _ _ => exact .of_eq rfl rfl
  | failed => exact hfail
  | compensated =>
    have hbegin : Spares r s (modifyRun run.id (PipelineRun.setStatus .compensating)
        (failStage run stage attempt message s)) := hfail.trans .modifyRun
    exact (hbegin.trans .enqueueCompensations).trans .modifyRun

theorem Submitted.sparesRun {a : StageAssignment} {result : Option (List (String × Json))}
    {success : Bool} {message : String} (h : Submitted a result message s success t)
    (hne : a.pipelineRunId ≠ r) :
    Spares r s t := by
  cases h with
  | orphaned _ => exact .of_eq rfl rfl
  | @succeeded run s1 _ _ _ settled advanced =>
    have hsettled : Spares r s s1 := by
      have hclosed : Spares r s (recordSuccess a result s) := .of_eq rfl rfl
      rcases settled with ⟨_, rfl⟩ | ⟨w, cost, hw, rfl⟩
      · exact hclosed
      · exact hclosed.trans (.commitReservation (newestOpenReservation_isOpen hw))
    rcases advanced with ⟨_, rfl⟩ | ⟨_, ha⟩
    · exact hsettled
    · exact hsettled.trans ha.sparesRun
  | @failed run s1 _ found _ settled handled =>
    have hid : run.id = a.pipelineRunId := (Table.get?_eq_some.mp found).2
    have hsettled : Spares r s s1 := by
      have hclosed : Spares r s (recordFailedAttempt a result s) := .of_eq rfl rfl
      rcases settled with ⟨_, rfl⟩ | ⟨w, hw, rfl⟩
      · exact hclosed
      · exact hclosed.trans (.releaseSpend (newestOpenReservation_isOpen hw))
    exact hsettled.trans (handled.sparesRun (hid ▸ hne))

theorem Recovered.sparesRun {a : StageAssignment} {reason : RecoveryReason}
    (h : Recovered a reason s t) :
    Spares r s t := by
  have hslot : Spares r s (releaseWorkerSlot a.workerId s) := by
    unfold releaseWorkerSlot
    split <;> exact .of_eq rfl rfl
  cases h with
  | skipped _ => exact .refl s
  | requeued _ _ _ =>
    refine hslot.trans ?_
    unfold requeueAssignment
    cases (releaseWorkerSlot a.workerId s).runs.get? a.pipelineRunId with
    | none => exact .of_eq rfl rfl
    | some run =>
      have hreleased : Spares r (releaseWorkerSlot a.workerId s)
          (releaseStageReservations run a.stage (releaseWorkerSlot a.workerId s)) := .releaseStage
      exact ⟨hreleased.letters, hreleased.reservations⟩
  | exhausted _ _ =>
    refine hslot.trans ?_
    have hfailed : ∀ {m : Db} {name reason : String} {attempts : Nat} {u : Update StageAssignment},
        Spares r m (routeToDeadLetter a.workspaceId "stage_assignments" (.assignment a.id) name
          reason attempts { m with assignments := m.assignments.modify a.id u }) :=
      (Spares.route fun href => by cases href).after rfl rfl
    unfold deadLetterAssignment
    dsimp only
    split
    · split
      · exact hfailed
      · exact hfailed.trans .failRun
    · exact hfailed

theorem Claimed.sparesRun {workerId : Nat} {claimToken : Option Nat} {locked : List Nat}
    (h : Claimed workerId claimToken locked s t)
    (hassigned : ∀ a ∈ s.assignments, a.pipelineRunId ≠ r) :
    Spares r s t := by
  cases h with
  | idle => exact .refl s
  | chosen _ _ _ _ _ mem _ settled =>
    cases settled with
    | held _ _ => exact Spares.trans .releaseStage .pauseForSpend
    | @reserved run _ _ found _ =>
      have hid : run.id = _ := (Table.get?_eq_some.mp found).2
      have hother : run.id ≠ r := hid ▸ hassigned _ mem
      exact (Spares.trans .releaseStage (.openReservation hother)).trans .grantAssignment
    | granted _ => exact .grantAssignment

theorem handleReviewTimeout_sparesRun {gateId : Nat} :
    Spares r s (handleReviewTimeout gateId s) := by
  unfold handleReviewTimeout
  split
  · exact .refl s
  split
  · exact .refl s
  split
  · exact .of_eq rfl rfl
  · unfold timeOutGate
    split
    · exact .of_eq rfl rfl
    · exact Spares.failRun.after rfl rfl

theorem Processed.sparesRun {job : JobSchedule} {lockedWorkers : List Nat}
    (h : Processed job lockedWorkers s t) (hkind : job.jobType ≠ .stageTimeout)
    (hne : job.isStageJob = true → job.refId ≠ .run r) :
    Spares r s t := by
  cases h with
  | held _ _ _ _ _ _ _ => exact (Spares.trans .releaseStage .pauseForSpend).trans .modifyJob
  | @assigned runId _ run _ _ _ stageJob ref _ found _ _ _ _ =>
    have hid : run.id = runId := (Table.get?_eq_some.mp found).2
    have hother : run.id ≠ r := by
      rw [hid]
      rintro rfl
      exact hne stageJob (refId_of_runId? ref)
    exact ((Spares.trans .releaseStage (.openReservation hother)).trans .createAssignment).trans
      .modifyJob
  | exhausted _ _ _ exhausted =>
    have hletter : ∀ {m : Db} {name reason : String} {attempts : Nat},
        Spares r m (routeToDeadLetter job.workspaceId "job_schedule" (.job job.id) name reason
          attempts m) :=
      .route fun href => by cases href
    have hclosed : Spares r s (modifyJob job.id JobSchedule.exhaust s) := .modifyJob
    cases exhausted with
    | alone _ routed => exact routed ▸ hclosed.trans hletter
    | @withRun run stage _ _ _ routed =>
      have habandoned : Spares r (modifyJob job.id JobSchedule.exhaust s)
          (abandonStage run stage (modifyJob job.id JobSchedule.exhaust s)) := .abandonStage
      exact routed ▸ (hclosed.trans habandoned).trans hletter
  | stageTimedOut kind => exact absurd kind hkind
  | reviewTimedOut _ _ => exact handleReviewTimeout_sparesRun.trans .modifyJob
  | _ => exact .of_eq rfl rfl

theorem Resumed.sparesRun {gate : ReviewGate} {approved : Bool} (h : Resumed gate approved s t) :
    Spares r s t := by
  cases h with
  | rejected _ _ => exact Spares.failRun.after rfl rfl
  | advanced _ _ advanced => exact advanced.sparesRun.after rfl rfl
  | stuck _ _ raised =>
    rcases (advanceOrFinish_raises raised).1 with rfl | ⟨_, _, _, _, rfl⟩
    · exact .of_eq rfl rfl
    · exact .of_eq rfl rfl
  | unrouted _ _ => exact .of_eq rfl rfl
  | unloaded => exact .refl s

theorem Revivals.sparesRun {workspaceId : Nat} {targets : List RetryTarget}
    (h : Revivals workspaceId s targets t) :
    Spares r s t := by
  induction h with
  | nothing same => exact same.sparesRun
  | more _ once ih =>
    obtain ⟨run, _, _, _, hsame⟩ := once
    refine (ih.trans ?_).trans hsame.sparesRun
    unfold reviveRun
    split <;> exact .of_eq rfl rfl

/-- **A run nothing works on is spared** by every operation. -/
theorem Effect.sparesRun {op : Op} (h : Effect op s t)
    (hkinds : ∀ j ∈ s.jobs, j.jobType ≠ .stageTimeout)
    (hjobs : ∀ j ∈ s.jobs, j.status = .leased → j.isStageJob = true → j.refId ≠ .run r)
    (hassigned : ∀ a ∈ s.assignments, a.pipelineRunId ≠ r) : Spares r s t := by
  cases h with
  | started _ _ _ => exact .of_eq rfl rfl
  | polled => exact .of_eq rfl rfl
  | processed found leased done =>
    obtain ⟨hmem, _⟩ := Table.get?_eq_some.mp found
    exact done.sparesRun (hkinds _ hmem) (hjobs _ hmem leased)
  | reaped => exact .of_eq rfl rfl
  | claimed done => exact done.sparesRun hassigned
  | acknowledged _ _ => exact .of_eq rfl rfl
  | renewed _ _ => exact .of_eq rfl rfl
  | submitted found _ _ done => exact done.sparesRun (hassigned _ (Table.get?_eq_some.mp found).1)
  | recovered _ done => exact done.sparesRun
  | decided _ _ _ recorded applied booked _ _ =>
    exact ((recorded.sparesRun.trans applied.sparesRun).trans booked.sparesRun).after rfl rfl
  | cancelled _ =>
    unfold cancelRun
    split
    · exact .refl s
    · exact (Spares.releaseAll.trans .emitForRun).after rfl rfl
  | retried => exact retryFailedJobs_revivals.sparesRun
  | changed => exact .of_eq rfl rfl

/-! ## Runs at rest -/

/-- Nothing works on the run, and nothing would bring it back. -/
structure AtRest (db : Db) (r : Nat) : Prop where
  jobs : ∀ j ∈ db.jobs, j.isStageJob = true → j.refId = .run r → j.isActive = false
  assignments : ∀ a ∈ db.assignments, a.pipelineRunId ≠ r
  letters : ∀ e ∈ db.deadLetters, e.relatedId ≠ .run r
  spend : db.SpendSettled r

theorem AtRest.unleased (h : AtRest s r) :
    ∀ j ∈ s.jobs, j.status = .leased → j.isStageJob = true → j.refId ≠ .run r := by
  intro j hj hleased hkind href
  have hactive := h.jobs j hj hkind href
  rw [isActive_of_leased hleased] at hactive
  cases hactive

/-- A row that is not active stays so. -/
theorem JobMove.inactive {op : Op} {j j' : JobSchedule} (h : JobMove op s j j')
    (hj : j.isActive = false) :
    j'.isActive = false := by
  cases h with
  | kept => exact hj
  | leased due =>
    simp only [JobSchedule.isDue, Bool.and_eq_true, beq_iff_eq] at due
    simp [JobSchedule.isActive, due.1] at hj
  | reaped _ reaped =>
    simp only [isReaped, Bool.and_eq_true, JobSchedule.leaseExpired, beq_iff_eq] at reaped
    simp [JobSchedule.isActive, reaped.2.1] at hj
  | settled _ leased _ =>
    rw [isActive_of_leased leased] at hj
    cases hj

/-- An operator's retry has no target at rest. -/
theorem AtRest.not_target (h : AtRest s r) {workspaceId : Nat} {target : RetryTarget}
    (htarget : target ∈ retryTargets s workspaceId) : target.runId ≠ r := by
  have hid : ∀ {run : PipelineRun} {text : String}, retryTarget workspaceId run text = some target →
      target.runId = run.id := by
    intro run text hsome
    unfold retryTarget at hsome
    split at hsome
    · exact (congrArg RetryTarget.runId (Option.some.inj hsome)).symm
    · cases hsome
  rcases List.mem_append.mp htarget with hmem | hmem
  · obtain ⟨entry, hentry, hsome⟩ := List.mem_filterMap.mp hmem
    obtain ⟨⟨run, text⟩, hfound, hretry⟩ := Option.bind_eq_some_iff.mp hsome
    rw [hid hretry]
    rintro rfl
    unfold deadLetterTarget at hfound
    split at hfound
    · rename_i runId href
      obtain ⟨_, hrun, heq⟩ := Option.map_eq_some_iff.mp hfound
      cases heq
      have hkey : run.id = runId := (Table.get?_eq_some.mp hrun).2
      exact h.letters entry (Table.mem_select.mp hentry).1 (hkey ▸ href)
    · simp only [Option.bind_eq_bind, Option.bind_eq_some_iff, Option.pure_def, Option.some.injEq,
        Prod.mk.injEq] at hfound
      obtain ⟨a, ha, found, hrun, rfl, _⟩ := hfound
      have hkey : found.id = a.pipelineRunId := (Table.get?_eq_some.mp hrun).2
      exact h.assignments a (Table.get?_eq_some.mp ha).1 hkey.symm
    · cases hfound
  · obtain ⟨a, ha, hsome⟩ := List.mem_filterMap.mp hmem
    unfold failedAssignmentRetry at hsome
    split at hsome
    · cases hsome
    obtain ⟨run, hrun, hretry⟩ := Option.bind_eq_some_iff.mp hsome
    have hkey : run.id = a.pipelineRunId := (Table.get?_eq_some.mp hrun).2
    have hmem : a ∈ s.assignments := (Table.mem_select.mp (List.mem_of_mem_take ha)).1
    rw [hid hretry, hkey]
    exact h.assignments a hmem

/-- **A run at rest stays at rest**, unless it is started or a verdict takes it to a further
stage. -/
theorem Effect.atRest {op : Op} (h : Effect op s t) (hs : s.Sound) (hrest : AtRest s r)
    (hroute : ∀ way, takenRoute s op r = some way → ∃ stage, way = .finish stage)
    (hstart : s.runs.get? r = none → t.runs.get? r = none) : AtRest t r := by
  have hspared := h.sparesRun hs.jobs hrest.unleased hrest.assignments
  refine ⟨fun j' hj' hkind href => ?_, fun a' ha' hown => ?_, fun e he href => ?_,
    hspared.spendSettled hrest.spend⟩
  · rcases (h.tables hs.jobs hs.keyed).new j' hj' with ⟨j, hj, hmoved⟩ | hqueued | ⟨_, _, hretried⟩
    · obtain ⟨_, htype, href', _⟩ := hmoved.identity
      have hkind' : j.isStageJob = true := by rw [JobSchedule.isStageJob, ← htype]; exact hkind
      exact hmoved.inactive (hrest.jobs j hj hkind' (href'.symm.trans href))
    · obtain ⟨runId, stage, hrun, _, hqueues⟩ := hqueued.stage hkind
      have hsame : runId = r := by
        rw [href] at hrun
        cases hrun
        rfl
      subst hsame
      generalize j'.jobType = kind at hqueues
      cases hqueues with
      | routed taken =>
        obtain ⟨_, hway⟩ := hroute _ taken
        cases hway
      | started defined opens =>
        have hmissing := hstart Table.get?_next
        cases h with
        | started _ _ row =>
          have hid : s.runs.next = _ := (congrArg PipelineRun.id row).symm
          simp [createRun, Table.get?_modify, Table.get?_insert, ← hid] at hmissing
      | again mem => exact absurd rfl (hrest.assignments _ mem)
    · obtain ⟨workspaceId, target, _, htarget, hrun, _⟩ := hretried
      rw [href] at hrun
      cases hrun
      exact absurd rfl (hrest.not_target htarget)
  · rcases h.attempts hs.jobs a' ha' with
      ⟨a, ha, hsame⟩ | ⟨_, _, ⟨j, hj, hleased, hkind, href, _⟩ | ⟨a, ha, hrun, _⟩⟩
    · exact hrest.assignments a ha (hsame.pipelineRunId.symm.trans hown)
    · exact hrest.unleased j hj hleased hkind (hown ▸ href)
    · exact hrest.assignments a ha (hrun.trans hown)
  · obtain ⟨e₀, he₀, href₀⟩ := hspared.letters e he href
    exact hrest.letters e₀ he₀ href₀

end ContentOrchestrator

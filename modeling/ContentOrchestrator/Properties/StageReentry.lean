import ContentOrchestrator.Orchestration.RunInvariants

/-! # Entering a stage again

Each entry of a stage queues a first job, and the dispatch of a job asks for the key of
its next attempt: run, stage and attempt number, but not the visit. A key that an
earlier visit of the stage left behind makes the dispatch a repetition, and the run
loses the entry. While no entry and no delay leads a first job to such a number, every
dispatch of it that is let through makes a new assignment. -/

namespace ContentOrchestrator

open Lib

variable {s t u : Db} {r : Nat} {v : RunView}

/-- The run has an assignment for this attempt at the stage. -/
def attemptTaken (s : Db) (runId : Nat) (stageText : String) (attempt : Nat) : Bool :=
  !(s.assignments.select fun a =>
    a.pipelineRunId == runId && a.stage.value == stageText && a.attemptNumber == attempt).isEmpty

/-- The run enters a stage whose first attempt an earlier visit has made. -/
def entersTaken (s : Db) (op : Op) (runId : Nat) : Bool :=
  match takenRoute s op runId with
  | some (.work stageDef) => attemptTaken s runId stageDef.stageKey.value 1
  | _ => false

/-- The operation raises the attempt count of this queue row: it puts it off at the concurrency
limit, or takes back its lease. -/
def delays (s : Db) (op : Op) (j : JobSchedule) : Bool :=
  match op with
  | .processJob jobId _ _ => jobId == j.id && atConcurrencyLimit s j.workspaceId && !j.atCeiling
  | .reapJobs batchSize lockedJobs => isReaped batchSize lockedJobs s j
  | _ => false

/-- A first job of the run is delayed to an attempt that an earlier visit has made. -/
def delaysToTaken (s : Db) (op : Op) (runId : Nat) : Bool :=
  !(s.jobs.select fun j => j.isActiveFor runId && j.jobType == .stage && delays s op j &&
    attemptTaken s runId j.refTable (j.attempt + 2)).isEmpty

theorem attemptTaken_iff {stageText : String} {attempt : Nat} :
    attemptTaken s r stageText attempt = true ↔
      ∃ a ∈ s.assignments, a.pipelineRunId = r ∧ a.stage.value = stageText ∧
        a.attemptNumber = attempt := by
  simp only [attemptTaken, Bool.not_eq_true', List.isEmpty_eq_false_iff_exists_mem,
    Table.mem_select, Bool.and_eq_true, beq_iff_eq]
  constructor
  · rintro ⟨a, ha, ⟨h1, h2⟩, h3⟩
    exact ⟨a, ha, h1, h2, h3⟩
  · rintro ⟨a, ha, h1, h2, h3⟩
    exact ⟨a, ha, ⟨h1, h2⟩, h3⟩

/-! ## What an entry leads to -/

/-- Dispatching the job comes to an end, is no repetition, and makes a new live assignment of the
stage unless the run has to wait. -/
structure LeadsOn (s : Db) (job : JobSchedule) (runId : Nat) : Prop where
  ends : ∀ lockedWorkers, ∃ result t, Returns (dispatchStage (job.request runId lockedWorkers)) s
    result t
  begins :
    ∀ lockedWorkers result t, Returns (dispatchStage (job.request runId lockedWorkers)) s result t →
    result.outcome ≠ .idempotent ∧
      (result.outcome = .dispatched ∨ result.outcome = .noWorker →
        ∃ a ∈ t.assignments, result.assignment = some a.id ∧ (∀ b ∈ s.assignments, b.id ≠ a.id) ∧
          a.pipelineRunId = runId ∧ a.stage.value = job.refTable ∧ a.status.isLive = true)

/-- Every first job of the run leads on. -/
def Db.EntriesLeadOn (db : Db) (runId : Nat) : Prop :=
  ∀ job ∈ db.jobs, job.isActiveFor runId = true → job.jobType = .stage → LeadsOn db job runId

/-- Below the checks every branch ends in `pure`. -/
theorem assignTo_ends {q : DispatchRequest} {run : PipelineRun} {stage : ContentStage}
    (worker : Option WorkerRegistration) :
    ∃ result t, Returns (if worker.isSome then do
      match ← reserveSpend run stage (effectiveProvider q.provider)
        s.settings.defaultStageEstimateUsd with
      | none => return ⟨.spendHold, none⟩
      | some _ =>
        let assignmentId := (← get).assignments.next
        modify (createAssignment q stage worker
          (q.priority.getD (workspacePriority s q.workspaceId)))
        return ⟨.dispatched, some assignmentId⟩
    else do
      modify (createAssignment q stage none (q.priority.getD (workspacePriority s q.workspaceId)))
      return ⟨.noWorker, some s.assignments.next⟩ : Session DispatchResult) s result t := by
  cases worker with
  | none =>
    exact ⟨_, _, returns_bind.mpr ⟨(), _, returns_modify.mpr rfl, returns_pure.mpr ⟨rfl, rfl⟩⟩⟩
  | some worker =>
    cases hcap : exceededCap (releaseStageReservations run stage s) run.workspaceId
        (effectiveProvider q.provider) s.settings.defaultStageEstimateUsd with
    | some kind =>
      have hres := reserveSpend_returns.mpr (.inl ⟨kind, hcap, rfl, rfl⟩)
      exact ⟨_, _, returns_bind.mpr ⟨_, _, hres, returns_pure.mpr ⟨rfl, rfl⟩⟩⟩
    | none =>
      have hres := reserveSpend_returns.mpr (.inr ⟨hcap, rfl, rfl⟩)
      exact ⟨_, _, returns_bind.mpr ⟨_, _, hres, returns_bind.mpr ⟨_, _, returns_get.mpr ⟨rfl, rfl⟩,
        returns_bind.mpr ⟨(), _, returns_modify.mpr rfl, returns_pure.mpr ⟨rfl, rfl⟩⟩⟩⟩⟩

/-- The dispatch of a stage that can be parsed always returns. -/
theorem dispatchStage_ends {q : DispatchRequest} {run : PipelineRun} {stage : ContentStage}
    (found : s.runs.get? q.pipelineRunId = some run)
    (parsed : ContentStage.ofValue? q.stage = some stage) :
    ∃ result t, Returns (dispatchStage q) s result t := by
  unfold dispatchStage
  by_cases hlimit : atConcurrencyLimit s q.workspaceId = true
  · exact ⟨⟨.backpressure, none⟩, s, by simp [hlimit]⟩
  cases hstatus : (s.runs.get? q.pipelineRunId).bind statusOutcome with
  | some outcome => exact ⟨⟨outcome, none⟩, s, by simp [hlimit, hstatus]⟩
  | none =>
    cases hkey : assignmentByKey s q.workspaceId q.key with
    | some already => exact ⟨⟨.idempotent, some already.id⟩, s, by simp [hlimit, hstatus, hkey]⟩
    | none =>
      obtain ⟨result, t, hrest⟩ : ∃ result t, Returns _ s result t :=
        assignTo_ends (if hasProviderCapacity s q.workspaceId q.provider then
          selectWorker s q.stage q.lockedWorkers else none)
      refine ⟨result, t, returns_bind.mpr ⟨s, s, returns_get.mpr ⟨rfl, rfl⟩, ?_⟩⟩
      rw [if_neg hlimit]
      simp only [hstatus, hkey, returns_bind, returns_require]
      exact ⟨stage, s, ⟨parsed, rfl⟩, run, s, ⟨found, rfl⟩, hrest⟩

theorem createAssignment_new {q : DispatchRequest} {stage : ContentStage}
    {worker : Option WorkerRegistration} {priority : Int} {m : Db}
    (hm : m.assignments = s.assignments) (htext : q.stage = stage.value) :
    ∃ a ∈ (createAssignment q stage worker priority m).assignments,
      some s.assignments.next = some a.id ∧ (∀ b ∈ s.assignments, b.id ≠ a.id) ∧
        a.pipelineRunId = q.pipelineRunId ∧ a.stage.value = q.stage ∧ a.status.isLive = true := by
  refine ⟨(newAssignment q stage worker priority m).make m.assignments.next, ?_, ?_, fun b hb => ?_,
    rfl,
    htext.symm, ?_⟩
  · exact Table.mem_insert.mpr (.inr rfl)
  · rw [hm]
    rfl
  · rw [hm]
    exact (Table.key_lt hb).ne
  · cases worker <;> rfl

/-- A first job whose next attempt is free leads on. -/
theorem leadsOn_of_free {job : JobSchedule} {run : PipelineRun} (hactive : job.isActiveFor r = true)
    (hrun : s.runs.get? r = some run) (hkeyed : ∀ a ∈ s.assignments, a.IsKeyed)
    (hfree : attemptTaken s r job.refTable (job.attempt + 1) = false) : LeadsOn s job r := by
  simp only [JobSchedule.isActiveFor, Bool.and_eq_true, Option.isSome_iff_exists] at hactive
  obtain ⟨stage, hparsed⟩ := hactive.2
  refine ⟨fun lockedWorkers => dispatchStage_ends hrun hparsed, fun lockedWorkers result t h => ?_⟩
  cases dispatchStage_returns h with
  | limited _ => exact ⟨by simp, fun hcase => by rcases hcase with hcase | hcase <;> cases hcase⟩
  | @turned _ outcome _ _ status =>
    have hout : outcome = .spendHold ∨ outcome = .skipped := statusOutcome_cases status
    rcases hout with rfl | rfl
    · exact ⟨by simp, fun hcase => by rcases hcase with hcase | hcase <;> cases hcase⟩
    · exact ⟨by simp, fun hcase => by rcases hcase with hcase | hcase <;> cases hcase⟩
  | repeated _ _ taken =>
    exfalso
    obtain ⟨hmem, hkey⟩ := Table.mem_select.mp (List.mem_of_mem_head? taken)
    simp only [Bool.and_eq_true, beq_iff_eq] at hkey
    have hown := (hkeyed _ hmem).key
    rw [hkey.2] at hown
    have htaken : attemptTaken s r job.refTable (job.attempt + 1) = true := by
      refine attemptTaken_iff.mpr ⟨_, hmem, ?_, ?_, ?_⟩
      · exact (congrArg IdempotencyKey.pipelineRunId hown).symm
      · exact (congrArg IdempotencyKey.stage hown).symm
      · exact (congrArg IdempotencyKey.attemptNumber hown).symm
    rw [hfree] at htaken
    cases htaken
  | held _ _ _ _ _ =>
    exact ⟨by simp, fun hcase => by rcases hcase with hcase | hcase <;> cases hcase⟩
  | assigned _ _ _ _ parsed =>
    exact ⟨by simp, fun _ => createAssignment_new (by simp)
      (ContentStage.ofValue?_eq_some.mp parsed)⟩
  | waiting _ _ _ _ parsed =>
    exact ⟨by simp, fun _ => createAssignment_new rfl (ContentStage.ofValue?_eq_some.mp parsed)⟩

/-! ## First jobs have a free attempt ahead -/

/-- An unknown run has no assignments, and the next attempt of a first job is not taken. -/
structure Unvisited (s : Db) (r : Nat) : Prop where
  absent : s.slice r = RunSlice.empty → ∀ a ∈ s.assignments, a.pipelineRunId ≠ r
  free : ∀ j ∈ (s.slice r).jobs, j.jobType = .stage →
    attemptTaken s r j.refTable (j.attempt + 1) = false

/-- The scheduler moves a queue row; its next attempt stays free. -/
theorem JobMove.next_free {op : Op} {j j' : JobSchedule} (h : JobMove op s j j') (hj : j ∈ s.jobs)
    (hactive : j'.isActiveFor r = true) (hkind : j'.jobType = .stage)
    (hfree : j.isActiveFor r = true → attemptTaken s r j.refTable (j.attempt + 1) = false)
    (hdelay : delaysToTaken s op r = false) :
    attemptTaken s r j'.refTable (j'.attempt + 1) = false := by
  have hwas : j.isActive = true → j.isActiveFor r = true := by
    intro hold
    obtain ⟨_, htype, href, htext⟩ := h.identity
    simp only [JobSchedule.isActiveFor, JobSchedule.isStageJob, Bool.and_eq_true] at hactive ⊢
    rw [← htype, ← href, ← htext]
    exact ⟨⟨⟨hactive.1.1.1, hold⟩, hactive.1.2⟩, hactive.2⟩
  have hdelayed : j.isActive = true → j.jobType = .stage → delays s op j = true →
      attemptTaken s r j.refTable (j.attempt + 2) = false := by
    intro hold htype hdelays
    rw [← Bool.not_eq_true]
    intro htaken
    have hin : j ∈ s.jobs.select fun j => j.isActiveFor r && j.jobType == .stage && delays s op j &&
        attemptTaken s r j.refTable (j.attempt + 2) :=
      Table.mem_select.mpr ⟨hj, by simp [hwas hold, htype, hdelays, htaken]⟩
    simp only [delaysToTaken, Bool.not_eq_false', List.isEmpty_iff] at hdelay
    rw [hdelay] at hin
    cases hin
  cases h with
  | kept => exact hfree hactive
  | leased due =>
    simp only [JobSchedule.isDue, Bool.and_eq_true, beq_iff_eq] at due
    exact hfree (hwas (by simp [JobSchedule.isActive, due.1]))
  | reaped request reaped =>
    have hleased : j.status = .leased := by
      simp only [isReaped, JobSchedule.leaseExpired, Bool.and_eq_true, beq_iff_eq] at reaped
      exact reaped.2.1
    refine hdelayed (by simp [JobSchedule.isActive, hleased]) hkind ?_
    rw [request]
    exact reaped
  | settled processed leased settles =>
    have hold : j.isActive = true := by simp [JobSchedule.isActive, leased]
    cases settles with
    | park => exact hfree (hwas hold)
    | reschedule limit below =>
      refine hdelayed hold hkind ?_
      rw [processed]
      simp [delays, limit, below]
    | retire => simp [JobSchedule.isActiveFor, JobSchedule.isActive, JobSchedule.retire] at hactive
    | exhaust =>
      simp [JobSchedule.isActiveFor, JobSchedule.isActive, JobSchedule.exhaust] at hactive
    | done => simp [JobSchedule.isActiveFor, JobSchedule.isActive, JobSchedule.done] at hactive

/-- A run that has a queued job has no assignment. -/
theorem Follows.queued_alone {P : RunView → Prop} (h : Follows P r t) {j : JobSchedule}
    (hj : j ∈ (t.slice r).jobs) : (t.slice r).assignments = [] := by
  rcases h with habs | ⟨v, hv, _⟩
  · rw [habs] at hj
    cases hj
  · obtain ⟨_, _, _, hx, _⟩ := hv.of_job hj
    rw [hx]

theorem Effect.unvisited {P : RunView → Prop} {op : Op} (h : Effect op s t) (hs : s.Sound)
    (hfollows : Follows P r s) (hfollows' : Follows P r t)
    (hkeeps : ∀ v, Shows (s.slice r) v → t.slice r ≠ RunSlice.empty) (hfree : Unvisited s r)
    (henter : entersTaken s op r = false) (hdelay : delaysToTaken s op r = false) :
    Unvisited t r := by
  have hold : t.slice r = RunSlice.empty → s.slice r = RunSlice.empty := by
    intro hempty
    rcases hfollows with habs | ⟨v, hv, _⟩
    · exact habs
    · exact absurd hempty (hkeeps v hv)
  refine ⟨fun hempty a' ha' hr => ?_, fun j' hj' hkind => ?_⟩
  · rcases h.attempts hs.jobs a' ha' with ⟨a, ha, hsame⟩ | ⟨hlive, -, -⟩
    · exact hfree.absent (hold hempty) a ha (hsame.pipelineRunId.symm.trans hr)
    · have hin : a' ∈ (t.slice r).assignments :=
        mem_slice_assignments.mpr ⟨ha', by simp [StageAssignment.isLiveOf, hr, hlive]⟩
      rw [hempty] at hin
      cases hin
  · obtain ⟨hmem', hactive'⟩ := mem_slice_jobs.mp hj'
    -- a live assignment excludes the job, so what is taken now was taken before
    have hback : ∀ n, attemptTaken s r j'.refTable n = false →
        attemptTaken t r j'.refTable n = false := by
      intro n hn
      rw [← Bool.not_eq_true]
      intro htaken
      obtain ⟨a', ha', hr, hstage, hattempt⟩ := attemptTaken_iff.mp htaken
      rcases h.attempts hs.jobs a' ha' with ⟨a, ha, hsame⟩ | ⟨hlive, -, -⟩
      · rw [attemptTaken_iff.mpr ⟨a, ha, hsame.pipelineRunId.symm.trans hr,
          (congrArg ContentStage.value hsame.stage.symm).trans hstage,
          hsame.attemptNumber.symm.trans hattempt⟩] at hn
        cases hn
      · have hin : a' ∈ (t.slice r).assignments :=
          mem_slice_assignments.mpr ⟨ha', by simp [StageAssignment.isLiveOf, hr, hlive]⟩
        rw [hfollows'.queued_alone hj'] at hin
        cases hin
    refine hback _ ?_
    rcases (h.tables hs.jobs hs.keyed).new j' hmem' with ⟨j, hj, hmoved⟩ | hqueued | ⟨_, hretry, _⟩
    · refine hmoved.next_free hj hactive' hkind (fun hactive => ?_) hdelay
      exact hfree.free j (mem_slice_jobs.mpr ⟨hj, hactive⟩) (hmoved.identity.2.1.symm.trans hkind)
    · obtain ⟨runId, stage, href, htext, hqueues⟩ :=
        hqueued.stage (by simp [JobSchedule.isStageJob, hkind])
      have hrun : runId = r := by
        simp only [JobSchedule.isActiveFor, Bool.and_eq_true, beq_iff_eq, href] at hactive'
        exact Ref.run.inj hactive'.1.2
      subst hrun
      rw [hqueued.first hkind, htext]
      rw [hkind] at hqueues
      cases hqueues with
      | routed taken =>
        simp only [entersTaken, taken] at henter
        exact henter
      | started _ _ =>
        have habs : s.slice s.runs.next = RunSlice.empty := by
          rcases hfollows with habs | ⟨v, hv, _⟩
          · exact habs
          · obtain ⟨run, hrun, _⟩ := hv.run_some
            rw [slice_run, Table.get?_next] at hrun
            cases hrun
        rw [← Bool.not_eq_true]
        intro htaken
        obtain ⟨a, ha, hr, _⟩ := attemptTaken_iff.mp htaken
        exact hfree.absent habs a ha hr
    · rw [hretry] at hkind
      cases hkind

/-- What holds of a run throughout. -/
theorem step_unvisited {op : Op} (hs : s.Sound) (hfollows : Follows (fun _ => True) r s)
    (hfree : Unvisited s r) (hfits : retryFits s op r = true) (henter : entersTaken s op r = false)
    (hdelay : delaysToTaken s op r = false) :
    Follows (fun _ => True) r (step s op) ∧ Unvisited (step s op) r := by
  have hfollows' : Follows (fun _ => True) r (step s op) :=
    step_follows hs hfollows (fun _ _ => hfits) (fun _ _ _ _ => trivial) fun _ _ _ _ _ _ _ =>
      trivial
  rcases step_cases s op with heq | heffect
  · rw [heq]
    exact ⟨hfollows, hfree⟩
  · refine ⟨hfollows', heffect.unvisited hs hfollows hfollows' (fun v hv hempty => ?_) hfree henter
      hdelay⟩
    rcases hfollows with habs | ⟨w, hw, hset, _⟩
    · rw [habs] at hv
      cases hv
    · obtain ⟨l, v', _, _, hv'⟩ := heffect.moves hs hw hset hfits
      rw [hempty] at hv'
      cases hv'

/-- **Every entry leads on**: in every history that leads no entry and no delay of the run to an
attempt an earlier visit has made, each first job of the run leads to a new assignment. -/
theorem entries_lead_on {db : Db} (hfresh : db.Fresh)
    (h : Reach Steps (fun s op => retryFits s op r = true ∧ entersTaken s op r = false ∧
      delaysToTaken s op r = false) db t) : t.EntriesLeadOn r := by
  have hnone : ∀ a ∈ db.assignments, a.pipelineRunId ≠ r := by
    intro a ha
    rw [hfresh.assignments] at ha
    cases ha
  have hinv : t.Sound ∧ Follows (fun _ => True) r t ∧ Unvisited t r := by
    refine h.invariant (P := fun t => t.Sound ∧ Follows (fun _ => True) r t ∧ Unvisited t r)
      ⟨hfresh.sound, .inl hfresh.slice, fun _ => hnone, fun j hj _ => ?_⟩ ?_
    · rw [hfresh.slice] at hj
      cases hj
    · rintro s op u ⟨hs, hfollows, hfree⟩ ⟨hfits, henter, hdelay⟩ rfl
      exact ⟨step_sound s op hs, step_unvisited hs hfollows hfree hfits henter hdelay⟩
  obtain ⟨hs, hfollows, hfree⟩ := hinv
  intro job hmem hactive hkind
  have hin : job ∈ (t.slice r).jobs := mem_slice_jobs.mpr ⟨hmem, hactive⟩
  rcases hfollows with habs | ⟨v, hv, _⟩
  · rw [habs] at hin
    cases hin
  · obtain ⟨run, hrun, _⟩ := hv.run_some
    exact leadsOn_of_free hactive hrun hs.keyed (hfree.free job hin hkind)

/-! ## A workflow with a loop -/

/-- One stage of work and its review; a rejection sends the run back. -/
def loopDb : Db :=
  { demoDb with
    definitions := demoDefinition
      [{ stageKey := .idea }, { stageKey := .review, ordinal := 1, isReviewGate := true },
       { stageKey := .published, ordinal := 2, isTerminal := true }]
      [{ fromStage := .idea, toStage := .review, trigger := .onSuccess },
       { fromStage := .review, toStage := .published, trigger := .onReviewApproved },
       { fromStage := .review, toStage := .idea, trigger := .onReviewRejected }] (by decide) }

theorem loopDb_fresh : loopDb.Fresh := ⟨rfl, rfl, rfl, rfl, rfl, rfl, rfl, rfl⟩

/-- The first job waits. -/
theorem entries_lead_on_started : (replay step loopDb [.startRun 0 0 0]).EntriesLeadOn 0 ∧
    ∃ job ∈ (replay step loopDb [.startRun 0 0 0]).jobs, job.isActiveFor 0 = true ∧
      job.jobType = .stage := by
  have hadmits : admits step (fun s op =>
      retryFits s op 0 && !entersTaken s op 0 && !delaysToTaken s op 0)
      loopDb [.startRun 0 0 0] = true := by decide +kernel
  refine ⟨entries_lead_on loopDb_fresh ((reach_replay _ _ hadmits).mono ?_), by decide +kernel⟩
  intro s op h
  simpa [and_assoc] using h

/-- The stage is done, and its review is rejected. -/
def rejectedHistory : List Op :=
  [.startRun 0 0 0, .poll 10 [], .processJob 0 [] 0, .submit 0 true none "" (some 0) 0,
   .decide 0 0 7 false (some 0)]

/-- What the dispatch of a request reports. -/
def reportedOutcome (s : Db) (q : DispatchRequest) : Option DispatchOutcome :=
  match (dispatchStage q).run s with
  | .ok result _ => some result.outcome
  | .error _ _ => none

theorem reportedOutcome_of_returns {q : DispatchRequest} {result : DispatchResult}
    (h : Returns (dispatchStage q) s result t) : reportedOutcome s q = some result.outcome := by
  rw [reportedOutcome, show (dispatchStage q).run s = .ok result t from h]

/-- The job of the second visit asks for the key of the first. -/
theorem second_visit_repeated :
    ¬ ∀ db t : Db, ∀ r : Nat, db.Fresh → Reach Steps (fun s op => retryFits s op r = true) db t →
        t.EntriesLeadOn r := by
  intro h
  have hadmits : admits step (fun s op => retryFits s op 0) loopDb rejectedHistory = true := by
    decide +kernel
  have hentries := h _ _ 0 loopDb_fresh (reach_replay rejectedHistory loopDb hadmits)
  have hjob : ∃ job ∈ (replay step loopDb rejectedHistory).jobs, job.isActiveFor 0 = true ∧
      job.jobType = .stage ∧
      reportedOutcome (replay step loopDb rejectedHistory) (job.request 0 []) =
        some .idempotent := by
    decide +kernel
  obtain ⟨job, hmem, hactive, hkind, hreported⟩ := hjob
  obtain ⟨result, u, hreturns⟩ := (hentries job hmem hactive hkind).ends []
  rw [reportedOutcome_of_returns hreturns] at hreported
  exact ((hentries job hmem hactive hkind).begins [] result u hreturns).1
    (Option.some.inj hreported)

end ContentOrchestrator

import ContentOrchestrator.Orchestration.Routes

/-! # What an operation makes of the queue, the assignments and the gates

Only the scheduler changes queue rows; every other part of the engine adds rows.
`Effect.tables` says what one operation does to one row and which rows it adds, and
the facts about the tables that hold of every history are read off it: no stage
timeout is ever queued, a leased row was due, and an assignment has the key of its
own attempt. A gate that still awaits its verdict has never been escalated. -/

namespace ContentOrchestrator

open Lib

def Unescalated (gates : Table ReviewGate) : Prop :=
  ∀ g ∈ gates, g.status = .awaiting → g.escalationLevel = 0

theorem Unescalated.insert {gates : Table ReviewGate} {row : NewRow ReviewGate}
    (h : Unescalated gates) (hrow : (row.make gates.next).escalationLevel = 0) :
    Unescalated (gates.insert row) := by
  intro g hg hawait
  rcases Table.mem_insert.mp hg with hg | rfl
  · exact h g hg hawait
  · exact hrow

theorem Unescalated.modify {gates : Table ReviewGate} {k : Nat} {u : Update ReviewGate}
    (h : Unescalated gates)
    (hu : ∀ g, (u.apply g).status = .awaiting → g.status = .awaiting ∧
      (u.apply g).escalationLevel = g.escalationLevel) : Unescalated (gates.modify k u) := by
  intro g hg hawait
  obtain ⟨g₀, hg₀, rfl⟩ := Table.mem_modify.mp hg
  split
  · rename_i hk
    rw [if_pos hk] at hawait
    obtain ⟨hold, hlevel⟩ := hu g₀ hawait
    rw [hlevel]
    exact h g₀ hg₀ hold
  · rename_i hk
    rw [if_neg hk] at hawait
    exact h g₀ hg₀ hawait

theorem Unescalated.decide {gates : Table ReviewGate} {k now : Nat} {approved : Bool}
    (h : Unescalated gates) : Unescalated (gates.modify k (ReviewGate.decide approved now)) :=
  h.modify fun g hg => by cases approved <;> cases hg

theorem Unescalated.recordReviewer {gates : Table ReviewGate} {k reviewerId : Nat}
    (h : Unescalated gates) : Unescalated (gates.modify k (ReviewGate.recordReviewer reviewerId)) :=
  h.modify fun _ hg => ⟨hg, rfl⟩

/-! ## Assignments and their attempts -/

/-- The key is that of the row's own attempt, and attempts count from one. -/
structure StageAssignment.IsKeyed (a : StageAssignment) : Prop where
  key : a.idempotencyKey = ⟨a.pipelineRunId, a.stage.value, a.attemptNumber⟩
  attempt : 1 ≤ a.attemptNumber

/-- The row is about the same attempt. -/
structure SameAttempt (a a' : StageAssignment) : Prop where
  id : a'.id = a.id
  workspaceId : a'.workspaceId = a.workspaceId
  pipelineRunId : a'.pipelineRunId = a.pipelineRunId
  stage : a'.stage = a.stage
  attemptNumber : a'.attemptNumber = a.attemptNumber
  idempotencyKey : a'.idempotencyKey = a.idempotencyKey

theorem SameAttempt.refl (a : StageAssignment) : SameAttempt a a := ⟨rfl, rfl, rfl, rfl, rfl, rfl⟩

theorem SameAttempt.rewrite {a a' : StageAssignment} {p : Prop} [Decidable p]
    {u : Update StageAssignment} (h : SameAttempt a a') (hu : ∀ b, SameAttempt b (u.apply b)) :
    SameAttempt a (if p then u.apply a' else a') := by
  split
  · have h' := hu a'
    exact ⟨h'.id.trans h.id, h'.workspaceId.trans h.workspaceId,
      h'.pipelineRunId.trans h.pipelineRunId,
      h'.stage.trans h.stage, h'.attemptNumber.trans h.attemptNumber,
      h'.idempotencyKey.trans h.idempotencyKey⟩
  · exact h

theorem SameAttempt.isKeyed {a a' : StageAssignment} (h : SameAttempt a a') (ha : a.IsKeyed) :
    a'.IsKeyed := by
  obtain ⟨hkey, hattempt⟩ := ha
  refine ⟨?_, ?_⟩
  · rw [h.idempotencyKey, hkey, h.pipelineRunId, h.stage, h.attemptNumber]
  · rw [h.attemptNumber]
    exact hattempt

/-- The row begins an attempt, on a leased job for that stage of the run or after an earlier
attempt at it. -/
structure BeginsAttempt (s : Db) (a' : StageAssignment) : Prop where
  live : a'.status.isLive = true
  keyed : a'.IsKeyed
  source :
    (∃ j ∈ s.jobs, j.status = .leased ∧ j.isStageJob = true ∧ j.refId = .run a'.pipelineRunId ∧
      j.refTable = a'.stage.value) ∨
    ∃ a ∈ s.assignments, a.pipelineRunId = a'.pipelineRunId ∧ a.stage = a'.stage

/-- Every row is about an old attempt or begins one of its own. -/
def Attempts (s t : Db) : Prop :=
  ∀ a' ∈ t.assignments, (∃ a ∈ s.assignments, SameAttempt a a') ∨ BeginsAttempt s a'

variable {s t : Db}

namespace Attempts

theorem of_eq (h : t.assignments = s.assignments) : Attempts s t :=
  fun a ha => .inl ⟨a, h ▸ ha, .refl a⟩

theorem of_eq_left {m : Db} (h : m.assignments = s.assignments) (hjobs : m.jobs = s.jobs)
    (h' : Attempts m t) : Attempts s t := by
  intro a' ha'
  rcases h' a' ha' with ⟨a, ha, hsame⟩ | ⟨hlive, hkeyed, hsource⟩
  · exact .inl ⟨a, h ▸ ha, hsame⟩
  · rw [h, hjobs] at hsource
    exact .inr ⟨hlive, hkeyed, hsource⟩

/-- Rows are changed within their attempts. -/
theorem modifyWhere {q : StageAssignment → Bool} {u : Update StageAssignment}
    (h : t.assignments = s.assignments.modifyWhere q u) (hu : ∀ a, SameAttempt a (u.apply a)) :
    Attempts s t := by
  intro a' ha'
  rw [h] at ha'
  obtain ⟨a, ha, rfl⟩ := Table.mem_modifyWhere.mp ha'
  exact .inl ⟨a, ha, (SameAttempt.refl a).rewrite hu⟩

/-- One row begins an attempt. -/
theorem insert {row : NewRow StageAssignment} (h : t.assignments = s.assignments.insert row)
    (hrow : BeginsAttempt s (row.make s.assignments.next)) : Attempts s t := by
  intro a' ha'
  rw [h] at ha'
  rcases Table.mem_insert.mp ha' with ha | rfl
  · exact .inl ⟨a', ha, .refl a'⟩
  · exact .inr hrow

end Attempts

theorem sameAttempt_cancel {now : Nat} (a : StageAssignment) :
    SameAttempt a ((StageAssignment.cancel now).apply a) := ⟨rfl, rfl, rfl, rfl, rfl, rfl⟩

theorem refId_of_runId? {job : JobSchedule} {runId : Nat} (h : job.runId? = some runId) :
    job.refId = .run runId := by
  unfold JobSchedule.runId? at h
  split at h
  · rename_i href
    rw [href, Option.some.inj h]
  · cases h

/-- The row made for a queued job begins its attempt. -/
theorem createAssignment_attempts {job : JobSchedule} {runId : Nat} {lockedWorkers : List Nat}
    {stage : ContentStage} {worker : Option WorkerRegistration} {priority : Int}
    (hmem : job ∈ s.jobs) (hleased : job.status = .leased) (hkind : job.isStageJob = true)
    (href : job.runId? = some runId) (hparsed : ContentStage.ofValue? job.refTable = some stage) :
    Attempts s (createAssignment (job.request runId lockedWorkers) stage worker priority s) := by
  have htext : job.refTable = stage.value := ContentStage.ofValue?_eq_some.mp hparsed
  refine .insert rfl ⟨?_, ⟨?_, Nat.le_add_left 1 _⟩,
    .inl ⟨job, hmem, hleased, hkind, refId_of_runId? href, htext⟩⟩
  · cases worker <;> rfl
  · simp [newAssignment, DispatchRequest.key, JobSchedule.request, htext]

theorem handleReviewTimeout_assignments {gateId : Nat} :
    (handleReviewTimeout gateId s).assignments = s.assignments := by
  unfold handleReviewTimeout
  split
  · rfl
  split
  · rfl
  split
  · simp only [escalateGate_frame]
  · unfold timeOutGate
    split <;> simp

theorem Processed.attempts {job : JobSchedule} {lockedWorkers : List Nat}
    (h : Processed job lockedWorkers s t) (hmem : job ∈ s.jobs) (hleased : job.status = .leased)
    (hkind : job.jobType ≠ .stageTimeout) : Attempts s t := by
  cases h with
  | held _ _ _ _ _ _ _ => exact .of_eq (by simp)
  | @assigned _ estimate run stage _ _ stageJob ref _ _ _ _ parsed =>
    have hjobs : (openReservation run stage draftDeskProvider estimate
        (releaseStageReservations run stage s)).jobs = s.jobs := by simp
    exact .of_eq_left (by simp) hjobs
      (createAssignment_attempts (by rw [hjobs]; exact hmem) hleased stageJob ref parsed)
  | waiting stageJob ref _ _ _ _ parsed =>
    exact createAssignment_attempts hmem hleased stageJob ref parsed
  | exhausted _ _ _ exhausted =>
    cases exhausted with
    | alone _ routed => exact .of_eq (by simp [routed])
    | withRun _ _ routed => exact .modifyWhere (by simp [routed]; rfl) sameAttempt_cancel
  | stageTimedOut kind => exact absurd kind hkind
  | reviewTimedOut _ _ => exact .of_eq handleReviewTimeout_assignments
  | _ => exact .of_eq rfl

theorem Advanced.assignments {run : PipelineRun} {stage : ContentStage}
    {trigger : WorkflowTransitionTrigger} {context : List (String × Json)}
    {stored : Table ReviewGate} (h : Advanced run stage trigger context stored s t) :
    t.assignments = s.assignments := by
  cases h with
  | finished _ _ => simp
  | queued _ _ => simp
  | gated _ _ _ _ =>
    simp only [openReviewGate_frame]
    rfl
  | kept _ _ _ _ => rfl

theorem FailureHandled.assignments {run : PipelineRun} {stage : ContentStage} {attempt : Nat}
    {message : String} (h : FailureHandled run stage attempt message s t) :
    t.assignments = s.assignments := by
  cases h with
  | retried _ _ _ _ => simp
  | failed => simp [failStage]
  | compensated => simp [failStage, enqueueCompensations_frame]

theorem Submitted.attempts {a : StageAssignment} {result : Option (List (String × Json))}
    {success : Bool} {message : String} (h : Submitted a result message s success t) :
    Attempts s t := by
  have hclose : ∀ {m : Db}, m.assignments = (closeAssignment a success result s).assignments →
      Attempts s m :=
    fun hm => .modifyWhere (hm.trans (closeAssignment_frame).2.2.1) fun _ =>
      ⟨rfl, rfl, rfl, rfl, rfl, rfl⟩
  cases h with
  | orphaned _ => exact hclose rfl
  | @succeeded run s1 _ _ _ settled advanced =>
    have hs1 : s1.assignments = (closeAssignment a true result s).assignments := by
      rcases settled with ⟨_, rfl⟩ | ⟨_, _, _, rfl⟩ <;> simp [recordSuccess]
    rcases advanced with ⟨_, rfl⟩ | ⟨_, ha⟩
    · exact hclose hs1
    · exact hclose (ha.assignments.trans hs1)
  | @failed run s1 _ _ _ settled handled =>
    have hs1 : s1.assignments = (closeAssignment a false result s).assignments := by
      rcases settled with ⟨_, rfl⟩ | ⟨_, _, rfl⟩ <;> simp [recordFailedAttempt]
    exact hclose (handled.assignments.trans hs1)

theorem Recovered.attempts {a : StageAssignment} {reason : RecoveryReason}
    (h : Recovered a reason s t) : Attempts s t := by
  cases h with
  | skipped _ => exact .of_eq rfl
  | requeued _ _ _ =>
    intro a' ha'
    have hrows : (requeueAssignment a (releaseWorkerSlot a.workerId s)).assignments =
        s.assignments.modify a.id
          (StageAssignment.requeue (releaseWorkerSlot a.workerId s).now) := by
      unfold requeueAssignment
      cases (releaseWorkerSlot a.workerId s).runs.get? a.pipelineRunId <;> simp
    rw [hrows] at ha'
    obtain ⟨b, hb, rfl⟩ := Table.mem_modify.mp ha'
    split
    · exact .inr ⟨rfl, ⟨rfl, Nat.le_add_left 1 _⟩, .inr ⟨b, hb, rfl, rfl⟩⟩
    · exact .inl ⟨b, hb, .refl b⟩
  | exhausted _ _ =>
    refine .modifyWhere (u := StageAssignment.exhaust (releaseWorkerSlot a.workerId s).now)
      (q := fun b => b.id == a.id) ?_ fun _ => ⟨rfl, rfl, rfl, rfl, rfl, rfl⟩
    unfold deadLetterAssignment
    split
    · split <;> simp <;> rfl
    · simp
      rfl

theorem Claimed.attempts {workerId : Nat} {claimToken : Option Nat} {locked : List Nat}
    (h : Claimed workerId claimToken locked s t) : Attempts s t := by
  have hgrant : ∀ {m : Db} {row : StageAssignment}, m.assignments = s.assignments →
      m.jobs = s.jobs →
      Attempts s (grantAssignment row workerId claimToken m) := by
    intro m row hm hjobs
    exact .of_eq_left hm hjobs
      (.modifyWhere (grantAssignment_frame).2.2.1 fun _ => ⟨rfl, rfl, rfl, rfl, rfl, rfl⟩)
  cases h with
  | idle => exact .of_eq rfl
  | chosen _ _ _ _ _ _ _ settled =>
    cases settled with
    | held _ _ => exact .of_eq (by simp)
    | reserved _ _ => exact hgrant (by simp) (by simp)
    | granted _ => exact hgrant rfl rfl

theorem Resumed.assignments {gate : ReviewGate} {approved : Bool} (h : Resumed gate approved s t) :
    t.assignments = s.assignments := by
  cases h with
  | rejected _ _ => simp
  | advanced _ _ advanced => exact advanced.assignments
  | stuck _ _ raised =>
    rcases (advanceOrFinish_raises raised).1 with rfl | ⟨_, _, _, _, rfl⟩ <;> rfl
  | unrouted _ _ => rfl
  | unloaded => rfl

theorem Revivals.assignments {workspaceId : Nat} {targets : List RetryTarget}
    (h : Revivals workspaceId s targets t) : t.assignments = s.assignments := by
  induction h with
  | nothing same => exact same.assignments
  | more _ once ih =>
    obtain ⟨run, attempt, _, _, hsame⟩ := once
    rw [hsame.assignments, enqueueOperatorRetry]
    simp only [reviveRun_frame]
    exact ih

/-- **What one operation does to the attempts.** -/
theorem Effect.attempts {op : Op} (h : Effect op s t)
    (hkinds : ∀ j ∈ s.jobs, j.jobType ≠ .stageTimeout) :
    Attempts s t := by
  cases h with
  | started _ _ _ => exact .of_eq rfl
  | polled => exact .of_eq rfl
  | processed found leased done =>
    obtain ⟨hmem, _⟩ := Table.get?_eq_some.mp found
    exact done.attempts hmem leased (hkinds _ hmem)
  | reaped => exact .of_eq rfl
  | claimed done => exact done.attempts
  | acknowledged _ _ =>
    intro a' ha'
    obtain ⟨b, hb, rfl⟩ := Table.mem_modify.mp ha'
    obtain ⟨c, hc, rfl⟩ := Table.mem_modify.mp hb
    exact .inl ⟨c, hc,
      ((SameAttempt.refl c).rewrite fun _ => ⟨rfl, rfl, rfl, rfl, rfl, rfl⟩).rewrite
      fun _ => ⟨rfl, rfl, rfl, rfl, rfl, rfl⟩⟩
  | renewed _ _ => exact .modifyWhere rfl fun _ => ⟨rfl, rfl, rfl, rfl, rfl, rfl⟩
  | submitted _ _ _ done => exact done.attempts
  | recovered _ done => exact done.attempts
  | decided _ _ _ recorded applied booked _ _ =>
    exact .of_eq ((booked.assignments.trans applied.assignments).trans recorded.assignments)
  | cancelled _ =>
    unfold cancelRun
    split
    · exact .of_eq rfl
    · exact .modifyWhere (by simp; rfl) sameAttempt_cancel
  | retried => exact .of_eq retryFailedJobs_revivals.assignments
  | changed => exact .of_eq rfl

/-! ## Rows are added -/

/-- A row as the engine queues it; a row for a stage names the stage. -/
structure IsQueued (queues : JobType → Nat → ContentStage → Prop) (j : JobSchedule) : Prop where
  pending : j.status = .pending
  kind : j.jobType ≠ .stageTimeout
  first : j.jobType = .stage → j.attempt = 0
  stage : j.isStageJob = true → ∃ runId stage, j.refId = .run runId ∧ j.refTable = stage.value ∧
    queues j.jobType runId stage

/-- The queue only gains rows, and the gates stay unescalated. -/
structure Grows (queues : JobType → Nat → ContentStage → Prop) (s t : Db) : Prop where
  old : ∀ j ∈ s.jobs, j ∈ t.jobs
  new : ∀ j ∈ t.jobs, j ∈ s.jobs ∨ IsQueued queues j
  gates : Unescalated s.gates → Unescalated t.gates

namespace Grows

variable {u : Db} {queues : JobType → Nat → ContentStage → Prop}

theorem of_eq (hjobs : t.jobs = s.jobs) (hgates : t.gates = s.gates) : Grows queues s t where
  old _ hj := hjobs ▸ hj
  new _ hj := .inl (hjobs ▸ hj)
  gates h := hgates ▸ h

theorem refl (s : Db) : Grows queues s s := .of_eq rfl rfl

theorem trans (h : Grows queues s t) (h' : Grows queues t u) : Grows queues s u where
  old j hj := h'.old j (h.old j hj)
  new j hj := (h'.new j hj).elim (h.new j) .inr
  gates hs := h'.gates (h.gates hs)

theorem insert {row : NewRow JobSchedule} (hjobs : t.jobs = s.jobs.insert row)
    (hrow : IsQueued queues (row.make s.jobs.next))
    (hgates : Unescalated s.gates → Unescalated t.gates) :
    Grows queues s t where
  old j hj := by
    rw [hjobs]
    exact Table.mem_insert.mpr (.inl hj)
  new j hj := by
    rw [hjobs] at hj
    rcases Table.mem_insert.mp hj with hj | rfl
    · exact .inl hj
    · exact .inr hrow
  gates := hgates

theorem sameWork (h : SameWork s t) : Grows queues s t := .of_eq h.jobs h.gates

theorem modifyRun {runId : Nat} {u : Update PipelineRun} : Grows queues s (modifyRun runId u s) :=
  .of_eq rfl rfl

theorem failRun {run : PipelineRun} : Grows queues s (failRun run s) := .of_eq (by simp) (by simp)

theorem enqueueStage {run : PipelineRun} {stage : ContentStage} {attempt : Nat}
    {runAfter : Option Nat} (hfirst : attempt = 0 → queues .stage run.id stage)
    (hagain : attempt ≠ 0 → queues .retry run.id stage) :
    Grows queues s (enqueueStage run stage attempt runAfter s) := by
  by_cases hzero : attempt = 0
  · refine .insert rfl ⟨rfl, ?_, fun _ => hzero, fun _ => ⟨run.id, stage, rfl, rfl, ?_⟩⟩ id
    · simp [stageJob, hzero]
    · simpa [stageJob, hzero] using hfirst hzero
  · refine .insert rfl ⟨rfl, ?_, fun hkind => ?_, fun _ => ⟨run.id, stage, rfl, rfl, ?_⟩⟩ id
    · simp [stageJob, hzero]
    · simp [stageJob, hzero] at hkind
    · simpa [stageJob, hzero] using hagain hzero

theorem enqueueCompensations {run : PipelineRun} {stages : List ContentStage} :
    Grows queues s (enqueueCompensations run stages s) := by
  unfold ContentOrchestrator.enqueueCompensations
  induction stages generalizing s with
  | nil => exact .refl s
  | cons stage rest ih =>
    have hrow : Grows queues s (enqueueCompensation run stage s) :=
      .insert rfl ⟨rfl, fun h => (by cases h), fun h => (by cases h), fun h => (by cases h)⟩ id
    exact hrow.trans ih

end Grows

variable {queues : JobType → Nat → ContentStage → Prop}

theorem Advanced.grows {run : PipelineRun} {stage : ContentStage}
    {trigger : WorkflowTransitionTrigger} {context : List (String × Json)}
    {stored : Table ReviewGate} (h : Advanced run stage trigger context stored s t)
    (hwork : ∀ definitionId stageDef, run.definitionId = some definitionId →
      route s definitionId stage trigger context = .ok (.work stageDef) →
        queues .stage run.id stageDef.stageKey) :
    Grows queues s t := by
  cases h with
  | finished _ _ => exact .of_eq (by simp) (by simp)
  | queued pinned routed =>
    exact Grows.modifyRun.trans
      (.enqueueStage (fun _ => hwork _ _ pinned routed) fun hne => absurd rfl hne)
  | @gated _ stageDef item _ _ _ _ =>
    have hopen : ∀ m : Db, Grows queues m
        (openReviewGate run item stageDef.stageKey stageDef.timeoutSeconds m) := by
      intro m
      have hrow : IsQueued queues ((reviewTimeoutJob run.workspaceId m.gates.next
          (m.now + seconds stageDef.timeoutSeconds) m).make m.jobs.next) :=
        ⟨rfl, fun h => (by cases h), fun h => (by cases h), fun h => (by cases h)⟩
      refine .insert (by simp only [openReviewGate_frame]) hrow fun hs => ?_
      simp only [openReviewGate_frame]
      exact hs.insert rfl
    exact Grows.modifyRun.trans (hopen _)
  | kept _ _ _ _ => exact .modifyRun

theorem FailureHandled.grows {run : PipelineRun} {stage : ContentStage} {attempt : Nat}
    {message : String} (h : FailureHandled run stage attempt message s t) (hattempt : 1 ≤ attempt)
    (hagain : queues .retry run.id stage) : Grows queues s t := by
  have hfail : Grows queues s (failStage run stage attempt message s) :=
    .of_eq (by simp [failStage]) (by simp [failStage])
  cases h with
  | retried _ _ _ _ =>
    have hemit : Grows queues s (emitForRun EventType.stageFailed run s) := .of_eq (by simp)
        (by simp)
    exact hemit.trans (.enqueueStage (fun hzero => by omega) fun _ => hagain)
  | failed => exact hfail
  | compensated => exact ((hfail.trans .modifyRun).trans .enqueueCompensations).trans .modifyRun

theorem Submitted.grows {a : StageAssignment} {result : Option (List (String × Json))}
    {success : Bool} {message : String} (h : Submitted a result message s success t)
    (hattempt : 1 ≤ a.attemptNumber)
    (hwork : ∀ run definitionId stageDef, s.runs.get? a.pipelineRunId = some run →
      run.status.isTerminal = false → run.definitionId = some definitionId → success = true →
      route s definitionId a.stage .onSuccess (result.getD []) = .ok (.work stageDef) →
      queues .stage a.pipelineRunId stageDef.stageKey)
    (hagain : queues .retry a.pipelineRunId a.stage) : Grows queues s t := by
  cases h with
  | orphaned _ => exact .of_eq (by simp) (by simp)
  | @succeeded run s1 _ found _ settled advanced =>
    have hs1 : Grows queues s s1 ∧ s1.definitions = s.definitions := by
      rcases settled with ⟨_, rfl⟩ | ⟨_, _, _, rfl⟩
      · exact ⟨.of_eq (by simp [recordSuccess]) (by simp [recordSuccess]), by simp [recordSuccess]⟩
      · exact ⟨.of_eq (by simp [recordSuccess]) (by simp [recordSuccess]), by simp [recordSuccess]⟩
    rcases advanced with ⟨_, rfl⟩ | ⟨live, ha⟩
    · exact hs1.1
    · refine hs1.1.trans (ha.grows fun definitionId stageDef pinned routed => ?_)
      rw [route_congr hs1.2] at routed
      have hid : run.id = a.pipelineRunId := (Table.get?_eq_some.mp found).2
      rw [hid]
      exact hwork run definitionId stageDef found live pinned rfl routed
  | @failed run s1 _ found _ settled handled =>
    have hid : run.id = a.pipelineRunId := (Table.get?_eq_some.mp found).2
    have hs1 : Grows queues s s1 := by
      rcases settled with ⟨_, rfl⟩ | ⟨_, _, rfl⟩
      · exact .of_eq (by simp [recordFailedAttempt]) (by simp [recordFailedAttempt])
      · exact .of_eq (by simp [recordFailedAttempt]) (by simp [recordFailedAttempt])
    exact hs1.trans (handled.grows hattempt (hid ▸ hagain))

theorem Recovered.grows {a : StageAssignment} {reason : RecoveryReason}
    (h : Recovered a reason s t) :
    Grows queues s t := by
  cases h with
  | skipped _ => exact .refl s
  | requeued _ _ _ =>
    refine .of_eq ?_ ?_ <;>
    · unfold requeueAssignment
      cases (releaseWorkerSlot a.workerId s).runs.get? a.pipelineRunId <;> simp
  | exhausted _ _ =>
    refine .of_eq ?_ ?_ <;>
    · unfold deadLetterAssignment
      split
      · split <;> simp
      · simp

theorem Claimed.grows {workerId : Nat} {claimToken : Option Nat} {locked : List Nat}
    (h : Claimed workerId claimToken locked s t) : Grows queues s t := by
  cases h with
  | idle => exact .refl s
  | chosen _ _ _ _ _ _ _ settled =>
    cases settled with
    | held _ _ => exact .of_eq (by simp) (by simp)
    | reserved _ _ => exact .of_eq (by simp) (by simp)
    | granted _ => exact .of_eq (by simp) (by simp)

theorem handleReviewTimeout_grows {gateId : Nat} :
    Grows queues s (handleReviewTimeout gateId s) := by
  unfold handleReviewTimeout
  split
  · exact .refl s
  split
  · exact .refl s
  split
  · rename_i gate _ _ _
    have hrow : IsQueued queues ((reviewTimeoutJob gate.workspaceId gate.id
        (s.now + hours defaultReviewTimeoutHours) s).make s.jobs.next) :=
      ⟨rfl, fun h => (by cases h), fun h => (by cases h), fun h => (by cases h)⟩
    refine .insert (by simp only [escalateGate_frame]) hrow fun hs => ?_
    simp only [escalateGate_frame]
    exact hs.modify (fun g hawait => by cases hawait)
  · have hclosed : ∀ gate : ReviewGate, Grows queues s
        (emit EventType.reviewTimedOut gate.workspaceId
        (.pipelineRun gate.pipelineRunId) (some gate.id)
          (modifyGate gate.id ReviewGate.timeOut s)) := by
      intro gate
      refine ⟨fun j hj => hj, fun j hj => .inl hj, fun hs => ?_⟩
      simp only [emit_frame, modifyGate_frame]
      exact hs.modify (fun g hawait => by cases hawait)
    unfold timeOutGate
    split
    · exact hclosed _
    · exact (hclosed _).trans .failRun

theorem Resumed.grows {gate : ReviewGate} {approved : Bool} (h : Resumed gate approved s t)
    (hwork : ∀ run definitionId stageDef, s.runs.get? gate.pipelineRunId = some run →
      run.definitionId = some definitionId → resumesRun s definitionId gate approved = true →
      route s definitionId gate.stage (reviewTrigger approved) [] = .ok (.work stageDef) →
      queues .stage gate.pipelineRunId stageDef.stageKey) : Grows queues s t := by
  have hdecide : Grows queues s (modifyGate gate.id (ReviewGate.decide approved s.now) s) :=
    ⟨fun j hj => hj, fun j hj => .inl hj, fun hs => hs.decide⟩
  cases h with
  | rejected _ _ => exact (hdecide.trans .modifyRun).trans .failRun
  | @advanced run _ found resumes advanced =>
    refine (hdecide.trans .modifyRun).trans
      (advanced.grows fun definitionId stageDef pinned routed => ?_)
    have hsame : route s definitionId gate.stage (reviewTrigger approved) [] =
        .ok (.work stageDef) := routed
    have hid : run.id = gate.pipelineRunId := (Table.get?_eq_some.mp found).2
    rw [hid]
    exact hwork run definitionId stageDef found pinned (resumes definitionId pinned) hsame
  | stuck _ _ raised =>
    rcases (advanceOrFinish_raises raised).1 with rfl | ⟨_, _, _, _, rfl⟩
    · exact hdecide.trans .modifyRun
    · exact (hdecide.trans .modifyRun).trans .modifyRun
  | unrouted _ _ => exact hdecide
  | unloaded => exact .refl s

/-! ## What happens to one row -/

/-- How the scheduler settles a leased row. -/
inductive Settles (s : Db) (j : JobSchedule) : Update JobSchedule → Prop
  | park {runAfter : Nat} : Settles s j (JobSchedule.park runAfter)
  | reschedule {runAfter : Nat} (limit : atConcurrencyLimit s j.workspaceId = true)
      (below : j.atCeiling = false) : Settles s j (JobSchedule.reschedule runAfter)
  | retire : Settles s j JobSchedule.retire
  | exhaust : Settles s j JobSchedule.exhaust
  | done : Settles s j JobSchedule.done

/-- What an operation makes of a queue row. -/
inductive JobMove (op : Op) (s : Db) (j : JobSchedule) : JobSchedule → Prop
  | kept : JobMove op s j j
  | leased (due : j.isDue s.now = true) : JobMove op s j ((JobSchedule.lease s.now).apply j)
  | reaped {batchSize : Nat} {lockedJobs : List Nat} (request : op = .reapJobs batchSize lockedJobs)
      (reaped : isReaped batchSize lockedJobs s j = true) : JobMove op s j
        (JobSchedule.reap.apply j)
  | settled {u : Update JobSchedule} {lockedWorkers : List Nat} {jitter : Nat}
      (processed : op = .processJob j.id lockedWorkers jitter) (leased : j.status = .leased)
      (settles : Settles s j u) : JobMove op s j (u.apply j)

theorem JobMove.identity {op : Op} {j j' : JobSchedule} (h : JobMove op s j j') :
    j'.id = j.id ∧ j'.jobType = j.jobType ∧ j'.refId = j.refId ∧ j'.refTable = j.refTable := by
  cases h with
  | settled _ _ settles => cases settles <;> exact ⟨rfl, rfl, rfl, rfl⟩
  | _ => exact ⟨rfl, rfl, rfl, rfl⟩

/-- An operator's retry of one of its targets. -/
structure IsRetried (s : Db) (op : Op) (j : JobSchedule) : Prop where
  pending : j.status = .pending
  kind : j.jobType = .retry
  target : ∃ workspaceId target, op = .retryFailedJobs workspaceId ∧
    target ∈ retryTargets s workspaceId ∧ j.refId = .run target.runId ∧ j.refTable = target.stageKey

theorem IsRetried.isOperatorRetry {op : Op} {j : JobSchedule} (h : IsRetried s op j) :
    op.isOperatorRetry = true := by
  obtain ⟨_, _, rfl, _⟩ := h.target
  rfl

/-- A row an operation adds: as the engine queues it, or an operator's retry. -/
def IsAdded (s : Db) (op : Op) (j : JobSchedule) : Prop :=
  IsQueued (QueuesStage s op) j ∨ IsRetried s op j

/-- Every row is moved, every other row is added, and the gates stay unescalated. -/
structure TablesMove (op : Op) (s t : Db) : Prop where
  old : ∀ j ∈ s.jobs, ∃ j' ∈ t.jobs, JobMove op s j j'
  new : ∀ j' ∈ t.jobs, (∃ j ∈ s.jobs, JobMove op s j j') ∨ IsAdded s op j'
  gates : Unescalated s.gates → Unescalated t.gates

namespace TablesMove

variable {op : Op}

theorem of_grows (h : Grows (QueuesStage s op) s t) : TablesMove op s t where
  old j hj := ⟨j, h.old j hj, .kept⟩
  new j hj := (h.new j hj).elim (fun hold => .inl ⟨j, hold, .kept⟩) fun hnew => .inr (.inl hnew)
  gates := h.gates

/-- Rows that meet the condition are updated. -/
theorem modifyWhere {q : JobSchedule → Bool} {u : Update JobSchedule}
    (hjobs : t.jobs = s.jobs.modifyWhere q u) (hgates : t.gates = s.gates)
    (hmove : ∀ j ∈ s.jobs, q j = true → JobMove op s j (u.apply j)) : TablesMove op s t where
  old j hj := by
    refine ⟨if q j then u.apply j else j, ?_, ?_⟩
    · rw [hjobs]
      exact Table.mem_modifyWhere.mpr ⟨j, hj, rfl⟩
    · split
      · exact hmove j hj ‹_›
      · exact .kept
  new j' hj' := by
    rw [hjobs] at hj'
    obtain ⟨j, hj, rfl⟩ := Table.mem_modifyWhere.mp hj'
    refine .inl ⟨j, hj, ?_⟩
    split
    · exact hmove j hj ‹_›
    · exact .kept
  gates hs := hgates ▸ hs

end TablesMove

/-- What a scheduler pass over one row amounts to: it adds rows, and then settles the row. -/
theorem Processed.settles {job : JobSchedule} {lockedWorkers : List Nat}
    (h : Processed job lockedWorkers s t) (hkind : job.jobType ≠ .stageTimeout) :
    ∃ m u, Grows queues s m ∧ Settles s job u ∧ t.jobs = m.jobs.modify job.id u ∧
      t.gates = m.gates := by
  cases h with
  | parked _ _ _ _ _ => exact ⟨s, _, .refl s, .park, rfl, rfl⟩
  | retired _ _ _ _ _ => exact ⟨s, _, .refl s, .retire, rfl, rfl⟩
  | repeated _ _ _ _ _ => exact ⟨s, _, .refl s, .done, rfl, rfl⟩
  | held _ _ _ _ _ _ _ => exact ⟨_, _, .of_eq (by simp) (by simp), .park, rfl, rfl⟩
  | assigned _ _ _ _ _ _ _ => exact ⟨_, _, .of_eq (by simp) (by simp), .done, rfl, rfl⟩
  | waiting _ _ _ _ _ _ _ => exact ⟨_, _, .of_eq (by simp) (by simp), .done, rfl, rfl⟩
  | rescheduled _ limit below => exact ⟨s, _, .refl s, .reschedule limit below, rfl, rfl⟩
  | exhausted _ _ _ exhausted =>
    cases exhausted with
    | alone _ routed => exact ⟨s, _, .refl s, .exhaust, by simp [routed], by simp [routed]⟩
    | withRun _ _ routed => exact ⟨s, _, .refl s, .exhaust, by simp [routed], by simp [routed]⟩
  | stageTimedOut kind => exact absurd kind hkind
  | reviewTimedOut _ _ => exact ⟨_, _, handleReviewTimeout_grows, .done, rfl, rfl⟩
  | finished _ => exact ⟨s, _, .refl s, .done, rfl, rfl⟩

theorem Processed.tables {job : JobSchedule} {lockedWorkers lockedWorkers' : List Nat}
    {jitter : Nat} (h : Processed job lockedWorkers s t) (hmem : job ∈ s.jobs)
    (hleased : job.status = .leased) (hkind : job.jobType ≠ .stageTimeout) :
    TablesMove (.processJob job.id lockedWorkers' jitter) s t := by
  obtain ⟨m, u, hadded, hu, hjobs, hgates⟩ : ∃ m u,
      Grows (QueuesStage s (.processJob job.id lockedWorkers' jitter)) s m ∧ Settles s job u ∧
        t.jobs = m.jobs.modify job.id u ∧ t.gates = m.gates := h.settles hkind
  have hsettled : JobMove (.processJob job.id lockedWorkers' jitter) s job (u.apply job) :=
    .settled rfl hleased hu
  -- the row added to the queue has a key of its own
  have hown : ∀ j ∈ m.jobs, j.id = job.id → j = job := by
    intro j hj hid
    have hone : m.jobs.get? job.id = some j := Table.get?_eq_some.mpr ⟨hj, hid⟩
    have htwo : m.jobs.get? job.id = some job := Table.get?_of_mem (hadded.old job hmem)
    rw [hone] at htwo
    exact Option.some.inj htwo
  refine ⟨fun j hj => ?_, fun j' hj' => ?_, fun hs => hgates ▸ hadded.gates hs⟩
  · rw [hjobs]
    refine ⟨if j.id = job.id then u.apply j else j, ?_, ?_⟩
    · exact Table.mem_modify.mpr ⟨j, hadded.old j hj, rfl⟩
    · split
      · rw [hown j (hadded.old j hj) ‹_›]
        exact hsettled
      · exact .kept
  · rw [hjobs] at hj'
    obtain ⟨j, hj, rfl⟩ := Table.mem_modify.mp hj'
    split
    · rename_i hid
      rw [hown j hj hid]
      exact .inl ⟨job, hmem, hsettled⟩
    · rcases hadded.new j hj with hold | hnew
      · exact .inl ⟨j, hold, .kept⟩
      · exact .inr (.inl hnew)

theorem Revivals.gates {workspaceId : Nat} {targets : List RetryTarget}
    (h : Revivals workspaceId s targets t) : t.gates = s.gates := by
  induction h with
  | nothing same => exact same.gates
  | more _ once ih =>
    obtain ⟨run, attempt, _, _, hsame⟩ := once
    rw [hsame.gates, enqueueOperatorRetry]
    simp only [reviveRun_frame]
    exact ih

/-- A chain of retries adds one job for every target. -/
theorem Revivals.jobs {workspaceId : Nat} {targets : List RetryTarget}
    (h : Revivals workspaceId s targets t) :
    (∀ j ∈ s.jobs, j ∈ t.jobs) ∧ ∀ j ∈ t.jobs, j ∈ s.jobs ∨
    j.status = .pending ∧ j.jobType = .retry ∧
      ∃ target ∈ targets, j.refId = .run target.runId ∧ j.refTable = target.stageKey := by
  induction h with
  | nothing same =>
    rw [same.jobs]
    exact ⟨fun j hj => hj, fun j hj => .inl hj⟩
  | @more targets target t u _ once ih =>
    obtain ⟨run, attempt, hrun, _, hsame⟩ := once
    obtain ⟨hold, hnew⟩ := ih
    have hid : run.id = target.runId := (Table.get?_eq_some.mp hrun).2
    have hjobs := hsame.jobs
    simp only [enqueueOperatorRetry, reviveRun_frame] at hjobs
    refine ⟨fun j hj => ?_, fun j hj => ?_⟩
    · rw [hjobs]
      exact Table.mem_insert.mpr (.inl (hold j hj))
    · rw [hjobs] at hj
      rcases Table.mem_insert.mp hj with hj | rfl
      · rcases hnew j hj with hj | ⟨hpending, hkind, target, hmem, htarget⟩
        · exact .inl hj
        · exact .inr ⟨hpending, hkind, target, List.mem_append_left _ hmem, htarget⟩
      · exact .inr ⟨rfl, rfl, target, List.mem_append_right _ (List.mem_singleton_self target),
          congrArg Ref.run hid, rfl⟩

theorem retryFailedJobs_tables {workspaceId : Nat} :
    TablesMove (.retryFailedJobs workspaceId) s (retryFailedJobs workspaceId s) := by
  obtain ⟨hold, hnew⟩ := (retryFailedJobs_revivals (s := s)).jobs
  refine ⟨fun j hj => ⟨j, hold j hj, .kept⟩, fun j hj => ?_, fun hs => ?_⟩
  · rcases hnew j hj with hj | ⟨hpending, hkind, target, hmem, htarget⟩
    · exact .inl ⟨j, hj, .kept⟩
    · exact .inr (.inr ⟨hpending, hkind, workspaceId, target, rfl, hmem, htarget⟩)
  · rw [retryFailedJobs_revivals.gates]
    exact hs

/-- **What one operation does to the queue.** -/
theorem Effect.tables {op : Op} (h : Effect op s t)
    (hkinds : ∀ j ∈ s.jobs, j.jobType ≠ .stageTimeout) (hkeyed : ∀ a ∈ s.assignments, a.IsKeyed) :
    TablesMove op s t := by
  cases h with
  | @started _ workspaceId contentItemId definitionId _ _ run defined opens row =>
    have hcreate : Grows (QueuesStage s (.startRun workspaceId contentItemId definitionId)) s
        (createRun workspaceId contentItemId s) := .of_eq rfl rfl
    have hid : run.id = s.runs.next := by rw [row]
    refine .of_grows ((hcreate.trans .modifyRun).trans
      (.enqueueStage (fun _ => ?_) fun hne => absurd rfl hne))
    rw [hid]
    exact .started defined opens
  | polled =>
    refine .modifyWhere rfl rfl fun j _ hpolled => .leased ?_
    exact (Bool.and_eq_true_iff.mp hpolled).2
  | processed found leased done =>
    obtain ⟨hmem, rfl⟩ := Table.get?_eq_some.mp found
    exact done.tables hmem leased (hkinds _ hmem)
  | reaped =>
    exact .modifyWhere rfl rfl fun j _ hreaped => .reaped rfl hreaped
  | claimed done => exact .of_grows done.grows
  | acknowledged _ _ => exact .of_grows (.of_eq rfl rfl)
  | renewed _ _ => exact .of_grows (.of_eq rfl rfl)
  | submitted found held admitted done =>
    obtain ⟨hmem, _⟩ := Table.get?_eq_some.mp found
    refine .of_grows (done.grows (hkeyed _ hmem).attempt ?_ (.again hmem))
    rintro run definitionId stageDef hrun live pinned rfl routed
    exact .routed (submittedRoute_eq found held admitted hrun live pinned routed)
  | recovered _ done => exact .of_grows done.grows
  | @decided _ s1 s2 _ workspaceId gateId reviewerId approved expected gate _ found owned admitted
      recorded
      applied booked _ _ =>
    have hrecord : Grows (QueuesStage s (.decide workspaceId gateId reviewerId approved expected)) s
        (modifyGate gateId (ReviewGate.recordReviewer reviewerId) s) :=
      ⟨fun j hj => hj, fun j hj => .inl hj, fun hs => hs.recordReviewer⟩
    have hdefs : s1.definitions = s.definitions := recorded.definitions
    refine .of_grows (((hrecord.trans (.sameWork recorded)).trans (applied.grows ?_)).trans
      (.sameWork booked))
    intro run definitionId stageDef hrun pinned resumes routed
    rw [resumesRun_congr hdefs] at resumes
    rw [route_congr hdefs] at routed
    rw [recorded.runs] at hrun
    have htaken : decidedRoute s gate.pipelineRunId workspaceId gateId approved expected =
        some (.work stageDef) := decidedRoute_eq found owned admitted hrun pinned resumes routed
    exact .routed htaken
  | cancelled _ =>
    refine .of_grows (.of_eq ?_ ?_) <;>
    · unfold cancelRun
      split <;> simp
  | retried => exact retryFailedJobs_tables
  | changed => exact .of_grows (.of_eq rfl rfl)

/-! ## What every history keeps -/

/-- No stage timeout is queued, an assignment has its own key, a leased row was due, and no awaiting
gate was escalated. -/
structure Db.Sound (db : Db) : Prop where
  jobs : ∀ j ∈ db.jobs, j.jobType ≠ .stageTimeout
  keyed : ∀ a ∈ db.assignments, a.IsKeyed
  gates : Unescalated db.gates
  due : ∀ j ∈ db.jobs, j.status = .leased → j.runAfter ≤ db.now

/-- Time does not run backwards. -/
theorem Effect.now_le {op : Op} (h : Effect op s t)
    (hkinds : ∀ j ∈ s.jobs, j.jobType ≠ .stageTimeout) :
    s.now ≤ t.now := by
  cases hop : op with
  | change elapsed environment =>
    subst hop
    cases h with
    | changed => exact Nat.le_add_right _ _
  | _ =>
    have hconfig : t.config = s.config := h.config hkinds (by rw [hop]; simp)
    exact Nat.le_of_eq (congrArg Configuration.now hconfig).symm

theorem Effect.sound {op : Op} (h : Effect op s t) (hs : s.Sound) : t.Sound := by
  have hmove := h.tables hs.jobs hs.keyed
  have hnow := h.now_le hs.jobs
  refine ⟨fun j' hj' => ?_, fun a' ha' => ?_, hmove.gates hs.gates, fun j' hj' hleased => ?_⟩
  · rcases hmove.new j' hj' with ⟨j, hj, hmoved⟩ | hqueued | ⟨_, hretry, _⟩
    · rw [hmoved.identity.2.1]
      exact hs.jobs j hj
    · exact hqueued.kind
    · rw [hretry]
      simp
  · rcases h.attempts hs.jobs a' ha' with ⟨a, ha, hsame⟩ | ⟨-, hkeyed, -⟩
    · exact hsame.isKeyed (hs.keyed a ha)
    · exact hkeyed
  · rcases hmove.new j' hj' with ⟨j, hj, hmoved⟩ | hqueued | ⟨hpending, _, _⟩
    · cases hmoved with
      | kept => exact (hs.due _ hj hleased).trans hnow
      | leased due =>
        simp only [JobSchedule.isDue, Bool.and_eq_true, decide_eq_true_eq] at due
        exact due.2.trans hnow
      | reaped _ _ => cases hleased
      | settled _ _ settles => cases settles <;> cases hleased
    · rw [hqueued.pending] at hleased
      cases hleased
    · rw [hpending] at hleased
      cases hleased

theorem Db.Fresh.sound {db : Db} (h : db.Fresh) : db.Sound := by
  refine ⟨fun j hj => ?_, fun a ha => ?_, fun g hg _ => ?_, fun j hj _ => ?_⟩
  · rw [h.jobs] at hj
    cases hj
  · rw [h.assignments] at ha
    cases ha
  · rw [h.gates] at hg
    cases hg
  · rw [h.jobs] at hj
    cases hj

theorem step_sound (db : Db) (op : Op) (h : db.Sound) : (step db op).Sound := by
  rcases step_cases db op with heq | heffect
  · rw [heq]
    exact h
  · exact heffect.sound h

theorem step_now_le (op : Op) (h : s.Sound) : s.now ≤ (step s op).now := by
  rcases step_cases s op with heq | heffect
  · rw [heq]
  · exact heffect.now_le h.jobs

theorem history_sound {db : Db} {ok : Db → Op → Prop} (hstart : db.Sound)
    (h : Reach Steps ok db t) :
    t.Sound := by
  refine h.invariant (P := Db.Sound) hstart ?_
  rintro u op v hu _ rfl
  exact step_sound u op hu

/-- Workflow definitions are never changed. -/
theorem step_definitions (op : Op) (hs : s.Sound) : (step s op).definitions = s.definitions := by
  rcases step_cases s op with heq | heffect
  · rw [heq]
  cases hop : op with
  | change elapsed environment =>
    rw [hop] at heffect
    cases heffect with
    | changed => rfl
  | _ =>
    have hconfig : (step s op).config = s.config := heffect.config hs.jobs (by rw [hop]; simp)
    rw [← hop]
    exact congrArg Configuration.definitions hconfig

end ContentOrchestrator

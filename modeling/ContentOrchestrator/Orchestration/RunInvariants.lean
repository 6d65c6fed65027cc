import ContentOrchestrator.Orchestration.RunSimulation

/-! # Every run of the system is a run's life

The step of the whole system, for every run: a run that does not exist yet stays
unknown or is started, and a run that shows a view makes one move. What the moves
keep, every history of the engine keeps. -/

namespace ContentOrchestrator

open Lib

variable {s t : Db} {r : Nat} {v : RunView}

/-! ## Steps that move no token -/

theorem Shows.mapJobs {x : RunSlice} (h : Shows x v) {f : JobSchedule → JobSchedule}
    (hf : ∀ j, (f j).id = j.id ∧ (f j).refTable = j.refTable ∧ (f j).attempt = j.attempt) :
    Shows { x with jobs := x.jobs.map f } v := by
  cases h with
  | idle pinned => exact .idle pinned
  | @queued run d job pinned =>
    obtain ⟨hid, htext, hattempt⟩ := hf job
    have hshown : Shows ⟨some run, [f job], [], [], []⟩ _ := .queued pinned
    rw [hid, htext, hattempt] at hshown
    exact hshown
  | waiting pinned idle => exact .waiting pinned idle
  | working pinned held covers => exact .working pinned held covers
  | reviewing pinned => exact .reviewing pinned

/-- A reaping delays a queued run by one attempt, if it takes the run's job back. -/
theorem Shows.reapJobs {x : RunSlice} (h : Shows x v) (limit : ContentStage → Option Nat)
    (p : JobSchedule → Bool) :
    ∃ l v', Move limit v l v' ∧ (l = .quiet ∨ l = .delayed ∧ ∃ j ∈ x.jobs, p j = true) ∧
      Shows { x with jobs := x.jobs.map fun j => if p j then JobSchedule.reap.apply j else j }
        v' := by
  cases h with
  | idle pinned => exact ⟨.quiet, _, .quiet, .inl rfl, .idle pinned⟩
  | @queued run d job pinned =>
    cases hp : p job with
    | true =>
      refine ⟨.delayed, _, .delayed rfl, .inr ⟨rfl, job, List.mem_singleton_self job, hp⟩, ?_⟩
      simp only [List.map_cons, List.map_nil, hp, if_true]
      exact .queued pinned
    | false =>
      refine ⟨.quiet, _, .quiet, .inl rfl, ?_⟩
      simp only [List.map_cons, List.map_nil, hp, Bool.false_eq_true, if_false]
      exact .queued pinned
  | waiting pinned idle => exact ⟨.quiet, _, .quiet, .inl rfl, .waiting pinned idle⟩
  | working pinned held covers => exact ⟨.quiet, _, .quiet, .inl rfl, .working pinned held covers⟩
  | reviewing pinned => exact ⟨.quiet, _, .quiet, .inl rfl, .reviewing pinned⟩

/-- Cancelling takes the assignment away; a queued job and a gate stay behind. -/
theorem Shows.cancel {x : RunSlice} (h : Shows x v) (now : Nat) :
    Shows { x with
        run := x.run.map (PipelineRun.finish .cancelled now).apply, assignments := []
        reservations := [] }
      { v with status := .cancelled, token := v.token.filter fun tok => !tok.isAssignment } := by
  cases h with
  | idle pinned => exact .idle pinned
  | queued pinned => exact .queued pinned
  | waiting pinned _ => exact .idle pinned
  | working pinned _ _ => exact .idle pinned
  | reviewing pinned => exact .reviewing pinned

/-- A held attempt stays at work under a change of its lease. -/
theorem Shows.rewriteHeld {a : StageAssignment} {u : Update StageAssignment}
    (hget : s.assignments.get? a.id = some a) (hheld : a.status.inFlight = true)
    (hlive : KeepsLive u)
    (hu : ∀ b : StageAssignment, b.status.inFlight = true →
      (u.apply b).status.inFlight = true ∧ (u.apply b).stage = b.stage ∧
        (u.apply b).attemptNumber = b.attemptNumber)
    (hv : Shows (s.slice r) v) :
    Shows (Db.slice { s with assignments := s.assignments.modify a.id u } r) v := by
  have hmem := (Table.get?_eq_some.mp hget).1
  have hx : Db.slice { s with assignments := s.assignments.modify a.id u } r =
      { s.slice r with
        assignments := (s.slice r).assignments.map fun b =>
          if b.id == a.id then u.apply b else b } :=
    slice_rewriteAssignment hlive hget (isLive_of_inFlight hheld) rfl rfl rfl rfl rfl
  rw [hx]
  cases hin : a.isLiveOf r with
  | false =>
    rw [slice_assignments_unchanged hmem hin]
    exact hv
  | true =>
    obtain ⟨row, d, w, hpin, hcovers, hslice, rfl⟩ :=
      hv.of_inFlight (mem_slice_assignments.mpr ⟨hmem, hin⟩) hheld
    obtain ⟨hstill, hstage, hattempt⟩ := hu a hheld
    have hid : (u.apply a).id = a.id := u.key_apply a
    rw [hslice]
    simp only [List.map_cons, List.map_nil, beq_self_eq_true, if_true]
    have hshown := Shows.working (a := u.apply a) (w := w) hpin hstill (hcovers.trans hstage.symm)
    rw [hid, hstage, hattempt] at hshown
    exact hshown

/-! ## One step of a known run -/

theorem Processed.simulated {job : JobSchedule} {lockedWorkers lockedWorkers' : List Nat}
    {jitter jobId : Nat} (h : Processed job lockedWorkers s t) (hget : s.jobs.get? jobId = some job)
    (hleased : job.status = .leased) (hs : s.Sound) (hv : Shows (s.slice r) v) :
    Simulated s t (.processJob jobId lockedWorkers' jitter) r v := by
  obtain ⟨hmem, rfl⟩ := Table.get?_eq_some.mp hget
  cases hp : job.isActiveFor r with
  | true => exact h.moves hmem hleased hp hv
  | false =>
    cases hkind : job.isStageJob with
    | true =>
      refine .quiet hv (h.other hmem hleased hs hp fun hno => ?_)
      rw [hkind] at hno
      cases hno
    | false =>
      cases h with
      | reviewTimedOut _ _ =>
        exact (handleReviewTimeout_simulated hs hv).of_slice
          (slice_closeOtherJob isActive_done (mem_jobs_handleReviewTimeout hmem) hp)
      | finished _ => exact .quiet hv (slice_closeOtherJob isActive_done hmem hp)
      | stageTimedOut kind => exact absurd kind (hs.jobs job hmem)
      | parked kind _ _ _ _ => rw [hkind] at kind; cases kind
      | retired kind _ _ _ _ => rw [hkind] at kind; cases kind
      | repeated kind _ _ _ _ => rw [hkind] at kind; cases kind
      | held kind _ _ _ _ _ _ => rw [hkind] at kind; cases kind
      | assigned kind _ _ _ _ _ _ => rw [hkind] at kind; cases kind
      | waiting kind _ _ _ _ _ _ => rw [hkind] at kind; cases kind
      | rescheduled kind _ _ => rw [hkind] at kind; cases kind
      | exhausted kind _ _ _ => rw [hkind] at kind; cases kind

/-- A verdict on a gate, from the recorded reviewer to the delivered decision. -/
theorem decided_simulated {s₁ s₂ : Db} {workspaceId gateId reviewerId : Nat} {approved : Bool}
    {expected : Option Nat} {gate decided : ReviewGate} (found : s.gates.get? gateId = some gate)
    (owned : gate.workspaceId = workspaceId)
    (admitted : assertDecidable gate approved expected = .ok ())
    (recorded : SameWork (modifyGate gateId (ReviewGate.recordReviewer reviewerId) s) s₁)
    (applied : Resumed ((ReviewGate.recordReviewer reviewerId).apply gate) approved s₁ s₂)
    (booked : SameWork s₂ t) (result : t.gates.get? gateId = some decided)
    (settled : decided.status ≠ .awaiting) (hv : Shows (s.slice r) v) :
    Simulated s t (.decide workspaceId gateId reviewerId approved expected) r v := by
  obtain ⟨hmem, rfl⟩ := Table.get?_eq_some.mp found
  have hawait := awaiting_of_decidable admitted
  -- the gate as the handler sees it
  have hget₁ := recorded.recorded_gate found
  have hmem₁ := (Table.get?_eq_some.mp hget₁).1
  have hslice₁ : s₁.slice r = { s.slice r with
      gates := (s.slice r).gates.map fun g =>
        if g.id == gate.id then (ReviewGate.recordReviewer reviewerId).apply g else g } :=
    recorded.slice.trans slice_recordReviewer
  have hdefs : s₁.definitions = s.definitions := recorded.definitions.trans (by simp)
  by_cases hr : r = gate.pipelineRunId
  · subst hr
    have hin : gate.isAwaitingFor gate.pipelineRunId = true := by
      simp [ReviewGate.isAwaitingFor, hawait]
    obtain ⟨row, d, hpin, hx, rfl⟩ := hv.of_gate (mem_slice_gates.mpr ⟨hmem, hin⟩)
    have hrow : s.runs.get? gate.pipelineRunId = some row := by rw [← slice_run, hx]
    have hx₁ : s₁.slice gate.pipelineRunId =
        ⟨some row, [], [], [(ReviewGate.recordReviewer reviewerId).apply gate], []⟩ := by
      rw [hslice₁, hx]
      simp
    have hdone : ∀ g, s₂.gates.get? gate.id = some g → g.status ≠ .awaiting := by
      intro g hg
      rw [← booked.gates] at hg
      have hsame : some g = some decided := hg.symm.trans result
      cases hsame
      exact settled
    have hstrands : resumesRun s₁ d gate approved = true →
        movesOn (route s₁ d gate.stage (reviewTrigger approved) []) = false →
          strandsRun s (.decide workspaceId gate.id reviewerId approved expected)
            gate.pipelineRunId = true := by
      intro hresumes hstays
      rw [resumesRun_congr hdefs] at hresumes
      rw [route_congr hdefs] at hstays
      have hget : s.gates.get? gate.id = some gate := found
      simp [strandsRun, hget, owned, admitted, hrow, hpin, hresumes, hstays, Except.isOk,
        Except.toBool]
    obtain ⟨l, v', hmove, hcause, hshow⟩ :=
      applied.moves (q := s) hmem₁ hawait hpin hx₁ hdone hstrands
    have hlimit : stageLimit s₁ d = stageLimit s d := by
      funext stage
      rw [stageLimit, stageLimit, stageDef?_congr hdefs]
    rw [hlimit] at hmove
    refine ⟨l, v', hmove, hcause, ?_⟩
    rw [booked.slice]
    exact hshow
  · exact .quiet hv (applied.other_booked found recorded booked hr)

theorem Claimed.simulated {workerId : Nat} {claimToken : Option Nat} {locked : List Nat} {op : Op}
    (h : Claimed workerId claimToken locked s t) (hv : Shows (s.slice r) v) (hset : v.Settled) :
    Simulated s t op r v := by
  cases h with
  | idle => exact .quiet hv rfl
  | @chosen _ _ row _ _ _ _ _ _ _ mem waiting settled =>
    by_cases hr : r = row.pipelineRunId
    · subst hr
      exact settled.moves mem waiting hv hset
    · exact .quiet hv (settled.other mem waiting hr)

/-- **One committed operation is one move of every run it finds**, unless it is an operator's
retry. -/
theorem Effect.simulated {op : Op} (h : Effect op s t) (hs : s.Sound) (hv : Shows (s.slice r) v)
    (hset : v.Settled) (hretry : ∀ workspaceId, op ≠ .retryFailedJobs workspaceId) :
    Simulated s t op r v := by
  cases h with
  | @started _ _ _ _ definition first run _ _ row =>
    have hne : r ≠ s.runs.next := by
      obtain ⟨known, hknown, _⟩ := hv.run_some
      rintro rfl
      rw [slice_run, Table.get?_next] at hknown
      cases hknown
    have hid : r ≠ run.id := by rw [row]; exact hne
    refine .quiet hv ?_
    rw [slice_enqueueStage, if_neg hid, slice_modifyRun, if_neg hid, slice_createRun, if_neg hne]
  | polled =>
    refine ⟨.quiet, v, .quiet, trivial, ?_⟩
    rw [slice_pollAndLease]
    refine hv.mapJobs fun j => ?_
    split <;> exact ⟨rfl, rfl, rfl⟩
  | processed found leased done => exact done.simulated found leased hs hv
  | @reaped _ batchSize lockedJobs =>
    obtain ⟨l, v', hmove, hcause, hshow⟩ :=
      hv.reapJobs (stageLimit s v.definitionId) (isReaped batchSize lockedJobs s)
    refine ⟨l, v', hmove, ?_, ?_⟩
    · rcases hcause with rfl | ⟨rfl, j, hj, hreaped⟩
      · trivial
      · obtain ⟨hmem, hactive⟩ := mem_slice_jobs.mp hj
        have hsel : j ∈ s.jobs.select fun j =>
            isReaped batchSize lockedJobs s j && j.isActiveFor r :=
          Table.mem_select.mpr ⟨hmem, by rw [hreaped, hactive]; rfl⟩
        have hne : s.jobs.select (fun j => isReaped batchSize lockedJobs s j && j.isActiveFor r) ≠
            [] :=
          List.ne_nil_of_mem hsel
        simpa [Label.cause, delaysJob, postpones, processedJob, reapsJob] using hne
    · rw [slice_reapExpiredLeases]
      exact hshow
  | claimed done => exact done.simulated hv hset
  | @acknowledged _ _ _ duration _ a found held =>
    obtain ⟨_, rfl⟩ := Table.get?_eq_some.mp found
    have hheld : a.status.inFlight = true := by rw [held]; rfl
    have hacknowledge : KeepsLive (StageAssignment.acknowledged s.now) := keepsLive_acknowledged
    have hextend : KeepsLive (StageAssignment.extendLease s.now duration) := keepsLive_extendLease
    have hack := hv.rewriteHeld found hheld hacknowledge fun _ _ => ⟨rfl, rfl, rfl⟩
    refine ⟨.quiet, v, .quiet, trivial, ?_⟩
    refine Shows.rewriteHeld (a := (StageAssignment.acknowledged s.now).apply a) ?_ rfl hextend ?_
      hack
    · have hkey : (s.assignments.modify a.id (StageAssignment.acknowledged s.now)).get? a.id = _ :=
        Table.get?_modify
      rw [if_pos rfl] at hkey
      exact hkey.trans (by rw [show s.assignments.get? a.id = some a from found]; rfl)
    · exact fun b hb => ⟨hb, rfl, rfl⟩
  | @renewed _ _ _ duration _ a found held =>
    obtain ⟨_, rfl⟩ := Table.get?_eq_some.mp found
    refine ⟨.quiet, v, .quiet, trivial, ?_⟩
    exact hv.rewriteHeld found held keepsLive_extendLease fun b hb => ⟨hb, rfl, rfl⟩
  | @submitted _ _ _ _ _ _ _ _ a found held _ done =>
    have hmem := (Table.get?_eq_some.mp found).1
    by_cases hr : r = a.pipelineRunId
    · subst hr
      exact done.moves hmem held hv hset
    · exact .quiet hv (done.other hmem hr)
  | @recovered _ _ _ _ a found done =>
    have hmem := (Table.get?_eq_some.mp found).1
    by_cases hr : r = a.pipelineRunId
    · subst hr
      exact done.moves hmem hv hset
    · exact .quiet hv (done.other hmem hr)
  | decided found owned admitted recorded applied booked result settled =>
    exact decided_simulated found owned admitted recorded applied booked result settled hv
  | @cancelled _ runId run found =>
    by_cases hr : run.status.isTerminal = false ∧ r = run.id
    · obtain ⟨row, hrow, hstatus, _⟩ := hv.run_some
      have hid : run.id = runId := (Table.get?_eq_some.mp found).2
      rw [slice_run, hr.2, hid, found] at hrow
      cases hrow
      refine ⟨.cancelled, _, .cancelled (by rw [← hstatus]; exact hr.1), trivial, ?_⟩
      rw [slice_cancelRun, if_pos hr]
      exact hv.cancel s.now
    · exact .quiet hv (by rw [slice_cancelRun, if_neg hr])
  | retried => exact absurd rfl (hretry _)
  | changed => exact .quiet hv slice_applyEnvironment

/-! ## The operator's retry -/

theorem slice_reviveRun {run : PipelineRun} (hrun : s.runs.get? run.id = some run) :
    (reviveRun run s).slice r =
      if r = run.id then
        { s.slice r with
          run := some (if run.status = .failed then (PipelineRun.setStatus .running).apply run
            else run) }
      else s.slice r := by
  unfold reviveRun
  by_cases hfailed : run.status = .failed
  · rw [if_pos hfailed, slice_modifyRun, if_pos hfailed]
    split
    · rename_i h
      rw [slice_run, h, hrun]
      rfl
    · rfl
  · rw [if_neg hfailed, if_neg hfailed]
    split
    · rename_i h
      rw [← hrun, ← h]
      rfl
    · rfl

/-- The job an operator's retry queues. -/
theorem slice_enqueueOperatorRetry {workspaceId q attempt : Nat} {text : String} :
    (enqueueOperatorRetry workspaceId q text attempt s).slice r =
      if r = q ∧ (ContentStage.ofValue? text).isSome = true then
        { s.slice r with
          jobs := (s.slice r).jobs ++
            [⟨s.jobs.next, workspaceId, .retry, text, .run q, s.now, .pending, none, attempt, 0,
              s.now⟩] }
      else s.slice r := by
  unfold Db.slice enqueueOperatorRetry
  split
  · rename_i h
    rw [Table.select_insert]
    simp [JobSchedule.isActiveFor, JobSchedule.isStageJob, JobSchedule.isActive, h]
  · rename_i h
    rw [Table.select_insert_of_not]
    simp only [JobSchedule.isActiveFor, Bool.and_eq_false_iff, beq_eq_false_iff_ne]
    by_cases hr : r = q
    · exact .inr (by simpa [hr] using h)
    · exact .inl (.inr fun href => hr (by cases href; rfl))

/-- The retry is about this run, and its job can start work. -/
def RetryTarget.carries (runId : Nat) (target : RetryTarget) : Bool :=
  target.runId == runId && (ContentStage.ofValue? target.stageKey).isSome

/-- What `n` jobs queued by one request make of a run. -/
inductive Reawakened (v : RunView) : Nat → RunView → Prop
  | kept : Reawakened v 0 v
  | woken (unsettled : v.Unsettled) : Reawakened v 0 v.wake
  | revived {job attempt : Nat} {text : String} (idle : v.token = none) (unsettled : v.Unsettled) :
      Reawakened v 1 { v.wake with token := some (.queued job text attempt) }

theorem RunView.wake_wake : v.wake.wake = v.wake := by
  unfold wake
  by_cases h : v.status = .failed <;> simp [h]

/-- Waking the run once more changes nothing. -/
theorem Reawakened.wake {n : Nat} {v' : RunView} (h : Reawakened v n v') (hu : v'.Unsettled) :
    Reawakened v n v'.wake := by
  cases h with
  | kept => exact .woken hu
  | woken unsettled =>
    rw [RunView.wake_wake]
    exact .woken unsettled
  | @revived job attempt text idle unsettled =>
    have hwake : RunView.wake { v.wake with token := some (.queued job text attempt) } =
        { v.wake.wake with token := some (.queued job text attempt) } := rfl
    rw [hwake, RunView.wake_wake]
    exact .revived idle unsettled

theorem Reawakened.queue {v' : RunView} {job attempt : Nat} {text : String} (h : Reawakened v 0 v')
    (hnone : v.token = none) (hu : v'.Unsettled) :
    Reawakened v 1 { v'.wake with token := some (.queued job text attempt) } := by
  cases h with
  | kept => exact .revived hnone hu
  | woken unsettled =>
    rw [RunView.wake_wake]
    exact .revived hnone unsettled

theorem RetriedOnce.other {workspaceId : Nat} {target : RetryTarget}
    (h : RetriedOnce workspaceId target s t) (hr : r ≠ target.runId) : t.slice r = s.slice r := by
  obtain ⟨run, attempt, hrun, _, hsame⟩ := h
  have hid : run.id = target.runId := (Table.get?_eq_some.mp hrun).2
  have hne : ¬ (r = run.id ∧ (ContentStage.ofValue? target.stageKey).isSome = true) :=
    fun h => hr (h.1.trans hid)
  rw [hsame.slice, slice_enqueueOperatorRetry, if_neg hne, slice_reviveRun (hid ▸ hrun),
    if_neg (hid ▸ hr)]

/-- Reviving a run wakes its view and moves no token. -/
theorem Shows.revive {x : RunSlice} {run : PipelineRun} (h : Shows x v) (hrun : x.run = some run) :
    Shows { x with
      run := some (if run.status = .failed then (PipelineRun.setStatus .running).apply run
        else run) }
      v.wake := by
  by_cases hfailed : run.status = .failed
  · rw [if_pos hfailed]
    have hwoken : ∀ {d : Nat}, run.definitionId = some d →
        ((PipelineRun.setStatus .running).apply run).definitionId = some d := id
    cases h with
    | idle pinned =>
      cases hrun
      simp only [RunView.wake, hfailed, if_true]
      exact .idle (hwoken pinned)
    | queued pinned =>
      cases hrun
      simp only [RunView.wake, hfailed, if_true]
      exact .queued (hwoken pinned)
    | waiting pinned idle =>
      cases hrun
      simp only [RunView.wake, hfailed, if_true]
      exact .waiting (hwoken pinned) idle
    | working pinned held covers =>
      cases hrun
      simp only [RunView.wake, hfailed, if_true]
      exact .working (hwoken pinned) held covers
    | reviewing pinned =>
      cases hrun
      simp only [RunView.wake, hfailed, if_true]
      exact .reviewing (hwoken pinned)
  · rw [if_neg hfailed]
    obtain ⟨row, hrow, hstatus, _⟩ := h.run_some
    rw [hrun] at hrow
    cases hrow
    have hwake : v.wake = v := by
      unfold RunView.wake
      rw [if_neg (hstatus ▸ hfailed)]
    rw [hwake, ← hrun]
    exact h

/-- One retry of the run: it is woken, and queued if nothing carries it and its stage is known. -/
theorem RetriedOnce.shows {workspaceId : Nat} {target : RetryTarget}
    (h : RetriedOnce workspaceId target s t) (htarget : target.runId = r) (hv : Shows (s.slice r) v)
    (hroom : target.carries r = true → v.token = none) :
    v.Unsettled ∧ if target.carries r = true then
        ∃ job attempt,
          Shows (t.slice r) { v.wake with token := some (.queued job target.stageKey attempt) }
      else Shows (t.slice r) v.wake := by
  obtain ⟨run, attempt, hrun, hok, hsame⟩ := h
  rw [htarget] at hrun
  have hid : run.id = r := (Table.get?_eq_some.mp hrun).2
  have hself : s.runs.get? run.id = some run := by rw [hid]; exact hrun
  obtain ⟨row, hrow, hstatus, _⟩ := hv.run_some
  rw [slice_run, hrun] at hrow
  cases hrow
  refine ⟨?_, ?_⟩
  · unfold RunView.Unsettled
    rw [← hstatus]
    simpa [PipelineRun.isRetryableIn, PipelineRun.isSettled] using (Bool.and_eq_true_iff.mp hok).2
  have hrevived : Shows ((reviveRun run s).slice r) v.wake := by
    rw [slice_reviveRun hself, if_pos hid.symm]
    exact hv.revive hrun
  rw [hsame.slice, slice_enqueueOperatorRetry]
  simp only [RetryTarget.carries, htarget, beq_self_eq_true, Bool.true_and, hid,
    true_and] at hroom ⊢
  split
  · rename_i hparsed
    have hidle : v.wake.token = none := hroom hparsed
    obtain ⟨row, d, hpin, hx, hwake⟩ := hrevived.of_none hidle
    refine ⟨(reviveRun run s).jobs.next, attempt, ?_⟩
    rw [hx, hwake]
    exact .queued hpin
  · exact hrevived

/-- A chain of retries that queues at most one job for the run, and only if nothing carries it. -/
theorem Revivals.simulated {workspaceId : Nat} {targets : List RetryTarget}
    (h : Revivals workspaceId s targets t) (hv : Shows (s.slice r) v)
    (hquota : v.token.toList.length + targets.countP (·.carries r) ≤ 1) :
    ∃ v', Reawakened v (targets.countP (·.carries r)) v' ∧ Shows (t.slice r) v' := by
  induction h with
  | nothing same => exact ⟨v, .kept, by rw [same.slice]; exact hv⟩
  | @more targets target t u before once ih =>
    rw [List.countP_append, List.countP_singleton] at hquota ⊢
    obtain ⟨v', hchain, hshow⟩ := ih (by omega)
    by_cases hr : target.runId = r
    · cases hcarries : target.carries r with
      | true =>
        rw [hcarries] at hquota
        simp only [if_true] at hquota ⊢
        have hzero : targets.countP (·.carries r) = 0 := by omega
        have hnone : v.token = none := by
          cases htok : v.token with
          | none => rfl
          | some tok =>
            rw [htok] at hquota
            simp only [Option.toList_some, List.length_singleton] at hquota
            omega
        rw [hzero] at hchain ⊢
        have hidle : v'.token = none := by cases hchain <;> exact hnone
        obtain ⟨hunsettled, hnext⟩ := once.shows hr hshow fun _ => hidle
        rw [if_pos hcarries] at hnext
        obtain ⟨job, attempt, hnext⟩ := hnext
        exact ⟨_, hchain.queue hnone hunsettled, hnext⟩
      | false =>
        obtain ⟨hunsettled, hnext⟩ := once.shows hr hshow fun hyes => by
          rw [hcarries] at hyes
          cases hyes
        rw [if_neg (by rw [hcarries]; simp)] at hnext
        simp only [Bool.false_eq_true, if_false, Nat.add_zero]
        exact ⟨_, hchain.wake hunsettled, hnext⟩
    · have hne : target.carries r = false := by simp [RetryTarget.carries, hr]
      rw [hne, once.other (Ne.symm hr)]
      simp only [Bool.false_eq_true, if_false, Nat.add_zero]
      exact ⟨v', hchain, hshow⟩

theorem Reawakened.moves {limit : ContentStage → Option Nat} {n : Nat} {v' : RunView}
    (h : Reawakened v n v') : ∃ l, Move limit v l v' ∧ (l = .quiet ∨ l = .revived) := by
  cases h with
  | kept => exact ⟨.quiet, .quiet, .inl rfl⟩
  | woken unsettled => exact ⟨.revived, .woken unsettled, .inr rfl⟩
  | revived idle unsettled => exact ⟨.revived, .revived idle unsettled, .inr rfl⟩

/-! ## One step of any run -/

/-- The rows that can carry the run forward. -/
def continuations (db : Db) (runId : Nat) : Nat :=
  (db.slice runId).jobs.length + (db.slice runId).assignments.length +
    (db.slice runId).gates.length

/-- An operator's retry finds room: with the jobs it would queue, the run has at most one
continuation. -/
def retryFits (s : Db) (op : Op) (runId : Nat) : Bool :=
  match op with
  | .retryFailedJobs workspaceId =>
    decide (continuations s runId + (retryTargets s workspaceId).countP (·.carries runId) ≤ 1)
  | _ => true

theorem retryFits_of_other {op : Op} (h : op.isOperatorRetry = false) :
    retryFits s op r = true := by
  cases op <;> first | rfl | cases h

theorem Effect.moves {op : Op} (h : Effect op s t) (hs : s.Sound) (hv : Shows (s.slice r) v)
    (hset : v.Settled) (hfits : retryFits s op r = true) : Simulated s t op r v := by
  by_cases hretry : ∃ workspaceId, op = .retryFailedJobs workspaceId
  · obtain ⟨workspaceId, rfl⟩ := hretry
    cases h with
    | retried =>
      rw [retryFits, decide_eq_true_eq, continuations, hv.length_eq] at hfits
      obtain ⟨v', hchain, hshow⟩ := retryFailedJobs_revivals.simulated hv hfits
      obtain ⟨l, hmove, hl⟩ := hchain.moves 
      refine ⟨l, v', hmove, ?_, hshow⟩
      rcases hl with rfl | rfl
      · trivial
      · exact ⟨workspaceId, rfl⟩
  · exact h.simulated hs hv hset fun workspaceId hop => hretry ⟨workspaceId, hop⟩

/-! ## Runs that do not exist yet -/

/-- No rows at all. -/
def RunSlice.empty : RunSlice := ⟨none, [], [], [], []⟩

theorem slice_empty_run (h : s.slice r = RunSlice.empty) {q : Nat} {run : PipelineRun}
    (hget : s.runs.get? q = some run) : r ≠ q := by
  rintro rfl
  rw [← slice_run, h] at hget
  cases hget

theorem slice_empty_assignment (h : s.slice r = RunSlice.empty) {a : StageAssignment}
    (hmem : a ∈ s.assignments) (hlive : a.status.isLive = true) : r ≠ a.pipelineRunId := by
  rintro rfl
  have hin := mem_slice_assignments.mpr ⟨hmem, isLiveOf_self hlive⟩
  rw [h] at hin
  cases hin

theorem rewriteHeld_absent {k : Nat} {a : StageAssignment} {u : Update StageAssignment}
    (hget : s.assignments.get? k = some a) (hheld : a.status.inFlight = true) (hlive : KeepsLive u)
    (habs : s.slice r = RunSlice.empty) :
    Db.slice { s with assignments := s.assignments.modify k u } r = s.slice r := by
  rw [slice_rewriteAssignment (t := { s with assignments := s.assignments.modify k u }) hlive hget
    (isLive_of_inFlight hheld) rfl rfl rfl rfl rfl, habs]
  rfl

theorem Processed.absent {job : JobSchedule} {lockedWorkers : List Nat}
    (h : Processed job lockedWorkers s t) (hmem : job ∈ s.jobs) (hleased : job.status = .leased)
    (hs : s.Sound) (habs : s.slice r = RunSlice.empty) : t.slice r = s.slice r := by
  refine h.other hmem hleased hs ?_ fun _ => by rw [habs]; rfl
  cases hp : job.isActiveFor r with
  | false => rfl
  | true =>
    have hin := mem_slice_jobs.mpr ⟨hmem, hp⟩
    rw [habs] at hin
    cases hin

theorem Revivals.absent {workspaceId : Nat} {targets : List RetryTarget}
    (h : Revivals workspaceId s targets t) (habs : s.slice r = RunSlice.empty) :
    t.slice r = s.slice r := by
  induction h with
  | nothing same => exact same.slice
  | more _ once ih =>
    have hmid := ih.trans habs
    obtain ⟨run, _, hrun, _, _⟩ := id once.out
    rw [once.other (slice_empty_run hmid hrun), ih]

/-- A run as it is started: at the first stage of its definition, with that stage queued. -/
def RunView.start (stage : ContentStage) (definitionId job : Nat) : RunView :=
  ⟨.running, stage, definitionId, some (.queued job stage.value 0)⟩

/-- The first stage of a definition is one of its stages. -/
theorem stageLimit_firstStage {d : Nat} {definition : WorkflowDefinition} {first : WorkflowStage}
    (hdef : s.definitions.get? d = some definition) (hfirst : definition.firstStage = some first) :
    (stageLimit s d first.stageKey).isSome = true := by
  have hmem := (List.mem_insertionSort _).mp (List.mem_of_mem_head? hfirst)
  unfold stageLimit stageDef?
  simp only [hdef, Option.bind_some, Option.isSome_map, List.find?_isSome]
  exact ⟨first, hmem, by simp⟩

/-- **A run comes into being only when it is started.** -/
theorem Effect.absent {op : Op} (h : Effect op s t) (hs : s.Sound)
    (habs : s.slice r = RunSlice.empty) :
    t.slice r = RunSlice.empty ∨ ∃ stage d job, (stageLimit s d stage).isSome = true ∧
      Shows (t.slice r) (.start stage d job) := by
  rw [← habs]
  cases h with
  | @started _ workspaceId contentItemId d definition first run hdef hfirst row =>
    have hid : run.id = s.runs.next := by rw [row]
    have hdid : definition.id = d := (Table.get?_eq_some.mp hdef).2
    by_cases hr : r = s.runs.next
    · refine .inr ⟨first.stageKey, definition.id, s.jobs.next,
        hdid ▸ stageLimit_firstStage hdef hfirst, ?_⟩
      rw [slice_enqueueStage, if_pos (hr.trans hid.symm), slice_modifyRun,
        if_pos (hr.trans hid.symm), slice_createRun, if_pos hr, habs]
      exact .queued rfl
    · left
      have hne : r ≠ run.id := by rw [hid]; exact hr
      rw [slice_enqueueStage, if_neg hne, slice_modifyRun, if_neg hne, slice_createRun, if_neg hr]
  | polled => exact .inl (by rw [slice_pollAndLease, habs]; rfl)
  | processed found leased done =>
    obtain ⟨hmem, _⟩ := Table.get?_eq_some.mp found
    exact .inl (done.absent hmem leased hs habs)
  | reaped => exact .inl (by rw [slice_reapExpiredLeases, habs]; rfl)
  | claimed done =>
    cases done with
    | idle => exact .inl rfl
    | chosen _ _ _ _ _ mem waiting settled =>
      exact .inl (settled.other mem waiting
        (slice_empty_assignment habs mem (isLive_pending waiting)))
  | @acknowledged _ assignmentId _ duration _ a found held =>
    have hheld : a.status.inFlight = true := by rw [held]; rfl
    have hacknowledge : KeepsLive (StageAssignment.acknowledged s.now) := keepsLive_acknowledged
    have hextend : KeepsLive (StageAssignment.extendLease s.now duration) := keepsLive_extendLease
    have hack := rewriteHeld_absent found hheld hacknowledge habs
    have hkey : (s.assignments.modify assignmentId (StageAssignment.acknowledged s.now)).get?
        assignmentId = some ((StageAssignment.acknowledged s.now).apply a) := by
      exact Table.get?_modified _ found
    have hboth := rewriteHeld_absent
      (s := { s with
        assignments := s.assignments.modify assignmentId (StageAssignment.acknowledged s.now) })
      hkey rfl hextend (hack.trans habs)
    exact .inl (hboth.trans hack)
  | renewed found held => exact .inl (rewriteHeld_absent found held keepsLive_extendLease habs)
  | submitted found held _ done =>
    obtain ⟨hmem, _⟩ := Table.get?_eq_some.mp found
    exact .inl (done.other hmem (slice_empty_assignment habs hmem (isLive_of_inFlight held)))
  | @recovered _ _ _ _ a found done =>
    obtain ⟨hmem, _⟩ := Table.get?_eq_some.mp found
    cases hheld : a.status.inFlight with
    | true =>
      exact .inl (done.other hmem (slice_empty_assignment habs hmem (isLive_of_inFlight hheld)))
    | false =>
      cases done with
      | skipped _ => exact .inl rfl
      | requeued held _ _ => rw [hheld] at held; cases held
      | exhausted held _ => rw [hheld] at held; cases held
  | @decided _ s₁ _ _ _ gateId reviewerId _ _ gate _ found _ admitted recorded applied booked _ _ =>
    obtain ⟨hmem, rfl⟩ := Table.get?_eq_some.mp found
    have hr : r ≠ gate.pipelineRunId := by
      rintro rfl
      have hin : gate ∈ (s.slice gate.pipelineRunId).gates :=
        mem_slice_gates.mpr
          ⟨hmem, by simp [ReviewGate.isAwaitingFor, awaiting_of_decidable admitted]⟩
      rw [habs] at hin
      cases hin
    exact .inl (applied.other_booked found recorded booked hr)
  | cancelled found =>
    have hid := (Table.get?_eq_some.mp found).2
    refine .inl ?_
    rw [slice_cancelRun, if_neg]
    rintro ⟨_, hr⟩
    exact slice_empty_run habs found (hr.trans hid)
  | retried => exact .inl (retryFailedJobs_revivals.absent habs)
  | changed => exact .inl slice_applyEnvironment

/-! ## Every history -/

/-- The run is unknown, or shows a settled view with the property. -/
def Follows (P : RunView → Prop) (r : Nat) (db : Db) : Prop :=
  db.slice r = RunSlice.empty ∨ ∃ v, Shows (db.slice r) v ∧ v.Settled ∧ P v

theorem Db.Fresh.slice {db : Db} (h : db.Fresh) : db.slice r = RunSlice.empty := by
  unfold Db.slice
  rw [h.runs, h.jobs, h.assignments, h.gates, h.reservations]
  rfl

theorem RunView.settled_start {stage : ContentStage} {d job : Nat} : (start stage d job).Settled :=
  nofun

/-- What a start has and every move keeps, a step of the system keeps. -/
theorem step_follows {P : RunView → Prop} {op : Op} (hs : s.Sound) (h : Follows P r s)
    (hfits : ∀ v, Shows (s.slice r) v → retryFits s op r = true)
    (hstart : ∀ stage d job, (stageLimit s d stage).isSome = true → P (.start stage d job))
    (hmove : ∀ v l v', Shows (s.slice r) v → P v → l.cause s op r →
      Move (stageLimit s v.definitionId) v l v' → P v') : Follows P r (step s op) := by
  rcases step_cases s op with heq | heffect
  · rw [heq]
    exact h
  · rcases h with habs | ⟨v, hv, hset, hP⟩
    · rcases heffect.absent hs habs with hstill | ⟨stage, d, job, hknown, hshow⟩
      · exact .inl hstill
      · exact .inr ⟨_, hshow, RunView.settled_start, hstart stage d job hknown⟩
    · obtain ⟨l, v', hm, hcause, hshow⟩ := heffect.moves hs hv hset (hfits v hv)
      exact .inr ⟨v', hshow, hm.settled hset, hmove v l v' hv hP hcause hm⟩

/-- **The run rule for one run**: a property of views that starts have and admitted moves keep
holds of the run in every state of every history. -/
theorem history_follows {P : RunView → Prop} {ok : Db → Op → Prop} {db : Db} (hfresh : db.Fresh)
    (hfits : ∀ s op v, ok s op → Shows (s.slice r) v → retryFits s op r = true)
    (hstart : ∀ s stage d job, (stageLimit s d stage).isSome = true → P (.start stage d job))
    (hmove : ∀ s op v l v', ok s op → Shows (s.slice r) v → P v → l.cause s op r →
      Move (stageLimit s v.definitionId) v l v' → P v')
    (h : Reach Steps ok db t) : t.Sound ∧ Follows P r t := by
  refine h.invariant (P := fun t => t.Sound ∧ Follows P r t) ⟨hfresh.sound, .inl hfresh.slice⟩ ?_
  rintro s op u ⟨hs, hP⟩ hok rfl
  exact ⟨step_sound s op hs,
    step_follows hs hP (fun v => hfits s op v hok) (hstart s) fun v l v' => hmove s op v l v' hok⟩

end ContentOrchestrator

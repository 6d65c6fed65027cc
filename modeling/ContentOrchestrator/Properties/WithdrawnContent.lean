import ContentOrchestrator.DeskInvariants
import ContentOrchestrator.Orchestration.RunInvariants
import ContentOrchestrator.Properties.TerminalStates

/-! # Withdrawn content

Deleting a workspace's content removes the queued jobs and the attestations, and leaves
the runs, their assignments and their gates. Nothing in the engine reads the tombstone,
so what is left goes on: a waiting assignment is claimed, a waiting gate approved, and
an attempt in flight carried on into new work. `carriesOn` names the last kind of step.
Where nothing waited at the deletion and no step carries on, the content stays withdrawn. -/

namespace ContentOrchestrator

open Lib

variable {s t u : Db} {r : Nat} {x y z : RunSlice}

/-- The run gets no new attempt, approval or reservation. -/
structure Untouched (r : Nat) (s t : Db) : Prop where
  inFlight : ∀ a ∈ t.assignments, a.pipelineRunId = r → a.status.inFlight = true →
    ∃ b ∈ s.assignments, b.id = a.id ∧ b.status.inFlight = true
  approved : ∀ g ∈ t.gates, g.pipelineRunId = r → g.status = .approved →
    ∃ h ∈ s.gates, h.id = g.id ∧ h.status = .approved
  reserved : ∀ v ∈ t.reservations, v.pipelineRunId = r → v.status = .reserved → v ∈ s.reservations

/-- The run has no assignment to be claimed and no gate to be decided. -/
structure NothingWaits (r : Nat) (s : Db) : Prop where
  assignments : ∀ a ∈ s.assignments, a.pipelineRunId = r → a.status ≠ .pending
  gates : ∀ g ∈ s.gates, g.pipelineRunId = r → g.status ≠ .awaiting

/-- The route leads to a review, or to work a run in this status would start. -/
def Route.goesOn (status : PipelineRunStatus) : Route → Bool
  | .gate _ => true
  | .work _ => status.isOpen
  | .finish _ => false

/-- The failure is transient and its stage has attempts left. -/
def retriesFailure (s : Db) (run : PipelineRun) (a : StageAssignment) (message : String) : Bool :=
  isRetryable message &&
    (run.definitionId.bind fun definitionId => stageDef? s definitionId a.stage).any fun stageDef =>
      decide (a.attemptNumber < stageDef.maxAttempts)

/-- The operation carries an attempt of the run that is in flight on into new work. -/
def carriesOn (s : Db) (op : Op) (r : Nat) : Bool :=
  (s.runs.get? r).any fun run =>
    match op with
    | .submit assignmentId true result _ workerId _ =>
      (submittedRoute s r assignmentId result workerId).any (Route.goesOn run.status)
    | .submit assignmentId false _ message workerId _ =>
      (s.assignments.get? assignmentId).any fun a =>
        a.pipelineRunId == r && (assertSubmittable s a workerId).isOk && run.status.isOpen &&
          retriesFailure s run a message
    | .recover assignmentId _ =>
      (s.assignments.get? assignmentId).any fun a =>
        a.pipelineRunId == r && a.status.inFlight && canRequeue s a
    | _ => false

/-! ## A slice that only dwindles -/

/-- Attempts in flight are all that is left: a queued job is never dispatched. -/
structure RunSlice.Quiet (x : RunSlice) : Prop where
  jobs : x.jobs = [] ∨ ∃ run, x.run = some run ∧ run.status.isOpen = false
  gates : x.gates = []
  assignments : ∀ a ∈ x.assignments, a.status.inFlight = true

/-- Attempts and reservations are old ones. -/
structure RunSlice.Dwindles (x y : RunSlice) : Prop where
  quiet : y.Quiet
  assignments : ∀ a ∈ y.assignments, ∃ b ∈ x.assignments, b.id = a.id ∧ b.status.inFlight = true
  reservations : ∀ v ∈ y.reservations, v ∈ x.reservations

namespace RunSlice.Quiet

/-- Rows are lost and the rest is as before. -/
theorem lose (h : x.Quiet)
    (hjobs : y.jobs = [] ∨ ∃ run, y.run = some run ∧ run.status.isOpen = false)
    (hgates : y.gates = []) (hassignments : ∀ a ∈ y.assignments, a ∈ x.assignments)
    (hreservations : ∀ v ∈ y.reservations, v ∈ x.reservations) : x.Dwindles y where
  quiet := ⟨hjobs, hgates, fun a ha => h.assignments a (hassignments a ha)⟩
  assignments a ha := ⟨a, hassignments a ha, rfl, h.assignments a (hassignments a ha)⟩
  reservations := hreservations

theorem same (h : x.Quiet) (heq : y = x) : x.Dwindles y := by
  subst heq
  exact h.lose h.jobs h.gates (fun _ ha => ha) fun _ hv => hv

/-- The queue of the run is rewritten or shortened. -/
theorem withJobs {jobs : List JobSchedule} (h : x.Quiet) (hjobs : x.jobs = [] → jobs = []) :
    x.Dwindles { x with jobs } :=
  h.lose (h.jobs.imp_left hjobs) h.gates (fun _ ha => ha) fun _ hv => hv

/-- Assignments and reservations leave. -/
theorem drop {p : StageAssignment → Bool} {reservations : List SpendReservation} (h : x.Quiet)
    (hreservations : ∀ v ∈ reservations, v ∈ x.reservations) :
    x.Dwindles ⟨x.run, x.jobs, x.assignments.filter p, x.gates, reservations⟩ :=
  h.lose h.jobs h.gates (fun _ ha => List.mem_of_mem_filter ha) hreservations

end RunSlice.Quiet

theorem RunSlice.Dwindles.trans (h : x.Dwindles y) (h' : y.Dwindles z) : x.Dwindles z where
  quiet := h'.quiet
  assignments a ha := by
    obtain ⟨b, hb, hid, _⟩ := h'.assignments a ha
    obtain ⟨c, hc, hid', hheld⟩ := h.assignments b hb
    exact ⟨c, hc, hid'.trans hid, hheld⟩
  reservations v hv := h.reservations v (h'.reservations v hv)

/-- A lease is rewritten in place. -/
theorem RunSlice.Quiet.rewriteHeld {k : Nat} {a : StageAssignment} {v : Update StageAssignment}
    (h : (s.slice r).Quiet) (hget : s.assignments.get? k = some a)
    (hheld : a.status.inFlight = true) (hlive : KeepsLive v)
    (hv : (v.apply a).status.inFlight = true) :
    (s.slice r).Dwindles (Db.slice { s with assignments := s.assignments.modify k v } r) := by
  have hkeeps : (s.slice r).Keeps (Db.slice { s with assignments := s.assignments.modify k v } r) :=
    keeps_rewriteHeld hget hheld hlive hv
  have hslice : Db.slice { s with assignments := s.assignments.modify k v } r =
      { s.slice r with
        assignments := (s.slice r).assignments.map fun b => if b.id == k then v.apply b else b } :=
    slice_rewriteAssignment hlive hget (isLive_of_inFlight hheld) rfl rfl rfl rfl rfl
  have hold : ∀ b ∈ (Db.slice { s with assignments := s.assignments.modify k v } r).assignments,
      ∃ c ∈ (s.slice r).assignments, c.id = b.id ∧ c.status.inFlight = true ∧
        b.status.inFlight = true := by
    intro b hb
    obtain ⟨c, hc, hid, hsame⟩ := hkeeps.assignments b hb
    have hcheld := h.assignments c hc
    exact ⟨c, hc, hid, hcheld, hsame.symm.trans hcheld⟩
  refine ⟨⟨?_, ?_, fun b hb => ?_⟩, fun b hb => ?_, fun w hw => ?_⟩
  · rw [hslice]
    exact h.jobs
  · rw [hslice]
    exact h.gates
  · obtain ⟨_, _, _, _, hb'⟩ := hold b hb
    exact hb'
  · obtain ⟨c, hc, hid, hcheld, _⟩ := hold b hb
    exact ⟨c, hc, hid, hcheld⟩
  · rw [hslice] at hw
    exact hw

theorem RunSlice.Quiet.noGate {g : ReviewGate} (h : (s.slice r).Quiet) (hg : g ∈ s.gates)
    (hr : g.pipelineRunId = r) : g.status ≠ .awaiting := by
  intro hawait
  have hin : g ∈ (s.slice r).gates := mem_slice_gates.mpr
      ⟨hg, by simp [ReviewGate.isAwaitingFor, hr, hawait]⟩
  rw [h.gates] at hin
  cases hin

/-! ## One step -/

/-- A quiet run's leased row is closed or put off; nothing is dispatched. -/
theorem Processed.dwindles {job : JobSchedule} {lockedWorkers : List Nat}
    (h : Processed job lockedWorkers s t) (hmem : job ∈ s.jobs) (hleased : job.status = .leased)
    (hs : s.Sound) (hquiet : (s.slice r).Quiet) :
    (s.slice r).Dwindles (t.slice r) := by
  cases hp : job.isActiveFor r with
  | false => exact hquiet.same (h.other hmem hleased hs hp fun _ => hquiet.gates)
  | true =>
    have hqueued : job ∈ (s.slice r).jobs := mem_slice_jobs.mpr ⟨hmem, hp⟩
    obtain hnone | ⟨row, hrow, hclosed⟩ := hquiet.jobs
    · rw [hnone] at hqueued
      cases hqueued
    have hloses := h.loses hmem hleased hp fun run found hopen => by
      rw [slice_run, found] at hrow
      cases hrow
      rw [isOpen_of_statusOutcome hopen] at hclosed
      cases hclosed
    exact hquiet.lose (.inr ⟨row, hloses.run.trans hrow, hclosed⟩)
      (hloses.gates.trans hquiet.gates) hloses.assignments hloses.reservations

/-- Failing the run ends it and gives its reservations back. -/
theorem FailureHandled.dwindles {run row : PipelineRun} {stage : ContentStage} {attempt : Nat}
    {message : String} (h : FailureHandled run stage attempt message s t)
    (hquiet : (s.slice run.id).Quiet) (hrun : s.runs.get? run.id = some row)
    (hretry : ∀ definitionId stageDef, run.definitionId = some definitionId →
      stageDef? s definitionId stage = some stageDef → isRetryable message = true →
        attempt < stageDef.maxAttempts → row.status.isOpen = false) :
    (s.slice run.id).Dwindles (t.slice run.id) := by
  have hrow : (s.slice run.id).run = some row := hrun
  cases h with
  | retried pinned found transient left =>
    have hclosed := hretry _ _ pinned found transient left
    have hemit : (emitForRun EventType.stageFailed run s).slice run.id = s.slice run.id :=
      slice_congr (by simp) (by simp) (by simp) (by simp) (by simp)
    rw [slice_enqueueStage, if_pos rfl, hemit]
    exact hquiet.lose (.inr ⟨row, hrow, hclosed⟩) hquiet.gates (fun _ ha => ha) fun _ hv => hv
  | failed =>
    rw [slice_failStage, slice_failRun, if_pos rfl]
    exact hquiet.lose (.inr ⟨(PipelineRun.finish .failed s.now).apply row, by rw [hrow]; rfl, rfl⟩)
      hquiet.gates
      (fun _ ha => ha) (by simp)
  | compensated =>
    rw [slice_modifyRun, if_pos rfl, slice_enqueueCompensations, slice_modifyRun, if_pos rfl,
      slice_failStage, slice_failRun, if_pos rfl]
    exact hquiet.lose (.inr ⟨_, by rw [hrow]; rfl, rfl⟩) hquiet.gates (fun _ ha => ha) (by simp)

/-- A run that leaves its stage ends, or stays closed. -/
theorem Advanced.dwindles {run row : PipelineRun} {stage : ContentStage}
    {trigger : WorkflowTransitionTrigger} {context : List (String × Json)}
    {stored : Table ReviewGate} (h : Advanced run stage trigger context stored s t)
    (hquiet : (s.slice run.id).Quiet) (hrun : s.runs.get? run.id = some row)
    (hstops : ∀ definitionId way, run.definitionId = some definitionId →
      route s definitionId stage trigger context = .ok way → way.goesOn row.status = false) :
    (s.slice run.id).Dwindles (t.slice run.id) := by
  have hrow : (s.slice run.id).run = some row := hrun
  cases h with
  | finished _ _ =>
    rw [slice_succeedRun, if_pos rfl]
    exact hquiet.lose (.inr ⟨_, by rw [hrow]; rfl, rfl⟩) hquiet.gates (fun _ ha => ha) fun _ hv =>
      hv
  | @queued _ stageDef pinned routed =>
    have hclosed : row.status.isOpen = false := hstops _ _ pinned routed
    rw [slice_enqueueStage, if_pos rfl, slice_modifyRun, if_pos rfl]
    exact hquiet.lose
      (.inr ⟨(PipelineRun.moveTo stageDef.stageKey).apply row, by rw [hrow]; rfl, hclosed⟩)
        hquiet.gates (fun _ ha => ha) fun _ hv => hv
  | gated pinned routed _ _ => cases hstops _ _ pinned routed
  | kept pinned routed _ _ => cases hstops _ _ pinned routed

theorem Submitted.dwindles {a : StageAssignment} {result : Option (List (String × Json))}
    {success : Bool} {message : String} {workerId : Option Nat} {jitter : Nat}
    (h : Submitted a result message s success t) (found : s.assignments.get? a.id = some a)
    (held : a.status.inFlight = true) (admitted : assertSubmittable s a workerId = .ok ())
    (hquiet : (s.slice r).Quiet)
    (hspare : carriesOn s (.submit a.id success result message workerId jitter) r = false) :
    (s.slice r).Dwindles (t.slice r) := by
  have ha : a ∈ s.assignments := (Table.get?_eq_some.mp found).1
  by_cases hr : r = a.pipelineRunId
  · subst hr
    -- closing the attempt and settling its reservation only loses rows
    have hsettled : ∀ {m u : Db} {k : Nat},
        m.slice a.pipelineRunId = { s.slice a.pipelineRunId with
          assignments := (s.slice a.pipelineRunId).assignments.filter fun b => !(b.id == a.id) } →
        (u.slice a.pipelineRunId = m.slice a.pipelineRunId ∨
          u.slice a.pipelineRunId = { m.slice a.pipelineRunId with
            reservations := (m.slice a.pipelineRunId).reservations.filter fun v => !(v.id == k) }) →
        (s.slice a.pipelineRunId).Dwindles (u.slice a.pipelineRunId) := by
      rintro m u k hm (hu | hu)
      · rw [hu, hm]
        exact hquiet.drop fun _ hv => hv
      · rw [hu, hm]
        exact hquiet.drop fun _ hv => List.mem_of_mem_filter hv
    cases h with
    | orphaned _ => exact hsettled (k := 0) slice_closeAssignment (.inl rfl)
    | @succeeded run s1 _ hrun _ settled advanced =>
      have hid : run.id = a.pipelineRunId := (Table.get?_eq_some.mp hrun).2
      obtain ⟨hruns, -, -, hconfig⟩ := settled_frame settled
      have hdefs : s1.definitions = s.definitions := congrArg Configuration.definitions hconfig
      have hs1 : (s.slice a.pipelineRunId).Dwindles (s1.slice a.pipelineRunId) := by
        have hm : (recordSuccess a result s).slice a.pipelineRunId = _ :=
          slice_recordSuccess.trans slice_closeAssignment
        rcases settled with ⟨_, rfl⟩ | ⟨w, cost, _, rfl⟩
        · exact hsettled (k := 0) hm (.inl rfl)
        · exact hsettled hm (.inr slice_commitReservation)
      rcases advanced with ⟨_, rfl⟩ | ⟨live, hadv⟩
      · exact hs1
      · have hrow : s1.runs.get? run.id = some run := by rw [hruns, hid, hrun]
        have hquiet₁ : (s1.slice run.id).Quiet := hid.symm ▸ hs1.quiet
        refine hs1.trans (hid ▸ hadv.dwindles hquiet₁ hrow fun definitionId way pinned routed => ?_)
        rw [route_congr hdefs] at routed
        have htaken := submittedRoute_eq found held admitted hrun live pinned routed
        simpa [carriesOn, hrun, htaken] using hspare
    | @failed run s1 _ hrun _ settled handled =>
      have hid : run.id = a.pipelineRunId := (Table.get?_eq_some.mp hrun).2
      have hframe : s1.runs = s.runs ∧ s1.definitions = s.definitions := by
        rcases settled with ⟨_, rfl⟩ | ⟨_, _, rfl⟩ <;> simp [recordFailedAttempt]
      have hs1 : (s.slice a.pipelineRunId).Dwindles (s1.slice a.pipelineRunId) := by
        have hm : (recordFailedAttempt a result s).slice a.pipelineRunId = _ :=
          slice_recordFailedAttempt.trans slice_closeAssignment
        rcases settled with ⟨_, rfl⟩ | ⟨w, hw, rfl⟩
        · exact hsettled (k := 0) hm (.inl rfl)
        · exact hsettled hm
            (.inr (slice_releaseSpend (status_of_isOpenFor (newestOpenReservation_isOpen hw).2)))
      have hrow : s1.runs.get? run.id = some run := by rw [hframe.1, hid, hrun]
      have hquiet₁ : (s1.slice run.id).Quiet := hid.symm ▸ hs1.quiet
      refine hs1.trans (hid ▸ handled.dwindles hquiet₁ hrow
        fun definitionId stageDef pinned found' transient left => ?_)
      rw [stageDef?_congr hframe.2] at found'
      simp only [carriesOn, hrun, found, Option.any_some, beq_self_eq_true, admitted, Except.isOk,
        Except.toBool, retriesFailure, transient, pinned, Option.bind_some, found', left,
          decide_true, Bool.and_true,
        Bool.true_and] at hspare
      exact hspare
  · exact hquiet.same (h.other ha hr)

theorem Recovered.dwindles {a : StageAssignment} {reason : RecoveryReason}
    (h : Recovered a reason s t) (ha : a ∈ s.assignments) (hquiet : (s.slice r).Quiet)
    {run : PipelineRun} (hrun : s.runs.get? r = some run)
    (hspare : carriesOn s (.recover a.id reason) r = false) : (s.slice r).Dwindles (t.slice r) := by
  by_cases hr : r = a.pipelineRunId
  · subst hr
    have found : s.assignments.get? a.id = some a := Table.get?_of_mem ha
    cases hterm : run.status.isTerminal with
    | true =>
      cases h with
      | skipped _ => exact hquiet.same rfl
      | requeued held left _ => simp [carriesOn, hrun, found, held, left] at hspare
      | exhausted held _ =>
        have hrow : (releaseWorkerSlot a.workerId s).runs.get? a.pipelineRunId = some run := by
          simpa using hrun
        rw [slice_deadLetterEnded hrow hterm, slice_releaseWorkerSlot]
        exact hquiet.drop fun _ hv => hv
    | false =>
      cases h with
      | skipped _ => exact hquiet.same rfl
      | requeued held left _ => simp [carriesOn, hrun, found, held, left] at hspare
      | exhausted held _ =>
        have hrow : (releaseWorkerSlot a.workerId s).runs.get? a.pipelineRunId = some run := by
          simpa using hrun
        have hid : run.id = a.pipelineRunId := (Table.get?_eq_some.mp hrun).2
        have hself : (s.slice a.pipelineRunId).run = some run := hrun
        rw [slice_deadLetterAssignment hrow hterm, if_pos hid.symm, slice_releaseWorkerSlot]
        exact hquiet.lose (.inr ⟨_, by rw [hself]; rfl, rfl⟩) hquiet.gates
          (fun _ hb => List.mem_of_mem_filter hb) (by simp)
  · exact hquiet.same (h.other ha hr)

/-- **A quiet run dwindles** in every step that does not carry one of its attempts on. -/
theorem Effect.dwindles {op : Op} {run : PipelineRun} (h : Effect op s t) (hs : s.Sound)
    (hrun : s.runs.get? r = some run) (hquiet : (s.slice r).Quiet)
    (hretry : op.isOperatorRetry = false) (hspare : carriesOn s op r = false) :
    (s.slice r).Dwindles (t.slice r) := by
  cases h with
  | @started _ _ _ _ definition first row _ _ hrow =>
    have hne : r ≠ s.runs.next := by
      rintro rfl
      rw [Table.get?_next] at hrun
      cases hrun
    have hid : r ≠ row.id := by rw [hrow]; exact hne
    refine hquiet.same ?_
    rw [slice_enqueueStage, if_neg hid, slice_modifyRun, if_neg hid, slice_createRun, if_neg hne]
  | polled =>
    rw [slice_pollAndLease]
    refine hquiet.withJobs fun hnone => ?_
    rw [hnone, List.map_nil]
  | processed found leased done =>
    exact done.dwindles (Table.get?_eq_some.mp found).1 leased hs hquiet
  | reaped =>
    rw [slice_reapExpiredLeases]
    refine hquiet.withJobs fun hnone => ?_
    rw [hnone, List.map_nil]
  | claimed done =>
    cases done with
    | idle => exact hquiet.same rfl
    | @chosen _ _ row _ _ _ _ _ _ _ mem waiting settled =>
      refine hquiet.same (settled.other mem waiting ?_)
      intro hr
      subst hr
      have hheld := hquiet.assignments row
          (mem_slice_assignments.mpr ⟨mem, isLiveOf_self (isLive_pending waiting)⟩)
      rw [waiting] at hheld
      cases hheld
  | @acknowledged _ assignmentId _ duration _ a found held =>
    have hheld : a.status.inFlight = true := by rw [held]; rfl
    have hack : (s.slice r).Dwindles (Db.slice { s with
        assignments := s.assignments.modify assignmentId (StageAssignment.acknowledged s.now) }
          r) :=
      hquiet.rewriteHeld found hheld keepsLive_acknowledged rfl
    refine hack.trans (hack.quiet.rewriteHeld (a := (StageAssignment.acknowledged s.now).apply a)
      (v := StageAssignment.extendLease s.now duration) ?_ rfl keepsLive_extendLease rfl)
    exact Table.get?_modified _ found
  | renewed found held => exact hquiet.rewriteHeld found held keepsLive_extendLease held
  | submitted found held admitted done =>
    obtain ⟨-, rfl⟩ := Table.get?_eq_some.mp found
    exact done.dwindles found held admitted hquiet hspare
  | recovered found done =>
    obtain ⟨hmem, rfl⟩ := Table.get?_eq_some.mp found
    exact done.dwindles hmem hquiet hrun hspare
  | @decided _ s₁ _ _ _ gateId reviewerId _ _ gate _ found owned admitted recorded applied booked _
      _ =>
    have hr : r ≠ gate.pipelineRunId := fun hr =>
      hquiet.noGate (Table.get?_eq_some.mp found).1 hr.symm (awaiting_of_decidable admitted)
    exact hquiet.same (applied.other_booked found recorded booked hr)
  | @cancelled _ runId row found =>
    have hid : row.id = runId := (Table.get?_eq_some.mp found).2
    rw [slice_cancelRun]
    split
    · have hrow : (s.slice r).run = some run := hrun
      refine hquiet.lose (.inr ⟨(PipelineRun.finish .cancelled s.now).apply run, ?_, rfl⟩)
        hquiet.gates
        (fun _ ha => absurd ha List.not_mem_nil) fun _ hv => absurd hv List.not_mem_nil
      rw [hrow]
      rfl
    · exact hquiet.same rfl
  | retried => cases hretry
  | changed => exact hquiet.same slice_applyEnvironment

theorem Effect.untouched {op : Op} {run : PipelineRun} (h : Effect op s t) (hs : s.Sound)
    (hrun : s.runs.get? r = some run) (hquiet : (s.slice r).Quiet)
    (hretry : op.isOperatorRetry = false) (hspare : carriesOn s op r = false) :
    Untouched r s t := by
  have hdwindles := h.dwindles hs hrun hquiet hretry hspare
  refine ⟨fun a ha hr hheld => ?_, fun g' hg' hr happroved => ?_, fun v hv hr hopen => ?_⟩
  · subst hr
    obtain ⟨b, hb, hid, hbheld⟩ := hdwindles.assignments a
      (mem_slice_assignments.mpr ⟨ha, isLiveOf_self (isLive_of_inFlight hheld)⟩)
    exact ⟨b, (mem_slice_assignments.mp hb).1, hid, hbheld⟩
  · rcases (h.gates hs.jobs hs.gates).new g' hg' with ⟨g, hg, hmove⟩ | hopened
    · cases hmove with
      | kept => exact ⟨g', hg, rfl, happroved⟩
      | escalated _ _ _ _ _ awaiting => exact absurd awaiting (hquiet.noGate hg hr)
      | decided _ admitted => exact absurd (awaiting_of_decidable admitted) (hquiet.noGate hg hr)
    · obtain ⟨_, _, _, _, _, _, rfl⟩ := hopened
      cases happroved
  · subst hr
    have hin : v ∈ (t.slice v.pipelineRunId).reservations :=
      Table.mem_select.mpr ⟨hv, by simp [SpendReservation.isOpenOf, hopen]⟩
    exact (Table.mem_select.mp (hdwindles.reservations v hin)).1

/-! ## From the deletion on -/

/-- A later step of the engine: no operator retries, and nothing of the run is carried on. -/
def LeavesAlone (r : Nat) (d : Desk) (op : DeskOp) : Prop :=
  ∃ e, op = .engine e ∧ e.isOperatorRetry = false ∧ carriesOn d.db e r = false

theorem deskStep_delete (d : Desk) (workspaceId : Nat) :
    deskStep d (.deleteWorkspaceContent workspaceId workspaceId) =
      withdrawContent workspaceId d := by
  have hreturns : Returns (DeskOp.deleteWorkspaceContent workspaceId workspaceId).body d ()
      (withdrawContent workspaceId d) := by
    simp [DeskOp.body, deleteWorkspaceContent, returns_modify]
  exact hreturns.atomically

/-- What waited for the run is gone with the queue of its workspace. -/
theorem withdrawContent_quiet {d : Desk} {run : PipelineRun} (hlodged : d.db.Lodged)
    (hrun : d.db.runs.get? r = some run) (hleft : NothingWaits r d.db) :
    ((withdrawContent run.workspaceId d).db.slice r).Quiet := by
  refine ⟨.inl ?_, ?_, fun a ha => ?_⟩
  · refine List.eq_nil_iff_forall_not_mem.mpr fun j hj => ?_
    obtain ⟨hmem, hactive⟩ := mem_slice_jobs.mp hj
    obtain ⟨hmem, hkept⟩ := Table.mem_deleteWhere.mp hmem
    obtain ⟨-, href⟩ := stageJob_of_isActiveFor hactive
    have hplace := (hlodged j hmem).place
    rw [runId?_eq_some.mp href] at hplace
    obtain ⟨row, hrow, hws⟩ := hplace
    rw [hrun, Option.some.injEq] at hrow
    subst hrow
    simp [hws] at hkept
  · refine List.eq_nil_iff_forall_not_mem.mpr fun g hg => ?_
    obtain ⟨hmem, hawait⟩ := mem_slice_gates.mp hg
    simp only [ReviewGate.isAwaitingFor, Bool.and_eq_true, beq_iff_eq] at hawait
    exact hleft.gates g hmem hawait.1 hawait.2
  · obtain ⟨hmem, hlive⟩ := mem_slice_assignments.mp ha
    simp only [StageAssignment.isLiveOf, Bool.and_eq_true, beq_iff_eq] at hlive
    cases hheld : a.status.inFlight with
    | true => rfl
    | false => exact absurd (inFlight_of_pending hlive.2 hheld) (hleft.assignments a hmem hlive.1)

/-- What holds from the deletion on. -/
structure Withdrawn (r workspaceId : Nat) (d : Desk) : Prop where
  sound : d.Sound
  run : ∃ run, d.db.runs.get? r = some run
  quiet : (d.db.slice r).Quiet
  unattested : ∀ row ∈ d.eligibility, row.workspaceId ≠ workspaceId

theorem Withdrawn.step {d : Desk} {workspaceId : Nat} {op : DeskOp} (h : Withdrawn r workspaceId d)
    (hop : LeavesAlone r d op) :
    Withdrawn r workspaceId (deskStep d op) ∧ Untouched r d.db (deskStep d op).db := by
  obtain ⟨e, rfl, hretry, hspare⟩ := hop
  obtain ⟨run, hrun⟩ := h.run
  have hsound := deskStep_sound d (.engine e) h.sound
  obtain ⟨run', hrun', -⟩ :=
    (deskStep_runs h.sound (.engine e)).get? (fun _ _ hmove => hmove.same.id) hrun
  rw [deskStep_engine] at hsound hrun' ⊢
  rcases step_cases d.db e with heq | heffect
  · rw [heq] at hsound ⊢
    exact ⟨⟨hsound, h.run, h.quiet, h.unattested⟩, fun a ha _ hheld => ⟨a, ha, rfl, hheld⟩,
      fun g hg _ happroved => ⟨g, hg, rfl, happroved⟩, fun v hv _ _ => hv⟩
  · exact ⟨⟨hsound, ⟨run', hrun'⟩, (heffect.dwindles h.sound.db hrun h.quiet hretry hspare).quiet,
      h.unattested⟩,
      heffect.untouched h.sound.db hrun h.quiet hretry hspare⟩

/-- Without an attestation in the workspace there is nothing to publish. -/
theorem Withdrawn.refuses {d : Desk} {workspaceId contentItemId : Nat}
    (h : Withdrawn r workspaceId d) (platform : Option String) (decision : PublicationDecision) :
    assertPublishable d workspaceId contentItemId platform ≠ .ok decision := by
  intro hanswer
  obtain ⟨_, row, _, hrows, _⟩ := assertPublishable_ok.mp hanswer
  have hselected : row ∈ d.eligibility.select
      (·.isFor workspaceId contentItemId (normalizePlatform platform)) := by
    rw [hrows]
    exact List.mem_singleton_self row
  obtain ⟨hmem, hfor⟩ := Table.mem_select.mp hselected
  simp only [PublicationEligibility.isFor, Bool.and_eq_true, beq_iff_eq] at hfor
  exact h.unattested row hmem hfor.1.1

/-- **Withdrawn content stays withdrawn** where nothing of its run waited at the deletion and no
later step carries one of its attempts on. -/
theorem withdrawn_stays {d s u : Desk} {run : PipelineRun} {op : DeskOp} (hfresh : d.Fresh)
    (before : Reach DeskSteps (fun _ _ => True) d s) (hrun : s.db.runs.get? r = some run)
    (hleft : NothingWaits r s.db)
    (after : Reach DeskSteps (LeavesAlone r)
      (deskStep s (.deleteWorkspaceContent run.workspaceId run.workspaceId)) u)
    (hop : LeavesAlone r u op) :
    Untouched r u.db (deskStep u op).db ∧
      ∀ platform decision, assertPublishable u run.workspaceId run.contentItemId platform ≠
        .ok decision := by
  obtain ⟨hs, hlodged⟩ := desk_history_lodged hfresh before
  have hstart : Withdrawn r run.workspaceId
      (deskStep s (.deleteWorkspaceContent run.workspaceId run.workspaceId)) := by
    refine ⟨deskStep_sound s _ hs, ?_, ?_, ?_⟩ <;> rw [deskStep_delete]
    · exact ⟨run, hrun⟩
    · exact withdrawContent_quiet hlodged hrun hleft
    · intro row hmem hws
      have hkept := (Table.mem_deleteWhere.mp hmem).2
      simp [hws] at hkept
  have hu : Withdrawn r run.workspaceId u := by
    refine after.invariant (P := Withdrawn r run.workspaceId) hstart ?_
    rintro t op v ht hmet rfl
    exact (ht.step hmet).1
  exact ⟨(hu.step hop).2, fun platform decision => hu.refuses platform decision⟩

/-! ## An attempt in flight, and a waiting gate -/

/-- The first attempt is in flight when the content is deleted, and its worker still reports in. -/
def deletedHistory : List DeskOp :=
  [.engine (.startRun 0 0 0), .engine (.poll 10 []), .engine (.processJob 0 [] 0),
    .deleteWorkspaceContent 0 0,
    .engine (.ack 0 none 0)]

/-- The content is deleted while the run waits at its gate. -/
def deletedAtGate : Desk :=
  deskStep (replay deskStep demoDesk (gateHistory.map .engine)) (.deleteWorkspaceContent 0 0)

/-- The attempt fails for good. -/
theorem withdrawn_stays_failed :
    Untouched 0 (replay deskStep demoDesk deletedHistory).db
        (deskStep (replay deskStep demoDesk deletedHistory)
          (.engine (.submit 0 false none "boom" (some 0) 0))).db ∧
      ∀ platform decision,
        assertPublishable (replay deskStep demoDesk deletedHistory) 0 0 platform ≠
          .ok decision := by
  have hbefore : Reach DeskSteps (fun _ _ => True) demoDesk
      (replay deskStep demoDesk (deletedHistory.take 3)) :=
    reach_any _ _
  have hrow : ∃ run ∈ (replay deskStep demoDesk (deletedHistory.take 3)).db.runs,
      run.id = 0 ∧ run.workspaceId = 0 ∧ run.contentItemId = 0 := by decide +kernel
  obtain ⟨run, hmem, hid, hws, hitem⟩ := hrow
  have hrun : (replay deskStep demoDesk (deletedHistory.take 3)).db.runs.get? 0 = some run :=
    Table.get?_eq_some.mpr ⟨hmem, hid⟩
  have hleft : NothingWaits 0 (replay deskStep demoDesk (deletedHistory.take 3)).db :=
    ⟨by decide +kernel, by decide +kernel⟩
  have hack : LeavesAlone 0 (replay deskStep demoDesk (deletedHistory.take 4))
      (.engine (.ack 0 none 0)) :=
    ⟨_, rfl, rfl, by decide +kernel⟩
  have hsubmit : LeavesAlone 0 (replay deskStep demoDesk deletedHistory)
      (.engine (.submit 0 false none "boom" (some 0) 0)) := ⟨_, rfl, rfl, by decide +kernel⟩
  have hafter : Reach DeskSteps (LeavesAlone 0)
      (deskStep (replay deskStep demoDesk (deletedHistory.take 3))
        (.deleteWorkspaceContent run.workspaceId run.workspaceId))
      (replay deskStep demoDesk deletedHistory) := by
    rw [hws]
    exact .step .refl hack rfl
  have hstays := withdrawn_stays demoDesk_fresh hbefore hrun hleft hafter hsubmit
  rw [hws, hitem] at hstays
  exact hstays

/-- The gate of deleted content is approved afterwards. -/
theorem withdrawn_yet_approved :
    ¬ ∀ (d s u : Desk) (r : Nat) (run : PipelineRun) (op : DeskOp), d.Fresh →
      Reach DeskSteps (fun _ _ => True) d s → s.db.runs.get? r = some run →
        Reach DeskSteps (fun _ op => ∃ e, op = .engine e ∧ e.isOperatorRetry = false)
          (deskStep s (.deleteWorkspaceContent run.workspaceId run.workspaceId)) u →
          (∃ e, op = .engine e ∧ e.isOperatorRetry = false) →
            Untouched r u.db (deskStep u op).db ∧ ∀ platform decision,
              assertPublishable u run.workspaceId run.contentItemId platform ≠ .ok decision := by
  intro h
  have hbefore : Reach DeskSteps (fun _ _ => True) demoDesk
      (replay deskStep demoDesk (gateHistory.map .engine)) :=
    reach_any _ _
  have hrow : ∃ run ∈ (replay deskStep demoDesk (gateHistory.map .engine)).db.runs,
      run.id = 0 ∧ run.workspaceId = 0 := by decide +kernel
  obtain ⟨run, hmem, hid, hws⟩ := hrow
  have hrun : (replay deskStep demoDesk (gateHistory.map .engine)).db.runs.get? 0 = some run :=
    Table.get?_eq_some.mpr ⟨hmem, hid⟩
  have huntouched :=
    (h demoDesk _ _ 0 run (.engine (.decide 0 0 7 true (some 0))) demoDesk_fresh hbefore hrun .refl
    ⟨_, rfl, rfl⟩).1
  rw [hws] at huntouched
  change Untouched 0 deletedAtGate.db
    (deskStep deletedAtGate (.engine (.decide 0 0 7 true (some 0)))).db at huntouched
  have happroved : ∃ g ∈ (deskStep deletedAtGate (.engine (.decide 0 0 7 true (some 0)))).db.gates,
      g.pipelineRunId = 0 ∧ g.status = .approved := by decide +kernel
  have hnone : ∀ g ∈ deletedAtGate.db.gates, g.status ≠ .approved := by decide +kernel
  obtain ⟨g, hg, hr, hstatus⟩ := happroved
  obtain ⟨g', hg', -, hstatus'⟩ := huntouched.approved g hg hr hstatus
  exact hnone g' hg' hstatus'

end ContentOrchestrator

import ContentOrchestrator.Orchestration.RunInvariants

/-! # Terminal states are absorbing

A run that has ended may still have a gate, a queued job or an assignment behind it.
Dispatch, successful submission and exhaustion check the run's status and leave it
alone; the steps that do not check are `actsOnEnded`. Away from them, and from the
operator's retry of a failed run, an ended run keeps its row and gets no new work. -/

namespace ContentOrchestrator

open Lib

/-- The run's row is as before, and its STAGE and RETRY jobs, its waiting assignments and its
attempts in flight are all old. -/
structure Absorbed (r : Nat) (s t : Db) : Prop where
  run : t.runs.get? r = s.runs.get? r
  jobs : ∀ j ∈ t.jobs, j.isStageJob = true → j.isActive = true → j.refId = .run r →
    ∃ i ∈ s.jobs, i.id = j.id
  pending : ∀ a ∈ t.assignments, a.pipelineRunId = r → a.status = .pending →
    ∃ b ∈ s.assignments, b.id = a.id ∧ b.status = .pending
  inFlight : ∀ a ∈ t.assignments, a.pipelineRunId = r → a.status.inFlight = true →
    ∃ b ∈ s.assignments, b.id = a.id ∧ b.status.inFlight = true

variable {s t u : Db} {r : Nat}

/-! ## The slice gains nothing -/

/-- No row joins the slice, and no assignment changes hands. -/
structure RunSlice.Keeps (x y : RunSlice) : Prop where
  run : y.run = x.run
  jobs : ∀ j ∈ y.jobs, ∃ i ∈ x.jobs, i.id = j.id
  assignments : ∀ a ∈ y.assignments, ∃ b ∈ x.assignments,
    b.id = a.id ∧ b.status.inFlight = a.status.inFlight

namespace RunSlice.Keeps

variable {x y z : RunSlice}

theorem refl (x : RunSlice) : x.Keeps x where
  run := rfl
  jobs j hj := ⟨j, hj, rfl⟩
  assignments a ha := ⟨a, ha, rfl, rfl⟩

theorem of_eq (h : y = x) : x.Keeps y := h ▸ .refl x

theorem trans (h : x.Keeps y) (h' : y.Keeps z) : x.Keeps z where
  run := h'.run.trans h.run
  jobs k hk := by
    obtain ⟨j, hj, hid⟩ := h'.jobs k hk
    obtain ⟨i, hi, hid'⟩ := h.jobs j hj
    exact ⟨i, hi, hid'.trans hid⟩
  assignments c hc := by
    obtain ⟨b, hb, hid, hheld⟩ := h'.assignments c hc
    obtain ⟨a, ha, hid', hheld'⟩ := h.assignments b hb
    exact ⟨a, ha, hid'.trans hid, hheld'.trans hheld⟩

/-- Rows of the queue are rewritten in place. -/
theorem mapJobs {f : JobSchedule → JobSchedule} (hf : ∀ j, (f j).id = j.id) :
    x.Keeps { x with jobs := x.jobs.map f } where
  run := rfl
  jobs j hj := by
    obtain ⟨i, hi, rfl⟩ := List.mem_map.mp hj
    exact ⟨i, hi, (hf i).symm⟩
  assignments a ha := ⟨a, ha, rfl, rfl⟩

theorem dropAssignments {q : StageAssignment → Bool} {gates : List ReviewGate}
    {reservations : List SpendReservation} :
    x.Keeps ⟨x.run, x.jobs, x.assignments.filter q, gates, reservations⟩ where
  run := rfl
  jobs j hj := ⟨j, hj, rfl⟩
  assignments a ha := ⟨a, List.mem_of_mem_filter ha, rfl, rfl⟩

end RunSlice.Keeps

/-! ## One step -/

theorem statusOutcome_terminal {run : PipelineRun} (h : run.status.isTerminal = true) :
    statusOutcome run = some .skipped := by
  unfold statusOutcome
  rw [if_pos h]

/-- Rows leave the slice, and those of the queue may be rewritten. -/
structure RunSlice.Loses (x y : RunSlice) : Prop where
  run : y.run = x.run
  jobs : ∀ j ∈ y.jobs, ∃ i ∈ x.jobs, i.id = j.id
  assignments : ∀ a ∈ y.assignments, a ∈ x.assignments
  gates : y.gates = x.gates
  reservations : ∀ v ∈ y.reservations, v ∈ x.reservations

namespace RunSlice.Loses

variable {x y : RunSlice}

theorem keeps (h : x.Loses y) : x.Keeps y where
  run := h.run
  jobs := h.jobs
  assignments a ha := ⟨a, h.assignments a ha, rfl, rfl⟩

theorem rewriteJobs {f : JobSchedule → JobSchedule} (hf : ∀ j, (f j).id = j.id) :
    x.Loses { x with jobs := x.jobs.map f } where
  run := rfl
  jobs := (RunSlice.Keeps.mapJobs hf).jobs
  assignments _ ha := ha
  gates := rfl
  reservations _ hv := hv

theorem closeJobs {p : JobSchedule → Bool} : x.Loses { x with jobs := x.jobs.filter p } where
  run := rfl
  jobs j hj := ⟨j, List.mem_of_mem_filter hj, rfl⟩
  assignments _ ha := ha
  gates := rfl
  reservations _ hv := hv

end RunSlice.Loses

/-- **A leased row of a run that takes no work** is closed, put off or given up; nothing is
dispatched. -/
theorem Processed.loses {job : JobSchedule} {lockedWorkers : List Nat}
    (h : Processed job lockedWorkers s t) (hmem : job ∈ s.jobs) (hleased : job.status = .leased)
    (hp : job.isActiveFor r = true)
    (hturned : ∀ run, s.runs.get? r = some run → statusOutcome run ≠ none) :
    (s.slice r).Loses (t.slice r) := by
  have hactive := isActive_of_leased hleased
  have hget : s.jobs.get? job.id = some job := Table.get?_of_mem hmem
  obtain ⟨hkind, href⟩ := stageJob_of_isActiveFor hp
  have hclosed : ∀ {q : Nat} {run : PipelineRun}, job.runId? = some q → s.runs.get? q = some run →
      statusOutcome run ≠ none := by
    intro q run ref found
    rw [href] at ref
    cases ref
    exact hturned run found
  cases h with
  | parked _ _ _ _ _ =>
    rw [slice_rewriteJob keepsActive_park hget hactive]
    refine .rewriteJobs fun j => ?_
    split <;> rfl
  | retired _ _ _ _ _ =>
    rw [slice_closeJob isActive_retire]
    exact .closeJobs
  | repeated _ _ _ _ _ =>
    rw [slice_closeJob isActive_done]
    exact .closeJobs
  | held _ ref _ found status _ _ => exact absurd status (hclosed ref found)
  | assigned _ ref _ found status _ _ => exact absurd status (hclosed ref found)
  | waiting _ ref _ found status _ _ => exact absurd status (hclosed ref found)
  | rescheduled _ _ _ =>
    rw [slice_rewriteJob keepsActive_reschedule hget hactive]
    refine .rewriteJobs fun j => ?_
    split <;> rfl
  | exhausted _ _ _ exhausted =>
    cases exhausted with
    | alone _ routed =>
      rw [routed, slice_routeToDeadLetter, slice_closeJob isActive_exhaust]
      exact .closeJobs
    | withRun _ _ routed =>
      rw [routed, slice_routeToDeadLetter, slice_abandonStage, slice_closeJob isActive_exhaust]
      refine ⟨rfl, fun j hj => ⟨j, List.mem_of_mem_filter hj, rfl⟩,
        fun a ha => List.mem_of_mem_filter ha, rfl, fun v hv => ?_⟩
      simp only at hv
      split at hv
      · cases hv
      · exact hv
  | stageTimedOut kind => simp [JobSchedule.isStageJob, kind] at hkind
  | reviewTimedOut kind _ => simp [JobSchedule.isStageJob, kind] at hkind
  | finished kind =>
    rw [hkind] at kind
    cases kind

/-- An ended run takes no work, and another run's row is none of its own. -/
theorem Processed.keeps {job : JobSchedule} {lockedWorkers : List Nat} {run : PipelineRun}
    (h : Processed job lockedWorkers s t) (hmem : job ∈ s.jobs) (hleased : job.status = .leased)
    (hs : s.Sound) (hrun : s.runs.get? r = some run) (hterm : run.status.isTerminal = true) :
    (s.slice r).Keeps (t.slice r) := by
  have hother : job.isActiveFor r = false → job.isStageJob = true →
      (s.slice r).Keeps (t.slice r) := by
    intro hp hkind
    exact .of_eq (h.other hmem hleased hs hp fun hno => by rw [hkind] at hno; cases hno)
  cases hp : job.isActiveFor r with
  | true =>
    refine (h.loses hmem hleased hp fun row hrow => ?_).keeps
    rw [hrun] at hrow
    cases hrow
    simp [statusOutcome_terminal hterm]
  | false =>
    cases h with
    | reviewTimedOut kind _ =>
      rw [slice_closeOtherJob isActive_done (mem_jobs_handleReviewTimeout hmem) hp]
      unfold handleReviewTimeout
      split
      · exact .refl _
      rename_i gate hgate
      split
      · exact .refl _
      rename_i hawait
      rw [if_pos (hs.gates gate (Table.get?_eq_some.mp hgate).1 (by simpa using hawait)),
        slice_escalateGate]
      exact ⟨rfl, fun j hj => ⟨j, hj, rfl⟩, fun a ha => ⟨a, ha, rfl, rfl⟩⟩
    | stageTimedOut kind => exact absurd kind (hs.jobs job hmem)
    | finished _ => exact .of_eq (slice_closeOtherJob isActive_done hmem hp)
    | parked kind _ _ _ _ => exact hother hp kind
    | retired kind _ _ _ _ => exact hother hp kind
    | repeated kind _ _ _ _ => exact hother hp kind
    | held kind _ _ _ _ _ _ => exact hother hp kind
    | assigned kind _ _ _ _ _ _ => exact hother hp kind
    | waiting kind _ _ _ _ _ _ => exact hother hp kind
    | rescheduled kind _ _ => exact hother hp kind
    | exhausted kind _ _ _ => exact hother hp kind

/-- A success that arrives late is booked; the ended run does not advance. -/
theorem Submitted.keeps {a : StageAssignment} {result : Option (List (String × Json))}
    {message : String} {success : Bool} {run : PipelineRun}
    (h : Submitted a result message s success t) (ha : a ∈ s.assignments)
    (hrun : s.runs.get? r = some run) (hterm : run.status.isTerminal = true)
    (hspare : a.pipelineRunId = r → success = true) :
    (s.slice r).Keeps (t.slice r) := by
  by_cases hr : r = a.pipelineRunId
  · subst hr
    have hdone := hspare rfl
    cases h with
    | orphaned missing =>
      rw [hrun] at missing
      cases missing
    | @succeeded row s1 _ found _ settled advanced =>
      rw [hrun] at found
      cases found
      have hs1 : t = s1 := by
        rcases advanced with ⟨_, ht⟩ | ⟨hlive, _⟩
        · exact ht
        · rw [hterm] at hlive
          cases hlive
      have hm : (recordSuccess a result s).slice a.pipelineRunId = _ :=
        slice_recordSuccess.trans slice_closeAssignment
      rw [hs1]
      rcases settled with ⟨_, rfl⟩ | ⟨w, cost, _, rfl⟩
      · rw [hm]
        exact .dropAssignments
      · rw [slice_commitReservation, hm]
        exact .dropAssignments
    | failed _ _ _ _ => cases hdone
  · exact .of_eq (h.other ha hr)

/-- An ended run's lost lease is dead-lettered without touching the run. -/
theorem Recovered.keeps {a : StageAssignment} {reason : RecoveryReason} {run : PipelineRun}
    (h : Recovered a reason s t) (ha : a ∈ s.assignments) (hrun : s.runs.get? r = some run)
    (hterm : run.status.isTerminal = true)
    (hspare : a.pipelineRunId = r → a.status.inFlight = true → canRequeue s a = false) :
    (s.slice r).Keeps (t.slice r) := by
  by_cases hr : r = a.pipelineRunId
  · subst hr
    cases h with
    | skipped _ => exact .refl _
    | requeued held left _ =>
      rw [hspare rfl held] at left
      cases left
    | exhausted held _ =>
      have hrow : (releaseWorkerSlot a.workerId s).runs.get? a.pipelineRunId = some run := by
        simpa using hrun
      rw [slice_deadLetterEnded hrow hterm, slice_releaseWorkerSlot]
      exact .dropAssignments
  · exact .of_eq (h.other ha hr)

/-- A lease is rewritten in place. -/
theorem keeps_rewriteHeld {k : Nat} {a : StageAssignment} {u : Update StageAssignment}
    (hget : s.assignments.get? k = some a) (hheld : a.status.inFlight = true) (hlive : KeepsLive u)
    (hu : (u.apply a).status.inFlight = true) :
    (s.slice r).Keeps (Db.slice { s with assignments := s.assignments.modify k u } r) := by
  obtain ⟨hmem, rfl⟩ := Table.get?_eq_some.mp hget
  have hx : Db.slice { s with assignments := s.assignments.modify (Keyed.key a) u } r =
      { s.slice r with
        assignments := (s.slice r).assignments.map fun b =>
          if b.id == Keyed.key a then u.apply b else b } :=
    slice_rewriteAssignment hlive hget (isLive_of_inFlight hheld) rfl rfl rfl rfl rfl
  rw [hx]
  refine ⟨rfl, fun j hj => ⟨j, hj, rfl⟩, fun b hb => ?_⟩
  obtain ⟨c, hc, rfl⟩ := List.mem_map.mp hb
  split
  · rename_i hid
    have hsame : s.assignments.get? (Keyed.key a) = some c :=
      Table.get?_eq_some.mpr ⟨(mem_slice_assignments.mp hc).1, beq_iff_eq.mp hid⟩
    rw [hget] at hsame
    cases hsame
    have hkey : (u.apply a).id = a.id := u.key_apply a
    exact ⟨a, hc, hkey.symm, hheld.trans hu.symm⟩
  · exact ⟨c, hc, rfl, rfl⟩

theorem claimedRow_of_chosen {workerId : Nat} {claimToken : Option Nat} {locked : List Nat}
    {worker : WorkerRegistration} {stages : List ContentStage} {row : StageAssignment}
    {blocked : Bool} (registered : s.workers.get? workerId = some worker)
    (fresh : heldByToken s worker claimToken = none) (admitted : worker.refusal s = none)
    (parsed : worker.supportedStages.mapM ContentStage.ofValue? = some stages)
    (chosen : claimCandidate s worker stages locked = (some row, blocked)) :
    claimedRow s workerId claimToken locked = some row := by
  simp [claimedRow, registered, fresh, admitted, parsed, chosen]

/-- A request that does not reach a run leaves it and its jobs alone. -/
theorem Revivals.spares {workspaceId : Nat} {targets : List RetryTarget}
    (h : Revivals workspaceId s targets t) (hother : ∀ target ∈ targets, target.runId ≠ r) :
    t.slice r = s.slice r ∧ ∀ j ∈ t.jobs, j.refId = .run r → j ∈ s.jobs := by
  induction h with
  | nothing same => exact ⟨same.slice, fun j hj _ => by rwa [same.jobs] at hj⟩
  | @more targets target t u _ once ih =>
    obtain ⟨hslice, hjobs⟩ := ih fun other hmem => hother other (List.mem_append_left _ hmem)
    have hne : r ≠ target.runId :=
      (hother target (List.mem_append_right _ (List.mem_singleton_self target))).symm
    refine ⟨(once.other hne).trans hslice, fun j hj href => ?_⟩
    obtain ⟨row, attempt, hrow, _, hsame⟩ := id once.out
    have hid : row.id = target.runId := (Table.get?_eq_some.mp hrow).2
    rw [hsame.jobs, enqueueOperatorRetry] at hj
    simp only [reviveRun_frame] at hj
    rcases Table.mem_insert.mp hj with hj | rfl
    · exact hjobs j hj href
    · simp only [Ref.run.injEq] at href
      exact absurd (href.symm.trans hid) hne

theorem retryFailedJobs_spares {workspaceId : Nat}
    (h : retriesRun s (.retryFailedJobs workspaceId) r = false) :
    (retryFailedJobs workspaceId s).slice r = s.slice r ∧
      ∀ j ∈ (retryFailedJobs workspaceId s).jobs, j.refId = .run r → j ∈ s.jobs := by
  refine retryFailedJobs_revivals.spares fun target htarget => ?_
  simp only [retriesRun, List.any_eq_false, beq_iff_eq] at h
  exact h target htarget

/-- No request reaches a run that succeeded or was cancelled. -/
theorem retriesRun_settled {op : Op} {run : PipelineRun} (hrun : s.runs.get? r = some run)
    (hsettled : op.isOperatorRetry = true → run.isSettled = true) : retriesRun s op r = false := by
  cases op with
  | retryFailedJobs workspaceId =>
    simp only [retriesRun, List.any_eq_false, beq_iff_eq]
    rintro target htarget rfl
    obtain ⟨row, hrow, hok⟩ := retryTargets_found htarget
    rw [hrun] at hrow
    cases hrow
    simp [PipelineRun.isRetryableIn, hsettled rfl] at hok
  | _ => rfl

/-- **An ended run gains nothing in a step that does not act on it.** -/
theorem Effect.keeps {op : Op} {run : PipelineRun} (h : Effect op s t) (hs : s.Sound)
    (hrun : s.runs.get? r = some run) (hterm : run.status.isTerminal = true)
    (hspare : actsOnEnded s op r = false) (hretry : retriesRun s op r = false) :
    (s.slice r).Keeps (t.slice r) := by
  cases h with
  | @started _ _ _ _ definition first row _ _ hrow =>
    have hne : r ≠ s.runs.next := by
      rintro rfl
      rw [Table.get?_next] at hrun
      cases hrun
    have hid : r ≠ row.id := by rw [hrow]; exact hne
    exact .of_eq (by rw [slice_enqueueStage, if_neg hid, slice_modifyRun, if_neg hid,
      slice_createRun, if_neg hne])
  | polled =>
    rw [slice_pollAndLease]
    refine .mapJobs fun j => ?_
    split <;> rfl
  | processed found leased done =>
    exact done.keeps (Table.get?_eq_some.mp found).1 leased hs hrun hterm
  | reaped =>
    rw [slice_reapExpiredLeases]
    refine .mapJobs fun j => ?_
    split <;> rfl
  | claimed done =>
    cases done with
    | idle => exact .refl _
    | chosen registered fresh admitted parsed chosen mem waiting settled =>
      have hrow := claimedRow_of_chosen registered fresh admitted parsed chosen
      simp only [actsOnEnded, hrow, Option.any_some, beq_eq_false_iff_ne] at hspare
      exact .of_eq (settled.other mem waiting (Ne.symm hspare))
  | @acknowledged _ assignmentId _ duration _ a found held =>
    have hheld : a.status.inFlight = true := by rw [held]; rfl
    have hacknowledge : KeepsLive (StageAssignment.acknowledged s.now) := keepsLive_acknowledged
    have hextend : KeepsLive (StageAssignment.extendLease s.now duration) := keepsLive_extendLease
    refine (keeps_rewriteHeld (r := r) found hheld hacknowledge rfl).trans ?_
    refine keeps_rewriteHeld (a := (StageAssignment.acknowledged s.now).apply a) ?_ rfl hextend rfl
    exact Table.get?_modified _ found
  | renewed found held => exact keeps_rewriteHeld found held keepsLive_extendLease held
  | @submitted _ _ _ _ success _ _ _ a found held admitted done =>
    refine done.keeps (Table.get?_eq_some.mp found).1 hrun hterm fun hr => ?_
    cases success with
    | true => rfl
    | false => simp [actsOnEnded, found, held, admitted, hr, Except.isOk, Except.toBool] at hspare
  | recovered found done =>
    refine done.keeps (Table.get?_eq_some.mp found).1 hrun hterm fun hr hheld => ?_
    simpa [actsOnEnded, found, hr, hheld] using hspare
  | @decided _ s₁ _ _ _ gateId reviewerId _ _ gate _ found owned admitted recorded applied booked _
      _ =>
    have hr : r ≠ gate.pipelineRunId := by
      rintro rfl
      simp [actsOnEnded, found, owned, admitted, Except.isOk, Except.toBool] at hspare
    exact .of_eq (applied.other_booked found recorded booked hr)
  | @cancelled _ runId row found =>
    have hid : row.id = runId := (Table.get?_eq_some.mp found).2
    refine .of_eq ?_
    rw [slice_cancelRun, if_neg]
    rintro ⟨hlive, hr⟩
    rw [hr, hid, found] at hrun
    cases hrun
    rw [hterm] at hlive
    cases hlive
  | retried => exact .of_eq (retryFailedJobs_spares hretry).1
  | changed => exact .of_eq slice_applyEnvironment

/-! ## Rows that name no stage -/

/-- A STAGE or RETRY row of the run whose text names no stage. -/
def JobSchedule.isUnnamedFor (runId : Nat) (j : JobSchedule) : Bool :=
  j.isStageJob && j.refId == .run runId && (ContentStage.ofValue? j.refTable).isNone

theorem JobMove.isUnnamedFor {op : Op} {j j' : JobSchedule} (h : JobMove op s j j') :
    j'.isUnnamedFor r = j.isUnnamedFor r := by
  obtain ⟨_, hkind, href, htext⟩ := h.identity
  unfold JobSchedule.isUnnamedFor JobSchedule.isStageJob
  rw [hkind, href, htext]

theorem IsQueued.not_unnamedFor {queues : JobType → Nat → ContentStage → Prop} {j : JobSchedule}
    (h : IsQueued queues j) : j.isUnnamedFor r = false := by
  rw [← Bool.not_eq_true]
  intro hunnamed
  simp only [JobSchedule.isUnnamedFor, Bool.and_eq_true, Option.isNone_iff_eq_none] at hunnamed
  obtain ⟨_, stage, _, htext, _⟩ := h.stage hunnamed.1.1
  have hsome : ContentStage.ofValue? j.refTable = some stage :=
    ContentStage.ofValue?_eq_some.mpr htext
  rw [hunnamed.2] at hsome
  cases hsome

/-- Only an operator retry queues a row that names no stage. -/
theorem Effect.unnamed {op : Op} (h : Effect op s t) (hs : s.Sound)
    (hretry : retriesRun s op r = false) :
    ∀ j ∈ t.jobs, j.isUnnamedFor r = true →
      ∃ i ∈ s.jobs, i.id = j.id ∧ i.isUnnamedFor r = true := by
  intro j hj hunnamed
  rcases (h.tables hs.jobs hs.keyed).new j hj with ⟨i, hi, hmoved⟩ | hqueued | hretried
  · exact ⟨i, hi, hmoved.identity.1.symm, hmoved.isUnnamedFor.symm.trans hunnamed⟩
  · rw [hqueued.not_unnamedFor] at hunnamed
    cases hunnamed
  · cases h with
    | retried =>
      have hold := (retryFailedJobs_spares hretry).2 j hj
      have href := hunnamed
      simp only [JobSchedule.isUnnamedFor, Bool.and_eq_true, beq_iff_eq] at href
      exact ⟨j, hold href.1.2, rfl, hunnamed⟩
    | _ => cases hretried.isOperatorRetry

/-! ## Whole histories -/

/-- What an ended run keeps, in a form that composes. -/
structure Rests (r : Nat) (s t : Db) : Prop where
  slice : (s.slice r).Keeps (t.slice r)
  unnamed : ∀ j ∈ t.jobs, j.isUnnamedFor r = true →
    ∃ i ∈ s.jobs, i.id = j.id ∧ i.isUnnamedFor r = true

theorem Rests.refl (r : Nat) (s : Db) : Rests r s s := ⟨.refl _, fun j hj h => ⟨j, hj, rfl, h⟩⟩

theorem Rests.trans (h : Rests r s t) (h' : Rests r t u) : Rests r s u := by
  refine ⟨h.slice.trans h'.slice, fun j hj hunnamed => ?_⟩
  obtain ⟨i, hi, hid, hi'⟩ := h'.unnamed j hj hunnamed
  obtain ⟨k, hk, hkid, hk'⟩ := h.unnamed i hi hi'
  exact ⟨k, hk, hkid.trans hid, hk'⟩

theorem inFlight_of_pending {status : StageAssignmentStatus} (hlive : status.isLive = true)
    (h : status.inFlight = false) : status = .pending := by
  cases status with
  | pending => rfl
  | dispatched | acknowledged => cases h
  | _ => cases hlive

theorem Rests.absorbed (h : Rests r s t) : Absorbed r s t := by
  refine ⟨h.slice.run, fun j hj hkind hactive href => ?_, fun a ha hr hidle => ?_,
    fun a ha hr hheld => ?_⟩
  · cases hnamed : (ContentStage.ofValue? j.refTable).isSome with
    | true =>
      have hin : j ∈ (t.slice r).jobs :=
        mem_slice_jobs.mpr ⟨hj, by simp [JobSchedule.isActiveFor, hkind, hactive, href, hnamed]⟩
      obtain ⟨i, hi, hid⟩ := h.slice.jobs j hin
      exact ⟨i, (mem_slice_jobs.mp hi).1, hid⟩
    | false =>
      have hnone : ContentStage.ofValue? j.refTable = none := by simpa using hnamed
      obtain ⟨i, hi, hid, _⟩ := h.unnamed j hj
        (by simp [JobSchedule.isUnnamedFor, hkind, href, hnone])
      exact ⟨i, hi, hid⟩
  · subst hr
    have hin := mem_slice_assignments.mpr ⟨ha, isLiveOf_self (isLive_pending hidle)⟩
    obtain ⟨b, hb, hid, hheld⟩ := h.slice.assignments a hin
    obtain ⟨hmem, hlive⟩ := mem_slice_assignments.mp hb
    simp only [StageAssignment.isLiveOf, Bool.and_eq_true] at hlive
    exact ⟨b, hmem, hid, inFlight_of_pending hlive.2 (by rw [hheld, hidle]; rfl)⟩
  · subst hr
    have hin := mem_slice_assignments.mpr ⟨ha, isLiveOf_self (isLive_of_inFlight hheld)⟩
    obtain ⟨b, hb, hid, hsame⟩ := h.slice.assignments a hin
    exact ⟨b, (mem_slice_assignments.mp hb).1, hid, hsame.trans hheld⟩

/-- An ended run rests in every continuation that does not act on it. -/
theorem rests_of_spared {run : PipelineRun} (hs : s.Sound) (hrun : s.runs.get? r = some run)
    (hterm : run.status.isTerminal = true)
    (after : Reach Steps (fun u op => actsOnEnded u op r = false ∧
      (u.runs.get? r = some run → retriesRun u op r = false)) s t) : t.Sound ∧ Rests r s t := by
  refine after.invariant (P := fun t => t.Sound ∧ Rests r s t) ⟨hs, .refl r s⟩ ?_
  rintro u op v ⟨hu, hrests⟩ ⟨hspare, hretry⟩ rfl
  refine ⟨step_sound u op hu, hrests.trans ?_⟩
  have hsame : u.runs.get? r = some run := hrests.slice.run.trans hrun
  rcases step_cases u op with heq | heffect
  · rw [heq]
    exact .refl r u
  · exact ⟨heffect.keeps hu hsame hterm hspare (hretry hsame), heffect.unnamed hu (hretry hsame)⟩

/-- **Terminal states are absorbing**: whatever led to the run's end, in every continuation whose
steps do not act on the ended run (and, if it failed, contain no operator retry) it keeps its row
and gets no new work. -/
theorem terminal_absorbing {db : Db} {run : PipelineRun} (hfresh : db.Fresh)
    (before : Reach Steps (fun _ _ => True) db s) (hrun : s.runs.get? r = some run)
    (hterm : run.status.isTerminal = true)
    (after : Reach Steps (fun u op => actsOnEnded u op r = false ∧
      (op.isOperatorRetry = true → run.isSettled = true)) s t) : Absorbed r s t := by
  have hs : s.Sound := history_sound hfresh.sound before
  refine (rests_of_spared hs hrun hterm (after.mono ?_)).2.absorbed
  rintro u op ⟨hspare, hretry⟩
  exact ⟨hspare, fun hsame => retriesRun_settled hsame hretry⟩

/-- The run is cancelled while its first job is queued. -/
def cancelledHistory : List Op := [.startRun 0 0 0, .cancelRun 0]

/-- The leftover job comes up and a worker asks for work. -/
def lateHistory : List Op := [.poll 10 [], .processJob 0 [] 0, .claim 0 none []]

theorem terminal_absorbing_cancelled :
    Absorbed 0 (replay step demoDb cancelledHistory)
      (replay step (replay step demoDb cancelledHistory) lateHistory) := by
  have hbefore : admits step (fun _ _ => true) demoDb cancelledHistory = true := by decide +kernel
  have hafter : admits step (fun u op => !actsOnEnded u op 0 && !op.isOperatorRetry)
      (replay step demoDb cancelledHistory) lateHistory = true := by decide +kernel
  have hrun : ∃ run ∈ (replay step demoDb cancelledHistory).runs,
      run.id = 0 ∧ run.status = .cancelled := by decide +kernel
  obtain ⟨run, hmem, hid, hstatus⟩ := hrun
  have hget : (replay step demoDb cancelledHistory).runs.get? 0 = some run :=
    Table.get?_eq_some.mpr ⟨hmem, hid⟩
  refine terminal_absorbing demoDb_fresh
    ((reach_replay cancelledHistory demoDb hbefore).mono fun _ _ _ => trivial) hget
    (by rw [hstatus]; rfl) ((reach_replay lateHistory _ hafter).mono ?_)
  intro u op h
  simp only [Bool.and_eq_true, Bool.not_eq_true'] at h
  exact ⟨h.1, fun hretry => by rw [hretry] at h; cases h.2⟩

/-- The run is cancelled at its gate, and the gate is approved afterwards. -/
theorem cancelled_run_resumes :
    ¬ ∀ (db s t : Db) (r : Nat) (run : PipelineRun), db.Fresh →
        Reach Steps (fun _ _ => True) db s → s.runs.get? r = some run →
        run.status.isTerminal = true →
        Reach Steps (fun _ op => op.isOperatorRetry = true → run.isSettled = true) s t →
          Absorbed r s t := by
  intro h
  have hbefore : admits step (fun _ _ => true) demoDb (gateHistory ++ [.cancelRun 0]) = true := by
    decide +kernel
  have hafter : admits step (fun _ op => !op.isOperatorRetry)
      (replay step demoDb (gateHistory ++ [.cancelRun 0])) [.decide 0 0 7 true (some 0)] =
        true := by
    decide +kernel
  have hrun : ∃ run ∈ (replay step demoDb (gateHistory ++ [.cancelRun 0])).runs,
      run.id = 0 ∧ run.status = .cancelled := by decide +kernel
  obtain ⟨run, hmem, hid, hstatus⟩ := hrun
  have hget : (replay step demoDb (gateHistory ++ [.cancelRun 0])).runs.get? 0 = some run :=
    Table.get?_eq_some.mpr ⟨hmem, hid⟩
  have habsorbed := h demoDb _ _ 0 run demoDb_fresh
    ((reach_replay _ _ hbefore).mono fun _ _ _ => trivial) hget (by rw [hstatus]; rfl)
    ((reach_replay _ _ hafter).mono fun _ op hop hretry => by rw [hretry] at hop; cases hop)
  have hresumed : ∃ row ∈ (replay step (replay step demoDb (gateHistory ++ [.cancelRun 0]))
      [.decide 0 0 7 true (some 0)]).runs, row.id = 0 ∧ row.status = .succeeded := by decide +kernel
  obtain ⟨row, hmem', hid', hstatus'⟩ := hresumed
  have hget' := habsorbed.run.trans hget
  rw [Table.get?_eq_some.mpr ⟨hmem', hid'⟩] at hget'
  cases hget'
  rw [hstatus] at hstatus'
  cases hstatus'

end ContentOrchestrator

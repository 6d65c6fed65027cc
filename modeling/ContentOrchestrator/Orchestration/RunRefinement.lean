import ContentOrchestrator.Orchestration.Hazards

/-! # The engine refines the life of a run

`Shows` relates the slice of a run to its abstract view: at most one continuation,
and an open reservation exactly while a worker holds the assignment. Every operation
is one `Move` of each run it concerns and leaves the slices of the others alone. -/

namespace ContentOrchestrator

open Lib

inductive Shows : RunSlice → RunView → Prop
  | idle {run : PipelineRun} {d : Nat} (pinned : run.definitionId = some d) :
      Shows ⟨some run, [], [], [], []⟩ ⟨run.status, run.currentStage, d, none⟩
  | queued {run : PipelineRun} {d : Nat} {job : JobSchedule} (pinned : run.definitionId = some d) :
      Shows ⟨some run, [job], [], [], []⟩
        ⟨run.status, run.currentStage, d, some (.queued job.id job.refTable job.attempt)⟩
  | waiting {run : PipelineRun} {d : Nat} {a : StageAssignment} (pinned : run.definitionId = some d)
      (idle : a.status = .pending) :
      Shows ⟨some run, [], [a], [], []⟩
        ⟨run.status, run.currentStage, d, some (.waiting a.id a.stage a.attemptNumber)⟩
  | working {run : PipelineRun} {d : Nat} {a : StageAssignment} {w : SpendReservation}
      (pinned : run.definitionId = some d) (held : a.status.inFlight = true)
      (covers : w.stage = a.stage) :
      Shows ⟨some run, [], [a], [], [w]⟩
        ⟨run.status, run.currentStage, d, some (.working a.id a.stage a.attemptNumber)⟩
  | reviewing {run : PipelineRun} {d : Nat} {g : ReviewGate} (pinned : run.definitionId = some d) :
      Shows ⟨some run, [], [], [g], []⟩
        ⟨run.status, run.currentStage, d, some (.reviewing g.id g.stage)⟩

namespace Shows

variable {x : RunSlice} {v : RunView}

/-! ## Reading the view off a row -/

theorem run_some (h : Shows x v) : ∃ run, x.run = some run ∧ run.status = v.status ∧
    run.currentStage = v.stage ∧ run.definitionId = some v.definitionId := by
  cases h with
  | idle pinned => exact ⟨_, rfl, rfl, rfl, pinned⟩
  | queued pinned => exact ⟨_, rfl, rfl, rfl, pinned⟩
  | waiting pinned _ => exact ⟨_, rfl, rfl, rfl, pinned⟩
  | working pinned _ _ => exact ⟨_, rfl, rfl, rfl, pinned⟩
  | reviewing pinned => exact ⟨_, rfl, rfl, rfl, pinned⟩

theorem of_job (h : Shows x v) {job : JobSchedule} (hj : job ∈ x.jobs) :
    ∃ run d, run.definitionId = some d ∧ x = ⟨some run, [job], [], [], []⟩ ∧
      v = ⟨run.status, run.currentStage, d, some (.queued job.id job.refTable job.attempt)⟩ := by
  cases h with
  | queued pinned =>
    rw [List.mem_singleton.mp hj]
    exact ⟨_, _, pinned, rfl, rfl⟩
  | _ => cases hj

theorem of_pending (h : Shows x v) {a : StageAssignment} (ha : a ∈ x.assignments)
    (hidle : a.status = .pending) :
    ∃ run d, run.definitionId = some d ∧ x = ⟨some run, [], [a], [], []⟩ ∧
      v = ⟨run.status, run.currentStage, d, some (.waiting a.id a.stage a.attemptNumber)⟩ := by
  cases h with
  | waiting pinned _ =>
    rw [List.mem_singleton.mp ha]
    exact ⟨_, _, pinned, rfl, rfl⟩
  | working _ held _ =>
    rw [← List.mem_singleton.mp ha, hidle] at held
    cases held
  | _ => cases ha

theorem of_inFlight (h : Shows x v) {a : StageAssignment} (ha : a ∈ x.assignments)
    (hheld : a.status.inFlight = true) :
    ∃ run d w, run.definitionId = some d ∧ w.stage = a.stage ∧ x = ⟨some run, [], [a], [], [w]⟩ ∧
      v = ⟨run.status, run.currentStage, d, some (.working a.id a.stage a.attemptNumber)⟩ := by
  cases h with
  | waiting _ idle =>
    rw [← List.mem_singleton.mp ha] at idle
    rw [idle] at hheld
    cases hheld
  | working pinned _ covers =>
    rw [List.mem_singleton.mp ha]
    exact ⟨_, _, _, pinned, covers, rfl, rfl⟩
  | _ => cases ha

theorem of_gate (h : Shows x v) {g : ReviewGate} (hg : g ∈ x.gates) :
    ∃ run d, run.definitionId = some d ∧ x = ⟨some run, [], [], [g], []⟩ ∧
      v = ⟨run.status, run.currentStage, d, some (.reviewing g.id g.stage)⟩ := by
  cases h with
  | reviewing pinned =>
    rw [List.mem_singleton.mp hg]
    exact ⟨_, _, pinned, rfl, rfl⟩
  | _ => cases hg

theorem of_none (h : Shows x v) (hnone : v.token = none) :
    ∃ run d, run.definitionId = some d ∧ x = ⟨some run, [], [], [], []⟩ ∧
      v = ⟨run.status, run.currentStage, d, none⟩ := by
  cases h with
  | idle pinned => exact ⟨_, _, pinned, rfl, rfl⟩
  | _ => cases hnone

/-- The rows that carry the run are as many as its tokens. -/
theorem length_eq (h : Shows x v) :
    x.jobs.length + x.assignments.length + x.gates.length = v.token.toList.length := by
  cases h <;> rfl

end Shows

variable {s t : Db} {r : Nat}

/-! ## Rows of the slice and rows outside it -/

theorem slice_run : (s.slice r).run = s.runs.get? r := rfl

theorem mem_slice_jobs {j : JobSchedule} :
    j ∈ (s.slice r).jobs ↔ j ∈ s.jobs ∧ j.isActiveFor r = true :=
  Table.mem_select

theorem mem_slice_assignments {a : StageAssignment} :
    a ∈ (s.slice r).assignments ↔ a ∈ s.assignments ∧ a.isLiveOf r = true :=
  Table.mem_select

theorem mem_slice_gates {g : ReviewGate} :
    g ∈ (s.slice r).gates ↔ g ∈ s.gates ∧ g.isAwaitingFor r = true :=
  Table.mem_select

theorem mem_slice_reservations {w : SpendReservation} :
    w ∈ (s.slice r).reservations ↔ w ∈ s.reservations ∧ w.isOpenOf r = true :=
  Table.mem_select

theorem slice_jobs_without {job : JobSchedule} (hj : job ∈ s.jobs)
    (hp : job.isActiveFor r = false) :
    { s.slice r with jobs := (s.slice r).jobs.filter fun j => !(j.id == job.id) } = s.slice r := by
  have hsame := Table.select_filter_key (p := (·.isActiveFor r)) hj hp
  exact congrArg (fun jobs => { s.slice r with jobs }) hsame

theorem slice_jobs_unchanged {job : JobSchedule} {f : JobSchedule → JobSchedule} (hj : job ∈ s.jobs)
    (hp : job.isActiveFor r = false) :
    { s.slice r with jobs := (s.slice r).jobs.map fun j => if j.id == job.id then f j else j } =
      s.slice r := by
  have hsame := Table.select_map_key (p := (·.isActiveFor r)) (f := f) hj hp
  exact congrArg (fun jobs => { s.slice r with jobs }) hsame

theorem slice_assignments_without {a : StageAssignment} (ha : a ∈ s.assignments)
    (hp : a.isLiveOf r = false) :
    { s.slice r with assignments := (s.slice r).assignments.filter fun b => !(b.id == a.id) } =
      s.slice r := by
  have hsame := Table.select_filter_key (p := (·.isLiveOf r)) ha hp
  exact congrArg (fun assignments => { s.slice r with assignments }) hsame

theorem slice_assignments_unchanged {a : StageAssignment} {f : StageAssignment → StageAssignment}
    (ha : a ∈ s.assignments) (hp : a.isLiveOf r = false) :
    { s.slice r with
      assignments := (s.slice r).assignments.map fun b => if b.id == a.id then f b else b } =
      s.slice r := by
  have hsame := Table.select_map_key (p := (·.isLiveOf r)) (f := f) ha hp
  exact congrArg (fun assignments => { s.slice r with assignments }) hsame

theorem slice_gates_without {g : ReviewGate} (hg : g ∈ s.gates) (hp : g.isAwaitingFor r = false) :
    { s.slice r with gates := (s.slice r).gates.filter fun h => !(h.id == g.id) } = s.slice r := by
  have hsame := Table.select_filter_key (p := (·.isAwaitingFor r)) hg hp
  exact congrArg (fun gates => { s.slice r with gates }) hsame

theorem slice_gates_unchanged {g : ReviewGate} {f : ReviewGate → ReviewGate} (hg : g ∈ s.gates)
    (hp : g.isAwaitingFor r = false) :
    { s.slice r with gates := (s.slice r).gates.map fun h => if h.id == g.id then f h else h } =
      s.slice r := by
  have hsame := Table.select_map_key (p := (·.isAwaitingFor r)) (f := f) hg hp
  exact congrArg (fun gates => { s.slice r with gates }) hsame

theorem slice_reservations_without {w : SpendReservation} (hw : w ∈ s.reservations)
    (hp : w.isOpenOf r = false) :
    { s.slice r with reservations := (s.slice r).reservations.filter fun v => !(v.id == w.id) } =
      s.slice r := by
  have hsame := Table.select_filter_key (p := (·.isOpenOf r)) hw hp
  exact congrArg (fun reservations => { s.slice r with reservations }) hsame

/-- Releasing a stage of another run takes nothing out. -/
theorem slice_releaseOther {run : PipelineRun} {stage : ContentStage} (hr : r ≠ run.id) :
    (releaseStageReservations run stage s).slice r = s.slice r := by
  rw [slice_releaseStageReservations]
  refine congrArg (fun reservations => { s.slice r with reservations }) ?_
  refine List.filter_eq_self.mpr fun w hw => ?_
  have hopen := (mem_slice_reservations.mp hw).2
  simp only [SpendReservation.isOpenOf, Bool.and_eq_true, beq_iff_eq] at hopen
  have hother : w.isOpenFor run.id stage = false := by
    simp only [SpendReservation.isOpenFor, Bool.and_eq_false_iff, beq_eq_false_iff_ne]
    exact .inl (.inl fun hq => hr (hopen.1.symm.trans hq))
  rw [hother]
  rfl

/-! ## Leaving a stage -/

/-- A stage a route leads to is a stage of the definition. -/
theorem route_work {d : Nat} {stage : ContentStage} {trigger : WorkflowTransitionTrigger}
    {context : List (String × Json)} {next : WorkflowStage}
    (h : route s d stage trigger context = .ok (.work next)) :
    (stageLimit s d next.stageKey).isSome = true := by
  cases route_end h with
  | work found _ => rw [stageLimit, found]; rfl

/-- An advance concerns its own run only. -/
theorem Advanced.other {run : PipelineRun} {stage : ContentStage}
    {trigger : WorkflowTransitionTrigger} {context : List (String × Json)}
    {stored : Table ReviewGate} (h : Advanced run stage trigger context stored s t)
    (hr : r ≠ run.id) : t.slice r = s.slice r := by
  cases h with
  | finished _ _ => rw [slice_succeedRun, if_neg hr]
  | queued _ _ => rw [slice_enqueueStage, if_neg hr, slice_modifyRun, if_neg hr]
  | gated _ _ _ _ => rw [slice_openReviewGate, if_neg hr, slice_modifyRun, if_neg hr]
  | kept _ _ _ _ => rw [slice_modifyRun, if_neg hr]

/-- What a run that carried nothing can show after its advance. -/
inductive AdvanceShown (limit : ContentStage → Option Nat) (row : PipelineRun) (d : Nat)
    (moves : Bool) (clear : Prop) (x : RunSlice) : Prop
  | finished {stage : ContentStage} (shown : Shows x ⟨.succeeded, stage, d, none⟩)
  | queued {stage : ContentStage} {job : Nat} (known : (limit stage).isSome = true)
      (shown : Shows x ⟨row.status, stage, d, some (.queued job stage.value 0)⟩)
  | gated {stage : ContentStage} {gate : Nat} (none_ : clear)
      (shown : Shows x ⟨.paused, stage, d, some (.reviewing gate stage)⟩)
  | kept {stage : ContentStage} (seen : ¬ clear) (stays : moves = false)
      (shown : Shows x ⟨row.status, stage, d, none⟩)

theorem Advanced.shows {run row : PipelineRun} {stage : ContentStage}
    {trigger : WorkflowTransitionTrigger} {context : List (String × Json)}
    {stored : Table ReviewGate} {d : Nat} (h : Advanced run stage trigger context stored s t)
    (hrun : run.definitionId = some d) (hrow : row.definitionId = some d)
    (hx : s.slice run.id = ⟨some row, [], [], [], []⟩) :
    AdvanceShown (stageLimit s d) row d (movesOn (route s d stage trigger context))
      (∀ g ∈ stored, g.isAwaitingFor run.id = false) (t.slice run.id) := by
  cases h with
  | @finished _ last _ _ =>
    have hshown : Shows ((succeedRun run last s).slice run.id) ⟨.succeeded, last, d, none⟩ := by
      rw [slice_succeedRun, if_pos rfl, hx]
      exact .idle hrow
    exact .finished hshown
  | @queued _ stageDef pinned routed =>
    rw [hrun] at pinned
    cases pinned
    have hshown : Shows ((enqueueStage run stageDef.stageKey 0 none
        (modifyRun run.id (PipelineRun.moveTo stageDef.stageKey) s)).slice run.id)
        ⟨row.status, stageDef.stageKey, d,
          some (.queued s.jobs.next stageDef.stageKey.value 0)⟩ := by
      rw [slice_enqueueStage, if_pos rfl, slice_modifyRun, if_pos rfl, hx]
      exact .queued hrow
    exact .queued (route_work routed) hshown
  | @gated _ stageDef item _ _ clear _ =>
    have hshown : Shows ((openReviewGate run item stageDef.stageKey stageDef.timeoutSeconds
        (modifyRun run.id (PipelineRun.moveTo stageDef.stageKey) s)).slice run.id)
        ⟨.paused, stageDef.stageKey, d, some (.reviewing s.gates.next stageDef.stageKey)⟩ := by
      rw [slice_openReviewGate, if_pos rfl, slice_modifyRun, if_pos rfl, hx]
      exact .reviewing hrow
    exact .gated clear hshown
  | @kept _ stageDef existing pinned routed mem awaiting =>
    rw [hrun] at pinned
    cases pinned
    have hshown : Shows ((modifyRun run.id (PipelineRun.moveTo stageDef.stageKey) s).slice run.id)
        ⟨row.status, stageDef.stageKey, d, none⟩ := by
      rw [slice_modifyRun, if_pos rfl, hx]
      exact .idle hrow
    refine .kept (fun hclear => ?_) (by rw [routed]; rfl) hshown
    rw [hclear existing mem] at awaiting
    cases awaiting

/-! ## Failure -/

theorem slice_failStage {run : PipelineRun} {stage : ContentStage} {attempt : Nat}
    {message : String} :
    (failStage run stage attempt message s).slice r = (failRun run s).slice r := by
  rw [failStage, slice_failRun, slice_failRun]
  have hsame : ∀ u : Db, u = routeToDeadLetter run.workspaceId "pipeline_runs" (.run run.id)
      ("stage:" ++ stage.formatted) message attempt (emitForRun EventType.stageFailed run s) →
      u.slice r = s.slice r ∧ u.now = s.now := by
    rintro u rfl
    exact ⟨slice_congr (by simp) (by simp) (by simp) (by simp) (by simp), by simp⟩
  obtain ⟨hslice, hnow⟩ := hsame _ rfl
  rw [hslice, hnow]

theorem FailureHandled.other {run : PipelineRun} {stage : ContentStage} {attempt : Nat}
    {message : String} (h : FailureHandled run stage attempt message s t) (hr : r ≠ run.id) :
    t.slice r = s.slice r := by
  cases h with
  | retried _ _ _ _ =>
    rw [slice_enqueueStage, if_neg hr]
    exact slice_congr (by simp) (by simp) (by simp) (by simp) (by simp)
  | failed => rw [slice_failStage, slice_failRun, if_neg hr]
  | compensated =>
    rw [slice_modifyRun, if_neg hr, slice_enqueueCompensations, slice_modifyRun, if_neg hr,
      slice_failStage, slice_failRun, if_neg hr]

/-- A failed attempt is queued again within the bound, or ends the run. -/
theorem FailureHandled.shows {run row : PipelineRun} {stage : ContentStage} {attempt d : Nat}
    {message : String} (h : FailureHandled run stage attempt message s t)
    (hrun : run.definitionId = some d) (hrow : row.definitionId = some d)
    (hx : s.slice run.id = ⟨some row, [], [], [], []⟩) :
    (∃ job m, stageLimit s d stage = some m ∧ attempt < m ∧ Shows (t.slice run.id)
      ⟨row.status, row.currentStage, d, some (.queued job stage.value attempt)⟩) ∨
    Shows (t.slice run.id) ⟨.failed, row.currentStage, d, none⟩ := by
  cases h with
  | @retried _ stageDef _ pinned found _ left =>
    rw [hrun] at pinned
    cases pinned
    refine .inl ⟨s.jobs.next, stageDef.maxAttempts, by rw [stageLimit, found]; rfl, left, ?_⟩
    rw [slice_enqueueStage, if_pos rfl]
    have hemit : (emitForRun EventType.stageFailed run s).slice run.id = s.slice run.id :=
      slice_congr (by simp) (by simp) (by simp) (by simp) (by simp)
    rw [hemit, hx]
    have hnext : (emitForRun EventType.stageFailed run s).jobs = s.jobs := by simp
    rw [hnext]
    exact .queued hrow
  | failed =>
    refine .inr ?_
    rw [slice_failStage, slice_failRun, if_pos rfl, hx]
    exact .idle hrow
  | compensated =>
    refine .inr ?_
    rw [slice_modifyRun, if_pos rfl, slice_enqueueCompensations, slice_modifyRun, if_pos rfl,
      slice_failStage, slice_failRun, if_pos rfl, hx]
    exact .idle hrow

/-! ## One operation is one move -/

/-- The run makes a move that the operation accounts for. -/
def Simulated (s t : Db) (op : Op) (r : Nat) (v : RunView) : Prop :=
  ∃ l v', Move (stageLimit s v.definitionId) v l v' ∧ l.cause s op r ∧ Shows (t.slice r) v'

theorem Simulated.quiet {op : Op} {v : RunView} (h : Shows (s.slice r) v)
    (hsame : t.slice r = s.slice r) : Simulated s t op r v :=
  ⟨.quiet, v, .quiet, trivial, hsame ▸ h⟩

theorem isLiveOf_self {a : StageAssignment} (hlive : a.status.isLive = true) :
    a.isLiveOf a.pipelineRunId = true := by
  simp [StageAssignment.isLiveOf, hlive]

theorem isLiveOf_other {a : StageAssignment} (hr : r ≠ a.pipelineRunId) : a.isLiveOf r = false := by
  simp [StageAssignment.isLiveOf, Ne.symm hr]

theorem isLive_of_inFlight {status : StageAssignmentStatus} (h : status.inFlight = true) :
    status.isLive = true := by
  cases status <;> first | rfl | cases h

/-! ### Submission -/

/-- The open reservations of a stage, seen in the slice. -/
theorem select_isOpenFor {stage : ContentStage} :
    s.reservations.select (·.isOpenFor r stage) =
      (s.slice r).reservations.filter fun w => w.stage == stage := by
  unfold Db.slice Table.select
  rw [List.filter_filter]
  refine List.filter_congr fun w _ => ?_
  simp only [SpendReservation.isOpenFor, SpendReservation.isOpenOf]
  cases w.pipelineRunId == r <;> cases w.stage == stage <;> rfl

theorem newestOpenReservation_of_slice {stage : ContentStage} {w : SpendReservation}
    (hw : (s.slice r).reservations = [w]) (hstage : w.stage = stage) :
    newestOpenReservation s r stage = some w := by
  unfold newestOpenReservation
  rw [select_isOpenFor, hw]
  simp [hstage]

theorem slice_commitReservation {run : PipelineRun} {w : SpendReservation} {cost : Nat} :
    (commitReservation run w cost s).slice r =
      { s.slice r with reservations := (s.slice r).reservations.filter fun v => !(v.id == w.id) } :=
  slice_settle (fun _ => isOpenOf_commit) (by simp) (by simp) (by simp) (by simp) (by simp)

theorem slice_releaseSpend {run : PipelineRun} {w : SpendReservation} (hw : w.status = .reserved) :
    (releaseSpend run w s).slice r =
      { s.slice r with reservations := (s.slice r).reservations.filter fun v => !(v.id == w.id) } :=
  slice_settle (fun _ => isOpenOf_release) (by simp) (by simp) (by simp) (by simp)
    (releaseSpend_reservations hw)

theorem isLive_complete {success : Bool} {result : Option (List (String × Json))} {now : Nat}
    {a : StageAssignment} :
    ((StageAssignment.complete success result now).apply a).status.isLive = false := by
  cases success <;> rfl

theorem slice_closeAssignment {a : StageAssignment} {success : Bool}
    {result : Option (List (String × Json))} :
    (closeAssignment a success result s).slice r =
      { s.slice r with assignments := (s.slice r).assignments.filter fun b => !(b.id == a.id) } :=
  slice_endAssignment (u := StageAssignment.complete success result s.now)
    (fun _ => isLive_complete) (by simp) (by simp) (by simp) (by simp) (by simp)

/-- The attempt is off the run, whatever its outcome. -/
theorem slice_recordSuccess {a : StageAssignment} {result : Option (List (String × Json))} :
    (recordSuccess a result s).slice r = (closeAssignment a true result s).slice r :=
  slice_congr (by simp [recordSuccess]) (by simp [recordSuccess]) (by simp [recordSuccess])
    (by simp [recordSuccess]) (by simp [recordSuccess])

theorem slice_recordFailedAttempt {a : StageAssignment} {result : Option (List (String × Json))} :
    (recordFailedAttempt a result s).slice r = (closeAssignment a false result s).slice r :=
  slice_congr (by simp [recordFailedAttempt]) (by simp [recordFailedAttempt])
    (by simp [recordFailedAttempt]) (by simp [recordFailedAttempt]) (by simp [recordFailedAttempt])

/-- Another run keeps its slice while an attempt is closed and its reservation settled. -/
theorem settled_other {a : StageAssignment} {m u : Db} {w : SpendReservation} {run : PipelineRun}
    (ha : a ∈ s.assignments) (hr : r ≠ a.pipelineRunId) (hid : run.id = a.pipelineRunId)
    (hm : m.slice r = { s.slice r with
      assignments := (s.slice r).assignments.filter fun b => !(b.id == a.id) })
    (hw : newestOpenReservation m run.id a.stage = some w)
    (hu : u.slice r = { m.slice r with
      reservations := (m.slice r).reservations.filter fun v => !(v.id == w.id) }) :
    u.slice r = s.slice r := by
  obtain ⟨hmem, hopen⟩ := newestOpenReservation_isOpen hw
  simp only [SpendReservation.isOpenFor, Bool.and_eq_true, beq_iff_eq] at hopen
  have hother : w.isOpenOf r = false := by
    simp only [SpendReservation.isOpenOf, Bool.and_eq_false_iff, beq_eq_false_iff_ne]
    exact .inl fun hq => hr (hq.symm.trans (hopen.1.1.trans hid))
  rw [hu, slice_reservations_without hmem hother, hm,
    slice_assignments_without ha (isLiveOf_other hr)]

theorem Submitted.other {a : StageAssignment} {result : Option (List (String × Json))}
    {success : Bool} {message : String} (h : Submitted a result message s success t)
    (ha : a ∈ s.assignments) (hr : r ≠ a.pipelineRunId) : t.slice r = s.slice r := by
  have hdrop := slice_assignments_without ha (isLiveOf_other hr)
  cases h with
  | orphaned _ => rw [slice_closeAssignment, hdrop]
  | @succeeded run s1 _ found _ settled advanced =>
    have hid : run.id = a.pipelineRunId := (Table.get?_eq_some.mp found).2
    have hm : (recordSuccess a result s).slice r = _ :=
      slice_recordSuccess.trans slice_closeAssignment
    have hs1 : s1.slice r = s.slice r := by
      rcases settled with ⟨_, rfl⟩ | ⟨w, cost, hw, rfl⟩
      · rw [hm, hdrop]
      · exact settled_other ha hr hid hm hw slice_commitReservation
    rcases advanced with ⟨_, rfl⟩ | ⟨_, hadv⟩
    · exact hs1
    · rw [hadv.other (hid ▸ hr), hs1]
  | @failed run s1 _ found _ settled handled =>
    have hid : run.id = a.pipelineRunId := (Table.get?_eq_some.mp found).2
    have hm : (recordFailedAttempt a result s).slice r = _ :=
      slice_recordFailedAttempt.trans slice_closeAssignment
    have hs1 : s1.slice r = s.slice r := by
      rcases settled with ⟨_, rfl⟩ | ⟨w, hw, rfl⟩
      · rw [hm, hdrop]
      · have hopen := status_of_isOpenFor (newestOpenReservation_isOpen hw).2
        exact settled_other ha hr hid hm hw (slice_releaseSpend hopen)
    rw [handled.other (hid ▸ hr), hs1]

/-- The run's own attempt is closed and its reservation settled: nothing carries it. -/
theorem settled_self {a : StageAssignment} {m : Db} {w : SpendReservation} {row : PipelineRun}
    (hx : s.slice r = ⟨some row, [], [a], [], [w]⟩) (hcovers : w.stage = a.stage)
    (hm : m.slice r = { s.slice r with
      assignments := (s.slice r).assignments.filter fun b => !(b.id == a.id) }) :
    newestOpenReservation m r a.stage = some w ∧
      { m.slice r with
        reservations := (m.slice r).reservations.filter fun v => !(v.id == w.id) } =
        ⟨some row, [], [], [], []⟩ := by
  have hslice : m.slice r = ⟨some row, [], [], [], [w]⟩ := by
    rw [hm, hx]
    simp
  refine ⟨newestOpenReservation_of_slice (by rw [hslice]) hcovers, ?_⟩
  rw [hslice]
  simp

theorem Submitted.moves {a : StageAssignment} {result : Option (List (String × Json))}
    {success : Bool} {message : String} {op : Op} {v : RunView}
    (h : Submitted a result message s success t) (ha : a ∈ s.assignments)
    (hheld : a.status.inFlight = true) (hv : Shows (s.slice a.pipelineRunId) v) (hset : v.Settled) :
    Simulated s t op a.pipelineRunId v := by
  have hmem := mem_slice_assignments.mpr ⟨ha, isLiveOf_self (isLive_of_inFlight hheld)⟩
  obtain ⟨row, d, w, hpin, hcovers, hx, rfl⟩ := hv.of_inFlight hmem hheld
  have hrow : s.runs.get? a.pipelineRunId = some row := by
    rw [← slice_run, hx]
  cases h with
  | orphaned missing =>
    rw [hrow] at missing
    cases missing
  | @succeeded run s1 _ found _ settled advanced =>
    rw [hrow] at found
    cases found
    have hid : row.id = a.pipelineRunId := (Table.get?_eq_some.mp hrow).2
    have hrecorded : (recordSuccess a result s).slice a.pipelineRunId = _ :=
      slice_recordSuccess.trans slice_closeAssignment
    obtain ⟨hnewest, hfree⟩ := settled_self hx hcovers hrecorded
    rw [hid, hnewest] at settled
    obtain ⟨hnone, _⟩ | ⟨w', cost, hw', rfl⟩ := settled
    · cases hnone
    cases hw'
    have hs1 : (commitReservation row w cost (recordSuccess a result s)).slice row.id =
        ⟨some row, [], [], [], []⟩ := by
      rw [hid, slice_commitReservation, hfree]
    have hdefs : (commitReservation row w cost (recordSuccess a result s)).definitions =
        s.definitions := by simp [recordSuccess]
    have hlimit : stageLimit (commitReservation row w cost (recordSuccess a result s)) d =
        stageLimit s d := by
      funext stage
      rw [stageLimit, stageLimit, stageDef?_congr hdefs]
    obtain ⟨hterm, rfl⟩ | ⟨_, hadv⟩ := advanced
    · have hgone := hset hterm _ rfl
      cases hgone
    · rw [← hid]
      cases hadv.shows hpin hpin hs1 with
      | finished shown => exact ⟨.finished, _, .finished rfl rfl, trivial, shown⟩
      | queued known shown =>
        rw [hlimit] at known
        exact ⟨.entered, _, .advanced rfl known, trivial, shown⟩
      | gated _ shown => exact ⟨.gated, _, .gated rfl, trivial, shown⟩
      | kept seen _ _ =>
        -- no gate of a run at work awaits a verdict
        refine absurd (fun g hg => ?_) seen
        cases hawait : g.isAwaitingFor row.id with
        | false => rfl
        | true =>
          have hin := mem_slice_gates.mpr ⟨hg, hawait⟩
          rw [hs1] at hin
          cases hin
  | @failed run s1 _ found _ settled handled =>
    rw [hrow] at found
    cases found
    have hid : row.id = a.pipelineRunId := (Table.get?_eq_some.mp hrow).2
    have hrecorded : (recordFailedAttempt a result s).slice a.pipelineRunId = _ :=
      slice_recordFailedAttempt.trans slice_closeAssignment
    obtain ⟨hnewest, hfree⟩ := settled_self hx hcovers hrecorded
    rw [hid, hnewest] at settled
    obtain ⟨hnone, _⟩ | ⟨w', hw', rfl⟩ := settled
    · cases hnone
    cases hw'
    have hopen : w.status = .reserved :=
      status_of_isOpenFor (newestOpenReservation_isOpen hnewest).2
    have hs1 : (releaseSpend row w (recordFailedAttempt a result s)).slice row.id =
        ⟨some row, [], [], [], []⟩ := by
      rw [hid, slice_releaseSpend hopen, hfree]
    have hdefs : (releaseSpend row w (recordFailedAttempt a result s)).definitions =
        s.definitions := by simp [recordFailedAttempt]
    rw [← hid]
    rcases handled.shows hpin hpin hs1 with ⟨job, m, hm, hleft, shown⟩ | shown
    · rw [stageLimit, stageDef?_congr hdefs] at hm
      exact ⟨.retried, _, .retried rfl hm hleft, trivial, shown⟩
    · exact ⟨.failed, _, .failed rfl rfl, trivial, shown⟩

end ContentOrchestrator

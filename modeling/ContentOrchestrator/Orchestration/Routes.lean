import ContentOrchestrator.Orchestration.Configuration

/-! # Where an operation sends a run

A run moves on in two ways: the success of its stage takes a route out of that stage,
and so does an admitted verdict that sets the run running. The route is a function of
the state before the operation. -/

namespace ContentOrchestrator

open Lib

variable {s t : Db}

/-! ## Routes depend on the definitions alone -/

theorem stageDef?_congr (h : t.definitions = s.definitions) {definitionId : Nat}
    {stage : ContentStage} :
    stageDef? t definitionId stage = stageDef? s definitionId stage := by
  rw [stageDef?, stageDef?, h]

theorem findTransition_congr (h : t.definitions = s.definitions) {definitionId : Nat}
    {stage : ContentStage} {trigger : WorkflowTransitionTrigger} {context : List (String × Json)} :
    findTransition t definitionId stage trigger context =
      findTransition s definitionId stage trigger context := by
  rw [findTransition, findTransition, outgoing, outgoing, h]

theorem route_congr (h : t.definitions = s.definitions) {definitionId : Nat} {stage : ContentStage}
    {trigger : WorkflowTransitionTrigger} {context : List (String × Json)} :
    route t definitionId stage trigger context = route s definitionId stage trigger context := by
  simp only [route, findTransition_congr h, stageDef?_congr h]

theorem resumesRun_congr (h : t.definitions = s.definitions) {definitionId : Nat}
    {gate : ReviewGate} {approved : Bool} :
    resumesRun t definitionId gate approved = resumesRun s definitionId gate approved := by
  rw [resumesRun, resumesRun, findTransition_congr h]

/-- Where a route can end: at a stage row of the definition, a gate exactly where it is flagged. -/
inductive RouteEnd (s : Db) (definitionId : Nat) : Route → Prop
  | finish {stage : ContentStage} : RouteEnd s definitionId (.finish stage)
  | gate {stageDef : WorkflowStage}
      (found : stageDef? s definitionId stageDef.stageKey = some stageDef)
      (flag : stageDef.isReviewGate = true) : RouteEnd s definitionId (.gate stageDef)
  | work {stageDef : WorkflowStage}
      (found : stageDef? s definitionId stageDef.stageKey = some stageDef)
      (flag : stageDef.isReviewGate = false) : RouteEnd s definitionId (.work stageDef)

theorem route_end {definitionId : Nat} {stage : ContentStage} {trigger : WorkflowTransitionTrigger}
    {context : List (String × Json)} {way : Route}
    (h : route s definitionId stage trigger context = .ok way) : RouteEnd s definitionId way := by
  unfold route at h
  cases hfind : findTransition s definitionId stage trigger context with
  | error e => simp [hfind, bind, Except.bind] at h
  | ok edge =>
    simp only [hfind, bind, Except.bind] at h
    cases edge with
    | none =>
      simp only at h
      cases hdef : stageDef? s definitionId stage with
      | none => simp [hdef] at h
      | some row =>
        simp only [hdef, pure, Except.pure] at h
        split at h
        · cases h
          exact .finish
        · cases h
    | some transition =>
      simp only at h
      cases hdef : stageDef? s definitionId transition.toStage with
      | none => simp [hdef] at h
      | some row =>
        have hfound : stageDef? s definitionId row.stageKey = some row := by
          rw [stageDef?_stageKey hdef, hdef]
        simp only [hdef, pure, Except.pure] at h
        split at h
        · cases h
          exact .finish
        · split at h
          · cases h
            exact .gate hfound ‹_›
          · rename_i hflag
            cases h
            exact .work hfound (by simpa using hflag)

/-- The run is where the route ends. -/
def Route.LeadsTo : Route → PipelineRun → Prop
  | .finish stage, run => run.currentStage = stage ∧ run.status = .succeeded
  | .gate stageDef, run => run.currentStage = stageDef.stageKey
  | .work stageDef, run => run.currentStage = stageDef.stageKey

/-- An advance takes the run along its route. -/
theorem Advanced.leads {run row : PipelineRun} {stage : ContentStage}
    {trigger : WorkflowTransitionTrigger} {context : List (String × Json)}
    {stored : Table ReviewGate} (h : Advanced run stage trigger context stored s t)
    (hrow : t.runs.get? run.id = some row) :
    ∃ definitionId way, run.definitionId = some definitionId ∧
      route s definitionId stage trigger context = .ok way ∧ way.LeadsTo row := by
  cases h with
  | finished pinned routed =>
    refine ⟨_, _, pinned, routed, ?_⟩
    simp only [succeedRun_frame, Table.get?_modify, if_true, Option.map_map,
      Option.map_eq_some_iff] at hrow
    obtain ⟨_, _, rfl⟩ := hrow
    exact ⟨rfl, rfl⟩
  | queued pinned routed =>
    refine ⟨_, _, pinned, routed, ?_⟩
    simp only [enqueueStage_frame, modifyRun_frame, Table.get?_modify, if_true,
      Option.map_eq_some_iff] at hrow
    obtain ⟨_, _, rfl⟩ := hrow
    rfl
  | gated pinned routed _ _ =>
    refine ⟨_, _, pinned, routed, ?_⟩
    simp only [openReviewGate_frame, modifyRun_frame, Table.get?_modify, if_true, Option.map_map,
      Option.map_eq_some_iff] at hrow
    obtain ⟨_, _, rfl⟩ := hrow
    rfl
  | kept pinned routed _ _ =>
    refine ⟨_, _, pinned, routed, ?_⟩
    simp only [modifyRun_frame, Table.get?_modify, if_true, Option.map_eq_some_iff] at hrow
    obtain ⟨_, _, rfl⟩ := hrow
    rfl

/-! ## The route an operation takes -/

/-- A successful result is accepted and the run goes on. -/
def submittedRoute (s : Db) (runId assignmentId : Nat) (result : Option (List (String × Json)))
    (workerId : Option Nat) : Option Route := do
  let a ← s.assignments.get? assignmentId
  let run ← s.runs.get? a.pipelineRunId
  let definitionId ← run.definitionId
  if a.pipelineRunId == runId && a.status.inFlight && (assertSubmittable s a workerId).isOk &&
      !run.status.isTerminal then
    (route s definitionId a.stage .onSuccess (result.getD [])).toOption
  else none

/-- A verdict is admitted and sets the run running. -/
def decidedRoute (s : Db) (runId workspaceId gateId : Nat) (approved : Bool)
    (expected : Option Nat) :
    Option Route := do
  let gate ← s.gates.get? gateId
  let run ← s.runs.get? gate.pipelineRunId
  let definitionId ← run.definitionId
  if gate.pipelineRunId == runId && gate.workspaceId == workspaceId &&
      (assertDecidable gate approved expected).isOk && resumesRun s definitionId gate approved then
    (route s definitionId gate.stage (reviewTrigger approved) []).toOption
  else none

/-- The route on which the operation moves the run. -/
def takenRoute (s : Db) (op : Op) (runId : Nat) : Option Route :=
  match op with
  | .submit assignmentId true result _ workerId _ =>
    submittedRoute s runId assignmentId result workerId
  | .decide workspaceId gateId _ approved expected =>
    decidedRoute s runId workspaceId gateId approved expected
  | _ => none

/-- The cursor of the run stays, or follows the route the operation takes. -/
def OnRoute (s : Db) (op : Op) (run run' : PipelineRun) : Prop :=
  run'.currentStage = run.currentStage ∨
    ∃ way, takenRoute s op run.id = some way ∧ way.LeadsTo run'

/-- The operation queues a job of this kind for a stage of the run: a first job where the run enters
the stage, a retry after an attempt of it. -/
inductive QueuesStage (s : Db) : Op → JobType → Nat → ContentStage → Prop
  | routed {op : Op} {runId : Nat} {stageDef : WorkflowStage}
      (taken : takenRoute s op runId = some (.work stageDef)) :
      QueuesStage s op .stage runId stageDef.stageKey
  | started {workspaceId contentItemId definitionId : Nat} {definition : WorkflowDefinition}
      {first : WorkflowStage} (defined : s.definitions.get? definitionId = some definition)
      (opens : definition.firstStage = some first) :
      QueuesStage s (.startRun workspaceId contentItemId definitionId) .stage s.runs.next
        first.stageKey
  | again {op : Op} {a : StageAssignment} (mem : a ∈ s.assignments) :
      QueuesStage s op .retry a.pipelineRunId a.stage

theorem toOption_eq_some {x : Except OrchestrationError Route} {way : Route}
    (h : x.toOption = some way) : x = .ok way := by
  cases x with
  | error e => cases h
  | ok found => rw [Option.some.inj h]

theorem submittedRoute_some {runId assignmentId : Nat} {result : Option (List (String × Json))}
    {workerId : Option Nat} {way : Route}
    (h : submittedRoute s runId assignmentId result workerId = some way) :
    ∃ a run definitionId, s.assignments.get? assignmentId = some a ∧ a.pipelineRunId = runId ∧
      s.runs.get? runId = some run ∧ run.definitionId = some definitionId ∧
        run.status.isTerminal = false ∧
        route s definitionId a.stage .onSuccess (result.getD []) = .ok way := by
  simp only [submittedRoute, Option.bind_eq_bind, Option.bind_eq_some_iff] at h
  obtain ⟨a, ha, run, hrun, definitionId, hpin, h⟩ := h
  split at h
  · rename_i hguard
    simp only [Bool.and_eq_true, beq_iff_eq, Bool.not_eq_true'] at hguard
    obtain ⟨⟨⟨rfl, _⟩, _⟩, hlive⟩ := hguard
    exact ⟨a, run, definitionId, ha, rfl, hrun, hpin, hlive, toOption_eq_some h⟩
  · cases h

theorem decidedRoute_some {runId workspaceId gateId : Nat} {approved : Bool} {expected : Option Nat}
    {way : Route} (h : decidedRoute s runId workspaceId gateId approved expected = some way) :
    ∃ gate run definitionId, s.gates.get? gateId = some gate ∧ gate.pipelineRunId = runId ∧
      assertDecidable gate approved expected = .ok () ∧ s.runs.get? runId = some run ∧
        run.definitionId = some definitionId ∧
          route s definitionId gate.stage (reviewTrigger approved) [] = .ok way := by
  simp only [decidedRoute, Option.bind_eq_bind, Option.bind_eq_some_iff] at h
  obtain ⟨gate, hgate, run, hrun, definitionId, hpin, h⟩ := h
  split at h
  · rename_i hguard
    simp only [Bool.and_eq_true, beq_iff_eq] at hguard
    obtain ⟨⟨⟨rfl, _⟩, hok⟩, _⟩ := hguard
    have hadmitted : assertDecidable gate approved expected = .ok () := by
      cases hcheck : assertDecidable gate approved expected with
      | ok _ => rfl
      | error e => simp [hcheck, Except.isOk, Except.toBool] at hok
    exact ⟨gate, run, definitionId, hgate, rfl, hadmitted, hrun, hpin, toOption_eq_some h⟩
  · cases h

/-- The route an operation takes is a route of the run's definition. -/
theorem takenRoute_end {op : Op} {runId : Nat} {way : Route}
    (h : takenRoute s op runId = some way) :
    ∃ run definitionId, s.runs.get? runId = some run ∧ run.definitionId = some definitionId ∧
      RouteEnd s definitionId way := by
  unfold takenRoute at h
  split at h
  · obtain ⟨_, run, definitionId, _, _, hrun, hpin, _, hroute⟩ := submittedRoute_some h
    exact ⟨run, definitionId, hrun, hpin, route_end hroute⟩
  · obtain ⟨_, run, definitionId, _, _, _, hrun, hpin, hroute⟩ := decidedRoute_some h
    exact ⟨run, definitionId, hrun, hpin, route_end hroute⟩
  · cases h

theorem submittedRoute_eq {assignmentId definitionId : Nat} {result : Option (List (String × Json))}
    {workerId : Option Nat} {a : StageAssignment} {run : PipelineRun} {way : Route}
    (found : s.assignments.get? assignmentId = some a) (held : a.status.inFlight = true)
    (admitted : assertSubmittable s a workerId = .ok ())
    (hrun : s.runs.get? a.pipelineRunId = some run) (live : run.status.isTerminal = false)
    (pinned : run.definitionId = some definitionId)
    (routed : route s definitionId a.stage .onSuccess (result.getD []) = .ok way) :
    submittedRoute s a.pipelineRunId assignmentId result workerId = some way := by
  simp [submittedRoute, found, hrun, pinned, held, admitted, live, routed, Except.isOk,
    Except.toBool, Except.toOption]

theorem decidedRoute_eq {workspaceId gateId definitionId : Nat} {approved : Bool}
    {expected : Option Nat} {gate : ReviewGate} {run : PipelineRun} {way : Route}
    (found : s.gates.get? gateId = some gate) (owned : gate.workspaceId = workspaceId)
    (admitted : assertDecidable gate approved expected = .ok ())
    (hrun : s.runs.get? gate.pipelineRunId = some run)
    (pinned : run.definitionId = some definitionId)
    (resumes : resumesRun s definitionId gate approved = true)
    (routed : route s definitionId gate.stage (reviewTrigger approved) [] = .ok way) :
    decidedRoute s gate.pipelineRunId workspaceId gateId approved expected = some way := by
  simp [decidedRoute, found, hrun, pinned, owned, admitted, resumes, routed, Except.isOk,
    Except.toBool, Except.toOption]

end ContentOrchestrator

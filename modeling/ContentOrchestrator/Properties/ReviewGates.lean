import ContentOrchestrator.Orchestration.RowMoves

/-! # Review gates are honoured

A run reaches a gate stage by a worker's success or by a verdict on another gate. The
success of a stage opens the gate: the run is paused, its review timeout queued. A
verdict does not: the gate it closes is still stored as awaiting while the next one is
looked for, and is taken for it. A definition that begins with a gate queues a job for
it. Apart from these the gate holds the run until it is decided. -/

namespace ContentOrchestrator

open Lib

variable {s t : Db} {op : Op} {r : Nat}

/-- The definition flags the stage as a review gate. -/
def isGateStage (s : Db) (definitionId : Nat) (stage : ContentStage) : Bool :=
  (stageDef? s definitionId stage).any (·.isReviewGate)

/-- The run is under way with its cursor on a gate stage. -/
def standsAtGate (s : Db) (runId : Nat) : Bool :=
  (s.runs.get? runId).any fun run =>
    !run.status.isTerminal && run.definitionId.any fun d => isGateStage s d run.currentStage

/-- The run is started on a definition that begins with a gate. -/
def startsAtGate (s : Db) (op : Op) (runId : Nat) : Bool :=
  match op with
  | .startRun _ _ definitionId =>
    runId == s.runs.next &&
      ((s.definitions.get? definitionId).bind (·.firstStage)).any (·.isReviewGate)
  | _ => false

/-- The run is routed to a gate while one of its gates is stored as awaiting. -/
def entersOverGate (s : Db) (op : Op) (runId : Nat) : Bool :=
  match takenRoute s op runId with
  | some (.gate _) => !(s.gates.select (·.isAwaitingFor runId)).isEmpty
  | _ => false

/-- An operator retry of the run names a gate stage. -/
def retriesGate (s : Db) (op : Op) (runId : Nat) : Bool :=
  match op with
  | .retryFailedJobs workspaceId =>
    (retryTargets s workspaceId).any fun target =>
      target.runId == runId && ((s.runs.get? runId).bind (·.definitionId)).any fun d =>
        (ContentStage.ofValue? target.stageKey).any (isGateStage s d)
  | _ => false

/-- The run stands at a gate, and the result of one of its assignments is accepted or the last
attempt of one is lost. -/
def worksAtGate (s : Db) (op : Op) (runId : Nat) : Bool :=
  standsAtGate s runId &&
    match op with
    | .submit assignmentId _ _ _ workerId _ =>
      (s.assignments.get? assignmentId).any fun a =>
        a.pipelineRunId == runId && a.status.inFlight && (assertSubmittable s a workerId).isOk
    | .recover assignmentId _ =>
      (s.assignments.get? assignmentId).any fun a =>
        a.pipelineRunId == runId && a.status.inFlight && !canRequeue s a
    | _ => false

/-- The operation gets past a gate of the run. -/
def passesGate (s : Db) (op : Op) (runId : Nat) : Bool :=
  startsAtGate s op runId || entersOverGate s op runId || retriesGate s op runId ||
    worksAtGate s op runId

/-! ## What honouring a gate means -/

/-- A gate of its own is opened for the stage, with its timeout, and the run waits. -/
structure OpensGate (s t : Db) (runId : Nat) (stageDef : WorkflowStage) : Prop where
  gate : ∃ gate, (∀ g ∈ s.gates, g.id ≠ gate.id) ∧ gate.stage = stageDef.stageKey ∧
    t.gates.select (·.isAwaitingFor runId) = [gate] ∧
      ∃ job ∈ t.jobs, (∀ j ∈ s.jobs, j.id ≠ job.id) ∧ job.jobType = .reviewTimeout ∧
        job.status = .pending ∧ job.refId = .gate gate.id ∧ gate.timeoutAt = some job.runAfter
  run : ∃ run, t.runs.get? runId = some run ∧ run.status = .paused ∧
    run.pauseReason = some .reviewGate ∧ run.currentStage = stageDef.stageKey

/-- The operation is the verdict on the gate, or its review timeout. -/
inductive ResolvesGate (s : Db) (g : ReviewGate) : Op → Prop
  | decision {reviewerId : Nat} {approved : Bool} {expected : Option Nat}
      (admitted : assertDecidable g approved expected = .ok ()) :
      ResolvesGate s g (.decide g.workspaceId g.id reviewerId approved expected)
  | timeout {job : JobSchedule} {lockedWorkers : List Nat} {jitter : Nat} (mem : job ∈ s.jobs)
      (kind : job.jobType = .reviewTimeout) (ref : job.refId = .gate g.id) :
      ResolvesGate s g (.processJob job.id lockedWorkers jitter)

/-- What the operation does to the run honours its gates. -/
structure HonoursGates (s : Db) (op : Op) (t : Db) (runId : Nat) : Prop where
  entered : ∀ stageDef, takenRoute s op runId = some (.gate stageDef) →
    t = s ∨ OpensGate s t runId stageDef
  arrived : standsAtGate t runId = true → ∀ run', t.runs.get? runId = some run' →
    (∀ run, s.runs.get? runId = some run → run.currentStage ≠ run'.currentStage) →
      ∃ stageDef, takenRoute s op runId = some (.gate stageDef) ∧
        stageDef.stageKey = run'.currentStage
  unassigned : ∀ a ∈ t.assignments, a.pipelineRunId = runId →
    ∃ run d, t.runs.get? runId = some run ∧
    run.definitionId = some d ∧ isGateStage t d a.stage = false
  held : standsAtGate s runId = true → ∀ run, s.runs.get? runId = some run →
    (∃ run', t.runs.get? runId = some run' ∧ run'.currentStage = run.currentStage ∧
        (run.status = .paused → run'.status = .paused)) ∨
      op = .cancelRun runId ∨
      ∃ g ∈ s.gates, g.isAwaitingFor runId = true ∧ g.stage = run.currentStage ∧ ResolvesGate s g op

/-! ## Routes and gate stages -/

theorem isGateStage_congr (h : t.definitions = s.definitions) {d : Nat} {stage : ContentStage} :
    isGateStage t d stage = isGateStage s d stage := by
  rw [isGateStage, isGateStage, stageDef?_congr h]

/-- The first stage of a definition is the one its key finds. -/
theorem stageDef?_firstStage {d : Nat} {definition : WorkflowDefinition} {first : WorkflowStage}
    (hdef : s.definitions.get? d = some definition) (hfirst : definition.firstStage = some first) :
    stageDef? s d first.stageKey = some first := by
  have hmem : first ∈ definition.stages :=
    (List.mem_insertionSort _).mp (List.mem_of_mem_head? hfirst)
  unfold stageDef?
  rw [hdef, Option.bind_some]
  cases hfind : definition.stages.find? fun row => row.stageKey == first.stageKey with
  | none =>
    have hnone := List.find?_eq_none.mp hfind first hmem
    simp at hnone
  | some row =>
    have hkey : row.stageKey = first.stageKey := by simpa using List.find?_some hfind
    rw [List.inj_on_of_nodup_map definition.unique (List.mem_of_find?_eq_some hfind) hmem hkey]

/-! ## One run across a step -/

/-- The stage is a stage of work of the run's definition. -/
def WorksAt (s : Db) (runId : Nat) (stage : ContentStage) : Prop :=
  ∃ run d, s.runs.get? runId = some run ∧ run.definitionId = some d ∧ isGateStage s d stage = false

theorem WorksAt.keep {stage : ContentStage} (h : WorksAt s r stage) (hruns : RunsMove op s t)
    (hdefs : t.definitions = s.definitions) : WorksAt t r stage := by
  obtain ⟨run, d, hrun, hpin, hwork⟩ := h
  obtain ⟨run', hrun', hmove⟩ := hruns.get? hrun
  exact ⟨run', d, hrun', hmove.same.definitionId.trans hpin, (isGateStage_congr hdefs).trans hwork⟩

/-! ## Entering a gate -/

/-- Opening a gate for a run that has none awaiting. -/
theorem openReviewGate_opens {run row : PipelineRun} {item : ContentItem} {stageDef : WorkflowStage}
    {m : Db} (hruns : m.runs.get? run.id = some row) (hgates : m.gates = s.gates)
    (hjobs : m.jobs = s.jobs) (clear : ∀ g ∈ s.gates, g.isAwaitingFor run.id = false) :
    OpensGate s (openReviewGate run item stageDef.stageKey stageDef.timeoutSeconds
      (modifyRun run.id (PipelineRun.moveTo stageDef.stageKey) m)) run.id stageDef := by
  refine ⟨⟨(newGate run item stageDef.stageKey stageDef.timeoutSeconds
    (modifyRun run.id (PipelineRun.moveTo stageDef.stageKey) m)).make m.gates.next, ?_, rfl, ?_,
    (reviewTimeoutJob run.workspaceId m.gates.next (m.now + seconds stageDef.timeoutSeconds) m).make
      m.jobs.next, ?_, ?_, rfl, rfl, rfl, rfl⟩, ?_⟩
  · intro g hg
    rw [hgates]
    exact (Table.key_lt hg).ne
  · simp only [openReviewGate_frame, modifyRun_frame, Table.select_insert]
    rw [hgates, Table.select_eq_nil.mpr clear]
    simp [newGate, ReviewGate.isAwaitingFor]
  · simp only [openReviewGate_frame, modifyRun_frame]
    exact Table.mem_insert.mpr (.inr rfl)
  · intro j hj
    rw [hjobs]
    exact (Table.key_lt hj).ne
  · refine ⟨PipelineRun.pauseForReview.apply ((PipelineRun.moveTo stageDef.stageKey).apply row), ?_,
      rfl, rfl, rfl⟩
    simp only [openReviewGate_frame, modifyRun_frame, Table.get?_modify, if_true, hruns,
      Option.map_some]

/-- A run that is routed to a gate, with none of its own stored as awaiting, gets one. -/
theorem Effect.enters {stageDef : WorkflowStage} (h : Effect op s t)
    (taken : takenRoute s op r = some (.gate stageDef))
    (clear : ∀ g ∈ s.gates, g.isAwaitingFor r = false) : OpensGate s t r stageDef := by
  cases h with
  | @submitted _ _ _ _ success _ _ _ a found held admitted done =>
    cases done with
    | orphaned missing =>
      cases success with
      | false => cases taken
      | true =>
        obtain ⟨b, run, _, hb, rfl, hrun, _⟩ := submittedRoute_some taken
        rw [found] at hb
        cases hb
        rw [missing] at hrun
        cases hrun
    | failed _ _ _ _ => cases taken
    | @succeeded run s1 _ hrun _ settled advanced =>
      obtain ⟨b, row, d, hb, rfl, hrow, hpin, hlive, hroute⟩ := submittedRoute_some taken
      rw [found] at hb
      cases hb
      rw [hrun] at hrow
      cases hrow
      have hid : run.id = a.pipelineRunId := (Table.get?_eq_some.mp hrun).2
      obtain ⟨hruns, hjobs, hgates, hconfig⟩ := settled_frame settled
      have hdefs : s1.definitions = s.definitions := congrArg Configuration.definitions hconfig
      rcases advanced with ⟨hterm, _⟩ | ⟨_, ha⟩
      · rw [hlive] at hterm
        cases hterm
      rw [← hid] at clear ⊢
      rw [← route_congr hdefs] at hroute
      cases ha with
      | finished pinned routed =>
        rw [hpin] at pinned
        cases pinned
        rw [hroute] at routed
        cases routed
      | queued pinned routed =>
        rw [hpin] at pinned
        cases pinned
        rw [hroute] at routed
        cases routed
      | gated pinned routed _ _ =>
        rw [hpin] at pinned
        cases pinned
        rw [hroute] at routed
        cases routed
        have hrow : s1.runs.get? run.id = some run := by rw [hruns, hid]; exact hrun
        exact openReviewGate_opens hrow hgates hjobs clear
      | @kept _ _ existing _ _ mem awaiting =>
        rw [hgates] at mem
        rw [clear existing mem] at awaiting
        cases awaiting
  | decided found owned admitted _ _ _ _ _ =>
    obtain ⟨gate, _, _, hgate, rfl, hadmitted, _⟩ := decidedRoute_some taken
    have hclear := clear gate (Table.get?_eq_some.mp hgate).1
    simp [ReviewGate.isAwaitingFor, awaiting_of_decidable hadmitted] at hclear
  | _ => cases taken

/-! ## What holds of a run in every history -/

/-- The run's assignments and queued jobs are at stages of work, and its one awaiting gate is at its
cursor. -/
structure Gated (s : Db) (r : Nat) : Prop where
  pinned : ∀ run, s.runs.get? r = some run → ∃ d, run.definitionId = some d
  working : ∀ a ∈ s.assignments, a.pipelineRunId = r → WorksAt s r a.stage
  queued : ∀ j ∈ s.jobs, j.isStageJob = true → j.refId = .run r → ∀ stage : ContentStage,
    j.refTable = stage.value → WorksAt s r stage
  reviewing : ∀ g ∈ s.gates, g.isAwaitingFor r = true → ∃ run, s.runs.get? r = some run ∧
    run.currentStage = g.stage ∧ ∀ d, run.definitionId = some d → isGateStage s d g.stage = true
  one : ∀ g ∈ s.gates, ∀ g' ∈ s.gates, g.isAwaitingFor r = true → g'.isAwaitingFor r = true → g = g'

theorem passesGate_eq_false (h : passesGate s op r = false) : startsAtGate s op r = false ∧
    entersOverGate s op r = false ∧ retriesGate s op r = false ∧ worksAtGate s op r = false := by
  simp only [passesGate, Bool.or_eq_false_iff] at h
  exact ⟨h.1.1.1, h.1.1.2, h.1.2, h.2⟩

/-- A run that is routed to a gate has none that awaits. -/
theorem clear_of_entersOverGate {stageDef : WorkflowStage} (h : entersOverGate s op r = false)
    (taken : takenRoute s op r = some (.gate stageDef)) :
    ∀ g ∈ s.gates, g.isAwaitingFor r = false := by
  simp only [entersOverGate, taken, Bool.not_eq_false', List.isEmpty_iff] at h
  exact Table.select_eq_nil.mp h

theorem standsAtGate_iff : standsAtGate s r = true ↔ ∃ run d, s.runs.get? r = some run ∧
    run.status.isTerminal = false ∧ run.definitionId = some d ∧
      isGateStage s d run.currentStage = true := by
  simp only [standsAtGate, Option.any_eq_true, Bool.and_eq_true, Bool.not_eq_true']
  constructor
  · rintro ⟨run, hrun, hlive, d, hpin, hgate⟩
    exact ⟨run, d, hrun, hlive, hpin, hgate⟩
  · rintro ⟨run, d, hrun, hlive, hpin, hgate⟩
    exact ⟨run, hrun, hlive, d, hpin, hgate⟩

/-- Nothing is made of a run at a gate but through the gate or a cancellation. -/
theorem RunMove.held_at_gate {run run' : PipelineRun} (h : RunMove op s run run')
    (hrun : s.runs.get? r = some run) (hstands : standsAtGate s r = true)
    (hworks : worksAtGate s op r = false) :
    (run'.currentStage = run.currentStage ∧ (run.status = .paused → run'.status = .paused)) ∨
      op = .cancelRun r ∨ ∃ g ∈ s.gates, g.isAwaitingFor r = true ∧ ResolvesGate s g op := by
  have hid : run.id = r := (Table.get?_eq_some.mp hrun).2
  cases h with
  | kept => exact .inl ⟨rfl, id⟩
  | held => exact .inl ⟨rfl, fun _ => rfl⟩
  | cancelled request _ => exact .inr (.inl (hid ▸ request))
  | revived _ failed =>
    obtain ⟨row, _, hrow, hlive, _⟩ := standsAtGate_iff.mp hstands
    rw [hrun] at hrow
    cases hrow
    rw [failed] at hlive
    cases hlive
  | @lost a _ request mem own held spent _ =>
    subst request
    have hget : s.assignments.get? a.id = some a := Table.get?_of_mem mem
    simp [worksAtGate, hstands, hget, own, hid, held, spent] at hworks
  | @submitted a _ _ _ _ _ _ request mem own held admitted _ _ =>
    subst request
    have hget : s.assignments.get? a.id = some a := Table.get?_of_mem mem
    simp [worksAtGate, hstands, hget, own, hid, held, admitted, Except.isOk,
      Except.toBool] at hworks
  | @decided gate _ _ _ _ request mem own admitted _ _ =>
    subst request
    refine .inr (.inr ⟨gate, mem, ?_, .decision admitted⟩)
    simp [ReviewGate.isAwaitingFor, own, hid, awaiting_of_decidable admitted]

/-! ## One step -/

/-- A start creates its run. -/
theorem Effect.created {workspaceId contentItemId definitionId : Nat}
    (h : Effect (.startRun workspaceId contentItemId definitionId) s t) :
    ∃ run definition first, s.definitions.get? definitionId = some definition ∧
      definition.firstStage = some first ∧ t.runs.get? s.runs.next = some run ∧
        run.definitionId = some definitionId ∧ run.currentStage = first.stageKey := by
  cases h with
  | @started _ _ _ _ definition first row defined opens created =>
    have hid : definition.id = definitionId := (Table.get?_eq_some.mp defined).2
    have hrow : row.id = s.runs.next := by rw [created]
    refine ⟨(PipelineRun.pin definition.id first.stageKey s.now).apply row, definition, first,
      defined,
      opens, ?_, congrArg some hid, rfl⟩
    simp only [enqueueStage_frame, modifyRun_frame, createRun, Table.get?_modify, hrow, if_true,
      Table.get?_insert, Option.map_some, Option.some.injEq]
    rw [created]

/-- A job an operation queues for the run names a stage of work. -/
theorem IsAdded.works {j : JobSchedule} {stage : ContentStage} (h : IsAdded s op j) (hg : Gated s r)
    (heffect : Effect op s t) (hruns : RunsMove op s t) (hdefs : t.definitions = s.definitions)
    (hpass : passesGate s op r = false)
    (hkind : j.isStageJob = true) (href : j.refId = .run r) (htext : j.refTable = stage.value) :
    WorksAt t r stage := by
  obtain ⟨hstarts, -, hretries, -⟩ := passesGate_eq_false hpass
  rcases h with hqueued | hretried
  · obtain ⟨runId, queued, href', htext', hqueues⟩ := hqueued.stage hkind
    have hr : runId = r := Ref.run.inj (href'.symm.trans href)
    have hstage : queued = stage := ContentStage.value_injective (htext'.symm.trans htext)
    subst hr hstage
    generalize j.jobType = kind at hqueues
    cases hqueues with
    | routed taken =>
      obtain ⟨run, d, hrun, hpin, hend⟩ := takenRoute_end taken
      cases hend with
      | work found flag =>
        have hwork : WorksAt s runId _ := ⟨run, d, hrun,
            hpin, by rw [isGateStage, found]; exact flag⟩
        exact hwork.keep hruns hdefs
    | started defined opens =>
      obtain ⟨run, definition, first, hdef, hfirst, hrun, hpin, _⟩ := heffect.created
      rw [defined] at hdef
      cases hdef
      rw [opens] at hfirst
      cases hfirst
      refine ⟨run, _, hrun, hpin, ?_⟩
      rw [isGateStage_congr hdefs, isGateStage, stageDef?_firstStage defined opens]
      simpa [startsAtGate, defined, opens] using hstarts
    | again mem => exact (hg.working _ mem rfl).keep hruns hdefs
  · obtain ⟨workspaceId, target, rfl, htarget, href', htext'⟩ := hretried.target
    have hr : target.runId = r := Ref.run.inj (href'.symm.trans href)
    obtain ⟨run, hrun, _⟩ := retryTargets_found htarget
    rw [hr] at hrun
    obtain ⟨d, hpin⟩ := hg.pinned run hrun
    have hparsed : ContentStage.ofValue? target.stageKey = some stage :=
      ContentStage.ofValue?_eq_some.mpr (htext'.symm.trans htext)
    simp only [retriesGate, List.any_eq_false] at hretries
    have hwork : isGateStage s d stage = false := by
      simpa [hr, hrun, hpin, hparsed] using hretries target htarget
    have hworks : WorksAt s r stage := ⟨run, d, hrun, hpin, hwork⟩
    exact hworks.keep hruns hdefs

/-- A gate that awaits after the step is an old one as it was, or the one just opened. -/
theorem GatesMove.awaiting {g' : ReviewGate} (h : GatesMove op s t) (hg' : g' ∈ t.gates)
    (hawait : g'.isAwaitingFor r = true) : g' ∈ s.gates ∨
      g'.id = s.gates.next ∧ ∃ stageDef, takenRoute s op r = some (.gate stageDef) ∧
        g'.stage = stageDef.stageKey := by
  rcases h.new g' hg' with ⟨g, hg, hmove⟩ | ⟨run, item, stageDef, hrun, _, taken, rfl⟩
  · cases hmove with
    | kept => exact .inl hg
    | escalated _ _ _ _ _ _ => simp [ReviewGate.isAwaitingFor, ReviewGate.escalate] at hawait
    | @decided _ _ approved _ _ _ =>
      cases approved <;> simp [ReviewGate.isAwaitingFor, ReviewGate.decide] at hawait
  · have hr : run.id = r := by
      simp only [ReviewGate.isAwaitingFor, newGate, Bool.and_eq_true, beq_iff_eq] at hawait
      exact hawait.1
    subst hr
    exact .inr ⟨rfl, stageDef, taken, rfl⟩

/-- A committed verdict leaves its gate decided. -/
theorem Effect.decides {workspaceId gateId reviewerId : Nat} {approved : Bool}
    {expected : Option Nat}
    (h : Effect (.decide workspaceId gateId reviewerId approved expected) s t) :
    ∀ g ∈ t.gates, g.id = gateId → g.status ≠ .awaiting := by
  cases h with
  | decided _ _ _ _ _ _ result settled =>
    intro g hg hid
    rw [Table.get?_eq_some.mpr ⟨hg, hid⟩] at result
    cases result
    exact settled

/-- The cursor of a run at an awaiting gate moves only when that gate is decided. -/
theorem Effect.cursor_kept {run run' : PipelineRun} {g : ReviewGate} (h : Effect op s t)
    (hg : Gated s r) (hworks : worksAtGate s op r = false) (hrun : s.runs.get? r = some run)
    (hmove : RunMove op s run run') (hgs : g ∈ s.gates) (hgt : g ∈ t.gates)
    (hawait : g.isAwaitingFor r = true) : run'.currentStage = run.currentStage := by
  have hid : run.id = r := (Table.get?_eq_some.mp hrun).2
  cases hmove with
  | @submitted a _ _ _ _ _ _ request mem own held admitted _ cursor =>
    rcases cursor with hstays | ⟨way, taken, _⟩
    · exact hstays
    exfalso
    rw [hid] at taken
    -- only a run that is under way takes a route, and this one stands at its gate
    subst request
    obtain ⟨row, hrow, hstage, hgate⟩ := hg.reviewing g hgs hawait
    rw [hrun] at hrow
    cases hrow
    have hlive : run.status.isTerminal = false := by
      unfold takenRoute at taken
      split at taken
      · rename_i hop
        cases hop
        obtain ⟨_, row, _, _, _, hrow, _, hlive, _⟩ := submittedRoute_some taken
        rw [hrun] at hrow
        cases hrow
        exact hlive
      · rename_i hop
        cases hop
      · cases taken
    obtain ⟨d, hpin⟩ := hg.pinned run hrun
    have hstands : standsAtGate s r = true :=
      standsAtGate_iff.mpr ⟨run, d, hrun, hlive, hpin, by rw [hstage]; exact hgate d hpin⟩
    have hget : s.assignments.get? a.id = some a := Table.get?_of_mem mem
    simp [worksAtGate, hstands, hget, own, hid, held, admitted, Except.isOk,
      Except.toBool] at hworks
  | @decided gate _ _ _ _ request mem own admitted _ _ =>
    subst request
    have hother : gate.isAwaitingFor r = true := by
      simp [ReviewGate.isAwaitingFor, own, hid, awaiting_of_decidable admitted]
    have hsame : g = gate := hg.one g hgs gate mem hawait hother
    subst hsame
    exact absurd (awaiting_of_decidable admitted) (h.decides g hgt rfl)
  | _ => rfl

/-- **One step keeps a run's gates in order.** -/
theorem Effect.gated (h : Effect op s t) (hs : s.Sound) (hdefs : t.definitions = s.definitions)
    (hg : Gated s r) (hpass : passesGate s op r = false) : Gated t r := by
  have hruns := h.runs hs.jobs hs.gates
  have hgates := h.gates hs.jobs hs.gates
  obtain ⟨-, henters, -, hworks⟩ := passesGate_eq_false hpass
  refine ⟨fun run' hrun' => ?_, fun a' ha' hr => ?_, fun j' hj' hkind href stage htext => ?_,
    fun g' hg' hawait => ?_, fun g₁ hg₁ g₂ hg₂ hawait₁ hawait₂ => ?_⟩
  · rcases hruns.back hrun' with ⟨run, hrun, hmove⟩ | ⟨_, _, _, definition, _, _, _, _, rfl⟩
    · obtain ⟨d, hpin⟩ := hg.pinned run hrun
      exact ⟨d, hmove.same.definitionId.trans hpin⟩
    · exact ⟨definition.id, rfl⟩
  · have hwork : WorksAt s r a'.stage := by
      rcases h.attempts hs.jobs a' ha' with ⟨a, ha, hsame⟩ | ⟨-, -, hsource⟩
      · rw [hsame.stage]
        exact hg.working a ha (hsame.pipelineRunId.symm.trans hr)
      · rw [hr] at hsource
        rcases hsource with ⟨j, hj, -, hkind, href, htext⟩ | ⟨a, ha, hown, hstage⟩
        · exact hg.queued j hj hkind href a'.stage htext
        · rw [← hstage]
          exact hg.working a ha hown
    exact hwork.keep hruns hdefs
  · rcases (h.tables hs.jobs hs.keyed).new j' hj' with ⟨j, hj, hmoved⟩ | hadded
    · obtain ⟨_, hsame, href', htext'⟩ := hmoved.identity
      have hkind' : j.isStageJob = true := by rw [JobSchedule.isStageJob, ← hsame]; exact hkind
      have hwork := hg.queued j hj hkind' (href'.symm.trans href) stage (htext'.symm.trans htext)
      exact hwork.keep hruns hdefs
    · exact hadded.works hg h hruns hdefs hpass hkind href htext
  · rcases hgates.awaiting hg' hawait with hold | ⟨_, stageDef, taken, hstage⟩
    · obtain ⟨run, hrun, hcursor, hgate⟩ := hg.reviewing g' hold hawait
      obtain ⟨run', hrun', hmove⟩ := hruns.get? hrun
      refine ⟨run', hrun', ?_, fun d hpin => ?_⟩
      · rw [h.cursor_kept hg hworks hrun hmove hold hg' hawait, hcursor]
      · rw [isGateStage_congr hdefs]
        exact hgate d (hmove.same.definitionId.symm.trans hpin)
    · obtain ⟨run', hrun', _, _, hcursor⟩ :=
        (h.enters taken (clear_of_entersOverGate henters taken)).run
      obtain ⟨run, d, hrun, hpin, hend⟩ := takenRoute_end taken
      obtain ⟨row, hrow, hmove⟩ := hruns.get? hrun
      rw [hrun'] at hrow
      cases hrow
      refine ⟨run', hrun', by rw [hcursor, hstage], fun d' hpin' => ?_⟩
      rw [hmove.same.definitionId, hpin] at hpin'
      cases hpin'
      cases hend with
      | gate found flag =>
        rw [isGateStage_congr hdefs, hstage, isGateStage, found]
        exact flag
  · rcases hgates.awaiting hg₁ hawait₁ with hold₁ | ⟨hnew₁, _, taken, _⟩
    · rcases hgates.awaiting hg₂ hawait₂ with hold₂ | ⟨_, _, taken, _⟩
      · exact hg.one g₁ hold₁ g₂ hold₂ hawait₁ hawait₂
      · rw [clear_of_entersOverGate henters taken g₁ hold₁] at hawait₁
        cases hawait₁
    · rcases hgates.awaiting hg₂ hawait₂ with hold₂ | ⟨hnew₂, _, _, _⟩
      · rw [clear_of_entersOverGate henters taken g₂ hold₂] at hawait₂
        cases hawait₂
      · exact Table.eq_of_key hg₁ hg₂ (hnew₁.trans hnew₂.symm)

/-- **One step honours the run's gates.** -/
theorem Effect.honours (h : Effect op s t) (hs : s.Sound) (hdefs : t.definitions = s.definitions)
    (hg : Gated s r) (hpass : passesGate s op r = false) : HonoursGates s op t r := by
  have hruns := h.runs hs.jobs hs.gates
  obtain ⟨hstarts, henters, -, hworks⟩ := passesGate_eq_false hpass
  refine ⟨fun stageDef taken => ?_, fun hstands run' hrun' hmoved => ?_, fun a ha hr => ?_,
    fun hstands run hrun => ?_⟩
  · exact .inr (h.enters taken (clear_of_entersOverGate henters taken))
  · have hid : run'.id = r := (Table.get?_eq_some.mp hrun').2
    rcases hruns.back hrun' with ⟨run, hrun, hmove⟩ | hstarted
    · have hne := hmoved run hrun
      have hid : run.id = r := (Table.get?_eq_some.mp hrun).2
      have hroute : ∃ way, takenRoute s op r = some way ∧ way.LeadsTo run' := by
        cases hmove with
        | submitted _ _ _ _ _ _ cursor =>
          rcases cursor with hstays | htaken
          · exact absurd hstays.symm hne
          · exact hid ▸ htaken
        | decided _ _ _ _ _ cursor =>
          rcases cursor with hstays | htaken
          · exact absurd hstays.symm hne
          · exact hid ▸ htaken
        | _ => exact absurd rfl hne
      obtain ⟨way, taken, hleads⟩ := hroute
      obtain ⟨row, d, hrow, hlive, hpin, hgate⟩ := standsAtGate_iff.mp hstands
      rw [hrun'] at hrow
      cases hrow
      obtain ⟨old, d', hold, hpin', hend⟩ := takenRoute_end taken
      rw [hrun] at hold
      cases hold
      rw [hmove.same.definitionId, hpin'] at hpin
      cases hpin
      cases hend with
      | finish =>
        rw [hleads.2] at hlive
        cases hlive
      | gate _ _ => exact ⟨_, taken, hleads.symm⟩
      | work found flag =>
        rw [isGateStage_congr hdefs, show run'.currentStage = _ from hleads, isGateStage,
          found] at hgate
        rw [Option.any_some, flag] at hgate
        cases hgate
    · obtain ⟨_, _, definitionId, definition, first, rfl, defined, opens, hrow⟩ := hstarted
      have hnext : r = s.runs.next := by rw [← hid, hrow]; rfl
      obtain ⟨row, d, hrow', _, hpin, hgate⟩ := standsAtGate_iff.mp hstands
      rw [hrun'] at hrow'
      cases hrow'
      rw [hrow] at hpin hgate
      have hd : definition.id = d := Option.some.inj hpin
      have hdef : definition.id = definitionId := (Table.get?_eq_some.mp defined).2
      rw [← hdef] at defined
      have hflag : first.isReviewGate = true := by
        have hfirst := stageDef?_firstStage defined opens
        rw [isGateStage_congr hdefs, ← hd] at hgate
        have hgate' : isGateStage s definition.id first.stageKey = true := hgate
        rw [isGateStage, hfirst] at hgate'
        exact hgate'
      rw [hdef] at defined
      simp [startsAtGate, hnext, defined, opens, hflag] at hstarts
  · exact (h.gated hs hdefs hg hpass).working a ha hr
  · obtain ⟨run', hrun', hmove⟩ := hruns.get? hrun
    rcases hmove.held_at_gate hrun hstands hworks with
      ⟨hstage, hpaused⟩ | hcancel | ⟨g, hgmem, hawait, hres⟩
    · exact .inl ⟨run', hrun', hstage, hpaused⟩
    · exact .inr (.inl hcancel)
    · obtain ⟨row, hrow, hstage, _⟩ := hg.reviewing g hgmem hawait
      rw [hrun] at hrow
      cases hrow
      exact .inr (.inr ⟨g, hgmem, hawait, hstage.symm, hres⟩)

/-! ## Whole histories -/

theorem Db.Fresh.gated {db : Db} (h : db.Fresh) : Gated db r := by
  refine ⟨fun run hrun => ?_, fun a ha _ => ?_, fun j hj _ _ _ _ => ?_, fun g hg _ => ?_,
    fun g hg _ _ _ _ => ?_⟩
  · rw [h.runs] at hrun
    cases hrun
  · rw [h.assignments] at ha
    cases ha
  · rw [h.jobs] at hj
    cases hj
  · rw [h.gates] at hg
    cases hg
  · rw [h.gates] at hg
    cases hg

/-- A step that does nothing honours everything. -/
theorem Gated.honours_rest (hg : Gated s r) : HonoursGates s op s r := by
  refine ⟨fun _ _ => .inl rfl, fun _ run' hrun' hmoved => absurd rfl (hmoved run' hrun'),
    fun a ha hr => hg.working a ha hr, fun _ run hrun => .inl ⟨run, hrun, rfl, id⟩⟩

/-- **Review gates are honoured** in every history none of whose steps gets past a gate of the
run. -/
theorem review_gates_honoured {db : Db} (hfresh : db.Fresh)
    (h : Reach Steps (fun s op => passesGate s op r = false) db s)
    (hpass : passesGate s op r = false) :
    HonoursGates s op (step s op) r := by
  obtain ⟨hs, hg⟩ : s.Sound ∧ Gated s r := by
    refine h.invariant (P := fun s => s.Sound ∧ Gated s r) ⟨hfresh.sound, hfresh.gated⟩ ?_
    rintro s op t ⟨hs, hg⟩ hok rfl
    refine ⟨step_sound s op hs, ?_⟩
    rcases step_cases s op with heq | heffect
    · rw [heq]
      exact hg
    · exact heffect.gated hs (step_definitions op hs) hg hok
  rcases step_cases s op with heq | heffect
  · rw [heq]
    exact hg.honours_rest
  · exact heffect.honours hs (step_definitions op hs) hg hpass

/-- The success of the second stage opens the gate. -/
theorem review_gates_honoured_opened :
    HonoursGates (replay step demoDb gateHistory.dropLast) (.submit 1 true none "" (some 0) 0)
      (step (replay step demoDb gateHistory.dropLast) (.submit 1 true none "" (some 0) 0)) 0 := by
  have hadmits : admits step (fun s op => !passesGate s op 0) demoDb gateHistory.dropLast =
      true := by
    decide +kernel
  refine review_gates_honoured demoDb_fresh ((reach_replay _ _ hadmits).mono fun s op h => ?_)
    (by decide +kernel)
  simpa using h

/-- Two gates follow each other. -/
def twoGatesDb : Db :=
  { demoDb with
    definitions := demoDefinition
      [{ stageKey := .idea }, { stageKey := .review, ordinal := 1, isReviewGate := true },
       { stageKey := .scheduled, ordinal := 2, isReviewGate := true },
       { stageKey := .published, ordinal := 3, isTerminal := true }]
      [{ fromStage := .idea, toStage := .review, trigger := .onSuccess },
       { fromStage := .review, toStage := .scheduled, trigger := .onReviewApproved },
       { fromStage := .scheduled, toStage := .published, trigger := .onReviewApproved }]
         (by decide) }

/-- The approval of the first gate runs past the second. -/
theorem second_gate_passed :
    ¬ ∀ (db s : Db) (op : Op) (r : Nat), db.Fresh → Reach Steps (fun _ _ => True) db s →
        HonoursGates s op (step s op) r := by
  intro h
  have hfresh : twoGatesDb.Fresh := ⟨rfl, rfl, rfl, rfl, rfl, rfl, rfl, rfl⟩
  have hadmits : admits step (fun _ _ => true) twoGatesDb [.startRun 0 0 0, .poll 10 [],
      .processJob 0 [] 0, .submit 0 true none "" (some 0) 0] = true := by
    decide +kernel
  have honours := h twoGatesDb _ (.decide 0 0 7 true (some 0)) 0 hfresh
    ((reach_replay _ _ hadmits).mono fun _ _ _ => trivial)
  generalize hs : replay step twoGatesDb [.startRun 0 0 0, .poll 10 [],
    .processJob 0 [] 0, .submit 0 true none "" (some 0) 0] = s at honours
  have hroute : entersOverGate s (.decide 0 0 7 true (some 0)) 0 = true := by
    rw [← hs]
    decide +kernel
  have hpaused : ∃ run ∈ s.runs, run.status = .paused := by
    rw [← hs]
    decide +kernel
  have hrunning : ∀ run ∈ (step s (.decide 0 0 7 true (some 0))).runs, run.status = .running := by
    rw [← hs]
    decide +kernel
  unfold entersOverGate at hroute
  split at hroute
  · rename_i stageDef taken
    rcases honours.entered stageDef taken with hsame | hopens
    · obtain ⟨run, hrun, hstatus⟩ := hpaused
      rw [hsame] at hrunning
      rw [hrunning run hrun] at hstatus
      cases hstatus
    · obtain ⟨run, hrun, hstatus, _⟩ := hopens.run
      rw [hrunning run (Table.get?_eq_some.mp hrun).1] at hstatus
      cases hstatus
  · cases hroute

end ContentOrchestrator

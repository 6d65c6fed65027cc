import ContentOrchestrator.DeskInvariants
import ContentOrchestrator.Orchestration.SparedRuns

/-! # The life of a draft's run

A draft's run is created with its scripting stage already done, paid and waiting for
review, so the engine never works on it again: a verdict finishes it or fails it, and
neither queues a job nor leaves anything an operator's retry would pick up. -/

namespace ContentOrchestrator

open Lib

variable {s t : Db} {r d : Nat} {w : WorkflowDefinition}

/-! ## The desk's workflow -/

def WorkflowDefinition.IsDesk (w : WorkflowDefinition) : Prop :=
  w.stages = deskStages ∧ w.transitions = deskTransitions

/-- Only the desk provisions a workflow under its name and version. -/
def Db.DeskDefinitions (db : Db) : Prop :=
  ∀ w ∈ db.definitions, w.name = deskWorkflowName → w.version = deskWorkflowVersion → w.IsDesk

/-- The desk's review stage. -/
def deskReview : WorkflowStage :=
  { stageKey := .review, ordinal := 2, isReviewGate := true
    timeoutSeconds := defaultReviewTimeoutHours * 3600 }

theorem outgoing_desk (hw : w.IsDesk) (hd : s.definitions.get? d = some w) (stage : ContentStage)
    (trigger : WorkflowTransitionTrigger) :
    outgoing s d stage trigger = (deskTransitions.filter fun e =>
      e.fromStage == stage && e.trigger == trigger).insertionSort fun a b =>
          a.priority ≤ b.priority := by
  simp only [outgoing, hd, hw.2]

theorem stageDef?_desk (hw : w.IsDesk) (hd : s.definitions.get? d = some w) (stage : ContentStage) :
    stageDef? s d stage = deskStages.find? fun row => row.stageKey == stage := by
  simp only [stageDef?, hd, Option.bind_some, hw.1]

theorem route_scripting (hw : w.IsDesk) (hd : s.definitions.get? d = some w)
    (context : List (String × Json)) :
    route s d .scripting .onSuccess context = .ok (.gate deskReview) := by
  simp only [route, findTransition, outgoing_desk hw hd, stageDef?_desk hw hd]
  rfl

/-- A verdict ends the run. -/
theorem route_review (hw : w.IsDesk) (hd : s.definitions.get? d = some w) {approved : Bool}
    {way : Route} (h : route s d .review (reviewTrigger approved) [] = .ok way) :
    way = .finish .published := by
  simp only [route, findTransition, outgoing_desk hw hd, stageDef?_desk hw hd] at h
  cases approved with
  | true =>
    cases h
    rfl
  | false => cases h

/-! ## Delivered runs -/

/-- The draft is written and paid for, and only the review is left. -/
structure Delivered (db : Db) (r : Nat) : Prop where
  rest : AtRest db r
  run : ∃ run d w, db.runs.get? r = some run ∧ run.definitionId = some d ∧
    db.definitions.get? d = some w ∧ w.IsDesk
  gates : ∀ g ∈ db.gates, g.pipelineRunId = r → g.stage = .review
  spend : ∃ v, db.reservations.select (·.isOf r) = [v] ∧ v.status = .committed ∧
    v.stage = .scripting

/-- No row is about the run. -/
structure Unused (db : Db) (r : Nat) : Prop where
  rest : AtRest db r
  gates : ∀ g ∈ db.gates, g.pipelineRunId ≠ r
  spend : db.reservations.select (·.isOf r) = []

/-- A delivered run is only ever finished. -/
theorem Delivered.taken (h : Delivered s r) {op : Op} {way : Route}
    (taken : takenRoute s op r = some way) :
    way = .finish .published := by
  unfold takenRoute at taken
  split at taken
  · obtain ⟨a, _, _, ha, hown, _⟩ := submittedRoute_some taken
    exact absurd hown (h.rest.assignments a (Table.get?_eq_some.mp ha).1)
  · obtain ⟨gate, run, d, hgate, hown, _, hrun, hpin, hroute⟩ := decidedRoute_some taken
    obtain ⟨row, d', w, hrow, hpin', hd, hw⟩ := h.run
    rw [hrun] at hrow
    cases hrow
    rw [hpin] at hpin'
    cases hpin'
    rw [h.gates gate (Table.get?_eq_some.mp hgate).1 hown] at hroute
    exact route_review hw hd hroute
  · cases taken

theorem GateMove.stage {op : Op} {g g' : ReviewGate} (h : GateMove op s g g') :
    g'.stage = g.stage ∧ g'.pipelineRunId = g.pipelineRunId := by
  cases h <;> exact ⟨rfl, rfl⟩

/-- **A delivered run stays delivered** under every operation of the engine. -/
theorem Effect.delivered {op : Op} (h : Effect op s t) (hs : s.Sound)
    (hdefs : t.definitions = s.definitions) (hdelivered : Delivered s r) : Delivered t r := by
  obtain ⟨run, d, w, hrun, hpin, hd, hw⟩ := hdelivered.run
  obtain ⟨run', hrun', hmove⟩ := (h.runs hs.jobs hs.gates).get? hrun
  refine ⟨h.atRest hs hdelivered.rest (fun way taken => ⟨_, hdelivered.taken taken⟩)
    (fun hnone => ?_),
    ⟨run', d, w, hrun', hmove.same.definitionId.trans hpin, by rw [hdefs]; exact hd, hw⟩,
      fun g' hg' hown => ?_, ?_⟩
  · rw [hrun] at hnone
    cases hnone
  · rcases (h.gates hs.jobs hs.gates).new g' hg' with
      ⟨g, hg, hsame⟩ | ⟨row, _, stageDef, _, _, taken, rfl⟩
    · rw [hsame.stage.1]
      exact hdelivered.gates g hg (hsame.stage.2.symm.trans hown)
    · have hid : row.id = r := hown
      rw [hid] at taken
      cases hdelivered.taken taken
  · obtain ⟨v, hv, hcommitted, hstage⟩ := hdelivered.spend
    have hspared := h.sparesRun hs.jobs hdelivered.rest.unleased hdelivered.rest.assignments
    exact ⟨v, (hspared.reservations hdelivered.rest.spend).trans hv, hcommitted, hstage⟩

/-- A run that does not exist is not mentioned. -/
theorem Effect.unused {op : Op} (h : Effect op s t) (hs : s.Sound) (hunused : Unused s r)
    (hbefore : s.runs.get? r = none) (hafter : t.runs.get? r = none) : Unused t r := by
  have htaken : ∀ way, takenRoute s op r ≠ some way := by
    intro way taken
    obtain ⟨run, _, hrun, _⟩ := takenRoute_end taken
    rw [hbefore] at hrun
    cases hrun
  refine ⟨h.atRest hs hunused.rest (fun way taken => absurd taken (htaken way)) fun _ => hafter,
    fun g' hg' hown => ?_, ?_⟩
  · rcases (h.gates hs.jobs hs.gates).new g' hg' with ⟨g, hg, hsame⟩ | ⟨row, _, _, hrow, _, _, rfl⟩
    · exact hunused.gates g hg (hsame.stage.2.symm.trans hown)
    · have hid : row.id = r := hown
      rw [hid, hbefore] at hrow
      cases hrow
  · have hspared := h.sparesRun hs.jobs hunused.rest.unleased hunused.rest.assignments
    exact (hspared.reservations hunused.rest.spend).trans hunused.spend

/-- Every run under a key is delivered, and nothing is about a run that does not exist. -/
structure Db.Desked (db : Db) : Prop where
  sound : db.Sound
  definitions : db.DeskDefinitions
  unused : ∀ r, db.runs.get? r = none → Unused db r
  keyed : ∀ run ∈ db.runs, run.idempotencyKey ≠ none → Delivered db run.id

theorem step_desked (op : Op) (hs : s.Desked) : (step s op).Desked := by
  have hdefs := step_definitions op hs.sound
  rcases step_cases s op with heq | heffect
  · rw [heq]
    exact hs
  have hruns := heffect.runs hs.sound.jobs hs.sound.gates
  refine ⟨step_sound s op hs.sound, ?_, fun r hnone => ?_, fun run' hrun' hkey => ?_⟩
  · rw [Db.DeskDefinitions, hdefs]
    exact hs.definitions
  · have hbefore : s.runs.get? r = none := by
      cases hrun : s.runs.get? r with
      | none => rfl
      | some run =>
        obtain ⟨run', hrun', _⟩ := hruns.get? hrun
        rw [hnone] at hrun'
        cases hrun'
    exact heffect.unused hs.sound (hs.unused r hbefore) hbefore hnone
  · rcases hruns.new run' hrun' with ⟨run, hrun, hmove⟩ | ⟨_, _, _, _, _, _, _, _, rfl⟩
    · have hold : run.idempotencyKey ≠ none := hmove.same.idempotencyKey ▸ hkey
      rw [hmove.same.id]
      exact heffect.delivered hs.sound hdefs (hs.keyed run hrun hold)
    · exact absurd rfl hkey

/-! ## The run of a new draft -/

variable {workspaceId contentItemId : Nat} {key : Option String}

/-- The workflow a draft is pinned to, and the ones that stay. -/
structure Provisioned (w : WorkflowDefinition) (s t : Db) : Prop where
  desk : w.IsDesk
  found : t.definitions.get? w.id = some w
  definitions : t.DeskDefinitions
  kept : ∀ d w, s.definitions.get? d = some w → w.IsDesk →
    ∃ w', t.definitions.get? d = some w' ∧ w'.IsDesk

theorem ensureDeskWorkflow_provisions (h : Returns (ensureDeskWorkflow workspaceId) s w t)
    (hs : s.DeskDefinitions) : Provisioned w s t := by
  unfold ensureDeskWorkflow at h
  simp only [returns_bind, returns_get, returns_liftExcept] at h
  obtain ⟨_, _, ⟨rfl, rfl⟩, found, _, ⟨hfound, rfl⟩, h⟩ := h
  cases found with
  | none =>
    simp only [returns_bind, returns_modify, returns_pure] at h
    obtain ⟨_, _, rfl, rfl, rfl⟩ := h
    have hnew : (s.definitions.insert (deskDefinition workspaceId)).get? s.definitions.next =
        some ((deskDefinition workspaceId).make s.definitions.next) := by
      rw [Table.get?_insert, if_pos rfl]
    refine ⟨⟨rfl, rfl⟩, hnew, fun w hw hname hversion => ?_, fun d w hd hw => ⟨w, ?_, hw⟩⟩
    · rcases Table.mem_insert.mp hw with hw | rfl
      · exact hs w hw hname hversion
      · exact ⟨rfl, rfl⟩
    · have hlt : d < s.definitions.next :=
        (Table.get?_eq_some.mp hd).2 ▸ Table.key_lt (Table.get?_eq_some.mp hd).1
      rw [Table.get?_insert, if_neg (by omega)]
      exact hd
  | some existing =>
    simp only [returns_bind, returns_modify, returns_pure] at h
    obtain ⟨_, _, rfl, rfl, rfl⟩ := h
    have hmem : existing ∈ s.definitions.select fun w =>
        w.workspaceId == workspaceId && w.name == deskWorkflowName &&
            w.version == deskWorkflowVersion := by
      unfold scalarOneOrNone at hfound
      split at hfound
      · cases hfound
      · rename_i row hrows
        cases hfound
        rw [hrows]
        exact List.mem_singleton_self _
      · cases hfound
    obtain ⟨hin, hnamed⟩ := Table.mem_select.mp hmem
    simp only [Bool.and_eq_true, beq_iff_eq] at hnamed
    have hdesk : existing.IsDesk := hs existing hin hnamed.1.2 hnamed.2
    have hget : s.definitions.get? existing.id = some existing := Table.get?_of_mem hin
    refine ⟨hdesk, ?_, fun w hw hname hversion => ?_, fun d w hd hw => ?_⟩
    · have hkey : (WorkflowDefinition.activate.apply existing).id = existing.id := rfl
      rw [hkey]
      exact Table.get?_modified _ hget
    · obtain ⟨w₀, hw₀, rfl⟩ := Table.mem_modify.mp hw
      split at hname
      · rename_i hid
        rw [if_pos hid] at hversion ⊢
        exact hs w₀ hw₀ hname hversion
      · rename_i hid
        rw [if_neg hid] at hversion ⊢
        exact hs w₀ hw₀ hname hversion
    · simp only [Table.get?_modify]
      split
      · rename_i hid
        rw [hid] at hd
        exact ⟨WorkflowDefinition.activate.apply w, by rw [hd]; rfl, hw⟩
      · exact ⟨w, hd, hw⟩

theorem firstStage_desk (hw : w.IsDesk) {first : WorkflowStage} (h : w.firstStage = some first) :
    first.stageKey = .scripting := by
  rw [WorkflowDefinition.firstStage, hw.1] at h
  cases h
  rfl

/-- The run as it is started. -/
def draftRun (workspaceId contentItemId : Nat) (key : Option String) (w : WorkflowDefinition)
    (db : Db) : PipelineRun :=
  (PipelineRun.pin w.id .scripting db.now).apply
    { id := db.runs.next, workspaceId, contentItemId, idempotencyKey := key
      currentStage := .scripting }

/-- The run is queued for scripting. -/
def queueDraft (run : PipelineRun) (w : WorkflowDefinition) (db : Db) : Db :=
  enqueueStage run .scripting 0 none
    (modifyRun run.id (PipelineRun.pin w.id .scripting db.now)
      (createDeskRun run.workspaceId run.contentItemId run.idempotencyKey db))

/-- The scripting stage is reserved. -/
def reserveDraft (run : PipelineRun) (w : WorkflowDefinition) (db : Db) : Db :=
  openReservation run .scripting draftDeskProvider db.settings.defaultStageEstimateUsd
    (releaseStageReservations run .scripting (queueDraft run w db))

/-- The run waits at its gate. -/
def gateDraft (run : PipelineRun) (item : ContentItem) (w : WorkflowDefinition) (db : Db) : Db :=
  openReviewGate run item .review deskReview.timeoutSeconds
    (modifyRun run.id (PipelineRun.moveTo .review) (reserveDraft run w db))

/-- The reservation is settled, and the stage's job cancelled. -/
def settleDraft (run : PipelineRun) (item : ContentItem) (reservation : SpendReservation)
    (cost : Nat) (w : WorkflowDefinition) (db : Db) : Db :=
  { commitReservation run reservation cost (gateDraft run item w db) with
    jobs := (gateDraft run item w db).jobs.modifyWhere (·.isOrphanOf run.id .scripting)
      JobSchedule.cancelOrphan }

theorem reserveDraft_run {db : Db} :
    (reserveDraft (draftRun workspaceId contentItemId key w db) w db).runs.get? db.runs.next =
      some (draftRun workspaceId contentItemId key w db) := by
  have hid : (draftRun workspaceId contentItemId key w db).id = db.runs.next := rfl
  simp only [reserveDraft, queueDraft, openReservation_frame, releaseStageReservations_frame,
    enqueueStage_frame, modifyRun_frame, Table.get?_modify, createDeskRun, Table.get?_insert, hid,
      if_true]
  rfl

theorem reserveDraft_reservations {run : PipelineRun} {db : Db} :
    (reserveDraft run w db).reservations =
      (db.reservations.modifyWhere (·.isOpenFor run.id .scripting) SpendReservation.release).insert
        (newReservation run .scripting draftDeskProvider db.settings.defaultStageEstimateUsd
          (releaseStageReservations run .scripting (queueDraft run w db))) := by
  simp only [reserveDraft, openReservation_frame, releaseStageReservations_reservations]
  rfl

theorem gateDraft_reservations {run : PipelineRun} {item : ContentItem} {db : Db} :
    (gateDraft run item w db).reservations = (reserveDraft run w db).reservations := rfl

theorem gateDraft_jobs {run : PipelineRun} {item : ContentItem} {db : Db} {j : JobSchedule}
    (hj : j ∈ (gateDraft run item w db).jobs) :
    j ∈ db.jobs ∨ j.refId = .run run.id ∧ j.refTable = ContentStage.scripting.value ∨
      j.isStageJob = false := by
  simp only [gateDraft, openReviewGate_frame] at hj
  rcases Table.mem_insert.mp hj with hj | rfl
  · simp only [modifyRun_frame, reserveDraft, queueDraft, openReservation_frame,
      releaseStageReservations_frame, enqueueStage_frame] at hj
    rcases Table.mem_insert.mp hj with hj | rfl
    · exact .inl hj
    · exact .inr (.inl ⟨rfl, rfl⟩)
  · exact .inr (.inr rfl)

/-- The finished draft goes to a new gate. -/
theorem handleStageSuccess_gates {run : PipelineRun} {context : List (String × Json)} {u : Unit}
    (h : Returns (handleStageSuccess run .scripting context) (reserveDraft run w s) u t)
    (hw : w.IsDesk) (hfound : s.definitions.get? w.id = some w)
    (hrun : run = draftRun workspaceId contentItemId key w s)
    (hgates : ∀ g ∈ s.gates, g.pipelineRunId ≠ s.runs.next) :
    ∃ item, t = gateDraft run item w s := by
  have hfound' : (reserveDraft run w s).definitions.get? w.id = some w := by
    simp only [reserveDraft, openReservation_frame, releaseStageReservations_frame]
    exact hfound
  have hstored : (reserveDraft run w s).gates = s.gates := by
    simp only [reserveDraft, openReservation_frame, releaseStageReservations_frame]
    rfl
  obtain ⟨current, hcurrent, hmoved⟩ := handleStageSuccess_returns h
  have hrow : (reserveDraft run w s).runs.get? run.id = some run := by
    rw [hrun]
    exact reserveDraft_run
  rw [hrow, Option.some.injEq] at hcurrent
  subst hcurrent
  have hroute : ∀ {d : Nat} {way : Route}, run.definitionId = some d →
      route (reserveDraft run w s) d .scripting .onSuccess context = .ok way →
        way = .gate deskReview := by
    intro d way hpin hway
    have hd : d = w.id := by
      rw [hrun] at hpin
      exact (Option.some.inj hpin).symm
    rw [hd, route_scripting hw hfound'] at hway
    exact (Except.ok.inj hway).symm
  rcases hmoved with ⟨hterminal, _⟩ | ⟨_, hadvanced⟩
  · rw [hrun] at hterminal
    cases hterminal
  cases hadvanced with
  | finished pinned routed => cases hroute pinned routed
  | queued pinned routed => cases hroute pinned routed
  | @gated _ _ item pinned routed _ _ =>
    cases hroute pinned routed
    exact ⟨item, rfl⟩
  | @kept _ _ existing _ _ mem awaiting =>
    rw [hstored] at mem
    simp only [ReviewGate.isAwaitingFor, Bool.and_eq_true, beq_iff_eq] at awaiting
    have hown : existing.pipelineRunId = s.runs.next := by rw [awaiting.1, hrun]; rfl
    exact absurd hown (hgates existing mem)

/-- The statements of a draft's run. -/
theorem runDraft_chain {versionId : Nat} {v : Unit}
    (h : Returns (runDraft workspaceId contentItemId versionId key) s v t) (hs : s.DeskDefinitions)
    (hgates : ∀ g ∈ s.gates, g.pipelineRunId ≠ s.runs.next) :
    ∃ w m run item reservation cost, Provisioned w s m ∧
      m = { s with definitions := m.definitions } ∧
      run = draftRun workspaceId contentItemId key w m ∧
      reservation =
        (newReservation run .scripting draftDeskProvider m.settings.defaultStageEstimateUsd
        (releaseStageReservations run .scripting (queueDraft run w m))).make m.reservations.next ∧
        t = settleDraft run item reservation cost w m := by
  unfold runDraft at h
  simp only [returns_bind, returns_modify, returns_get, returns_loadRun] at h
  obtain ⟨w, m, hw, _, _, rfl, _, _, ⟨rfl, rfl⟩, created, _, ⟨hcreated, rfl⟩, _, m₁, hstart, run, _,
    ⟨hrun, rfl⟩, reserved, m₂, hreserve, h⟩ := h
  have hprovisioned := ensureDeskWorkflow_provisions hw hs
  have hm := ensureDeskWorkflow_returns hw
  have hnext : (createDeskRun workspaceId contentItemId key m).runs.next - 1 = m.runs.next := rfl
  have hinsert : (createDeskRun workspaceId contentItemId key m).runs.get? m.runs.next =
      some { id := m.runs.next, workspaceId, contentItemId, idempotencyKey := key
             currentStage := .scripting } := by
    simp [createDeskRun, Table.get?_insert]
  rw [hnext, hinsert, Option.some.injEq] at hcreated
  subst hcreated
  obtain ⟨first, hfirst, rfl⟩ := startRun_returns hstart
  rw [firstStage_desk hprovisioned.desk hfirst, hnext] at hrun
  have hsame : run = draftRun workspaceId contentItemId key w m := by
    simp only [enqueueStage_frame, modifyRun_frame, Table.get?_modify, if_true, hinsert,
      Option.map_some, Option.some.injEq] at hrun
    exact hrun.symm
  rcases reserveSpend_returns.mp hreserve with ⟨_, _, rfl, _⟩ | ⟨_, rfl, hm₂⟩
  · simp at h
  have hreserved : m₂ = reserveDraft run w m := by
    rw [hm₂, firstStage_desk hprovisioned.desk hfirst, hsame]
    rfl
  subst hreserved
  simp only [returns_bind, returns_modify, returns_get, returns_require, returns_liftExcept] at h
  obtain ⟨_, m₃, hsuccess, _, _, ⟨rfl, rfl⟩, reservation, _, ⟨hreservation, rfl⟩, _, m₄, hcommit, _,
    _, rfl, _, _,
    ⟨rfl, rfl⟩, gate, _, ⟨_, rfl⟩, h⟩ := h
  obtain ⟨item, rfl⟩ := handleStageSuccess_gates hsuccess hprovisioned.desk hprovisioned.found hsame
    (by rw [hm]; exact hgates)
  have hnew : reservation =
      (newReservation run .scripting draftDeskProvider m.settings.defaultStageEstimateUsd
      (releaseStageReservations run .scripting (queueDraft run w m))).make m.reservations.next := by
    have hget : (reserveDraft run w m).reservations.get? m.reservations.next = some reservation :=
      hreservation
    rw [reserveDraft_reservations, Table.get?_insert, Table.next_modifyWhere, if_pos rfl,
      Option.some.injEq] at hget
    exact hget.symm
  obtain ⟨_, rfl⟩ := commitSpend_returns (by rw [hnew]; rfl) hcommit
  refine ⟨w, m, run, item, reservation,
    (Decimal.ofGrid m.settings.defaultStageEstimateUsd).clampToGrid reservation.estimatedCostUsd,
      hprovisioned, hm,
    hsame, hnew, ?_⟩
  have hid : run.id = m.runs.next := by rw [hsame]; rfl
  cases gate with
  | none => simp at h
  | some gate =>
    simp only at h
    split at h
    · simp at h
    · simp only [returns_pure] at h
      rw [settleDraft, hid]
      exact h.2.symm

section

variable {run : PipelineRun} {item : ContentItem} {reservation : SpendReservation} {cost : Nat}

/-- The stage's job is not left in the queue. -/
theorem settleDraft_jobs {j : JobSchedule}
    (hj : j ∈ (settleDraft run item reservation cost w s).jobs) (hkind : j.isStageJob = true)
    (hactive : j.isActive = true) : j ∈ s.jobs := by
  obtain ⟨i, hi, rfl⟩ := Table.mem_modifyWhere.mp hj
  by_cases horphan : i.isOrphanOf run.id .scripting = true
  · rw [if_pos horphan] at hactive
    cases hactive
  rw [if_neg horphan] at hkind hactive ⊢
  rcases gateDraft_jobs hi with hold | ⟨href, htext⟩ | hother
  · exact hold
  · exact absurd (by simp [JobSchedule.isOrphanOf, href, htext, hkind, hactive]) horphan
  · rw [hother] at hkind
    cases hkind

theorem settleDraft_reservations
    (hrow : reservation = (newReservation run .scripting draftDeskProvider
      s.settings.defaultStageEstimateUsd
        (releaseStageReservations run .scripting (queueDraft run w s))).make
        s.reservations.next)
    (hunused : s.reservations.select (·.isOf run.id) = []) :
    (settleDraft run item reservation cost w s).reservations.select (·.isOf run.id) =
      [SpendReservation.commit.apply reservation] := by
  have hreleased :
      (s.reservations.modifyWhere (·.isOpenFor run.id .scripting) SpendReservation.release).select
      (·.isOf run.id) = [] := by
    rw [Table.select_modifyWhere fun _ _ _ => rfl, hunused]
    rfl
  have hopened : (reserveDraft run w s).reservations.select (·.isOf run.id) = [reservation] := by
    rw [reserveDraft_reservations, Table.select_insert, hreleased, Table.next_modifyWhere, ← hrow,
      if_pos (by simp [hrow, newReservation, SpendReservation.isOf])]
    rfl
  have hcommitted : (settleDraft run item reservation cost w s).reservations =
      (reserveDraft run w s).reservations.modify reservation.id SpendReservation.commit := rfl
  have hkey : (Keyed.key reservation == reservation.id) = true := beq_self_eq_true _
  rw [hcommitted, Table.modify, Table.select_modifyWhere fun _ _ _ => rfl, hopened, List.map_cons,
    List.map_nil, if_pos hkey]

theorem settleDraft_spares
    (hrow : reservation = (newReservation run .scripting draftDeskProvider
      s.settings.defaultStageEstimateUsd (releaseStageReservations run .scripting
      (queueDraft run w s))).make s.reservations.next) (hne : run.id ≠ r) :
    Spares r s (settleDraft run item reservation cost w s) := by
  have hqueued : Spares r s (queueDraft run w s) := .of_eq rfl rfl
  have hreserved : Spares r s (reserveDraft run w s) := (hqueued.trans .releaseStage).trans
      (.openReservation hne)
  have hgated : Spares r s (gateDraft run item w s) := hreserved.trans (.of_eq rfl rfl)
  have hopen : reservation ∈ (gateDraft run item w s).reservations ∧
      reservation.isOpenFor run.id .scripting = true := by
    rw [gateDraft_reservations, reserveDraft_reservations]
    exact ⟨Table.mem_insert.mpr
      (.inr hrow), by simp [hrow, newReservation, SpendReservation.isOpenFor]⟩
  have hsettled : Spares r s (commitReservation run reservation cost (gateDraft run item w s)) :=
    hgated.trans (.commitReservation hopen)
  exact ⟨hsettled.letters, hsettled.reservations⟩

theorem settleDraft_run (hrun : run = draftRun workspaceId contentItemId key w s) :
    ∃ row, (settleDraft run item reservation cost w s).runs.get? s.runs.next = some row ∧
      row.workspaceId = workspaceId ∧ row.contentItemId = contentItemId ∧ row.idempotencyKey = key ∧
        row.definitionId = some w.id := by
  have hid : run.id = s.runs.next := by rw [hrun]; rfl
  have hrow : (reserveDraft run w s).runs.get? s.runs.next = some run := by
    rw [hrun]
    exact reserveDraft_run
  have hruns : (settleDraft run item reservation cost w s).runs =
      ((reserveDraft run w s).runs.modify run.id (PipelineRun.moveTo .review)).modify run.id
        PipelineRun.pauseForReview := rfl
  refine ⟨PipelineRun.pauseForReview.apply ((PipelineRun.moveTo .review).apply run), ?_, ?_⟩
  · rw [hruns, hid, Table.get?_modify, if_pos rfl, Table.get?_modify, if_pos rfl, hrow]
    rfl
  · rw [hrun]
    exact ⟨rfl, rfl, rfl, rfl⟩

theorem settleDraft_gates {g : ReviewGate}
    (hg : g ∈ (settleDraft run item reservation cost w s).gates) :
    g ∈ s.gates ∨ g.pipelineRunId = run.id ∧ g.stage = .review := by
  have hgates : (settleDraft run item reservation cost w s).gates =
      (reserveDraft run w s).gates.insert
      (newGate run item .review deskReview.timeoutSeconds
        (modifyRun run.id (PipelineRun.moveTo .review) (reserveDraft run w s))) := rfl
  rw [hgates] at hg
  rcases Table.mem_insert.mp hg with hg | rfl
  · refine .inl ?_
    simp only [reserveDraft, openReservation_frame, releaseStageReservations_frame] at hg
    exact hg
  · exact .inr ⟨rfl, rfl⟩

theorem settleDraft_frame :
    (settleDraft run item reservation cost w s).assignments = s.assignments ∧
    (settleDraft run item reservation cost w s).deadLetters = s.deadLetters ∧
    (settleDraft run item reservation cost w s).definitions = s.definitions := by
  refine ⟨?_, ?_, ?_⟩
  · simp only [settleDraft, commitReservation_frame, gateDraft, openReviewGate_frame,
      modifyRun_frame, reserveDraft, openReservation_frame, releaseStageReservations_frame]
    rfl
  · have hreleased : (releaseStageReservations run .scripting (queueDraft run w s)).deadLetters =
        (queueDraft run w s).deadLetters := releaseEach_deadLetters
    simp only [settleDraft, commitReservation, gateDraft, openReviewGate, modifyRun, reserveDraft,
      openReservation, emit_frame, hreleased]
    rfl
  · simp only [settleDraft, commitReservation_frame, gateDraft, openReviewGate_frame,
      modifyRun_frame, reserveDraft, openReservation_frame, releaseStageReservations_frame]
    rfl

end

/-- What the desk's transaction leaves of a new draft and of everything else. -/
structure DraftDelivered (workspaceId contentItemId : Nat) (key : Option String) (s t : Db) :
    Prop where
  row : ∃ run, t.runs.get? s.runs.next = some run ∧ run.workspaceId = workspaceId ∧
    run.contentItemId = contentItemId ∧ run.idempotencyKey = key
  delivered : Delivered t s.runs.next
  spares : ∀ r, r ≠ s.runs.next → Spares r s t
  jobs : ∀ j ∈ t.jobs, j.isStageJob = true → j.isActive = true →
    j ∈ s.jobs ∧ j.refId ≠ .run s.runs.next
  gates : ∀ g ∈ t.gates, g ∈ s.gates ∨ g.pipelineRunId = s.runs.next
  definitions : t.DeskDefinitions
  kept : ∀ d w, s.definitions.get? d = some w → w.IsDesk →
    ∃ w', t.definitions.get? d = some w' ∧ w'.IsDesk

theorem runDraft_delivers {versionId : Nat} {v : Unit}
    (h : Returns (runDraft workspaceId contentItemId versionId key) s v t) (hs : s.Desked) :
    DraftDelivered workspaceId contentItemId key s t := by
  have hunused := hs.unused s.runs.next Table.get?_next
  obtain ⟨w, m, run, item, reservation, cost, hprovisioned, hm, hrun, hreservation, rfl⟩ :=
    runDraft_chain h hs.definitions hunused.gates
  generalize m.definitions = definitions at hm
  subst hm
  have hid : run.id = s.runs.next := by rw [hrun]; rfl
  have hframe : (settleDraft run item reservation cost w { s with definitions }).assignments =
      s.assignments ∧
      (settleDraft run item reservation cost w { s with definitions }).deadLetters = s.deadLetters ∧
      (settleDraft run item reservation cost w { s with definitions }).definitions = definitions :=
    settleDraft_frame (s := { s with definitions })
  obtain ⟨hassignments, hletters, hdefinitions⟩ := hframe
  have hspend : (settleDraft run item reservation cost w { s with definitions }).reservations.select
      (·.isOf run.id) = [SpendReservation.commit.apply reservation] :=
    settleDraft_reservations (s := { s with definitions }) hreservation
      (by rw [hid]; exact hunused.spend)
  have hjobs : ∀ j ∈ (settleDraft run item reservation cost w { s with definitions }).jobs,
      j.isStageJob = true →
      j.isActive = true → j ∈ s.jobs ∧ j.refId ≠ .run s.runs.next := by
    intro j hj hkind hactive
    have hold : j ∈ s.jobs := settleDraft_jobs (s := { s with definitions }) hj hkind hactive
    refine ⟨hold, fun href => ?_⟩
    rw [hunused.rest.jobs j hold hkind href] at hactive
    cases hactive
  have hstored : ∃ row, (settleDraft run item reservation cost w { s with definitions }).runs.get?
      s.runs.next =
      some row ∧ row.workspaceId = workspaceId ∧ row.contentItemId = contentItemId ∧
        row.idempotencyKey = key ∧ row.definitionId = some w.id :=
          settleDraft_run (s := { s with definitions }) hrun
  obtain ⟨row, hrow, hworkspace, hitem, hkey, hpin⟩ := hstored
  have hgates : ∀ g ∈ (settleDraft run item reservation cost w { s with definitions }).gates,
      g ∈ s.gates ∨ g.pipelineRunId = run.id ∧ g.stage = .review :=
    fun _ hg => settleDraft_gates (s := { s with definitions }) hg
  have hspares : ∀ r, r ≠ s.runs.next →
      Spares r { s with definitions }
        (settleDraft run item reservation cost w { s with definitions }) :=
    fun r hne =>
      settleDraft_spares (s := { s with definitions }) hreservation (by rw [hid]; exact Ne.symm hne)
  have hcommitted : (SpendReservation.commit.apply reservation).stage = .scripting := by
    rw [hreservation]
    rfl
  rw [hid] at hspend hgates
  generalize settleDraft run item reservation cost w { s with definitions } = t at *
  have hrest : AtRest t s.runs.next := by
    refine ⟨fun j hj hkind href => ?_, ?_, ?_, fun v hv hown => ?_⟩
    · cases hactive : j.isActive with
      | false => rfl
      | true => exact absurd href (hjobs j hj hkind hactive).2
    · rw [hassignments]
      exact hunused.rest.assignments
    · rw [hletters]
      exact hunused.rest.letters
    · have hin : v ∈ t.reservations.select (·.isOf s.runs.next) :=
        Table.mem_select.mpr ⟨hv, by simp [SpendReservation.isOf, hown]⟩
      rw [hspend, List.mem_singleton] at hin
      rw [hin]
      exact fun hreserved => by cases hreserved
  have hfound : t.definitions.get? w.id = some w := by
    rw [hdefinitions]
    exact hprovisioned.found
  refine ⟨⟨row, hrow, hworkspace, hitem, hkey⟩,
    ⟨hrest, ⟨row, w.id, w, hrow, hpin, hfound, hprovisioned.desk⟩,
    fun g hg hown => ?_, ⟨_, hspend, rfl, hcommitted⟩⟩, fun r hne =>
      ⟨(hspares r hne).letters, (hspares r hne).reservations⟩,
    hjobs, fun g hg => ?_, ?_, fun d w hd hw => ?_⟩
  · rcases hgates g hg with hold | ⟨_, hstage⟩
    · exact absurd hown (hunused.gates g hold)
    · exact hstage
  · rcases hgates g hg with hold | ⟨hown, _⟩
    · exact .inl hold
    · exact .inr hown
  · rw [Db.DeskDefinitions, hdefinitions]
    exact hprovisioned.definitions
  · rw [hdefinitions]
    exact hprovisioned.kept d w hd hw

/-! ## The whole desk -/

theorem DraftDelivered.desked (h : DraftDelivered workspaceId contentItemId key s t)
    (hdrafted : Drafted workspaceId contentItemId s t) (hs : s.Desked) : t.Desked := by
  have hkept : ∀ {r : Nat} {run : PipelineRun}, s.runs.get? r = some run →
      t.runs.get? r = some run := by
    intro r run hrun
    obtain ⟨run', hrun', rfl⟩ := hdrafted.runs.get? (fun _ _ heq => by rw [heq]) hrun
    exact hrun'
  have hrest : ∀ {r : Nat}, r ≠ s.runs.next → AtRest s r → AtRest t r := by
    intro r hne hr
    refine ⟨fun j hj hkind href =>
      ?_, by rw [hdrafted.assignments]; exact hr.assignments, fun e he href => ?_,
      (h.spares r hne).spendSettled hr.spend⟩
    · cases hactive : j.isActive with
      | false => rfl
      | true =>
        have hold := (h.jobs j hj hkind hactive).1
        rw [hr.jobs j hold hkind href] at hactive
        cases hactive
    · obtain ⟨e₀, he₀, href₀⟩ := (h.spares r hne).letters e he href
      exact hr.letters e₀ he₀ href₀
  refine ⟨hdrafted.sound hs.sound, h.definitions, fun r hnone => ?_, fun run hrun hkey => ?_⟩
  · have hbefore : s.runs.get? r = none := by
      cases hrun : s.runs.get? r with
      | none => rfl
      | some run =>
        rw [hkept hrun] at hnone
        cases hnone
    have hne : r ≠ s.runs.next := by
      rintro rfl
      obtain ⟨row, hrow, _⟩ := h.row
      rw [hrow] at hnone
      cases hnone
    have hunused := hs.unused r hbefore
    refine ⟨hrest hne hunused.rest, fun g hg hown => ?_,
      ((h.spares r hne).reservations hunused.rest.spend).trans
      hunused.spend⟩
    rcases h.gates g hg with hold | hnew
    · exact hunused.gates g hold hown
    · exact hne (hown.symm.trans hnew)
  · rcases hdrafted.runs.new run hrun with ⟨_, hold, rfl⟩ | ⟨hid, _⟩
    · have hne : run.id ≠ s.runs.next := (Table.key_lt hold).ne
      obtain ⟨hr, ⟨row, d, w, hrow, hpin, hd, hw⟩, hgates, v, hv, hcommitted, hstage⟩ :=
        hs.keyed run hold hkey
      obtain ⟨w', hd', hw'⟩ := h.kept d w hd hw
      refine ⟨hrest hne hr, ⟨row, d, w', hkept hrow, hpin, hd', hw'⟩, fun g hg hown => ?_,
        v, ((h.spares _ hne).reservations hr.spend).trans hv, hcommitted, hstage⟩
      rcases h.gates g hg with hstored | hnew
      · exact hgates g hstored hown
      · exact absurd (hown.symm.trans hnew) hne
    · rw [hid]
      exact h.delivered

/-- Gates are edited, and queue rows deleted. -/
theorem Db.Desked.keep (hs : s.Desked) (hsound : t.Sound) (hruns : t.runs = s.runs)
    (hassignments : t.assignments = s.assignments) (hletters : t.deadLetters = s.deadLetters)
    (hreservations : t.reservations = s.reservations) (hdefinitions : t.definitions = s.definitions)
    (hjobs : ∀ j ∈ t.jobs, j ∈ s.jobs)
    (hgates : ∀ g' ∈ t.gates, ∃ g ∈ s.gates, g'.pipelineRunId = g.pipelineRunId ∧
    g'.stage = g.stage) :
    t.Desked := by
  have hrest : ∀ {r : Nat}, AtRest s r → AtRest t r := by
    intro r hr
    refine ⟨fun j hj => hr.jobs j (hjobs j hj), by rw [hassignments]; exact hr.assignments,
      by rw [hletters]; exact hr.letters, ?_⟩
    rw [Db.SpendSettled, hreservations]
    exact hr.spend
  refine ⟨hsound, by rw [Db.DeskDefinitions, hdefinitions]; exact hs.definitions, fun r hnone => ?_,
    fun run hrun hkey => ?_⟩
  · rw [hruns] at hnone
    have hunused := hs.unused r hnone
    refine ⟨hrest hunused.rest, fun g' hg' hown => ?_, by rw [hreservations]; exact hunused.spend⟩
    obtain ⟨g, hg, hrun, _⟩ := hgates g' hg'
    exact hunused.gates g hg (hrun.symm.trans hown)
  · rw [hruns] at hrun
    have hdelivered := hs.keyed run hrun hkey
    refine ⟨hrest
      hdelivered.rest, by rw [hruns, hdefinitions]; exact hdelivered.run, fun g' hg' hown => ?_,
      by rw [hreservations]; exact hdelivered.spend⟩
    obtain ⟨g, hg, hrun, hstage⟩ := hgates g' hg'
    rw [hstage]
    exact hdelivered.gates g hg (hrun.symm.trans hown)

theorem insertDraft_desked {topic : String} {script : Script} {desk : Desk} (hs : desk.db.Desked) :
    (insertDraft workspaceId topic script desk).db.Desked :=
  hs.keep (hs.sound.congr rfl rfl rfl rfl) rfl rfl rfl rfl rfl (fun _ hj => hj) fun g hg =>
    ⟨g, hg, rfl, rfl⟩

/-- An operation that creates no job under a key. -/
def DeskOp.isOther : DeskOp → Bool
  | .createContentJob _ _ _ _ => false
  | _ => true

theorem deskStep_desked {desk : Desk} {op : DeskOp} (hop : op.isOther = true)
    (hs : desk.db.Desked) :
    (deskStep desk op).db.Desked := by
  rcases deskStep_cases desk op with heq | heffect
  · rw [heq]
    exact hs
  have hsound := heffect.sound hs.sound
  generalize deskStep desk op = desk' at heffect hsound
  cases heffect with
  | engine => exact step_desked _ hs
  | created => cases hop
  | drafted => exact insertDraft_desked hs
  | edited done =>
    obtain ⟨gate, _, _, _, _, _, _, _, _, _, rfl⟩ := done.gate
    refine hs.keep hsound rfl rfl rfl rfl rfl (fun _ hj => hj) fun g' hg' => ?_
    obtain ⟨g, hg, rfl⟩ := Table.mem_modify.mp hg'
    refine ⟨g, hg, ?_⟩
    split <;> exact ⟨rfl, rfl⟩
  | attested => exact hs
  | deleted =>
    exact hs.keep hsound rfl rfl rfl rfl rfl (fun _ hj => (Table.mem_deleteWhere.mp hj).1)
      fun g hg => ⟨g, hg, rfl, rfl⟩

/-- Runs stay under their key, and new ones have none. -/
theorem deskStep_keys {desk : Desk} {op : DeskOp} (hop : op.isOther = true) (hs : desk.db.Sound) :
    Table.Evolves SameRun (fun run => run.idempotencyKey = none) desk.db.runs
      (deskStep desk op).db.runs := by
  rcases deskStep_cases desk op with heq | heffect
  · rw [heq]
    exact .of_eq .refl rfl
  generalize deskStep desk op = desk' at heffect
  cases heffect with
  | @engine op =>
    rcases step_cases desk.db op with heq | heffect
    · rw [heq]
      exact .of_eq .refl rfl
    refine (heffect.runs hs.jobs hs.gates).mono (fun _ _ _ _ hmove => hmove.same) ?_
    rintro run - ⟨_, _, _, _, _, _, _, _, rfl⟩
    rfl
  | created => cases hop
  | drafted => exact .of_eq .refl rfl
  | edited done =>
    obtain ⟨_, _, _, _, _, _, _, _, _, _, rfl⟩ := done.gate
    exact .of_eq .refl rfl
  | attested => exact .of_eq .refl rfl
  | deleted => exact .of_eq .refl rfl

theorem Db.Fresh.desked (h : s.Fresh) (hdefinitions : s.DeskDefinitions) : s.Desked := by
  refine ⟨h.sound, hdefinitions, fun r _ => ⟨⟨?_, ?_, ?_, ?_⟩, ?_, ?_⟩, ?_⟩
  · rw [h.jobs]
    exact fun j hj => absurd hj Table.mem_empty
  · rw [h.assignments]
    exact fun a ha => absurd ha Table.mem_empty
  · rw [h.deadLetters]
    exact fun e he => absurd he Table.mem_empty
  · rw [Db.SpendSettled, h.reservations]
    exact fun v hv => absurd hv Table.mem_empty
  · rw [h.gates]
    exact fun g hg => absurd hg Table.mem_empty
  · rw [h.reservations]
    rfl
  · rw [h.runs]
    exact fun run hrun => absurd hrun Table.mem_empty

end ContentOrchestrator

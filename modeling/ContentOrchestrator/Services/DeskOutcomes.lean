import ContentOrchestrator.Orchestration.Tenancy
import ContentOrchestrator.Services.DataGovernance

/-! # What the desk's services can do

Creating a job drives one new run into a gate of its own and leaves every other run and
gate as it is. An edit moves a waiting gate and its item to one new version. -/

namespace ContentOrchestrator

open Lib

variable {s t u : Db} {runId workspaceId contentItemId : Nat}

/-! ## Driving a new run -/

/-- Only this run changes, and it stays a run of its item. -/
structure Driven (runId : Nat) (a b : PipelineRun) : Prop where
  id : b.id = a.id
  workspaceId : b.workspaceId = a.workspaceId
  contentItemId : b.contentItemId = a.contentItemId
  other : a.id ≠ runId → b = a

theorem Driven.refl (runId : Nat) (a : PipelineRun) : Driven runId a a :=
  ⟨rfl, rfl, rfl, fun _ => rfl⟩

theorem Driven.trans {a b c : PipelineRun} (h : Driven runId a b) (h' : Driven runId b c) :
    Driven runId a c := by
  refine ⟨h'.id.trans h.id, h'.workspaceId.trans h.workspaceId,
    h'.contentItemId.trans h.contentItemId, fun hne => ?_⟩
  have hb : b = a := h.other hne
  rw [h'.other (by rw [hb]; exact hne), hb]

/-- The run as the desk inserts it. -/
def IsDraftRun (runId workspaceId contentItemId : Nat) (run : PipelineRun) : Prop :=
  run.id = runId ∧ run.workspaceId = workspaceId ∧ run.contentItemId = contentItemId

/-- A gate as the run opens it, over the item's current version. -/
def IsDraftGate (runId workspaceId contentItemId : Nat) (items : Table ContentItem)
    (g : ReviewGate) : Prop :=
  g.pipelineRunId = runId ∧ g.workspaceId = workspaceId ∧ g.status = .awaiting ∧
    ∃ item, items.get? contentItemId = some item ∧ g.contentVersionId = item.currentVersionId

/-- What is queued is queued where the new run, or a gate that is then stored, is at home. -/
def LodgesRun (runId workspaceId : Nat) (s t : Db) : Prop :=
  ∀ home : Ref → Nat → Prop, home (.run runId) workspaceId →
    (∀ gate ∈ t.gates, home (.gate gate.id) gate.workspaceId) → Lodges home s t

/-- One statement of the desk over the run it creates. -/
structure Drives (runId workspaceId contentItemId : Nat) (s t : Db) : Prop where
  runs : Table.Evolves (Driven runId) (fun _ => False) s.runs t.runs
  gates : Table.Evolves (fun a b => b = a)
    (IsDraftGate runId workspaceId contentItemId s.contentItems)
    s.gates t.gates
  jobs : Grows (fun _ _ _ => True) s t
  lodged : LodgesRun runId workspaceId s t
  assignments : t.assignments = s.assignments
  config : t.config = s.config

namespace Drives

theorem contentItems (h : Drives runId workspaceId contentItemId s t) :
    t.contentItems = s.contentItems :=
  congrArg Configuration.contentItems h.config

theorem trans (h : Drives runId workspaceId contentItemId s t)
    (h' : Drives runId workspaceId contentItemId t u) :
    Drives runId workspaceId contentItemId s u where
  runs := h.runs.trans (fun _ _ _ => Driven.trans) (fun _ _ hnone _ => hnone) h'.runs
  gates := by
    refine h.gates.trans (fun _ _ _ hab hbc => hbc.trans hab) (fun _ _ hnew hab => hab ▸ hnew) ?_
    rw [← h.contentItems]
    exact h'.gates
  jobs := h.jobs.trans h'.jobs
  lodged home hrun hgates := by
    refine (h.lodged home hrun fun gate hgate => ?_).trans (h'.lodged home hrun hgates)
    obtain ⟨gate', hgate', rfl⟩ :=
      h'.gates.get? (fun _ _ heq => by rw [heq]) (Table.get?_of_mem hgate)
    exact hgates gate' (Table.get?_eq_some.mp hgate').1
  assignments := h'.assignments.trans h.assignments
  config := h'.config.trans h.config

/-- Bookkeeping: nothing the desk asks about changes. -/
theorem of_eq (hruns : t.runs = s.runs) (hgates : t.gates = s.gates) (hjobs : t.jobs = s.jobs)
    (hassignments : t.assignments = s.assignments) (hconfig : t.config = s.config) :
    Drives runId workspaceId contentItemId s t where
  runs := .of_eq (Driven.refl runId) hruns
  gates := .of_eq (fun _ => rfl) hgates
  jobs := .of_eq hjobs hgates
  lodged _ _ _ := .of_eq hjobs
  assignments := hassignments
  config := hconfig

theorem modifyRun {v : Update PipelineRun}
    (hv : ∀ run, (v.apply run).id = run.id ∧ (v.apply run).workspaceId = run.workspaceId ∧
      (v.apply run).contentItemId = run.contentItemId) :
    Drives runId workspaceId contentItemId s (modifyRun runId v s) where
  runs := by
    refine Table.Evolves.modify (Driven.refl runId) (fun run hrun => ?_) rfl
    have hid : run.id = runId := (Table.get?_eq_some.mp hrun).2
    exact ⟨(hv run).1, (hv run).2.1, (hv run).2.2, fun hne => absurd hid hne⟩
  gates := .of_eq (fun _ => rfl) rfl
  jobs := .modifyRun
  lodged _ _ _ := .of_eq rfl
  assignments := rfl
  config := rfl

theorem enqueueStage {run : PipelineRun} {stage : ContentStage} (hid : run.id = runId)
    (hws : run.workspaceId = workspaceId) :
    Drives runId workspaceId contentItemId s (enqueueStage run stage 0 none s) where
  runs := .of_eq (Driven.refl runId) rfl
  gates := .of_eq (fun _ => rfl) rfl
  jobs := .enqueueStage (fun _ => trivial) fun _ => trivial
  lodged home hrun _ := by
    refine .enqueueStage ?_
    rw [hid, hws]
    exact hrun
  assignments := rfl
  config := rfl

theorem openReviewGate {run : PipelineRun} {item : ContentItem} {stage : ContentStage}
    {timeout : Nat} (hid : run.id = runId) (hws : run.workspaceId = workspaceId)
    (hitem : s.contentItems.get? contentItemId = some item) :
    Drives runId workspaceId contentItemId s (openReviewGate run item stage timeout s) where
  runs := by
    subst hid
    refine Table.Evolves.modify (Driven.refl run.id) (fun row hrow => ?_) openReviewGate_frame.1
    have hkey : row.id = run.id := (Table.get?_eq_some.mp hrow).2
    exact ⟨rfl, rfl, rfl, fun hne => absurd hkey hne⟩
  gates := .insert (fun _ => rfl) ⟨hid, hws, rfl, item, hitem, rfl⟩ openReviewGate_frame.2.2.2.1
  jobs := by
    have hrow : IsQueued (fun _ _ _ => True) ((reviewTimeoutJob run.workspaceId s.gates.next
        (s.now + seconds timeout) s).make s.jobs.next) :=
      ⟨rfl, fun h => (by cases h), fun h => (by cases h), fun h => (by cases h)⟩
    refine .insert openReviewGate_frame.2.1 hrow fun hs => ?_
    rw [openReviewGate_frame.2.2.2.1]
    exact hs.insert rfl
  lodged _ _ hgates := .openReviewGate hgates
  assignments := openReviewGate_frame.2.2.1
  config := openReviewGate_config

end Drives

theorem Advanced.drives {run : PipelineRun} {stage : ContentStage}
    {trigger : WorkflowTransitionTrigger} {context : List (String × Json)}
    {stored : Table ReviewGate} (h : Advanced run stage trigger context stored s t)
    (hid : run.id = runId) (hws : run.workspaceId = workspaceId)
    (hitem : run.contentItemId = contentItemId) :
    Drives runId workspaceId contentItemId s t := by
  subst hid
  have hmove : ∀ stage, Drives run.id workspaceId contentItemId s
      (modifyRun run.id (PipelineRun.moveTo stage) s) := fun _ => .modifyRun fun _ =>
        ⟨rfl, rfl, rfl⟩
  cases h with
  | @finished _ stage _ _ =>
    have hfinish : Drives run.id workspaceId contentItemId s
        (modifyRun run.id (PipelineRun.finish .succeeded s.now) s) := .modifyRun fun _ =>
          ⟨rfl, rfl, rfl⟩
    have hcursor : Drives run.id workspaceId contentItemId
        (modifyRun run.id (PipelineRun.finish .succeeded s.now) s)
        (modifyRun run.id (PipelineRun.moveTo stage)
          (modifyRun run.id (PipelineRun.finish .succeeded s.now) s)) := .modifyRun fun _ =>
            ⟨rfl, rfl, rfl⟩
    exact (hfinish.trans hcursor).trans (.of_eq rfl rfl rfl rfl rfl)
  | queued _ _ => exact (hmove _).trans (.enqueueStage rfl hws)
  | gated _ _ _ found =>
    rw [hitem] at found
    exact (hmove _).trans (.openReviewGate rfl hws found)
  | kept _ _ _ _ => exact hmove _

theorem scalarOneOrNone_length {α : Type} {rows : List α} {row : Option α}
    (h : scalarOneOrNone rows = .ok row) :
    rows.length ≤ 1 := by
  unfold scalarOneOrNone at h
  split at h
  · exact Nat.zero_le 1
  · exact Nat.le_refl 1
  · cases h

theorem ensureDeskWorkflow_returns {w : WorkflowDefinition}
    (h : Returns (ensureDeskWorkflow workspaceId) s w t) :
    t = { s with definitions := t.definitions } := by
  unfold ensureDeskWorkflow at h
  simp only [returns_bind, returns_get, returns_liftExcept] at h
  obtain ⟨_, _, ⟨rfl, rfl⟩, found, _, ⟨_, rfl⟩, h⟩ := h
  cases found with
  | none =>
    simp only [returns_bind, returns_modify, returns_pure] at h
    obtain ⟨_, _, rfl, _, rfl⟩ := h
    rfl
  | some existing =>
    simp only [returns_bind, returns_modify, returns_pure] at h
    obtain ⟨_, _, rfl, _, rfl⟩ := h
    rfl

/-- What creating a job leaves behind in the engine's tables. -/
structure Drafted (workspaceId contentItemId : Nat) (s t : Db) : Prop where
  run : ∃ run, t.runs.get? s.runs.next = some run
  runs : Table.Evolves (fun a b => b = a) (IsDraftRun s.runs.next workspaceId contentItemId) s.runs
    t.runs
  gates : Table.Evolves (fun a b => b = a)
    (IsDraftGate s.runs.next workspaceId contentItemId s.contentItems) s.gates t.gates
  jobs : ∀ j ∈ t.jobs, j ∈ s.jobs ∨ j.jobType ≠ .stageTimeout ∧ j.status ≠ .leased
  lodged : LodgesRun s.runs.next workspaceId s t
  unescalated : Unescalated s.gates → Unescalated t.gates
  assignments : t.assignments = s.assignments
  contentItems : t.contentItems = s.contentItems
  now : t.now = s.now

/-- Driving the run just inserted, and cancelling what it left in the queue. -/
theorem Drives.drafted {w : Table WorkflowDefinition} {key : Option String}
    (h : Drives s.runs.next workspaceId contentItemId
      (createDeskRun workspaceId contentItemId key { s with definitions := w }) t) :
    Drafted workspaceId contentItemId s
      { t with
        jobs := t.jobs.modifyWhere (·.isOrphanOf s.runs.next .scripting)
          JobSchedule.cancelOrphan } where
  run := by
    have hinsert :
        (createDeskRun workspaceId contentItemId key { s with definitions := w }).runs.get?
        s.runs.next = some
          { id := s.runs.next, workspaceId, contentItemId, idempotencyKey := key
            currentStage := .scripting } := by
      simp [createDeskRun, Table.get?_insert]
    obtain ⟨run, hrun, -⟩ := h.runs.get? (fun _ _ hab => hab.id) hinsert
    exact ⟨run, hrun⟩
  runs := by
    have hinsert : Table.Evolves (Driven s.runs.next)
        (IsDraftRun s.runs.next workspaceId contentItemId)
        s.runs (createDeskRun workspaceId contentItemId key { s with definitions := w }).runs :=
      .insert (Driven.refl _) ⟨rfl, rfl, rfl⟩ rfl
    have hdriven : Table.Evolves (Driven s.runs.next)
        (IsDraftRun s.runs.next workspaceId contentItemId)
        (createDeskRun workspaceId contentItemId key { s with definitions := w }).runs t.runs :=
      h.runs.mono (fun _ _ _ _ hab => hab) fun _ _ hnone => False.elim hnone
    have hall : Table.Evolves (Driven s.runs.next)
        (IsDraftRun s.runs.next workspaceId contentItemId)
        s.runs t.runs := by
      refine hinsert.trans (fun _ _ _ => Driven.trans) (fun a b hnew hab => ?_) hdriven
      exact ⟨hab.id.trans hnew.1, hab.workspaceId.trans hnew.2.1, hab.contentItemId.trans hnew.2.2⟩
    refine hall.mono (fun a ha b _ hab => hab.other ?_) fun _ _ hnew => hnew
    exact (Table.key_lt ha).ne
  gates := h.gates
  jobs j hj := by
    obtain ⟨i, hi, rfl⟩ := Table.mem_modifyWhere.mp hj
    rcases h.jobs.new i hi with hold | hqueued
    · split
      · rename_i horphan
        simp only [JobSchedule.isOrphanOf, JobSchedule.isStageJob, Bool.and_eq_true] at horphan
        refine .inr ⟨?_, fun h => by cases h⟩
        intro hkind
        change i.jobType = .stageTimeout at hkind
        simp [hkind] at horphan
      · exact .inl hold
    · refine .inr ?_
      split
      · exact ⟨hqueued.kind, fun h => by cases h⟩
      · exact ⟨hqueued.kind, by rw [hqueued.pending]; exact (by simp)⟩
  lodged home hrun hgates := by
    have hcreate : Lodges home s
        (createDeskRun workspaceId contentItemId key { s with definitions := w }) := .of_eq rfl
    exact (hcreate.trans (h.lodged home hrun hgates)).trans
      (.modifyWhere (v := JobSchedule.cancelOrphan) (fun _ => ⟨rfl, rfl, rfl⟩) rfl)
  unescalated := h.jobs.gates
  assignments := h.assignments
  contentItems := h.contentItems
  now := congrArg Configuration.now h.config

theorem commitSpend_settles {run : PipelineRun} {reservation : SpendReservation} {actual : Decimal}
    {v : Unit} (h : Returns (commitSpend run reservation actual) s v t) :
    t = s ∨ ∃ cost, t = commitReservation run reservation cost s := by
  by_cases hopen : reservation.status = .reserved
  · exact .inr ⟨_, (commitSpend_returns hopen h).2⟩
  · unfold commitSpend at h
    split at h
    · simp only [returns_pure] at h
      exact .inl h.2.symm
    · simp at h

theorem runDraft_returns {versionId : Nat} {key : Option String} {v : Unit}
    (h : Returns (runDraft workspaceId contentItemId versionId key) s v t) :
    Drafted workspaceId contentItemId s t := by
  unfold runDraft at h
  simp only [returns_bind, returns_modify, returns_get, returns_loadRun] at h
  obtain ⟨definition, m, hw, _, _, rfl, _, _, ⟨rfl, rfl⟩, created, _, ⟨hcreated, rfl⟩, _, m1,
    hstart, run, _,
    ⟨hrun, rfl⟩, reserved, m2, hreserve, h⟩ := h
  have hm := ensureDeskWorkflow_returns hw
  generalize m.definitions = w at hm
  subst hm
  have hnext :
      (createDeskRun workspaceId contentItemId key { s with definitions := w }).runs.next - 1 =
      s.runs.next := rfl
  rw [hnext] at hcreated hrun
  have hid : created.id = s.runs.next := (Table.get?_eq_some.mp hcreated).2
  have hkey : run.id = s.runs.next := (Table.get?_eq_some.mp hrun).2
  obtain ⟨first, -, rfl⟩ := startRun_returns hstart
  have hstarted : Drives s.runs.next workspaceId contentItemId
      (createDeskRun workspaceId contentItemId key { s with definitions := w })
      (enqueueStage created first.stageKey 0 none
        (modifyRun created.id (PipelineRun.pin definition.id first.stageKey s.now)
          (createDeskRun workspaceId contentItemId key { s with definitions := w }))) := by
    have hws : created.workspaceId = workspaceId := by
      simp only [createDeskRun, Table.get?_insert, if_true, Option.some.injEq] at hcreated
      rw [← hcreated]
    rw [hid]
    exact Drives.trans (.modifyRun fun _ => ⟨rfl, rfl, rfl⟩) (.enqueueStage hid hws)
  have hrow : run.workspaceId = workspaceId ∧ run.contentItemId = contentItemId := by
    rcases hstarted.runs.back (fun _ _ hab => hab.id) hrun with ⟨row, hget, hdriven⟩ | hnone
    · simp only [createDeskRun, Table.get?_insert, if_true, Option.some.injEq] at hget
      subst hget
      exact ⟨hdriven.workspaceId, hdriven.contentItemId⟩
    · exact False.elim hnone
  rcases reserveSpend_returns.mp hreserve with ⟨_, _, rfl, _⟩ | ⟨_, rfl, rfl⟩
  · simp at h
  simp only [returns_bind, returns_modify, returns_get, returns_require, returns_liftExcept] at h
  obtain ⟨_, m3, hsuccess, _, _, ⟨rfl, rfl⟩, reservation, _, ⟨hreservation, rfl⟩, _, m4, hcommit, _,
    _, rfl, _, _,
    ⟨rfl, rfl⟩, gate, _, ⟨_, rfl⟩, h⟩ := h
  have hreserved : ∀ m : Db, Drives s.runs.next workspaceId contentItemId m
      (openReservation run .scripting draftDeskProvider s.settings.defaultStageEstimateUsd
        (releaseStageReservations run .scripting m)) := fun m =>
    .of_eq (by simp) (by simp) (by simp) (by simp) (by simp)
  have hadvanced : ∀ {m : Db} {context : List (String × Json)},
      Returns (handleStageSuccess run .scripting context) m () m3 →
        Drives s.runs.next workspaceId contentItemId m m3 := by
    intro m context hsuccess
    obtain ⟨_, _, ⟨_, rfl⟩ | ⟨_, hmoved⟩⟩ := handleStageSuccess_returns hsuccess
    · exact .of_eq rfl rfl rfl rfl rfl
    · exact hmoved.drives hkey hrow.1 hrow.2
  have hsettled : Drives s.runs.next workspaceId contentItemId m3 m4 := by
    rcases commitSpend_settles hcommit with rfl | ⟨cost, rfl⟩
    · exact .of_eq rfl rfl rfl rfl rfl
    · exact .of_eq (by simp) (by simp) (by simp) (by simp) (by simp)
  have hall := (hstarted.trans (hreserved _)).trans ((hadvanced hsuccess).trans hsettled)
  have hdone : t = { m4 with
      jobs := m4.jobs.modifyWhere (·.isOrphanOf s.runs.next .scripting) JobSchedule.cancelOrphan
          } := by
    cases gate with
    | none => simp at h
    | some gate =>
      simp only at h
      split at h
      · simp at h
      · simp only [returns_pure] at h
        exact h.2.symm
  rw [hdone]
  exact hall.drafted

/-- The run of a draft is left with one gate at most. -/
theorem runDraft_single {versionId : Nat} {key : Option String} {v : Unit}
    (h : Returns (runDraft workspaceId contentItemId versionId key) s v t) :
    (t.gates.select (·.pipelineRunId == s.runs.next)).length ≤ 1 := by
  unfold runDraft at h
  simp only [returns_bind, returns_modify, returns_get, returns_loadRun] at h
  obtain ⟨_, m, hw, _, _, rfl, _, _, ⟨rfl, rfl⟩, _, _, ⟨_, rfl⟩, _, _, _, _, _, ⟨_, rfl⟩, reserved,
    _, _, h⟩ := h
  have hnext : m.runs.next = s.runs.next := congrArg (·.runs.next) (ensureDeskWorkflow_returns hw)
  cases reserved with
  | none => simp at h
  | some reservationId =>
    simp only [returns_bind, returns_modify, returns_get, returns_require, returns_liftExcept] at h
    obtain ⟨_, _, _, _, _, ⟨rfl, rfl⟩, _, _, ⟨_, rfl⟩, _, m', _, _, _, rfl, _, _, ⟨rfl, rfl⟩, gate,
      _, ⟨hone, rfl⟩, h⟩ := h
    have hgates : t.gates = m'.gates := by
      cases gate with
      | none => simp at h
      | some gate =>
        simp only at h
        split at h
        · simp at h
        · simp only [returns_pure] at h
          rw [← h.2]
    rw [hgates, ← hnext]
    exact scalarOneOrNone_length hone

/-! ## The services -/

theorem insertDraft_item {topic : String} {script : Script} {d : Desk} {item : ContentItem}
    (h : (insertDraft workspaceId topic script d).db.contentItems.get? d.db.contentItems.next =
      some item) :
    item.currentVersionId = some d.versions.next := by
  simp only [insertDraft, modifyItem, Table.get?_modify, Table.get?_insert, if_true,
    Option.map_some, Option.some.injEq] at h
  rw [← h]
  rfl

theorem createContentJob_drafts {topic : String} {script : Script} {key : Option String}
    {d d' : Desk} {v : Unit} (h : Returns (createContentJob workspaceId topic script key) d v d') :
    d' = d ∨ ∃ db, d' = { insertDraft workspaceId topic script d with db } ∧
      Returns (runDraft workspaceId d.db.contentItems.next d.versions.next key)
        (insertDraft workspaceId topic script d).db v db := by
  unfold createContentJob at h
  simp only [returns_bind, returns_get, returns_within, returns_liftExcept] at h
  obtain ⟨_, _, ⟨rfl, rfl⟩, found, _, ⟨_, ⟨_, rfl⟩, rfl⟩, h⟩ := h
  cases found with
  | some existing =>
    simp only [returns_within] at h
    obtain ⟨db, hcheck, rfl⟩ := h
    refine .inl ?_
    have hsame : db = d.db := by
      unfold checkExistingJob at hcheck
      simp only [returns_bind, returns_get, returns_liftExcept] at hcheck
      obtain ⟨_, _, ⟨rfl, rfl⟩, gate, _, ⟨_, rfl⟩, hcheck⟩ := hcheck
      split at hcheck
      · simp at hcheck
      · simp only [returns_pure] at hcheck
        exact hcheck.2.symm
    rw [hsame]
  | none =>
    simp only [returns_bind, returns_modify, returns_within] at h
    obtain ⟨_, _, rfl, db, hrun, rfl⟩ := h
    exact .inr ⟨db, rfl, hrun⟩

theorem createContentJob_returns {topic : String} {script : Script} {key : Option String}
    {d d' : Desk} {v : Unit} (h : Returns (createContentJob workspaceId topic script key) d v d') :
    d' = d ∨ ∃ db, d' = { insertDraft workspaceId topic script d with db } ∧
      Drafted workspaceId d.db.contentItems.next (insertDraft workspaceId topic script d).db
        db := by
  rcases createContentJob_drafts h with hsame | ⟨db, hdb, hrun⟩
  · exact .inl hsame
  · exact .inr ⟨db, hdb, runDraft_returns hrun⟩

/-- An admitted edit. -/
structure Edited (workspaceId gateId expected : Nat) (d d' : Desk) : Prop where
  gate : ∃ gate, d.db.gates.get? gateId = some gate ∧ gate.workspaceId = workspaceId ∧
    gate.status = .awaiting ∧ gate.contentVersionId = some expected ∧
      ∃ run item script, d.db.runs.get? gate.pipelineRunId = some run ∧
        d.db.contentItems.get? run.contentItemId = some item ∧
          d' = writeEdit workspaceId gateId item script d

theorem editReviewGateContent_returns {gateId expected : Nat} {edit : Script} {d d' : Desk}
    {v : Unit} (h : Returns (editReviewGateContent workspaceId gateId expected edit) d v d') :
    Edited workspaceId gateId expected d d' := by
  unfold editReviewGateContent at h
  simp only [returns_bind, returns_get, returns_within, returns_require] at h
  obtain ⟨_, _, ⟨rfl, rfl⟩, gate, _, ⟨_, ⟨hgate, rfl⟩, rfl⟩, h⟩ := h
  split at h
  · simp at h
  rename_i hws
  split at h
  · simp at h
  rename_i hawait
  split at h
  · simp at h
  rename_i hexpected
  simp only [returns_bind, returns_within, returns_require, returns_modify] at h
  obtain ⟨run, _, ⟨_, ⟨hrun, rfl⟩, rfl⟩, item, _, ⟨_, ⟨hitem, rfl⟩, rfl⟩, rfl⟩ := h
  exact ⟨gate, hgate, by simpa using hws, by simpa using hawait, by simpa using hexpected, run,
    item, _, hrun, hitem, rfl⟩

end ContentOrchestrator

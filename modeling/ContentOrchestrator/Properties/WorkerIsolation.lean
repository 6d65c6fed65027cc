import ContentOrchestrator.Orchestration.AssignmentMoves

/-! # Workers of another workspace

A claim looks for rows of the worker's own workspace only. The scheduler's choice goes
by stage, health and load, and does not look at the workspace a worker is pinned to. -/

namespace ContentOrchestrator

open Lib

variable {s t : Db} {op : Op}

/-- Every assignment in flight is held by a worker that is global or pinned to its workspace. -/
def Db.Isolated (db : Db) : Prop :=
  ∀ a ∈ db.assignments, a.status.inFlight = true →
    ∃ workerId worker, a.workerId = some workerId ∧ db.workers.get? workerId = some worker ∧
      worker.serves a.workspaceId = true

/-- The scheduler is about to hand the job to a worker pinned to another workspace. -/
def choosesStranger (s : Db) : Op → Bool
  | .processJob jobId lockedWorkers _ =>
    (s.jobs.get? jobId).any fun job =>
      job.isStageJob && !atConcurrencyLimit s job.workspaceId &&
        (job.runId?.any fun runId => (s.runs.get? runId).any fun run =>
          statusOutcome run == none &&
            (assignmentByKey s job.workspaceId ⟨runId, job.refTable, job.attempt + 1⟩).isNone) &&
        (selectWorker s job.refTable lockedWorkers).any fun w => !w.serves job.workspaceId
  | _ => false

/-! ## Pins -/

theorem serves_iff_pin {workerId workspaceId : Nat} :
    (∃ worker, s.workers.get? workerId = some worker ∧ worker.serves workspaceId = true) ↔
      ∃ pin, s.pins workerId = some pin ∧ pin.all (· == workspaceId) = true := by
  unfold Db.pins WorkerRegistration.serves
  constructor
  · rintro ⟨worker, hworker, hserves⟩
    exact ⟨worker.workspaceId, by rw [hworker]; rfl, hserves⟩
  · rintro ⟨pin, hpin, hserves⟩
    obtain ⟨worker, hworker, rfl⟩ := Option.map_eq_some_iff.mp hpin
    exact ⟨worker, hworker, hserves⟩

/-! ## The invariant -/

/-- **One step keeps the isolation**, if the scheduler's choice is no stranger. -/
theorem Effect.isolated (h : Effect op s t) (hs : s.Sound) (hkeeps : keepsPins s op = true)
    (hchoice : choosesStranger s op = false) (hisolated : s.Isolated) : t.Isolated := by
  have hlater : ∀ {workerId workspaceId : Nat},
      (∃ worker, s.workers.get? workerId = some worker ∧ worker.serves workspaceId = true) →
        ∃ worker, t.workers.get? workerId = some worker ∧ worker.serves workspaceId = true := by
    intro workerId workspaceId hserves
    obtain ⟨pin, hpin, hall⟩ := serves_iff_pin.mp hserves
    exact serves_iff_pin.mpr ⟨pin, h.pins hs.jobs hkeeps hpin, hall⟩
  intro a' ha' hheld'
  rcases (h.assignments fun _ _ _ _ => hs.jobs).new a' ha' with ⟨a, ha, hmove⟩ | hnew
  · have hold : a.status.inFlight = true → a'.workerId = a.workerId →
        a'.workspaceId = a.workspaceId →
        ∃ workerId worker, a'.workerId = some workerId ∧ t.workers.get? workerId = some worker ∧
          worker.serves a'.workspaceId = true := by
      intro hheld hworker hworkspace
      obtain ⟨workerId, worker, howner, hserves⟩ := hisolated a ha hheld
      obtain ⟨worker', hserves'⟩ := hlater ⟨worker, hserves⟩
      exact ⟨workerId, worker', hworker.trans howner, hworkspace ▸ hserves'⟩
    cases hmove with
    | kept => exact hold hheld' rfl rfl
    | @granted workerId _ _ worker _ registered _ serves =>
      obtain ⟨worker', hserves'⟩ := hlater ⟨worker, registered, serves⟩
      exact ⟨workerId, worker', rfl, hserves'⟩
    | acknowledged _ held => exact hold (by rw [held]; rfl) rfl rfl
    | renewed _ held => exact hold held rfl rfl
    | @submitted success _ _ _ _ _ _ _ => cases success <;> cases hheld'
    | requeued _ _ => cases hheld'
    | exhausted _ _ => cases hheld'
    | cancelled _ _ => cases hheld'
  · cases hnew with
    | @made job run runId lockedWorkers jitter stage worker priority request found stageJob ref room
        known
        status free selected =>
      cases worker with
      | none => cases hheld'
      | some worker =>
        have hselected := selected worker rfl
        have hserves : worker.serves job.workspaceId = true := by
          rw [request] at hchoice
          simpa [choosesStranger, found, stageJob, ref, room, known, status, free,
            hselected] using hchoice
        obtain ⟨worker', hserves'⟩ :=
          hlater ⟨worker, Table.get?_of_mem (selectWorker_some hselected).1, hserves⟩
        exact ⟨worker.id, worker', rfl, hserves'⟩

/-- **Worker isolation**: in every history in which the scheduler's choice is never a worker pinned
to another workspace, no assignment is ever in a stranger's hands. -/
theorem workers_isolated {db : Db} (hfresh : db.Fresh)
    (h : Reach Steps (fun s op => keepsPins s op = true ∧ choosesStranger s op = false) db t) :
    t.Isolated := by
  have hinvariant : t.Sound ∧ t.Isolated := by
    refine h.invariant (P := fun s => s.Sound ∧ s.Isolated) ⟨hfresh.sound, fun a ha => ?_⟩ ?_
    · rw [hfresh.assignments] at ha
      cases ha
    · rintro s op t ⟨hs, hisolated⟩ ⟨hkeeps, hchoice⟩ htaken
      rw [← htaken]
      refine ⟨step_sound s op hs, ?_⟩
      rcases step_cases s op with heq | heffect
      · rw [heq]
        exact hisolated
      · exact heffect.isolated hs hkeeps hchoice hisolated
  exact hinvariant.2

/-- The one worker is pinned to a workspace. -/
def pinnedDb (workspaceId : Nat) : Db :=
  { demoDb with
    workers := oneRow
      (fun id => { id, workspaceId := some workspaceId, supportedStages := ["idea", "scripting"],
                   status := .online, maxConcurrency := 3, lastHeartbeatAt := some 0 })
      fun _ => rfl }

theorem pinnedDb_fresh {workspaceId : Nat} : (pinnedDb workspaceId).Fresh :=
  ⟨rfl, rfl, rfl, rfl, rfl, rfl, rfl, rfl⟩

/-- The row is dispatched, lost and claimed back. -/
def reclaimedHistory : List Op :=
  [.startRun 0 0 0, .poll 10 [], .processJob 0 [] 0, .recover 0 .leaseExpired, .claim 0 none []]

theorem workers_isolated_reclaimed :
    (replay step (pinnedDb 0) reclaimedHistory).Isolated ∧
      (replay step (pinnedDb 0) reclaimedHistory).assignments.count (·.status.inFlight) = 1 := by
  have hadmits : admits step (fun s op => keepsPins s op && !choosesStranger s op) (pinnedDb 0)
      reclaimedHistory = true := by decide +kernel
  refine ⟨workers_isolated pinnedDb_fresh ((reach_replay reclaimedHistory _ hadmits).mono ?_),
    by decide +kernel⟩
  intro s op hok
  simpa using hok

/-- The scheduler hands the first job of workspace 0 to the worker of workspace 1. -/
theorem stranger_dispatched :
    ¬ ∀ db t : Db, db.Fresh → Reach Steps (fun s op => keepsPins s op = true) db t →
      t.Isolated := by
  intro h
  have hadmits : admits step keepsPins (pinnedDb 1) (reclaimedHistory.take 3) = true := by
    decide +kernel
  have hisolated := h _ _ pinnedDb_fresh (reach_replay _ _ hadmits)
  have hheld : ∃ a ∈ (replay step (pinnedDb 1) (reclaimedHistory.take 3)).assignments,
      a.status.inFlight = true ∧ a.workspaceId = 0 ∧ a.workerId = some 0 := by decide +kernel
  have hpin : (replay step (pinnedDb 1) (reclaimedHistory.take 3)).pins 0 = some (some 1) := by
    decide +kernel
  obtain ⟨a, ha, hflight, hworkspace, howner⟩ := hheld
  obtain ⟨workerId, worker, hworker, hserves⟩ := hisolated a ha hflight
  have hid : workerId = 0 := Option.some.inj (hworker.symm.trans howner)
  obtain ⟨pin, hpin', hall⟩ := serves_iff_pin.mp ⟨worker, hserves⟩
  rw [hid, hpin] at hpin'
  rw [← Option.some.inj hpin', hworkspace] at hall
  cases hall

end ContentOrchestrator

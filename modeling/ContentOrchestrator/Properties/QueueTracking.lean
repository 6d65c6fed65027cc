import ContentOrchestrator.System
import ContentOrchestrator.Orchestration.QueuePressure

/-! # Does the stored pressure follow the queue?

An evaluation brings the workspaces it is given up to date and announces each change
once. It is given workspaces with waiting assignments only, a hundred at most, so a
state that the queue has outgrown stays wherever the queue has drained or the hundred
are others. -/

namespace ContentOrchestrator

open Lib

/-- The number of workspaces one evaluation takes. -/
def evaluationBatch : Nat := 100

/-- Whatever else happens to the queues, and the evaluation of the maintenance tick. -/
inductive QueueOp
  | other (change : Db → Db)
  | evaluate (order : List Nat)

/-- Only the evaluation writes the stored states. -/
def queueStep (db : Db) : QueueOp → Db
  | .other change => { change db with backpressureStates := db.backpressureStates }
  | .evaluate order => (evaluateAllActiveWorkspaces order evaluationBatch db).2

/-- Every workspace is stored as its queue is. -/
def PressureTracked (db : Db) : Prop :=
  ∀ w ∈ db.workspaces, storedPressure db w.id = currentPressure db w.id

instance (db : Db) : Decidable (PressureTracked db) :=
  inferInstanceAs (Decidable (∀ w ∈ db.workspaces,
    storedPressure db w.id = currentPressure db w.id))

/-- Every change of a stored state is announced once, and nothing else is. -/
def ChangesAnnounced (s t : Db) : Prop :=
  ∀ workspaceId, pressureEvents t workspaceId =
    pressureEvents s workspaceId +
      (if storedPressure t workspaceId = storedPressure s workspaceId then 0 else 1)

def EvaluatesRight (s : Db) (op : QueueOp) (t : Db) : Prop :=
  match op with
  | .other _ => True
  | .evaluate _ => PressureTracked t ∧ ChangesAnnounced s t

/-- Every workspace whose stored state is out of date is among those evaluated. -/
def coversStale (db : Db) : QueueOp → Bool
  | .other _ => true
  | .evaluate order =>
    decide (∀ w ∈ db.workspaces, storedPressure db w.id = currentPressure db w.id ∨
      w.id ∈ (activeWorkspaces db order).take evaluationBatch)

theorem evaluation_announces (db : Db) (order : List Nat) :
    ChangesAnnounced db (queueStep db (.evaluate order)) :=
  fun workspaceId => pressureEvents_evaluateEach workspaceId _ db
    ((activeWorkspaces_nodup db order).sublist (List.take_sublist ..))

theorem evaluation_tracks_iff (db : Db) (order : List Nat) :
    PressureTracked (queueStep db (.evaluate order)) ↔ coversStale db (.evaluate order) = true := by
  obtain ⟨hworkspaces, hcurrent⟩ :=
    evaluateEach_frame ((activeWorkspaces db order).take evaluationBatch) db
  have hone : ∀ workspaceId, storedPressure (queueStep db (.evaluate order)) workspaceId =
      currentPressure (queueStep db (.evaluate order)) workspaceId ↔
        storedPressure db workspaceId = currentPressure db workspaceId ∨
          workspaceId ∈ (activeWorkspaces db order).take evaluationBatch := by
    intro workspaceId
    have hstored :=
      storedPressure_evaluateEach workspaceId ((activeWorkspaces db order).take evaluationBatch) db
    simp only [queueStep, evaluateAllActiveWorkspaces, hcurrent, hstored]
    by_cases hpicked : workspaceId ∈ (activeWorkspaces db order).take evaluationBatch
    · simp [hpicked]
    · simp [hpicked]
  have hsame : (queueStep db (.evaluate order)).workspaces = db.workspaces := hworkspaces
  simp only [PressureTracked, coversStale, decide_eq_true_eq, hsame, hone]

/-- **Back-pressure follows the queues exactly where every outdated workspace is evaluated.** -/
theorem pressure_tracked_iff (db : Db) (ops : List QueueOp) :
    (∀ n op, ops[n]? = some op →
      EvaluatesRight (replay queueStep db (ops.take n)) op
        (replay queueStep db (ops.take (n + 1)))) ↔
        admits queueStep coversStale db ops = true := by
  refine everyStep_iff_admits (fun s op => ?_) ops db
  cases op with
  | other change => exact ⟨fun _ => rfl, fun _ => trivial⟩
  | evaluate order =>
    constructor
    · rintro ⟨htracked, -⟩
      exact (evaluation_tracks_iff s order).mp htracked
    · intro hcovers
      exact ⟨(evaluation_tracks_iff s order).mpr hcovers, evaluation_announces s order⟩

/-- One waiting assignment is pressure enough. -/
def shallowDb : Db :=
  { demoDb with
    concurrencyLimits := oneRow (fun id =>
      { id, workspaceId := 0, queueSoftLimit := 1, queueHardLimit := 2 })
      fun _ => rfl }

def engineOp (op : Op) : QueueOp := .other fun db => step db op

/-- An assignment waits, is evaluated, is claimed, and the drained queue is evaluated again. -/
def drainHistory : List QueueOp :=
  [engineOp (.startRun 0 0 0), engineOp (.poll 10 []), engineOp (.processJob 0 [0] 0), .evaluate [],
   engineOp (.claim 0 none []), .evaluate []]

/-- The queue is empty, and the workspace is still stored as pressured. -/
theorem pressure_stale :
    pendingDepth (replay queueStep shallowDb drainHistory) 0 = 0 ∧
      currentPressure (replay queueStep shallowDb drainHistory) 0 = .normal ∧
      storedPressure (replay queueStep shallowDb drainHistory) 0 = .pressured ∧
      ¬ ∀ n op, drainHistory[n]? = some op →
        EvaluatesRight (replay queueStep shallowDb (drainHistory.take n)) op
          (replay queueStep shallowDb (drainHistory.take (n + 1))) := by
  refine ⟨by decide +kernel, by decide +kernel, by decide +kernel, fun h => ?_⟩
  have hlast : PressureTracked (replay queueStep shallowDb (drainHistory.take 6)) :=
    (h 5 (.evaluate []) rfl).1
  exact absurd hlast (by decide +kernel)

end ContentOrchestrator

import ContentOrchestrator.Orchestration.RunInvariants

/-! # At most one live assignment

The idempotency key only tells attempts apart. What keeps a run to one live assignment
is that every operation replaces its one continuation; the operator's retry alone may
add another. -/

namespace ContentOrchestrator

open Lib

variable {t : Db} {r : Nat}

/-- Every run has at most one live assignment for a stage. -/
def Db.SingleExecution (db : Db) : Prop :=
  ∀ (runId : Nat) (stage : ContentStage),
    (db.assignments.count fun a => a.isLiveFor runId stage) ≤ 1

/-- The run has room for the retries of this step. -/
def retriesFit (s : Db) (op : Op) : Bool := decide (∀ run ∈ s.runs, retryFits s op run.id = true)

theorem count_live_le {stage : ContentStage} :
    (t.assignments.count fun a => a.isLiveFor r stage) ≤ (t.slice r).assignments.length := by
  have hmono : (t.assignments.count fun a => a.isLiveFor r stage) ≤
      t.assignments.count (·.isLiveOf r) := by
    refine Table.count_mono fun a _ ha => ?_
    simp only [StageAssignment.isLiveFor, Bool.and_eq_true] at ha
    rw [StageAssignment.isLiveOf, ha.1.1, ha.2]
    rfl
  exact hmono.trans (Nat.le_of_eq Table.count_eq_length_select)

theorem length_assignments_le {x : RunSlice} {v : RunView} (h : Shows x v) :
    x.assignments.length ≤ 1 := by
  cases h <;> simp

/-- A run found in the slice has room if all runs have. -/
theorem retryFits_of_shows {op : Op} {v : RunView} (h : retriesFit t op = true)
    (hv : Shows (t.slice r) v) : retryFits t op r = true := by
  obtain ⟨row, hrow, _⟩ := hv.run_some
  have hin := Table.get?_eq_some.mp (show t.runs.get? r = some row from hrow)
  rw [retriesFit, decide_eq_true_eq] at h
  rw [← hin.2]
  exact h row hin.1

/-- **Single live execution**, in every history whose operator retries find room. -/
theorem single_execution {db : Db} (hfresh : db.Fresh)
    (h : Reach Steps (fun s op => retriesFit s op = true) db t) : t.SingleExecution := by
  intro runId stage
  refine count_live_le.trans ?_
  have hfollows := history_follows (r := runId) (P := fun _ => True) hfresh
    (fun _ _ _ hok hv => retryFits_of_shows hok hv) (fun _ _ _ _ _ => trivial)
    (fun _ _ _ _ _ _ _ _ _ _ => trivial) h
  rcases hfollows.2 with habs | ⟨v, hshow, _, _⟩
  · rw [habs]
    exact Nat.zero_le 1
  · exact length_assignments_le hshow

/-- A permanent error fails the run; the operator's retry queues its one stage job, and the next
attempt starts. -/
def retriedHistory : List Op :=
  [.startRun 0 0 0, .poll 10 [], .processJob 0 [] 0,
   .submit 0 false none "invalid input" (some 0) 0, .retryFailedJobs 0, .poll 10 [],
   .processJob 1 [] 0, .processJob 2 [] 0]

theorem single_execution_retried :
    (replay step demoDb retriedHistory).SingleExecution ∧
      (replay step demoDb retriedHistory).assignments.count (·.isLiveFor 0 .idea) = 1 := by
  have hadmits : admits step retriesFit demoDb retriedHistory = true := by decide +kernel
  exact ⟨single_execution demoDb_fresh (reach_replay retriedHistory demoDb hadmits),
    by decide +kernel⟩

/-- A first attempt failed, the second lost its lease and waits for its third start when the
operator retries the first one. -/
def doubleRetryHistory : List Op :=
  [.startRun 0 0 0, .poll 10 [], .processJob 0 [] 0, .submit 0 false none "timeout" (some 0) 0,
   elapse (seconds 60), .poll 10 [], .processJob 1 [] 0, .recover 1 .leaseExpired,
   .retryFailedJobs 0, .poll 10 [], .processJob 2 [] 0]

/-- The property does not hold of every history: a retry of a run that still has a live
assignment starts a second one. -/
theorem double_execution_after_retry :
    ¬ ∀ db t : Db, db.Fresh → Reach Steps (fun _ _ => True) db t → t.SingleExecution := by
  intro h
  have hadmits : admits step (fun _ _ => true) demoDb doubleRetryHistory = true := by decide +kernel
  have hreach : Reach Steps (fun _ _ => True) demoDb (replay step demoDb doubleRetryHistory) :=
    (reach_replay doubleRetryHistory demoDb hadmits).mono fun _ _ _ => trivial
  have hsingle := h _ _ demoDb_fresh hreach 0 .idea
  have htwo :
      (replay step demoDb doubleRetryHistory).assignments.count (·.isLiveFor 0 .idea) = 2 := by
    decide +kernel
  omega

end ContentOrchestrator

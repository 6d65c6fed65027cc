import ContentOrchestrator.Orchestration.PoisonedJobs
import ContentOrchestrator.System

/-! # The scheduler loop

One tick leases a batch, processes its rows one after the other and takes expired leases
back, all in one transaction; an exception on the way is logged and the loop goes on. -/

namespace ContentOrchestrator

open Lib

/-- What a tick finds outside: rows locked elsewhere, the jitter drawn, and what the
database raises while a row is processed. -/
structure TickInput where
  batchSize : Nat
  lockedJobs : List Nat := []
  lockedWorkers : Nat → List Nat := fun _ => []
  jitter : Nat → Nat := fun _ => 0
  faults : Nat → Option OrchestrationError := fun _ => none
  lockedAtReap : List Nat := []

def reapBatchSize : Nat := 100

/-- The rows of a batch are leased. -/
def leaseBatch (leased : List Nat) (db : Db) : Db :=
  { db with
    jobs := db.jobs.modifyWhere (fun j => leased.contains j.id && j.isDue db.now)
      (JobSchedule.lease db.now) }

/-- One row of the batch. -/
def processRow (tick : TickInput) (jobId : Nat) : Session Unit := do
  let job ← require ((← get).jobs.get? jobId) (.valueError "unknown job")
  processLeasedJob job (tick.lockedWorkers jobId) (tick.jitter jobId)
  match tick.faults jobId with
  | some error => throw error
  | none => pure ()

/-- The transaction of a tick over a batch. -/
def processBatch (tick : TickInput) (leased : List Nat) : Session Unit := do
  modify (leaseBatch leased)
  forM leased (processRow tick)
  modify (reapExpiredLeases reapBatchSize tick.lockedAtReap)

/-- The batch the poll leases. -/
def tickBatch (tick : TickInput) (db : Db) : List Nat :=
  (selectLeases db tick.batchSize tick.lockedJobs).map (·.id)

def schedulerTick (tick : TickInput) : Session Unit := do
  processBatch tick (tickBatch tick (← get))

theorem leaseBatch_tickBatch {tick : TickInput} {db : Db} :
    leaseBatch (tickBatch tick db) db = pollAndLease tick.batchSize tick.lockedJobs db := rfl

/-- **One pass of the loop**: the tick commits, or nothing of it does. -/
def schedulerLoop (db : Db) (tick : TickInput) : Db := atomically (schedulerTick tick) db

/-! ## The rows that raise -/

/-- Processing the row raises, by its own doing or the database's. -/
def rowRaises (tick : TickInput) (db : Db) (jobId : Nat) : Bool :=
  (tick.faults jobId).isSome || (db.jobs.get? jobId).all (·.isPoisoned db)

/-- The rows of a batch that raise when their turn comes, the rows before them having left what they
commit. -/
def raisingRows (tick : TickInput) : List Nat → Db → List Nat
  | [], _ => []
  | jobId :: rest, db =>
    let later := raisingRows tick rest (atomically (processRow tick jobId) db)
    if rowRaises tick db jobId then jobId :: later else later

/-- The others. -/
def soundRows (tick : TickInput) : List Nat → Db → List Nat
  | [], _ => []
  | jobId :: rest, db =>
    let later := soundRows tick rest (atomically (processRow tick jobId) db)
    if rowRaises tick db jobId then later else jobId :: later

section Rows

variable {tick : TickInput} {db : Db}

theorem processRow_fails {jobId : Nat} :
    Fails (processRow tick jobId) db ↔ rowRaises tick db jobId = true := by
  unfold processRow rowRaises
  rw [(returns_get.mpr ⟨rfl, rfl⟩ : Returns get db db db).fails_bind]
  cases hjob : db.jobs.get? jobId with
  | none => simp
  | some job =>
    have hfound : Returns (require (some job) (.valueError "unknown job")) db job db :=
      returns_require.mpr ⟨rfl, rfl⟩
    rw [hfound.fails_bind, fails_bind, processLeasedJob_fails]
    cases hfault : tick.faults jobId with
    | none => simp
    | some error =>
      simp only [fails_throw, and_true, Option.isSome_some, Bool.true_or, iff_true]
      -- whatever the row itself does, the fault ends it
      by_cases hpoisoned : job.isPoisoned db = true
      · exact .inl hpoisoned
      · have hcommits :
            commits (processLeasedJob job (tick.lockedWorkers jobId) (tick.jitter jobId)) db =
              true :=
          commits_eq_true.mpr fun hfails => hpoisoned (processLeasedJob_fails.mp hfails)
        exact .inr ⟨(), _, returns_of_commits hcommits⟩

/-- The batch raises when one of its rows does. -/
theorem rows_fail {leased : List Nat} :
    Fails (forM leased (processRow tick)) db ↔ raisingRows tick leased db ≠ [] := by
  induction leased generalizing db with
  | nil => simp [raisingRows]
  | cons jobId rest ih =>
    rw [List.forM_cons, raisingRows]
    cases hraises : rowRaises tick db jobId with
    | true =>
      simp only [if_true, ne_eq, reduceCtorEq, not_false_eq_true, iff_true]
      exact fails_bind.mpr (.inl (processRow_fails.mpr hraises))
    | false =>
      have hcommits : commits (processRow tick jobId) db = true := by
        rw [commits_eq_true, processRow_fails, hraises]
        exact Bool.false_ne_true
      rw [(returns_of_commits hcommits).fails_bind, ih]
      simp

theorem soundRows_eq {leased : List Nat} (h : raisingRows tick leased db = []) :
    soundRows tick leased db = leased := by
  induction leased generalizing db with
  | nil => rfl
  | cons jobId rest ih =>
    rw [raisingRows] at h
    rw [soundRows]
    cases hraises : rowRaises tick db jobId with
    | true => simp [hraises] at h
    | false =>
      simp only [hraises, Bool.false_eq_true, if_false] at h
      simp [ih h]

theorem schedulerTick_fails :
    Fails (schedulerTick tick) db ↔
      raisingRows tick (tickBatch tick db) (leaseBatch (tickBatch tick db) db) ≠ [] := by
  unfold schedulerTick processBatch
  rw [(returns_get.mpr ⟨rfl, rfl⟩ : Returns get db db db).fails_bind,
    (returns_modify.mpr rfl : Returns _ _ () _).fails_bind, fails_bind, rows_fail]
  simp

end Rows

end ContentOrchestrator

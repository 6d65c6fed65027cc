import ContentOrchestrator.Orchestration.WorkerMoves
import ContentOrchestrator.Workers.Stops

/-! # The offline sweep

The maintenance tick takes workers that have not been heard from offline, sets their load
to zero and recovers what they hold, all in one transaction. Rows that another transaction
has locked are skipped, workers and assignments alike. -/

namespace ContentOrchestrator

open Lib

/-- Not heard from for too long. -/
def WorkerRegistration.isStale (offlineAfterSeconds now : Nat) (w : WorkerRegistration) : Bool :=
  w.deregisteredAt.isNone && w.status != .offline &&
    w.lastHeartbeatAt.all fun t => decide (t + seconds offlineAfterSeconds < now)

def selectStaleWorkerIds (db : Db) (lockedWorkers : List Nat) : List Nat :=
  ((db.workers.select (·.isStale db.settings.workerOfflineAfterSeconds db.now)).map (·.id)).filter
    fun id => !lockedWorkers.contains id

def WorkerRegistration.markOffline : Update WorkerRegistration :=
  ⟨fun w => { w with status := .offline, currentLoad := 0 }, fun _ => rfl⟩

/-- Answers with the workers it took offline. -/
def markStaleWorkersOffline (lockedWorkers : List Nat) : Session (List Nat) := do
  let staleIds := selectStaleWorkerIds (← get) lockedWorkers
  modify fun db =>
    { db with
      workers :=
        db.workers.modifyWhere (fun w => staleIds.contains w.id) WorkerRegistration.markOffline }
  return staleIds

def reapOfflineWorkers (locked : List Nat) : List Nat → Session Unit
  | [] => pure ()
  | workerId :: rest => do
    reapWorkerAssignments workerId .workerOffline locked
    reapOfflineWorkers locked rest

/-- **The sweep** at the start of a maintenance tick. -/
def offlineSweep (lockedWorkers lockedAssignments : List Nat) : Session Unit := do
  let flipped ← markStaleWorkersOffline lockedWorkers
  reapOfflineWorkers lockedAssignments flipped

/-- What one worker after the other held is recovered. -/
inductive EachReaped (locked : List Nat) : List Nat → Db → Db → Prop
  | done {s : Db} : EachReaped locked [] s s
  | next {workerId : Nat} {rest : List Nat} {s t u : Db}
      (reaped : Reaped .workerOffline (workerHoldings s workerId locked) s t)
      (later : EachReaped locked rest t u) : EachReaped locked (workerId :: rest) s u

theorem reapOfflineWorkers_returns {locked : List Nat} :
    ∀ {ids : List Nat} {s t : Db} {v : Unit}, Returns (reapOfflineWorkers locked ids) s v t →
      EachReaped locked ids s t
  | [], s, t, v, h => by
    simp only [reapOfflineWorkers, returns_pure] at h
    rw [← h.2]
    exact .done
  | workerId :: rest, s, t, v, h => by
    simp only [reapOfflineWorkers, returns_bind] at h
    obtain ⟨_, m, hreap, hrest⟩ := h
    exact .next (reapWorkerAssignments_returns hreap) (reapOfflineWorkers_returns hrest)

/-- A sweep takes the stale workers offline and recovers what they hold. -/
theorem offlineSweep_returns {lockedWorkers lockedAssignments : List Nat} {s t : Db} {v : Unit}
    (h : Returns (offlineSweep lockedWorkers lockedAssignments) s v t) :
    EachReaped lockedAssignments (selectStaleWorkerIds s lockedWorkers)
      { s with
        workers := s.workers.modifyWhere (fun w =>
          (selectStaleWorkerIds s lockedWorkers).contains w.id)
          WorkerRegistration.markOffline } t := by
  simp only [offlineSweep, markStaleWorkersOffline, returns_bind, returns_get, returns_modify,
    returns_pure] at h
  obtain ⟨_, _, ⟨_, _, ⟨rfl, rfl⟩, _, _, rfl, rfl, rfl⟩, hreap⟩ := h
  exact reapOfflineWorkers_returns hreap

/-! ## The fleet under maintenance -/

inductive TendedOp
  | fleet (op : FleetOp)
  | sweep (lockedWorkers lockedAssignments : List Nat)

/-- **One transaction**, of a request or of the maintenance. -/
def tendedStep (f : Fleet) : TendedOp → Fleet
  | .fleet op => fleetStep f op
  | .sweep lockedWorkers lockedAssignments =>
    { f with db := atomically (offlineSweep lockedWorkers lockedAssignments) f.db }

def TendedSteps (f : Fleet) (op : TendedOp) (g : Fleet) : Prop := tendedStep f op = g

end ContentOrchestrator

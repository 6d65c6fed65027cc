import ContentOrchestrator.Lib.LockOrder
import ContentOrchestrator.Model.Schema

/-! # What each transaction locks, in order

A row is locked where it is selected for update, or where its update is flushed. Nothing
is flushed but by `emit`, by an explicit flush and by the commit, and `emit` takes the
advisory lock of its aggregate first; so runs, reservations and gates are written to
under the advisory lock of their run. What a transaction reads on its way is given with
it, whatever it may be: which rows it finds, and which way it goes. -/

namespace ContentOrchestrator

open Lib

inductive Lockable
  | job (id : Nat)
  | credential (id : Nat)
  | worker (id : Nat)
  | assignment (id : Nat)
  | budget (id : Nat)
  | cap (id : Nat)
  | advisory (hash : Nat)
  | backpressure (workspaceId : Nat)
  | run (id : Nat)
  | reservation (runId id : Nat)
  | gate (runId id : Nat)
deriving DecidableEq, Repr

abbrev Locks := LockProgram Lockable

/-- These are flushed. -/
def flushLocks (rows : List Lockable) : Locks := .each rows .acquire

section

variable (hash : Aggregate → Nat)

/-! ## Events and spend -/

def emitLocks (aggregate : Aggregate) : Locks := .acquire (.advisory (hash aggregate))

/-- An event of the run, whose trace has changed. -/
def emitRunLocks (runId : Nat) : Locks :=
  emitLocks hash (.pipelineRun runId) ++ .acquire (.run runId)

/-- `commit_spend` and `release_spend` write to the same rows. -/
def settleSpendLocks (runId reservationId : Nat) : Locks :=
  emitRunLocks hash runId ++ .acquire (.reservation runId reservationId)

def releaseAllLocks (runId : Nat) (reservations : List Nat) : Locks :=
  .each reservations (settleSpendLocks hash runId)

/-- The stage's open reservations, and the cap row that is found. -/
structure Reserving where
  priors : List Nat := []
  cap : Option Nat

/-- The event says that the spend is reserved, or that the cap is exceeded. -/
def reserveSpendLocks (runId : Nat) (r : Reserving) : Locks :=
  releaseAllLocks hash runId r.priors ++ flushLocks (r.cap.toList.map .cap) ++
    emitRunLocks hash runId

/-! ## A worker's requests -/

/-- The spend gate of a claim. Where it has found no open reservation, `reserve_spend` looks
again and may find one. -/
inductive SpendGate
  | kept
  | reserved (reserving : Reserving)
  | exceeded (reserving : Reserving)

def SpendGate.priors : SpendGate → List Nat
  | kept => []
  | reserved reserving | exceeded reserving => reserving.priors

structure Candidate where
  assignmentId : Nat
  runId : Nat
  budget : Option Nat
  admitted : Bool
  gate : SpendGate

def grantLocks (c : Candidate) : Locks :=
  match c.gate with
  | .kept => emitLocks hash (.pipelineRun c.runId)
  | .reserved reserving =>
    reserveSpendLocks hash c.runId reserving ++ emitLocks hash (.pipelineRun c.runId)
  | .exceeded reserving => reserveSpendLocks hash c.runId reserving

/-- The candidate loop: each row under a savepoint, together with its provider's budget. -/
def candidateLocks : List Candidate → Locks
  | [] => .done
  | c :: rest =>
    .tryLock (.assignment c.assignmentId)
      (flushLocks (c.budget.toList.map .budget) ++
        if c.admitted then grantLocks hash c
        else .release (.assignment c.assignmentId :: c.budget.toList.map .budget)
          (candidateLocks rest))
      (candidateLocks rest)

def claimLocks (credentialId workerId : Nat) (candidates : List Candidate) : Locks :=
  .acquire (.credential credentialId) ++ .acquire (.worker workerId) ++
    candidateLocks hash candidates

/-- The credential is checked again, then the worker and the assignment are locked. -/
def ownerLocks (credentialId workerId assignmentId : Nat) : Locks :=
  .acquire (.credential credentialId) ++ .acquire (.worker workerId) ++
    .acquire (.assignment assignmentId)

/-- The event, and the run's open reservations if it fails for good. -/
def stageFailureLocks (runId : Nat) (reservations : List Nat) : Locks :=
  emitRunLocks hash runId ++ releaseAllLocks hash runId reservations

/-- What a result does to its run: the reservation it settles, and those a run that fails
releases. -/
inductive SubmittedResult
  | orphaned
  | succeeded (runId : Nat) (reservation : Option Nat)
  | failed (runId : Nat) (reservation : Option Nat) (others : List Nat)

def submitResultLocks : SubmittedResult → Locks
  | .orphaned => .done
  | .succeeded runId reservation =>
    emitLocks hash (.pipelineRun runId) ++ .each reservation.toList (settleSpendLocks hash runId) ++
      emitRunLocks hash runId
  | .failed runId reservation others =>
    .each reservation.toList (settleSpendLocks hash runId) ++ stageFailureLocks hash runId others

def submitLocks (credentialId workerId assignmentId : Nat) (result : SubmittedResult) : Locks :=
  ownerLocks credentialId workerId assignmentId ++ submitResultLocks hash result

/-! ## Recovery -/

inductive RecoveryPath
  | requeued (reservations : List Nat)
  /-- Dead-lettered; the run fails with these reservations open, unless it has ended before. -/
  | exhausted (failed : Option (List Nat))

/-- An assignment in flight, as a reaper finds it. -/
structure Holding where
  assignmentId : Nat
  workerId : Option Nat
  runId : Nat
  path : RecoveryPath

/-- The first flush also writes what the caller has left unwritten. -/
def recoverLocks (unwritten : List Lockable) (h : Holding) : Locks :=
  flushLocks (h.workerId.toList.map .worker) ++
    match h.path with
    | .requeued reservations =>
      emitLocks hash (.pipelineRun h.runId) ++ flushLocks unwritten ++
        releaseAllLocks hash h.runId reservations
    | .exhausted none => flushLocks unwritten
    | .exhausted (some reservations) =>
      flushLocks unwritten ++ stageFailureLocks hash h.runId reservations

/-- Those not locked by others, batch by batch. -/
def reapLocks (unwritten : List Lockable) (batches : List (List Holding)) : Locks :=
  .each batches fun rows =>
    .select (fun h => .assignment h.assignmentId) rows fun found =>
      .each found (recoverLocks hash unwritten)

/-! ## Administration -/

def registerLocks (workerId : Nat) (batches : List (List Holding)) : Locks :=
  .acquire (.worker workerId) ++ reapLocks hash [] batches

def rotateLocks (workerId : Nat) (credentials : List Nat) : Locks :=
  .acquire (.worker workerId) ++ flushLocks (credentials.map .credential)

/-- The revoked credentials are written by the first flush. -/
def revokeLocks (workerId : Nat) (credentials : List Nat) (batches : List (List Holding)) : Locks :=
  .acquire (.worker workerId) ++ reapLocks hash (credentials.map .credential) batches ++
    flushLocks (credentials.map .credential)

structure StoppedWorker where
  workerId : Nat
  credentials : List Nat
  batches : List (List Holding)

/-- The credentials are updated at once. -/
def emergencyStopLocks (workspaceId : Nat) (workers : List StoppedWorker) : Locks :=
  (LockProgram.each workers fun w =>
    .acquire (.worker w.workerId) ++ flushLocks (w.credentials.map .credential) ++
      reapLocks hash [] w.batches) ++
    emitLocks hash (.workspace workspaceId)

/-! ## The ticks -/

/-- What a leased job comes to. -/
inductive JobWork
  /-- Nothing is dispatched, and nothing given up. -/
  | nothing
  | dispatch (runId : Nat) (workers : List Nat) (idempotent : Bool) (reserving : Reserving)
      (exceeded : Bool)
  | giveUp (runId : Nat) (reservations assignments : List Nat)
  | stageTimeout (runId : Nat) (reservations : List Nat)
  /-- The gate is escalated, or its run fails with these reservations open. -/
  | reviewTimeout (runId gateId : Nat) (failed : Option (List Nat))

structure DueJob where
  id : Nat
  work : JobWork

/-- The first unlocked worker is taken; without one there is nothing to reserve. -/
def dispatchLocks (runId : Nat) (workers : List Nat) (idempotent : Bool) (reserving : Reserving)
    (exceeded : Bool) : Locks :=
  .selectFirst .worker (fun found =>
    if idempotent then .done
    else match found with
      | none => emitLocks hash (.pipelineRun runId)
      | some _ => reserveSpendLocks hash runId reserving ++
          if exceeded then .done else emitLocks hash (.pipelineRun runId)) workers

def processJobLocks (job : DueJob) : Locks :=
  match job.work with
  | .nothing => .done
  | .dispatch runId workers idempotent reserving exceeded =>
    dispatchLocks hash runId workers idempotent reserving exceeded
  -- the cancelled assignments are flushed by `route_to_dead_letter`
  | .giveUp runId reservations assignments =>
    releaseAllLocks hash runId reservations ++ flushLocks (assignments.map .assignment)
  | .stageTimeout runId reservations => stageFailureLocks hash runId reservations
  | .reviewTimeout runId gateId none =>
    emitLocks hash (.pipelineRun runId) ++ .acquire (.gate runId gateId)
  | .reviewTimeout runId gateId (some reservations) =>
    emitLocks hash (.pipelineRun runId) ++ .acquire (.gate runId gateId) ++
      stageFailureLocks hash runId reservations

/-- Due jobs are leased and carried out, then expired leases are given back. -/
def schedulerTickLocks (due : List DueJob) (expired : List Nat) : Locks :=
  .select (fun j => .job j.id) due (fun leased => .each leased (processJobLocks hash)) ++
    .select .job expired fun _ => .done

structure FlippedWorker where
  workerId : Nat
  batches : List (List Holding)

structure EvaluatedWorkspace where
  workspaceId : Nat
  changed : Bool

def evaluateLocks (e : EvaluatedWorkspace) : Locks :=
  .acquire (.backpressure e.workspaceId) ++
    if e.changed then emitLocks hash (.workspace e.workspaceId) else .done

def maintenanceTickLocks (stale : List FlippedWorker) (expired : List Holding)
    (evaluated : List EvaluatedWorkspace) : Locks :=
  .select (fun w => .worker w.workerId) stale (fun flipped => .each flipped fun w =>
    reapLocks hash [] w.batches) ++
    reapLocks hash [] [expired] ++ .each evaluated (evaluateLocks hash)

/-! ## All of them -/

inductive LockPath
  | claim (credentialId workerId : Nat) (candidates : List Candidate)
  | ack (credentialId workerId assignmentId : Nat)
  | renew (credentialId workerId assignmentId : Nat)
  | submit (credentialId workerId assignmentId : Nat) (result : SubmittedResult)
  | register (workerId : Nat) (batches : List (List Holding))
  | deregister (workerId : Nat) (batches : List (List Holding))
  | rotate (workerId : Nat) (credentials : List Nat)
  | revoke (workerId : Nat) (credentials : List Nat) (batches : List (List Holding))
  | emergencyStop (workspaceId : Nat) (workers : List StoppedWorker)
  | schedulerTick (due : List DueJob) (expired : List Nat)
  | maintenanceTick (stale : List FlippedWorker) (expired : List Holding)
      (evaluated : List EvaluatedWorkspace)
  | recoverAssignment (holding : Holding)

def LockPath.locks : LockPath → Locks
  | claim credentialId workerId candidates => claimLocks hash credentialId workerId candidates
  | ack credentialId workerId assignmentId => ownerLocks credentialId workerId assignmentId
  | renew credentialId workerId assignmentId => ownerLocks credentialId workerId assignmentId
  | submit credentialId workerId assignmentId result =>
    submitLocks hash credentialId workerId assignmentId result
  | register workerId batches => registerLocks hash workerId batches
  | deregister workerId batches => registerLocks hash workerId batches
  | rotate workerId credentials => rotateLocks workerId credentials
  | revoke workerId credentials batches => revokeLocks hash workerId credentials batches
  | emergencyStop workspaceId workers => emergencyStopLocks hash workspaceId workers
  | schedulerTick due expired => schedulerTickLocks hash due expired
  | maintenanceTick stale expired evaluated => maintenanceTickLocks hash stale expired evaluated
  -- the caller locks the row
  | recoverAssignment holding =>
    .acquire (.assignment holding.assignmentId) ++ recoverLocks hash [] holding

/-! ## The order -/

/-- Jobs are never waited for, credentials come before workers, workers before assignments. -/
def Lockable.rank : Lockable → Nat × Nat
  | job id => (0, id)
  | credential id => (1, id)
  | worker id => (2, id)
  | assignment id => (3, id)
  | budget id => (4, id)
  | cap id => (5, id)
  | advisory hash => (6, hash)
  | backpressure workspaceId => (7, workspaceId)
  | run id => (8, id)
  | reservation _ id => (9, id)
  | gate _ id => (10, id)

def Lockable.before (a b : Lockable) : Bool :=
  decide (a.rank.1 < b.rank.1) || (a.rank.1 == b.rank.1 && decide (a.rank.2 < b.rank.2))

/-- Runs, reservations and gates are written under the advisory lock of the run. -/
def Lockable.guard : Lockable → Option Lockable
  | run id => some (advisory (hash (.pipelineRun id)))
  | reservation runId _ => some (advisory (hash (.pipelineRun runId)))
  | gate runId _ => some (advisory (hash (.pipelineRun runId)))
  | _ => none

def lockOrder : LockOrder Lockable where
  below := Lockable.before
  irrefl k := by simp [Lockable.before]
  trans := by
    intro a b c hab hbc
    simp only [Lockable.before, Bool.or_eq_true, Bool.and_eq_true, decide_eq_true_eq,
      beq_iff_eq] at hab hbc ⊢
    omega
  guard := Lockable.guard hash

end

end ContentOrchestrator

import ContentOrchestrator.Orchestration.Contention
import ContentOrchestrator.Workers.OfflineSweep

/-! # Reapers side by side

Lease reaping, the sweep of silent workers, registration and deregistration recover what
they find in flight. Each locks the rows its query matches, less those another transaction
has locked, and recovers them one after the other; nothing of it shows before its commit.
A batch that comes back full is followed by another query. Beside the tables the recoveries
are recorded. -/

namespace ContentOrchestrator

open Lib

/-- A tenure a reaper has ended, and how. -/
structure Recovery where
  assignmentId : Nat
  attempt : Nat
  requeued : Bool
deriving DecidableEq, Repr

structure ReapStore where
  db : Db
  recoveries : List Recovery := []

/-- The row as the reaper locked it, and which branch it took. -/
structure RowRecovery where
  row : StageAssignment
  reason : RecoveryReason
  requeues : Bool

def RowRecovery.apply (r : RowRecovery) (db : Db) : Db :=
  let freed := releaseWorkerSlot r.row.workerId db
  if r.requeues then requeueAssignment r.row freed else deadLetterAssignment r.row r.reason freed

def RowRecovery.record (r : RowRecovery) : Recovery := ⟨r.row.id, r.row.attemptNumber, r.requeues⟩

def recoverRows (done : List RowRecovery) (db : Db) : Db := done.foldl (fun db r => r.apply db) db

/-! ## The queries -/

inductive Scan
  | expired
  | ofWorker (workerId : Nat) (reason : RecoveryReason)
deriving DecidableEq, Repr

def Scan.reason : Scan → RecoveryReason
  | .expired => .leaseExpired
  | .ofWorker _ reason => reason

/-- In flight with a lease that has run out. -/
def StageAssignment.isOverdue (now : Nat) (a : StageAssignment) : Bool :=
  a.status.inFlight && a.leaseExpiresAt.any fun t => decide (t < now)

def Scan.rows (db : Db) : Scan → List StageAssignment
  | .expired =>
    (db.assignments.select (·.isOverdue db.now)).insertionSort fun a b =>
      a.leaseExpiresAt.getD 0 ≤ b.leaseExpiresAt.getD 0
  | .ofWorker workerId _ => db.assignments.select fun a =>
    a.workerId == some workerId && a.status.inFlight

/-! ## One reaper -/

inductive ReapRequest
  | maintenance
  | register (workerId : Nat) (payload : WorkerRegisterIn)
  | deregister (workerId : Nat)
deriving DecidableEq, Repr

inductive ReapPoint
  | begin
  | scan
  /-- The worker of the next row is locked. -/
  | recover
  | write
  | refused
deriving DecidableEq, Repr

/-- What becomes of the worker rows, beside their slots. -/
inductive Closing
  | nothing
  | offline (workerIds : List Nat)
  | announce (workerId : Nat) (payload : WorkerRegisterIn)
  | deregister (workerId : Nat)
deriving DecidableEq, Repr

/-- Whose rows are recovered. -/
def Closing.workerIds : Closing → List Nat
  | nothing => []
  | offline workerIds => workerIds
  | announce workerId _ => [workerId]
  | deregister workerId => [workerId]

/-- The query for overdue rows: what it took for the present, and the rows it returned. -/
structure LeaseQuery where
  asOf : Nat
  found : List StageAssignment

structure Reaper where
  request : ReapRequest
  point : ReapPoint := .begin
  closing : Closing := .nothing
  /-- The queries still to be made, and why the rows at hand are recovered. -/
  scans : List Scan := []
  reason : RecoveryReason := .leaseExpired
  todo : List Nat := []
  done : List RowRecovery := []
  overdue : Option LeaseQuery := none
  /-- Rows its queries matched while another reaper had them in hand. -/
  passed : List Nat := []

namespace Reaper

/-- The sweep marks the silent workers first; the other two write the worker row last. -/
def view (x : Reaper) (db : Db) : Db :=
  recoverRows x.done
    (match x.closing with
      | .offline ids =>
        { db with
          workers :=
            db.workers.modifyWhere (fun w => ids.contains w.id) WorkerRegistration.markOffline }
      | _ => db)

def conclude (x : Reaper) (db : Db) : Db :=
  match x.closing with
  | .announce workerId payload =>
    modifyWorker workerId (WorkerRegistration.announce payload db.now) (x.view db)
  | .deregister workerId => modifyWorker workerId (WorkerRegistration.deregister db.now) (x.view db)
  | _ => x.view db

def begin (x : Reaper) (db : Db) (taken : RowLock → Bool) (held : List RowLock) :
    List RowLock × Reaper :=
  match x.request with
  | .maintenance =>
    let stale := selectStaleWorkerIds db (lockedRows taken RowLock.worker db.workers)
    (stale.map RowLock.worker ++ held,
      { x with
        point := .scan, closing := .offline stale
        scans := stale.map (Scan.ofWorker · .workerOffline) ++ [.expired] })
  | .register workerId payload =>
    if workerCapabilityProtocolVersions.contains payload.protocolVersion &&
      (db.workers.get? workerId).isSome then
      (.worker workerId :: held,
        { x with
          point := .scan, closing := .announce workerId payload,
            scans := [.ofWorker workerId .workerRestart] })
    else (held, { x with point := .refused })
  | .deregister workerId =>
    match db.workers.get? workerId with
    | none => (held, { x with point := .refused })
    | some w =>
      if w.deregisteredAt.isNone then
        (.worker workerId :: held,
          { x with
            point := .scan, closing := .deregister workerId
            scans := [.ofWorker workerId .workerDeregistered] })
      else (.worker workerId :: held, { x with point := .scan })

/-- What it has recovered itself is no longer in flight for its own queries. -/
def recovered (x : Reaper) (id : Nat) : Bool := x.done.any fun r => r.row.id == id

/-- The rows a query finds, less those that are locked, one batch of them. -/
def found (x : Reaper) (batchSize : Nat) (db : Db) (taken : RowLock → Bool) (scan : Scan) :
    List StageAssignment :=
  ((scan.rows db).filter fun a => !taken (.assignment a.id) && !x.recovered a.id).take batchSize

/-- The rows a query matches and skips, for another has locked them. -/
def skipped (db : Db) (taken : RowLock → Bool) (scan : Scan) : List Nat :=
  ((scan.rows db).filter fun a => taken (.assignment a.id)).map (·.id)

/-- What the query for overdue rows returned is kept. -/
def overdueAfter (x : Reaper) (now : Nat) (rows : List StageAssignment) : Scan → Option LeaseQuery
  | .expired => some ⟨now, rows⟩
  | .ofWorker _ _ => x.overdue

/-- Overdue rows are asked for once; of a worker, until a batch is not full. -/
def scansAfter (batchSize found : Nat) (scan : Scan) (rest : List Scan) : List Scan :=
  match scan with
  | .expired => rest
  | .ofWorker _ _ => if found = 0 ∨ found < batchSize then rest else scan :: rest

/-- Recover the row; `none` where the unique index refuses the new key. -/
def write (x : Reaper) (db : Db) (held : List RowLock) (row : StageAssignment) (rest : List Nat) :
    Option (List RowLock × Reaper) :=
  let goOn (done : List RowRecovery) : Reaper := { x with point := .recover, todo := rest, done }
  if !row.status.inFlight then some (held, goOn x.done)
  else if canRequeue db row then
    let key : IdempotencyKey := ⟨row.pipelineRunId, row.stage.value, row.attemptNumber + 1⟩
    if (assignmentByKey (x.view db) row.workspaceId key).isSome then none
    else some (.key row.workspaceId key :: held, goOn (x.done ++ [⟨row, x.reason, true⟩]))
  else some (held, goOn (x.done ++ [⟨row, x.reason, false⟩]))

def next (x : Reaper) (batchSize : Nat) (db : Db) (taken : RowLock → Bool) (held : List RowLock) :
    Option (List RowLock × Reaper) :=
  match x.point, x.scans, x.todo with
  | .begin, _, _ => some (x.begin db taken held)
  | .scan, [], _ => none
  | .scan, scan :: rest, _ =>
    let rows := x.found batchSize db taken scan
    some (rows.map (fun a => RowLock.assignment a.id) ++ held,
      { x with
        point := .recover, reason := scan.reason, todo := rows.map (·.id)
        scans := scansAfter batchSize rows.length scan rest
        overdue := x.overdueAfter db.now rows scan
        passed := x.passed ++ skipped db taken scan })
  | .recover, _, [] => some (held, { x with point := .scan })
  | .recover, _, id :: _ =>
    match ((db.assignments.get? id).bind (·.workerId)).bind db.workers.get? with
    | none => some (held, { x with point := .write })
    | some w => some (.worker w.id :: held, { x with point := .write })
  | .write, _, [] => none
  | .write, _, id :: rest => (db.assignments.get? id).bind fun row => x.write db held row rest
  | .refused, _, _ => none

/-- Every query is made, and every row it found is recovered. -/
def finished (x : Reaper) : Bool := x.point == .scan && x.scans.isEmpty

end Reaper

/-! ## The system -/

def Op.isRecovery : Op → Bool
  | .recover _ _ => true
  | _ => false

/-- Every change of a row that is not a recovery shows in one of these. -/
def StageAssignment.stamp (a : StageAssignment) : StageAssignmentStatus × Nat × Nat :=
  (a.status, a.attemptNumber, a.leaseExtensionCount)

/-- The rows and index entries that differ: an operation waits for the locks of what it changes. -/
def changedRows (s t : Db) : List RowLock :=
  ((s.assignments.rows.filter fun a => (t.assignments.get? a.id).map (·.stamp) != some a.stamp).map
      fun a => RowLock.assignment a.id) ++
    ((s.workers.rows.filter fun w => t.workers.get? w.id != some w).map fun w => RowLock.worker
      w.id) ++
      ((t.assignments.rows.filter fun a =>
        (assignmentByKey s a.workspaceId a.idempotencyKey).isNone).map
        fun a => RowLock.key a.workspaceId a.idempotencyKey)

end ContentOrchestrator

import ContentOrchestrator.Lib.Interleaving
import ContentOrchestrator.Orchestration.Dispatcher
import ContentOrchestrator.Orchestration.SpendLedger

/-! # Reservations and their settlement side by side

Only the cap's row is locked before it is read. A settlement reads a reservation, checks
what it read, takes the lock under which the run's events are numbered and then updates
the row by its key, without looking at it again. A worker's success and the failing of a
run emit an event first, so they read under that lock; the others read before it. A check
takes four sums, each a statement of its own, over the committed rows and the reserver's
own releases. The store keeps each change of a reservation's status, in the order of the
commits. -/

namespace ContentOrchestrator

open Lib

inductive SettledBy
  | charge (logId : Nat)
  | release
deriving DecidableEq, Repr

structure Settlement where
  reservationId : Nat
  means : SettledBy
deriving DecidableEq, Repr

structure SpendStore where
  db : Db
  settlements : List Settlement := []

/-- What a reserver asks for. -/
structure ReserveRequest where
  runId : Nat
  stage : ContentStage
  provider : String
  estimatedCostUsd : Nat

/-- The reservation a settlement is about: a row its caller has loaded, or what a submitted result
finds, the newest open one of the stage. -/
inductive SpendTarget
  | row (reservationId : Nat)
  | newest (runId : Nat) (stage : ContentStage)

/-- `fails` is whether the call goes on to fail the run, which releases what else is open of it. -/
inductive SpendRequest
  | reserve (q : ReserveRequest)
  | commit (target : SpendTarget) (actualCostUsd : Decimal)
  | release (target : SpendTarget) (fails : Bool)
  | recover (runId : Nat) (stage : ContentStage)
  /-- A run is failed by a review or an exhausted recovery. -/
  | failRun (runId : Nat)
  /-- A run is cancelled, or its job given up. -/
  | releaseAll (runId : Nat)

inductive AfterRelease
  | done
  | rest
  | reserve (q : ReserveRequest)

/-- A reserver, with the rows it has released and the cap it has locked. -/
structure Reserver where
  q : ReserveRequest
  run : PipelineRun
  released : List SpendReservation
  cap : SpendCap

/-- A reservation about to be committed, its clamped cost and the time of its log, and whether
it was read under the lock of the run's events. -/
structure Charge where
  run : PipelineRun
  reservation : SpendReservation
  costUsd : Nat
  occurredAt : Nat
  readLocked : Bool

inductive SpendLock
  /-- `pg_advisory_xact_lock` of the run, which `emit` takes. -/
  | events (runId : Nat)
  | row (reservationId : Nat)
  | cap (capId : Nat)
  /-- The entry of the unique index over open rows. -/
  | openRow (runId : Nat) (stage : ContentStage)
deriving DecidableEq

/-- The statement that comes next, or the end. -/
inductive SpendPoint
  | requested (r : SpendRequest)
  | releasing (run : PipelineRun) (todo released : List SpendReservation) (after : AfterRelease)
  | capLocked (x : Reserver)
  | dayLogged (x : Reserver) (logged : Nat)
  | daySummed (x : Reserver) (daily : Nat)
  | monthLogged (x : Reserver) (daily logged : Nat)
  | admitted (x : Reserver)
  | inserted (x : Reserver)
  | opened (x : Reserver)
  | exceeded (run : PipelineRun) (released : List SpendReservation)
  | denied (run : PipelineRun) (released : List SpendReservation)
  | charging (c : Charge)
  | charged (c : Charge)
  /-- Nothing to write, or an error of the call's own. -/
  | ended
  /-- The index has an open row of the stage already. -/
  | refused

/-- Whether it is a submitted result's, whose event comes first. -/
def SpendTarget.isSubmitted : SpendTarget → Bool
  | .row _ => false
  | .newest _ _ => true

def SpendTarget.find (db : Db) : SpendTarget → Option SpendReservation
  | .row reservationId => db.reservations.get? reservationId
  | .newest runId stage => newestOpenReservation db runId stage

/-- A reservation with its run. -/
def SpendTarget.load (db : Db) (target : SpendTarget) : Option (SpendReservation × PipelineRun) :=
  (target.find db).bind fun v => (db.runs.get? v.pipelineRunId).map fun run => (v, run)

/-- The checks of `commit_spend`, on the row as it was read. -/
def beginCharge (run : PipelineRun) (v : SpendReservation) (actualCostUsd : Decimal) (now : Nat)
    (readLocked : Bool) : SpendPoint :=
  if v.status = .reserved ∧ actualCostUsd.settles v.estimatedCostUsd then
    .charging ⟨run, v, actualCostUsd.clampToGrid v.estimatedCostUsd, now, readLocked⟩
  else .ended

def afterRelease (fails : Bool) : AfterRelease := if fails then .rest else .done

/-- The lock of the event that is emitted before anything is read of the ledger. -/
def SpendRequest.locks : SpendRequest → List SpendLock
  | .commit (.newest runId _) _ | .failRun runId => [.events runId]
  | .commit (.row _) _ | .reserve _ | .release _ _ | .recover _ _ | .releaseAll _ => []

def SpendRequest.read (db : Db) : SpendRequest → SpendPoint
  | .reserve q =>
    match db.runs.get? q.runId with
    | none => .ended
    | some run =>
      .releasing run (db.reservations.select (·.isOpenFor run.id q.stage)) [] (.reserve q)
  | .commit target actualCostUsd =>
    match target.load db with
    | none => .ended
    | some (v, run) =>
      beginCharge run v actualCostUsd db.now target.isSubmitted
  | .release target fails =>
    match target.load db with
    | none => .ended
    | some (v, run) =>
      .releasing run (if v.status = .reserved then [v] else []) [] (afterRelease fails)
  | .recover runId stage =>
    match db.runs.get? runId with
    | none => .ended
    | some run => .releasing run (db.reservations.select (·.isOpenFor run.id stage)) [] .done
  | .failRun runId | .releaseAll runId =>
    match db.runs.get? runId with
    | none => .ended
    | some run => .releasing run (db.reservations.select (·.isOpenOf run.id)) [] .done

namespace Reserver

/-- The tables as the reserver sees them: the committed ones with its own releases. -/
def view (x : Reserver) (db : Db) : Db := releaseEach x.run x.released db

def filter (x : Reserver) : Option String := usageProvider x.cap x.q.provider

def logged (x : Reserver) (db : Db) (since : Nat) : Nat :=
  committedSince (x.view db) x.run.workspaceId x.filter since

def reserved (x : Reserver) (db : Db) : Nat := openReserved (x.view db) x.run.workspaceId x.filter

def check (x : Reserver) (daily monthly : Nat) : SpendPoint :=
  if daily + x.q.estimatedCostUsd > x.cap.dailyCapUsd then .exceeded x.run x.released
  else if monthly + x.q.estimatedCostUsd > x.cap.monthlyCapUsd then .exceeded x.run x.released
  else .admitted x

/-- Open rows of the stage that are not its own releases: the unique index refuses a second one. -/
def rivals (x : Reserver) (db : Db) : List SpendReservation :=
  (x.view db).reservations.select (·.isOpenFor x.run.id x.q.stage)

end Reserver

def SpendPoint.next (s : SpendStore) (taken : SpendLock → Bool) (held : List SpendLock) :
    SpendPoint → Option (List SpendLock × SpendPoint)
  | .requested r => some (r.locks ++ held, r.read s.db)
  | .releasing run (v :: todo) released after =>
    some (.events run.id :: .row v.id :: held, .releasing run todo (released ++ [v]) after)
  | .releasing run [] released .rest =>
    some (.events run.id :: held,
      .releasing run ((releaseEach run released s.db).reservations.select (·.isOpenOf run.id))
        released .done)
  | .releasing run [] released (.reserve q) =>
    match loadSpendCap s.db run.workspaceId q.provider with
    | none => some (held, .exceeded run released)
    | some cap => some (.cap cap.id :: held, .capLocked { q, run, released, cap })
  | .capLocked x => some (held, .dayLogged x (x.logged s.db (utcDayStart s.db.now)))
  | .dayLogged x logged => some (held, .daySummed x (logged + x.reserved s.db))
  | .daySummed x daily => some (held, .monthLogged x daily (x.logged s.db (utcMonthStart s.db.now)))
  | .monthLogged x daily logged => some (held, x.check daily (logged + x.reserved s.db))
  | .admitted x =>
    -- a rival that another transaction is changing is waited for
    if x.rivals s.db = [] then some (.openRow x.run.id x.q.stage :: held, .inserted x)
    else if (x.rivals s.db).any fun v => taken (.row v.id) then none
    else some (held, .refused)
  | .inserted x => some (.events x.run.id :: held, .opened x)
  | .exceeded run released => some (.events run.id :: held, .denied run released)
  | .charging c => some (.events c.run.id :: .row c.reservation.id :: held, .charged c)
  | .releasing _ [] _ .done | .opened _ | .denied _ _ | .charged _ | .ended | .refused => none

/-- Rows that are written back as released, whatever their status by then. -/
def SpendStore.release (run : PipelineRun) (rows : List SpendReservation) (s : SpendStore) :
    SpendStore where
  db := releaseEach run rows s.db
  settlements := s.settlements ++
    (rows.filter fun v => (s.db.reservations.get? v.id).any (·.status != .released)).map fun v =>
      ⟨v.id, .release⟩

/-- The row is written back as committed, whatever its status by then, and its log is added. -/
def SpendStore.charge (c : Charge) (s : SpendStore) : SpendStore where
  db := emitForRun EventType.spendCommitted c.run
    { s.db with
      reservations := s.db.reservations.modify c.reservation.id SpendReservation.commit
      spendLogs := s.db.spendLogs.insert
        (newSpendLog c.run c.reservation c.costUsd { s.db with now := c.occurredAt }) }
  settlements := s.settlements ++ [⟨c.reservation.id, .charge s.db.spendLogs.next⟩]

def SpendStore.onDb (f : Db → Db) (s : SpendStore) : SpendStore := { s with db := f s.db }

def SpendPoint.commit : SpendPoint → Option (SpendStore → SpendStore)
  | .releasing run [] released .done => some (SpendStore.release run released)
  | .denied run released => some fun s => (s.release run released).onDb (pauseForSpend run)
  | .opened x =>
    some fun s => (s.release x.run x.released).onDb
      (openReservation x.run x.q.stage x.q.provider x.q.estimatedCostUsd)
  | .charged c => some (SpendStore.charge c)
  | _ => none

/-- The transactions on the ledger, side by side, while time passes. -/
def spendCalls : Code SpendStore SpendLock SpendPoint SpendRequest Nat where
  start := .requested
  next s taken held point := point.next s taken held
  commit := SpendPoint.commit
  needs _ _ := []
  apply elapsed s := s.onDb fun db => { db with now := db.now + elapsed }

end ContentOrchestrator

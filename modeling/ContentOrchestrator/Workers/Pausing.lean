import ContentOrchestrator.Workers.OfflineSweep

/-! # Pausing a workspace's workers

Mission Control sets the drain flag of every worker pinned to the workspace, or takes it
back; an administrator sets it of one worker. Nothing else of a worker changes: what it
holds it goes on with. -/

namespace ContentOrchestrator

open Lib

def WorkerRegistration.setDrain (drain : Bool) : Update WorkerRegistration :=
  ⟨fun w => { w with drain }, fun _ => rfl⟩

def setEachDrain (drain : Bool) (workers : List Nat) (db : Db) : Db :=
  workers.foldl (fun db workerId => modifyWorker workerId (WorkerRegistration.setDrain drain) db) db

/-- The audit event of a quick action. -/
def recordQuickAction (workspaceId : Nat) (db : Db) : Db :=
  emit "operations.action.executed" workspaceId (.workspace workspaceId) none db

/-- The common part of `pause_workers` and `resume_workers`; the answer is the number of workers. -/
def drainWorkers (drain : Bool) (workspaceId : Nat) : Endpoint Nat := do
  let workers := workspaceWorkers (← get).db workspaceId
  onEngine (modify (setEachDrain drain workers))
  onEngine (modify (recordQuickAction workspaceId))
  return workers.length

def pauseWorkers (workspaceId : Nat) : Endpoint Nat := drainWorkers true workspaceId

def resumeWorkers (workspaceId : Nat) : Endpoint Nat := drainWorkers false workspaceId

def setWorkerDrain (workspaceId workerId : Nat) (drain : Bool) : Endpoint Unit := do
  let _ ← getWorkspaceWorker workspaceId workerId
  onEngine (modify (modifyWorker workerId (WorkerRegistration.setDrain drain)))

def DeadLetterJob.isPendingIn (workspaceId : Nat) (l : DeadLetterJob) : Bool :=
  l.workspaceId == workspaceId && l.status == .pending

def DeadLetterJob.discard : Update DeadLetterJob :=
  ⟨fun l => { l with status := .discarded }, fun _ => rfl⟩

def clearDeadLetterQueue (workspaceId : Nat) : Endpoint Nat := do
  let pending := (← get).db.deadLetters.select (·.isPendingIn workspaceId)
  onEngine (modify fun db =>
    { db with
      deadLetters :=
        db.deadLetters.modifyWhere (·.isPendingIn workspaceId) DeadLetterJob.discard })
  onEngine (modify (recordQuickAction workspaceId))
  return pending.length

/-! ## The fleet under Mission Control -/

inductive MissionOp
  | fleet (op : FleetOp)
  | sweep (lockedWorkers lockedAssignments : List Nat)
  | pauseWorkers (workspaceId : Nat)
  | resumeWorkers (workspaceId : Nat)
  | setWorkerDrain (workspaceId workerId : Nat) (drain : Bool)
  | clearDeadLetterQueue (workspaceId : Nat)

def missionStep (f : Fleet) : MissionOp → Fleet
  | .fleet op => fleetStep f op
  | .sweep lockedWorkers lockedAssignments =>
    { f with db := atomically (offlineSweep lockedWorkers lockedAssignments) f.db }
  | .pauseWorkers workspaceId => atomically (pauseWorkers workspaceId) f
  | .resumeWorkers workspaceId => atomically (resumeWorkers workspaceId) f
  | .setWorkerDrain workspaceId workerId drain =>
    atomically (setWorkerDrain workspaceId workerId drain) f
  | .clearDeadLetterQueue workspaceId => atomically (clearDeadLetterQueue workspaceId) f

/-- The environment leaves a drained worker of the workspace listed there, and drained. -/
def Environment.keepsPause (workspaceId : Nat) (db : Db) (e : Environment) : Bool :=
  (db.workers.select fun w => w.workspaceId == some workspaceId && w.drain).all fun w =>
    (e.workers.get? w.id).any fun w' => w'.workspaceId == some workspaceId && w'.drain

/-- Takes no flag of the workspace back. -/
def MissionOp.keepsPause (workspaceId : Nat) (f : Fleet) : MissionOp → Bool
  | .fleet (.engine (.change _ environment)) => environment.all (·.keepsPause workspaceId f.db)
  | .resumeWorkers workspace => workspace != workspaceId
  | .setWorkerDrain workspace _ drain => drain || workspace != workspaceId
  | _ => true

end ContentOrchestrator

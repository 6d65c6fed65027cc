import ContentOrchestrator.Orchestration.Recovery

/-! # The worker endpoints

A worker authenticates with a credential in one session, and its handler runs in a
transaction of its own. Claim, ack, renew and submit check the credential again inside
that transaction; register, heartbeat and deregister do not. A transaction that ends
in an error answer is rolled back. -/

namespace ContentOrchestrator

open Lib

/-! ## Tables -/

inductive WorkerCredentialStatus
  | active | revoked
deriving DecidableEq, Repr

structure WorkerCredential where
  id : Nat
  workerId : Nat
  workspaceId : Nat
  secretHash : String
  status : WorkerCredentialStatus := .active
  expiresAt : Option Nat := none
deriving DecidableEq, Repr

structure ProviderEffectKey where
  id : Nat
  workspaceId : Nat
  assignmentId : Nat
  attemptNumber : Nat
  effectKey : String
deriving DecidableEq, Repr

instance : Keyed WorkerCredential := ⟨(·.id)⟩
instance : Keyed ProviderEffectKey := ⟨(·.id)⟩

/-- The engine's tables and those of the worker endpoints. -/
structure Fleet where
  db : Db
  credentials : Table WorkerCredential := ∅
  effectKeys : Table ProviderEffectKey := ∅

inductive ApiError
  | unauthorized
  | forbidden
  | notFound (detail : String)
  | gone
  | unprocessable (detail : String)
  | lease (status : Nat) (detail : String)
  | internal (error : OrchestrationError)
deriving DecidableEq, Repr

abbrev Endpoint (α : Type) := EStateM ApiError Fleet α

/-- The answer to a lease error, by its code; any other error is an internal one. -/
def leaseHttpError : OrchestrationError → ApiError
  | .leaseNotOwned => .lease 403 "assignment not owned by worker"
  | .leaseConflict code => .lease 409 code
  | error => .internal error

/-- A call into the engine. -/
abbrev onEngine {α : Type} (x : Session α) : Endpoint α :=
  within Fleet.db (fun db f => { f with db }) (adapt leaseHttpError x)

/-- A row that must exist, or an error answer. -/
def orAnswer {α : Type} (row : Option α) (error : ApiError) : Endpoint α :=
  match row with
  | some a => pure a
  | none => throw error

@[simp] theorem returns_orAnswer {α : Type} {row : Option α} {error : ApiError} {f g : Fleet}
    {a : α} :
    Returns (orAnswer row error) f a g ↔ row = some a ∧ f = g := by
  cases row <;> simp [orAnswer]

/-! ## Authentication -/

structure AuthenticatedWorker where
  workerId : Nat
  credentialId : Nat
  workspaceId : Nat
deriving DecidableEq, Repr

/-- The credential is in force. -/
def WorkerCredential.inForce (now : Nat) (c : WorkerCredential) : Bool :=
  c.status == .active && !c.expiresAt.any fun t => decide (t ≤ now)

/-- The bearer of a credential; every failure gets the same answer. -/
def getCurrentWorker (credentialId : Nat) (secretHash : String) : Endpoint AuthenticatedWorker := do
  let f ← get
  let credential ← orAnswer (f.credentials.get? credentialId) .unauthorized
  if credential.secretHash ≠ secretHash then throw .unauthorized
  if !credential.inForce f.db.now then throw .unauthorized
  return ⟨credential.workerId, credential.id, credential.workspaceId⟩

/-- The credential as the handler's own transaction sees it. -/
def assertCredentialStillActive (worker : AuthenticatedWorker) : Endpoint Unit := do
  let f ← get
  let credential ← orAnswer (f.credentials.get? worker.credentialId) .unauthorized
  if !(credential.inForce f.db.now && credential.workerId == worker.workerId) then
    throw .unauthorized

/-! ## Recovery of all a worker holds -/

/-- The worker's assignments in flight, less those the statement passes over: another
transaction has locked them, or the session's row policies hide them. -/
def workerHoldings (db : Db) (workerId : Nat) (passedOver : List Nat) : List Nat :=
  ((db.assignments.select fun a => a.workerId == some workerId && a.status.inFlight).map
    (·.id)).filter
    fun id => !passedOver.contains id

def recoverEach (reason : RecoveryReason) : List Nat → Session Unit
  | [] => pure ()
  | id :: rest => do
    let _ ← recoverAssignment id reason
    recoverEach reason rest

def reapWorkerAssignments (workerId : Nat) (reason : RecoveryReason) (passedOver : List Nat) :
    Session Unit := do
  recoverEach reason (workerHoldings (← get) workerId passedOver)

/-! ## The machine endpoints -/

/-- `settings.worker_capability_protocol_versions` -/
def workerCapabilityProtocolVersions : List Nat := [1]

structure WorkerRegisterIn where
  supportedStages : List String
  maxConcurrency : Nat
  protocolVersion : Nat := 1
deriving DecidableEq, Repr

def WorkerRegistration.announce (payload : WorkerRegisterIn) (now : Nat) :
    Update WorkerRegistration :=
  ⟨fun w =>
    { w with
      supportedStages := payload.supportedStages, maxConcurrency := payload.maxConcurrency
      currentLoad := 0, status := .online, lastHeartbeatAt := some now, deregisteredAt := none },
    fun _ => rfl⟩

def modifyWorker (workerId : Nat) (u : Update WorkerRegistration) (db : Db) : Db :=
  { db with workers := db.workers.modify workerId u }

/-- **Register**: what the worker still holds is requeued, and it is announced online, whatever its
row said. -/
def registerWorker (payload : WorkerRegisterIn) (worker : AuthenticatedWorker) (locked : List Nat) :
    Endpoint Unit := do
  if !workerCapabilityProtocolVersions.contains payload.protocolVersion then
    throw (.unprocessable "unsupported capability protocol_version")
  let _ ← orAnswer ((← get).db.workers.get? worker.workerId) (.notFound "worker not found")
  onEngine (reapWorkerAssignments worker.workerId .workerRestart locked)
  onEngine (modify fun db =>
    modifyWorker worker.workerId (WorkerRegistration.announce payload db.now) db)

structure WorkerHeartbeatIn where
  status : WorkerStatus
  currentLoad : Nat
deriving DecidableEq, Repr

def WorkerRegistration.beat (payload : WorkerHeartbeatIn) (now : Nat) : Update WorkerRegistration :=
  ⟨fun w =>
    { w with
      status := payload.status, currentLoad := payload.currentLoad
      lastHeartbeatAt := some now },
    fun _ => rfl⟩

def workerHeartbeat (payload : WorkerHeartbeatIn) (worker : AuthenticatedWorker) :
    Endpoint Unit := do
  if payload.status = .offline then
    throw (.unprocessable "a heartbeat may report online, busy, or draining — not offline")
  let registration ← orAnswer ((← get).db.workers.get? worker.workerId)
    (.notFound "worker not found")
  if registration.deregisteredAt.isSome then throw .gone
  if registration.maxConcurrency < payload.currentLoad then
    throw (.unprocessable "current_load exceeds max_concurrency")
  onEngine (modify fun db =>
    modifyWorker worker.workerId (WorkerRegistration.beat payload db.now) db)

def WorkerRegistration.deregister (now : Nat) : Update WorkerRegistration :=
  ⟨fun w => { w with status := .offline, currentLoad := 0, deregisteredAt := some now },
    fun _ => rfl⟩

/-- Soft and idempotent. -/
def deregisterWorker (worker : AuthenticatedWorker) (locked : List Nat) : Endpoint Unit := do
  let registration ← orAnswer ((← get).db.workers.get? worker.workerId)
    (.notFound "worker not found")
  if registration.deregisteredAt.isNone then
    onEngine (reapWorkerAssignments worker.workerId .workerDeregistered locked)
    onEngine (modify fun db =>
      modifyWorker worker.workerId (WorkerRegistration.deregister db.now) db)

def claimAssignmentEndpoint (claimToken : Option Nat) (worker : AuthenticatedWorker)
    (locked : List Nat) :
    Endpoint ClaimResult := do
  assertCredentialStillActive worker
  onEngine (claimAssignment worker.workerId claimToken locked)

/-- The registry row of an active worker. -/
def loadRegistration (worker : AuthenticatedWorker) : Endpoint WorkerRegistration := do
  let registration ← orAnswer ((← get).db.workers.get? worker.workerId)
    (.notFound "worker not found")
  if registration.deregisteredAt.isSome then throw .gone
  return registration

/-- Of a global worker the row must be its own, of a pinned one it must be in the workspace of the
credential. -/
def mayAddress (worker : AuthenticatedWorker) (registration : WorkerRegistration)
    (a : StageAssignment) :
    Bool :=
  if registration.workspaceId.isNone then a.workerId == some worker.workerId
  else a.workspaceId == worker.workspaceId

def loadOwnedAssignment (assignmentId : Nat) (worker : AuthenticatedWorker)
    (registration : WorkerRegistration) : Endpoint StageAssignment := do
  let a ← orAnswer ((← get).db.assignments.get? assignmentId) (.notFound "assignment not found")
  if !mayAddress worker registration a then throw (.notFound "assignment not found")
  return a

structure EffectKeyResult where
  effectKey : String
  created : Bool
deriving DecidableEq, Repr

/-- One key for all attempts of an assignment. -/
def defaultEffectKey (assignmentId : Nat) : String := toString assignmentId

/-- `effect_key or default_effect_key(...)` -/
def effectKeyOf (assignmentId : Nat) (effectKey : Option String) : String :=
  match effectKey with
  | some key => if key.isEmpty then defaultEffectKey assignmentId else key
  | none => defaultEffectKey assignmentId

/-- `uq_provider_effect_keys_ws_key` -/
def hasEffectKey (f : Fleet) (workspaceId : Nat) (key : String) : Bool :=
  (f.effectKeys.select fun k => k.workspaceId == workspaceId && k.effectKey == key).isEmpty = false

def insertEffectKey (workspaceId assignmentId attemptNumber : Nat) (key : String) (f : Fleet) :
    Fleet :=
  { f with
    effectKeys := f.effectKeys.insert ⟨fun id =>
      { id, workspaceId, assignmentId, attemptNumber, effectKey := key }, fun _ => rfl⟩ }

/-- Record the effect key; on a conflict only the savepoint of the insert is rolled back. -/
def ensureProviderEffectKey (workspaceId assignmentId attemptNumber : Nat)
    (effectKey : Option String) :
    Endpoint EffectKeyResult := do
  let key := effectKeyOf assignmentId effectKey
  if hasEffectKey (← get) workspaceId key then return ⟨key, false⟩
  else
    modify (insertEffectKey workspaceId assignmentId attemptNumber key)
    return ⟨key, true⟩

structure LeaseOut where
  assignmentId : Nat
  attemptNumber : Nat
  /-- Only an acknowledgement reports it. -/
  providerEffectCreated : Option Bool := none
deriving DecidableEq, Repr

def ackAssignment (assignmentId : Nat) (worker : AuthenticatedWorker) : Endpoint LeaseOut := do
  assertCredentialStillActive worker
  let registration ← loadRegistration worker
  let a ← loadOwnedAssignment assignmentId worker registration
  onEngine (acknowledge assignmentId none (some worker.workerId))
  let effect ← ensureProviderEffectKey a.workspaceId a.id a.attemptNumber none
  return ⟨a.id, a.attemptNumber, some effect.created⟩

def renewAssignmentLease (assignmentId : Nat) (worker : AuthenticatedWorker) :
    Endpoint LeaseOut := do
  assertCredentialStillActive worker
  let registration ← loadRegistration worker
  let a ← loadOwnedAssignment assignmentId worker registration
  onEngine (renewLease assignmentId none (some worker.workerId))
  return { assignmentId := a.id, attemptNumber := a.attemptNumber }

structure SubmitIn where
  success : Bool
  result : Option (List (String × Json)) := none
  errorMessage : String := ""
  providerEffectKey : Option String := none

structure SubmitOut where
  assignmentId : Nat
  status : StageAssignmentStatus
  providerEffectKey : String
  providerEffectCreated : Bool
deriving DecidableEq, Repr

/-- A result is on record, or the attempts are used up. -/
def StageAssignmentStatus.isSettled : StageAssignmentStatus → Bool
  | completed | failed => true
  | _ => false

/-- **Submit a result.** A known effect key with a settled row is a replay, answered from the
row. -/
def submitAssignmentResult (assignmentId : Nat) (payload : SubmitIn) (worker : AuthenticatedWorker)
    (jitter : Nat) : Endpoint SubmitOut := do
  assertCredentialStillActive worker
  let registration ← loadRegistration worker
  let a ← loadOwnedAssignment assignmentId worker registration
  let effect ← ensureProviderEffectKey a.workspaceId a.id a.attemptNumber payload.providerEffectKey
  if !effect.created && a.status.isSettled then
    return ⟨a.id, a.status, effect.effectKey, false⟩
  else
    onEngine (submitResult assignmentId payload.success payload.result payload.errorMessage
      (some worker.workerId) jitter)
    return ⟨a.id, if payload.success then .completed else .failed, effect.effectKey, effect.created⟩

/-! ## The administrator's operations -/

def WorkerCredential.revoke : Update WorkerCredential :=
  ⟨fun c => { c with status := .revoked }, fun _ => rfl⟩

/-- The old credential keeps working for the grace period at most. -/
def WorkerCredential.retireBy (graceUntil : Nat) : Update WorkerCredential :=
  ⟨fun c =>
    { c with expiresAt := if c.expiresAt.all fun t => decide (graceUntil < t) then some graceUntil
                          else c.expiresAt }, fun _ => rfl⟩

def WorkerCredential.isActiveOf (workerId : Nat) (c : WorkerCredential) : Bool :=
  c.workerId == workerId && c.status == .active

def newCredential (workerId workspaceId : Nat) (secretHash : String) : NewRow WorkerCredential :=
  ⟨fun id => { id, workerId, workspaceId, secretHash }, fun _ => rfl⟩

/-- A worker of the workspace, offline until it registers, with its first credential. -/
def provisionWorker (workspaceId : Nat) (supportedStages : List String) (maxConcurrency : Nat)
    (secretHash : String) (f : Fleet) : Fleet :=
  { f with
    db := { f.db with
      workers := f.db.workers.insert ⟨fun id =>
        { id, workspaceId := some workspaceId, supportedStages, maxConcurrency }, fun _ => rfl⟩ }
    credentials := f.credentials.insert (newCredential f.db.workers.next workspaceId secretHash) }

/-- The route's 404 check. -/
def getWorkspaceWorker (workspaceId workerId : Nat) : Endpoint WorkerRegistration := do
  let registration ← orAnswer ((← get).db.workers.get? workerId) (.notFound "worker not found")
  if registration.workspaceId ≠ some workspaceId then throw (.notFound "worker not found")
  return registration

/-- `settings.worker_credential_rotation_grace_seconds` -/
def workerCredentialRotationGraceSeconds : Nat := 3600

def rotateWorkerCredential (workspaceId workerId : Nat) (secretHash : String) : Endpoint Unit := do
  let _ ← getWorkspaceWorker workspaceId workerId
  modify fun f =>
    { f with
      credentials := (f.credentials.modifyWhere (·.isActiveOf workerId)
        (WorkerCredential.retireBy
          (f.db.now + seconds workerCredentialRotationGraceSeconds))).insert
          (newCredential workerId workspaceId secretHash) }

def WorkerRegistration.forceOffline : Update WorkerRegistration :=
  ⟨fun w => if w.deregisteredAt.isNone then { w with status := .offline, currentLoad := 0 } else w,
    fun w => by split <;> rfl⟩

/-- **Revoke all credentials of a worker** and take back what it holds. -/
def revokeWorkerCredentials (workspaceId workerId : Nat) (locked : List Nat) : Endpoint Unit := do
  let _ ← getWorkspaceWorker workspaceId workerId
  modify fun f =>
    { f with
      credentials := f.credentials.modifyWhere (·.isActiveOf workerId) WorkerCredential.revoke }
  onEngine (reapWorkerAssignments workerId .workerRevoked locked)
  onEngine (modify (modifyWorker workerId WorkerRegistration.forceOffline))

/-- The workers pinned to the workspace and not deregistered. -/
def workspaceWorkers (db : Db) (workspaceId : Nat) : List Nat :=
  (db.workers.select fun w => w.deregisteredAt.isNone && w.workspaceId == some workspaceId).map
    (·.id)

def WorkerRegistration.stop : Update WorkerRegistration :=
  ⟨fun w => { w with status := .offline, currentLoad := 0, drain := true }, fun _ => rfl⟩

/-- A session under the row policies: the workspaces its user administers, and the
assignments others have locked. -/
structure AdminSession where
  administered : List Nat
  locked : List Nat := []
deriving DecidableEq, Repr

/-- Of the assignments it may update those of the workspaces it administers. -/
def AdminSession.hidden (actor : AdminSession) (db : Db) : List Nat :=
  (db.assignments.select fun a => !actor.administered.contains a.workspaceId).map (·.id)

def AdminSession.passedOver (actor : AdminSession) (db : Db) : List Nat :=
  actor.locked ++ actor.hidden db

def stopWorker (workspaceId workerId : Nat) (actor : AdminSession) : Endpoint Unit := do
  modify fun f =>
    { f with
      credentials := f.credentials.modifyWhere
        (fun c => c.isActiveOf workerId && c.workspaceId == workspaceId) WorkerCredential.revoke }
  onEngine (reapWorkerAssignments workerId .workerRevoked (actor.passedOver (← get).db))
  onEngine (modify (modifyWorker workerId WorkerRegistration.stop))

def stopEach (workspaceId : Nat) (actor : AdminSession) : List Nat → Endpoint Unit
  | [] => pure ()
  | workerId :: rest => do
    stopWorker workspaceId workerId actor
    stopEach workspaceId actor rest

/-- **Emergency stop** of the workers of a workspace, by one of its administrators. -/
def emergencyStop (workspaceId : Nat) (actor : AdminSession) : Endpoint Unit := do
  unless actor.administered.contains workspaceId do throw .forbidden
  stopEach workspaceId actor (workspaceWorkers (← get).db workspaceId)
  onEngine (modify (emit "operations.action.executed" workspaceId (.workspace workspaceId) none))

end ContentOrchestrator

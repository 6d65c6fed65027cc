import ContentOrchestrator.Orchestration.AssignmentMoves
import ContentOrchestrator.Workers.Endpoints

/-! # The worker endpoints and the engine as one system

Every request is one transaction, and so is every administrator's operation; between
them the engine runs its own. `FleetEffect` says what a committed transaction did. -/

namespace ContentOrchestrator

open Lib

inductive FleetOp
  | engine (op : Op)
  | register (payload : WorkerRegisterIn) (worker : AuthenticatedWorker) (locked : List Nat)
  | heartbeat (payload : WorkerHeartbeatIn) (worker : AuthenticatedWorker)
  | deregister (worker : AuthenticatedWorker) (locked : List Nat)
  | claim (claimToken : Option Nat) (worker : AuthenticatedWorker) (locked : List Nat)
  | ack (assignmentId : Nat) (worker : AuthenticatedWorker)
  | renew (assignmentId : Nat) (worker : AuthenticatedWorker)
  | submit (assignmentId : Nat) (payload : SubmitIn) (worker : AuthenticatedWorker) (jitter : Nat)
  | provision (workspaceId : Nat) (supportedStages : List String) (maxConcurrency : Nat)
      (secretHash : String)
  | rotate (workspaceId workerId : Nat) (secretHash : String)
  | revoke (workspaceId workerId : Nat) (locked : List Nat)
  | emergencyStop (workspaceId : Nat) (actor : AdminSession)

/-- Only the endpoints call these. -/
def Op.isWorkerCall : Op → Bool
  | .claim _ _ _ | .ack _ _ _ | .renew _ _ _ | .submit _ _ _ _ _ _ => true
  | _ => false

/-- The engine acts on its own, or a request comes in. -/
def FleetOp.isServed : FleetOp → Bool
  | engine op => !op.isWorkerCall
  | _ => true

/-- The transaction body of an operation; a submission has an answer of interest. -/
def FleetOp.body : FleetOp → Endpoint (Option SubmitOut)
  | engine op => do
    onEngine op.body
    return none
  | register payload worker locked => do
    registerWorker payload worker locked
    return none
  | heartbeat payload worker => do
    workerHeartbeat payload worker
    return none
  | deregister worker locked => do
    deregisterWorker worker locked
    return none
  | claim claimToken worker locked => do
    let _ ← claimAssignmentEndpoint claimToken worker locked
    return none
  | ack assignmentId worker => do
    let _ ← ackAssignment assignmentId worker
    return none
  | renew assignmentId worker => do
    let _ ← renewAssignmentLease assignmentId worker
    return none
  | submit assignmentId payload worker jitter => do
    return some (← submitAssignmentResult assignmentId payload worker jitter)
  | provision workspaceId supportedStages maxConcurrency secretHash => do
    modify (provisionWorker workspaceId supportedStages maxConcurrency secretHash)
    return none
  | rotate workspaceId workerId secretHash => do
    rotateWorkerCredential workspaceId workerId secretHash
    return none
  | revoke workspaceId workerId locked => do
    revokeWorkerCredentials workspaceId workerId locked
    return none
  | emergencyStop workspaceId actor => do
    ContentOrchestrator.emergencyStop workspaceId actor
    return none

/-- **One transaction.** -/
def fleetStep (f : Fleet) (op : FleetOp) : Fleet := atomically op.body f

/-- The success answer of a submission; `none` for an error answer. -/
def fleetAnswer (f : Fleet) (op : FleetOp) : Option SubmitOut :=
  match op.body.run f with
  | .ok answer _ => answer
  | .error _ _ => none

/-! ## Recovery of several assignments -/

/-- The assignments are recovered one after the other. -/
inductive Reaped (reason : RecoveryReason) : List Nat → Db → Db → Prop
  | done {s : Db} : Reaped reason [] s s
  | next {id : Nat} {rest : List Nat} {a : StageAssignment} {s t u : Db}
      (found : s.assignments.get? id = some a) (recovered : Recovered a reason s t)
      (taken : step s (.recover id reason) = t) (later : Reaped reason rest t u) :
      Reaped reason (id :: rest) s u

theorem recoverEach_returns {reason : RecoveryReason} :
    ∀ {ids : List Nat} {s t : Db} {v : Unit}, Returns (recoverEach reason ids) s v t →
      Reaped reason ids s t
  | [], s, t, v, h => by
    simp only [recoverEach, returns_pure] at h
    rw [← h.2]
    exact .done
  | id :: rest, s, t, v, h => by
    simp only [recoverEach, returns_bind] at h
    obtain ⟨kind, m, hone, hrest⟩ := h
    obtain ⟨a, hfound, hdone⟩ := recoverAssignment_returns hone
    have htaken : step s (.recover id reason) = m := by
      have hbody : Returns (Op.recover id reason).body s () m := by
        simp only [Op.body, returns_bind, returns_pure]
        exact ⟨kind, m, hone, trivial, rfl⟩
      exact hbody.atomically
    exact .next hfound hdone htaken (recoverEach_returns hrest)

theorem reapWorkerAssignments_returns {workerId : Nat} {reason : RecoveryReason} {locked : List Nat}
    {s t : Db} {v : Unit} (h : Returns (reapWorkerAssignments workerId reason locked) s v t) :
    Reaped reason (workerHoldings s workerId locked) s t := by
  simp only [reapWorkerAssignments, returns_bind, returns_get] at h
  obtain ⟨_, _, ⟨rfl, rfl⟩, h⟩ := h
  exact recoverEach_returns h

/-! ## What the checks establish -/

/-- The credential is in force for its worker. -/
structure Credentialed (f : Fleet) (worker : AuthenticatedWorker) : Prop where
  inForce : ∃ c, f.credentials.get? worker.credentialId = some c ∧ c.inForce f.db.now = true ∧
    c.workerId = worker.workerId

theorem assertCredentialStillActive_returns {worker : AuthenticatedWorker} {f g : Fleet} {v : Unit}
    (h : Returns (assertCredentialStillActive worker) f v g) : Credentialed f worker ∧ f = g := by
  simp only [assertCredentialStillActive, returns_bind, returns_get, returns_orAnswer] at h
  obtain ⟨_, _, ⟨rfl, rfl⟩, c, _, ⟨hfound, rfl⟩, h⟩ := h
  split at h
  · simp at h
  · rename_i hok
    simp only [returns_pure] at h
    have hboth : c.inForce f.db.now = true ∧ c.workerId = worker.workerId := by simpa using hok
    exact ⟨⟨c, hfound, hboth⟩, h.2⟩

theorem loadRegistration_returns {worker : AuthenticatedWorker} {f g : Fleet}
    {w : WorkerRegistration} (h : Returns (loadRegistration worker) f w g) :
    f.db.workers.get? worker.workerId = some w ∧ w.deregisteredAt = none ∧ f = g := by
  simp only [loadRegistration, returns_bind, returns_get, returns_orAnswer] at h
  obtain ⟨_, _, ⟨rfl, rfl⟩, row, _, ⟨hfound, rfl⟩, h⟩ := h
  split at h
  · simp at h
  · rename_i hactive
    simp only [returns_pure] at h
    obtain ⟨rfl, rfl⟩ := h
    exact ⟨hfound, by simpa using hactive, rfl⟩

theorem loadOwnedAssignment_returns {assignmentId : Nat} {worker : AuthenticatedWorker}
    {registration : WorkerRegistration} {f g : Fleet} {a : StageAssignment}
    (h : Returns (loadOwnedAssignment assignmentId worker registration) f a g) :
    f.db.assignments.get? assignmentId = some a ∧ mayAddress worker registration a = true ∧
      f = g := by
  simp only [loadOwnedAssignment, returns_bind, returns_get, returns_orAnswer] at h
  obtain ⟨_, _, ⟨rfl, rfl⟩, row, _, ⟨hfound, rfl⟩, h⟩ := h
  split at h
  · simp at h
  · rename_i haddress
    simp only [returns_pure] at h
    obtain ⟨rfl, rfl⟩ := h
    exact ⟨hfound, by simpa using haddress, rfl⟩

/-- The request passes the checks and addresses this row. -/
structure Addressed (f : Fleet) (worker : AuthenticatedWorker) (assignmentId : Nat)
    (a : StageAssignment) :
    Prop where
  credentialed : Credentialed f worker
  found : f.db.assignments.get? assignmentId = some a
  addresses : ∃ w, f.db.workers.get? worker.workerId = some w ∧ w.deregisteredAt = none ∧
    mayAddress worker w a = true

theorem ensureProviderEffectKey_returns {workspaceId assignmentId attemptNumber : Nat}
    {effectKey : Option String} {f g : Fleet} {r : EffectKeyResult}
    (h : Returns (ensureProviderEffectKey workspaceId assignmentId attemptNumber effectKey) f r g) :
    r.effectKey = effectKeyOf assignmentId effectKey ∧
      r.created = !hasEffectKey f workspaceId (effectKeyOf assignmentId effectKey) ∧
        g = (if r.created then
          insertEffectKey workspaceId assignmentId attemptNumber
            (effectKeyOf assignmentId effectKey) f
        else f) := by
  simp only [ensureProviderEffectKey, returns_bind, returns_get] at h
  obtain ⟨_, _, ⟨rfl, rfl⟩, h⟩ := h
  split at h
  · rename_i hknown
    simp only [returns_pure] at h
    obtain ⟨rfl, rfl⟩ := h
    simp [hknown]
  · rename_i hfresh
    simp only [returns_bind, returns_modify, returns_pure] at h
    obtain ⟨_, _, rfl, rfl, rfl⟩ := h
    simp [hfresh]

/-! ## Effects -/

/-- The submission is a replay: its key is known and the row is settled. -/
def isReplay (f : Fleet) (a : StageAssignment) (payload : SubmitIn) : Bool :=
  hasEffectKey f a.workspaceId (effectKeyOf a.id payload.providerEffectKey) && a.status.isSettled

/-- The engine operation a submission stands for. -/
abbrev SubmitIn.op (payload : SubmitIn) (assignmentId workerId jitter : Nat) : Op :=
  .submit assignmentId payload.success payload.result payload.errorMessage (some workerId) jitter

/-- What a committed transaction did. -/
inductive FleetEffect : FleetOp → Fleet → Option SubmitOut → Fleet → Prop
  | engine {op : Op} {f : Fleet} : FleetEffect (.engine op) f none { f with db := step f.db op }
  | registered {payload : WorkerRegisterIn} {worker : AuthenticatedWorker} {locked : List Nat}
      {f : Fleet}
      {t : Db} {w : WorkerRegistration}
      (reaped : Reaped .workerRestart (workerHoldings f.db worker.workerId locked) f.db t)
      (spoken : workerCapabilityProtocolVersions.contains payload.protocolVersion = true)
      (found : f.db.workers.get? worker.workerId = some w) :
      FleetEffect (.register payload worker locked) f none
        { f with db := modifyWorker worker.workerId (WorkerRegistration.announce payload t.now) t }
  | beat {payload : WorkerHeartbeatIn} {worker : AuthenticatedWorker} {f : Fleet}
      {w : WorkerRegistration}
      (found : f.db.workers.get? worker.workerId = some w) (listed : w.deregisteredAt = none)
      (online : payload.status ≠ .offline) (fits : payload.currentLoad ≤ w.maxConcurrency) :
      FleetEffect (.heartbeat payload worker) f none
        { f with
          db := modifyWorker worker.workerId (WorkerRegistration.beat payload f.db.now) f.db }
  | deregistered {worker : AuthenticatedWorker} {locked : List Nat} {f : Fleet} {t : Db}
      {w : WorkerRegistration} (found : f.db.workers.get? worker.workerId = some w)
      (listed : w.deregisteredAt = none)
      (reaped : Reaped .workerDeregistered (workerHoldings f.db worker.workerId locked) f.db t) :
      FleetEffect (.deregister worker locked) f none
        { f with db := modifyWorker worker.workerId (WorkerRegistration.deregister t.now) t }
  | already {worker : AuthenticatedWorker} {locked : List Nat} {f : Fleet} :
      FleetEffect (.deregister worker locked) f none f
  | claimed {claimToken : Option Nat} {worker : AuthenticatedWorker} {locked : List Nat} {f : Fleet}
      (active : Credentialed f worker) :
      FleetEffect (.claim claimToken worker locked) f none
        { f with db := step f.db (.claim worker.workerId claimToken locked) }
  | acknowledged {assignmentId : Nat} {worker : AuthenticatedWorker} {f : Fleet}
      {a : StageAssignment}
      {keys : Table ProviderEffectKey} (addressed : Addressed f worker assignmentId a) :
      FleetEffect (.ack assignmentId worker) f none
        { f with db := step f.db (.ack assignmentId none worker.workerId), effectKeys := keys }
  | renewed {assignmentId : Nat} {worker : AuthenticatedWorker} {f : Fleet} {a : StageAssignment}
      (addressed : Addressed f worker assignmentId a) :
      FleetEffect (.renew assignmentId worker) f none
        { f with db := step f.db (.renew assignmentId none worker.workerId) }
  | replayed {assignmentId jitter : Nat} {payload : SubmitIn} {worker : AuthenticatedWorker}
      {f : Fleet}
      {a : StageAssignment} (addressed : Addressed f worker assignmentId a)
      (replay : isReplay f a payload = true) :
      FleetEffect (.submit assignmentId payload worker jitter) f
        (some ⟨a.id, a.status, effectKeyOf a.id payload.providerEffectKey, false⟩) f
  | submitted {assignmentId jitter : Nat} {payload : SubmitIn} {worker : AuthenticatedWorker}
      {f : Fleet}
      {a : StageAssignment} {t : Db} {keys : Table ProviderEffectKey} {created : Bool}
      (addressed : Addressed f worker assignmentId a) (fresh : isReplay f a payload = false)
      (admitted : assertSubmittable f.db a (some worker.workerId) = .ok ())
      (done : Submitted a payload.result payload.errorMessage f.db payload.success t)
      (taken : step f.db (payload.op assignmentId worker.workerId jitter) = t) :
      FleetEffect (.submit assignmentId payload worker jitter) f
        (some ⟨a.id, if payload.success then .completed else .failed,
          effectKeyOf a.id payload.providerEffectKey, created⟩)
        { f with db := t, effectKeys := keys }
  | provisioned {workspaceId maxConcurrency : Nat} {supportedStages : List String}
      {secretHash : String}
      {f : Fleet} :
      FleetEffect (.provision workspaceId supportedStages maxConcurrency secretHash) f none
        (provisionWorker workspaceId supportedStages maxConcurrency secretHash f)
  | rotated {workspaceId workerId : Nat} {secretHash : String} {f : Fleet} {w : WorkerRegistration}
      (found : f.db.workers.get? workerId = some w) (pinned : w.workspaceId = some workspaceId) :
      FleetEffect (.rotate workspaceId workerId secretHash) f none
        { f with
          credentials := (f.credentials.modifyWhere (·.isActiveOf workerId)
            (WorkerCredential.retireBy
              (f.db.now + seconds workerCredentialRotationGraceSeconds))).insert
              (newCredential workerId workspaceId secretHash) }
  | revoked {workspaceId workerId : Nat} {locked : List Nat} {f : Fleet} {t : Db}
      {w : WorkerRegistration}
      (found : f.db.workers.get? workerId = some w) (pinned : w.workspaceId = some workspaceId)
      (reaped : Reaped .workerRevoked (workerHoldings f.db workerId locked) f.db t) :
      FleetEffect (.revoke workspaceId workerId locked) f none
        { f with
          db := modifyWorker workerId WorkerRegistration.forceOffline t
          credentials := f.credentials.modifyWhere (·.isActiveOf workerId) WorkerCredential.revoke }
  | stopped {workspaceId : Nat} {actor : AdminSession} {f g : Fleet}
      (each : Returns (stopEach workspaceId actor (workspaceWorkers f.db workspaceId)) f () g) :
      FleetEffect (.emergencyStop workspaceId actor) f none
        { g with
          db := emit "operations.action.executed" workspaceId (.workspace workspaceId) none g.db }

theorem returns_onEngine {α : Type} {x : Session α} {f g : Fleet} {a : α} :
    Returns (onEngine x) f a g ↔ ∃ t, Returns x f.db a t ∧ { f with db := t } = g := by
  rw [returns_within]
  simp only [returns_adapt]

/-- A committed engine call is a step of the engine. -/
theorem step_of_returns {op : Op} {s t : Db} {v : Unit} (h : Returns op.body s v t) :
    step s op = t :=
  h.atomically

theorem registerWorker_returns {payload : WorkerRegisterIn} {worker : AuthenticatedWorker}
    {locked : List Nat} {f g : Fleet} {v : Unit}
    (h : Returns (registerWorker payload worker locked) f v g) :
    FleetEffect (.register payload worker locked) f none g := by
  unfold registerWorker at h
  split at h
  · simp at h
  rename_i hspoken
  simp only [returns_bind, returns_get, returns_orAnswer, returns_onEngine, returns_modify] at h
  obtain ⟨_, _, ⟨rfl, rfl⟩, w, _, ⟨hfound, rfl⟩, _, _, ⟨t, hreap, rfl⟩, t', rfl, rfl⟩ := h
  exact .registered (reapWorkerAssignments_returns hreap) (by simpa using hspoken) hfound

theorem workerHeartbeat_returns {payload : WorkerHeartbeatIn} {worker : AuthenticatedWorker}
    {f g : Fleet} {v : Unit} (h : Returns (workerHeartbeat payload worker) f v g) :
    FleetEffect (.heartbeat payload worker) f none g := by
  unfold workerHeartbeat at h
  split at h
  · simp at h
  rename_i honline
  simp only [returns_bind, returns_get, returns_orAnswer] at h
  obtain ⟨_, _, ⟨rfl, rfl⟩, w, _, ⟨hfound, rfl⟩, h⟩ := h
  split at h
  · simp at h
  rename_i hlisted
  split at h
  · simp at h
  rename_i hfits
  simp only [returns_onEngine, returns_modify] at h
  obtain ⟨_, rfl, rfl⟩ := h
  exact .beat hfound (by simpa using hlisted) honline (Nat.le_of_not_lt hfits)

theorem deregisterWorker_returns {worker : AuthenticatedWorker} {locked : List Nat} {f g : Fleet}
    {v : Unit} (h : Returns (deregisterWorker worker locked) f v g) :
    FleetEffect (.deregister worker locked) f none g := by
  simp only [deregisterWorker, returns_bind, returns_get, returns_orAnswer] at h
  obtain ⟨_, _, ⟨rfl, rfl⟩, w, _, ⟨hfound, rfl⟩, h⟩ := h
  split at h
  · rename_i hlisted
    simp only [returns_bind, returns_onEngine, returns_modify] at h
    obtain ⟨_, _, ⟨t, hreap, rfl⟩, _, rfl, rfl⟩ := h
    exact .deregistered hfound (by simpa using hlisted) (reapWorkerAssignments_returns hreap)
  · simp only [returns_pure] at h
    rw [← h.2]
    exact .already

theorem claimAssignmentEndpoint_returns {claimToken : Option Nat} {worker : AuthenticatedWorker}
    {locked : List Nat} {f g : Fleet} {r : ClaimResult}
    (h : Returns (claimAssignmentEndpoint claimToken worker locked) f r g) :
    FleetEffect (.claim claimToken worker locked) f none g := by
  simp only [claimAssignmentEndpoint, returns_bind, returns_onEngine] at h
  obtain ⟨_, _, hcheck, t, hclaim, rfl⟩ := h
  obtain ⟨hactive, rfl⟩ := assertCredentialStillActive_returns hcheck
  have hbody : Returns (Op.claim worker.workerId claimToken locked).body f.db () t := by
    simp only [Op.body, returns_bind, returns_pure]
    exact ⟨r, t, hclaim, trivial, rfl⟩
  rw [← step_of_returns hbody]
  exact .claimed hactive

/-- The checks at the start of every request about an assignment. -/
theorem addressed_of_returns {assignmentId : Nat} {worker : AuthenticatedWorker} {f g h i : Fleet}
    {v : Unit} {w : WorkerRegistration} {a : StageAssignment}
    (hcheck : Returns (assertCredentialStillActive worker) f v g)
    (hloaded : Returns (loadRegistration worker) g w h)
    (howned : Returns (loadOwnedAssignment assignmentId worker w) h a i) :
    Addressed f worker assignmentId a ∧ f = i := by
  obtain ⟨hactive, rfl⟩ := assertCredentialStillActive_returns hcheck
  obtain ⟨hworker, hlisted, rfl⟩ := loadRegistration_returns hloaded
  obtain ⟨hfound, haddress, rfl⟩ := loadOwnedAssignment_returns howned
  exact ⟨⟨hactive, hfound, w, hworker, hlisted, haddress⟩, rfl⟩

theorem ackAssignment_returns {assignmentId : Nat} {worker : AuthenticatedWorker} {f g : Fleet}
    {r : LeaseOut} (h : Returns (ackAssignment assignmentId worker) f r g) :
    FleetEffect (.ack assignmentId worker) f none g := by
  simp only [ackAssignment, returns_bind, returns_onEngine, returns_pure] at h
  obtain ⟨_, _, hactive, w, _, hloaded, a, _, howned, _, _, ⟨t, hack, rfl⟩, effect, _, heffect, _,
    rfl⟩ := h
  obtain ⟨haddressed, rfl⟩ := addressed_of_returns hactive hloaded howned
  obtain ⟨_, _, rfl⟩ := ensureProviderEffectKey_returns heffect
  have htaken : step f.db (.ack assignmentId none worker.workerId) = t := step_of_returns hack
  rw [← htaken]
  split
  · exact .acknowledged haddressed
  · exact .acknowledged haddressed

theorem renewAssignmentLease_returns {assignmentId : Nat} {worker : AuthenticatedWorker}
    {f g : Fleet} {r : LeaseOut} (h : Returns (renewAssignmentLease assignmentId worker) f r g) :
    FleetEffect (.renew assignmentId worker) f none g := by
  simp only [renewAssignmentLease, returns_bind, returns_onEngine, returns_pure] at h
  obtain ⟨_, _, hactive, w, _, hloaded, a, _, howned, _, _, ⟨t, hrenew, rfl⟩, _, rfl⟩ := h
  obtain ⟨haddressed, rfl⟩ := addressed_of_returns hactive hloaded howned
  have htaken : step f.db (.renew assignmentId none worker.workerId) = t := step_of_returns hrenew
  rw [← htaken]
  exact .renewed haddressed

theorem submitAssignmentResult_returns {assignmentId jitter : Nat} {payload : SubmitIn}
    {worker : AuthenticatedWorker} {f g : Fleet} {out : SubmitOut}
    (h : Returns (submitAssignmentResult assignmentId payload worker jitter) f out g) :
    FleetEffect (.submit assignmentId payload worker jitter) f (some out) g := by
  simp only [submitAssignmentResult, returns_bind] at h
  obtain ⟨_, _, hactive, w, _, hloaded, a, _, howned, effect, f', heffect, h⟩ := h
  obtain ⟨haddressed, rfl⟩ := addressed_of_returns hactive hloaded howned
  obtain ⟨hkey, hcreated, rfl⟩ := ensureProviderEffectKey_returns heffect
  split at h
  · rename_i hreplay
    obtain ⟨hold, hsettled⟩ := Bool.and_eq_true_iff.mp hreplay
    have hknown : effect.created = false := by simpa using hold
    simp only [returns_pure] at h
    obtain ⟨rfl, rfl⟩ := h
    rw [hknown, hkey]
    refine .replayed haddressed ?_
    rw [hknown] at hcreated
    simp only [isReplay, hsettled, Bool.and_true]
    simpa using hcreated.symm
  · rename_i hfresh
    simp only [returns_bind, returns_onEngine, returns_pure] at h
    obtain ⟨_, _, ⟨t, hsubmit, rfl⟩, rfl, rfl⟩ := h
    have hnew : isReplay f a payload = false := by
      rw [hcreated] at hfresh
      simpa [isReplay] using hfresh
    have hdb : ∀ k : Bool, (if k then insertEffectKey a.workspaceId a.id a.attemptNumber
        (effectKeyOf a.id payload.providerEffectKey) f else f).db = f.db := by
      intro k
      cases k <;> rfl
    rw [hdb] at hsubmit
    have htaken : step f.db (payload.op assignmentId worker.workerId jitter) = t :=
      step_of_returns hsubmit
    obtain ⟨a', hfound, _, hadmitted, hdone⟩ := submitResult_returns hsubmit
    have hsame : a' = a := Option.some.inj (hfound.symm.trans haddressed.found)
    rw [hsame] at hadmitted hdone
    rw [hkey]
    rcases Bool.eq_false_or_eq_true effect.created with hc | hc
    · rw [if_pos hc]
      exact .submitted haddressed hnew hadmitted hdone htaken
    · simp only [hc, Bool.false_eq_true, if_false]
      exact .submitted haddressed hnew hadmitted hdone htaken

theorem getWorkspaceWorker_returns {workspaceId workerId : Nat} {f g : Fleet}
    {w : WorkerRegistration} (h : Returns (getWorkspaceWorker workspaceId workerId) f w g) :
    f.db.workers.get? workerId = some w ∧ w.workspaceId = some workspaceId ∧ f = g := by
  simp only [getWorkspaceWorker, returns_bind, returns_get, returns_orAnswer] at h
  obtain ⟨_, _, ⟨rfl, rfl⟩, row, _, ⟨hfound, rfl⟩, h⟩ := h
  split at h
  · simp at h
  · rename_i hpinned
    simp only [returns_pure] at h
    obtain ⟨rfl, rfl⟩ := h
    exact ⟨hfound, by simpa using hpinned, rfl⟩

theorem rotateWorkerCredential_returns {workspaceId workerId : Nat} {secretHash : String}
    {f g : Fleet} {v : Unit}
    (h : Returns (rotateWorkerCredential workspaceId workerId secretHash) f v g) :
    FleetEffect (.rotate workspaceId workerId secretHash) f none g := by
  simp only [rotateWorkerCredential, returns_bind, returns_modify] at h
  obtain ⟨w, _, hworker, rfl⟩ := h
  obtain ⟨hfound, hpinned, rfl⟩ := getWorkspaceWorker_returns hworker
  exact .rotated hfound hpinned

theorem revokeWorkerCredentials_returns {workspaceId workerId : Nat} {locked : List Nat}
    {f g : Fleet} {v : Unit}
    (h : Returns (revokeWorkerCredentials workspaceId workerId locked) f v g) :
    FleetEffect (.revoke workspaceId workerId locked) f none g := by
  simp only [revokeWorkerCredentials, returns_bind, returns_modify, returns_onEngine] at h
  obtain ⟨w, _, hworker, _, _, rfl, _, _, ⟨t, hreap, rfl⟩, _, rfl, rfl⟩ := h
  obtain ⟨hfound, hpinned, rfl⟩ := getWorkspaceWorker_returns hworker
  exact .revoked hfound hpinned (reapWorkerAssignments_returns hreap)

theorem emergencyStop_returns {workspaceId : Nat} {actor : AdminSession} {f g : Fleet} {v : Unit}
    (h : Returns (emergencyStop workspaceId actor) f v g) :
    FleetEffect (.emergencyStop workspaceId actor) f none g := by
  unfold emergencyStop at h
  by_cases hadmin : workspaceId ∈ actor.administered
  · simp only [List.contains_iff_mem, hadmin, if_true, returns_bind, returns_get,
      returns_modify, returns_onEngine] at h
    obtain ⟨_, _, ⟨rfl, rfl⟩, _, m, hstop, _, rfl, rfl⟩ := h
    exact .stopped hstop
  · simp [hadmin] at h

theorem returns_then_none {α : Type} {x : Endpoint α} {f g : Fleet} {answer : Option SubmitOut} :
    Returns (do let _ ← x; return none) f answer g ↔ answer = none ∧ ∃ a, Returns x f a g := by
  simp only [returns_bind, returns_pure]
  constructor
  · rintro ⟨a, _, hx, hanswer, hstate⟩
    exact ⟨hanswer.symm, a, hstate ▸ hx⟩
  · rintro ⟨hanswer, a, hx⟩
    exact ⟨a, g, hx, hanswer.symm, rfl⟩

/-- What a committed body did, operation by operation. -/
theorem fleetBody_returns {op : FleetOp} {f g : Fleet} {answer : Option SubmitOut}
    (h : Returns op.body f answer g) : FleetEffect op f answer g := by
  cases op with
  | engine op =>
    obtain ⟨rfl, v, h⟩ := returns_then_none.mp h
    obtain ⟨t, hop, rfl⟩ := returns_onEngine.mp h
    rw [← step_of_returns hop]
    exact .engine
  | register payload worker locked =>
    obtain ⟨rfl, v, h⟩ := returns_then_none.mp h
    exact registerWorker_returns h
  | heartbeat payload worker =>
    obtain ⟨rfl, v, h⟩ := returns_then_none.mp h
    exact workerHeartbeat_returns h
  | deregister worker locked =>
    obtain ⟨rfl, v, h⟩ := returns_then_none.mp h
    exact deregisterWorker_returns h
  | claim claimToken worker locked =>
    obtain ⟨rfl, r, h⟩ := returns_then_none.mp h
    exact claimAssignmentEndpoint_returns h
  | ack assignmentId worker =>
    obtain ⟨rfl, r, h⟩ := returns_then_none.mp h
    exact ackAssignment_returns h
  | renew assignmentId worker =>
    obtain ⟨rfl, r, h⟩ := returns_then_none.mp h
    exact renewAssignmentLease_returns h
  | submit assignmentId payload worker jitter =>
    simp only [FleetOp.body, returns_bind, returns_pure] at h
    obtain ⟨out, _, h, rfl, rfl⟩ := h
    exact submitAssignmentResult_returns h
  | provision workspaceId supportedStages maxConcurrency secretHash =>
    obtain ⟨rfl, v, h⟩ := returns_then_none.mp h
    rw [← returns_modify.mp h]
    exact .provisioned
  | rotate workspaceId workerId secretHash =>
    obtain ⟨rfl, v, h⟩ := returns_then_none.mp h
    exact rotateWorkerCredential_returns h
  | revoke workspaceId workerId locked =>
    obtain ⟨rfl, v, h⟩ := returns_then_none.mp h
    exact revokeWorkerCredentials_returns h
  | emergencyStop workspaceId actor =>
    obtain ⟨rfl, v, h⟩ := returns_then_none.mp h
    exact emergencyStop_returns h

/-- **What one transaction can do**: nothing, or the effect of its operation. -/
theorem fleetStep_cases (f : Fleet) (op : FleetOp) :
    (fleetStep f op = f ∧ fleetAnswer f op = none) ∨
      FleetEffect op f (fleetAnswer f op) (fleetStep f op) := by
  rcases hrun : op.body.run f with ⟨answer, g⟩ | ⟨e, g⟩
  · have hstep : fleetStep f op = g := Returns.atomically hrun
    have hanswer : fleetAnswer f op = answer := by
      unfold fleetAnswer
      rw [hrun]
    rw [hstep, hanswer]
    exact .inr (fleetBody_returns hrun)
  · refine .inl ⟨?_, ?_⟩
    · unfold fleetStep atomically
      rw [hrun]
    · unfold fleetAnswer
      rw [hrun]

end ContentOrchestrator

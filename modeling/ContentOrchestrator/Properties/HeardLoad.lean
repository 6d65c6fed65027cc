import ContentOrchestrator.Workers.ReferenceWorker
import ContentOrchestrator.Lib.Transition

/-! # The load a worker reports

A client takes its load up with a granted claim, and down only with an answered submission.
A cycle that breaks off in between leaves it up, whatever becomes of the assignment on the
server, and the client reports it with every heartbeat until it is started again. -/

namespace ContentOrchestrator

open Lib

variable {w w' : Workshop} {i : Nat}

/-- One from the granted claim to the end of the cycle. -/
def CyclePhase.holding : CyclePhase → Nat
  | .idle | .claiming _ _ => 0
  | _ => 1

def LoadCounted (w : Workshop) : Prop :=
  ∀ i, (w.clients i).currentLoad = w.brokenOff i + (w.clients i).phase.holding

theorem LoadCounted.update (h : LoadCounted w) {c : ReferenceWorkerClient}
    (hclients : w'.clients = Function.update w.clients i c)
    (hothers : ∀ j, j ≠ i → w'.brokenOff j = w.brokenOff j)
    (hcounted : c.currentLoad = w'.brokenOff i + c.phase.holding) : LoadCounted w' := by
  intro j
  rw [hclients]
  by_cases hj : j = i
  · rw [hj, Function.update_self]
    exact hcounted
  · rw [Function.update_of_ne hj, hothers j hj]
    exact h j

/-- A cycle that goes on leaves the count as it is. -/
theorem advance_goesOn {c : ReferenceWorkerClient} (h : c.phase.holding = 1) :
    (w.advance i c).brokenOff = w.brokenOff := by
  simp only [Workshop.advance]
  cases hphase : c.phase with
  | idle =>
    rw [hphase] at h
    cases h
  | _ => rfl

/-- A cycle that ends here is one more that broke off. -/
theorem advance_breaksOff {c : ReferenceWorkerClient} (h : c.phase = .idle) :
    (w.advance i c).brokenOff = Function.update w.brokenOff i (w.brokenOff i + 1) := by
  simp only [Workshop.advance, h]

/-- The client goes on with its load as it is, or breaks off. -/
theorem LoadCounted.advance (h : LoadCounted w) {c : ReferenceWorkerClient} {f : Fleet}
    (hheld : (w.clients i).phase.holding = 1) (hload : c.currentLoad = (w.clients i).currentLoad)
    (hnext : c.phase = .idle ∨ c.phase.holding = 1) :
    LoadCounted { w.advance i c with fleet := f } := by
  have hcounted : c.currentLoad = w.brokenOff i + 1 := hload.trans (hheld ▸ h i)
  rcases hnext with hidle | hholding
  · have hone : (w.advance i c).brokenOff = Function.update w.brokenOff i (w.brokenOff i + 1) :=
      advance_breaksOff hidle
    refine h.update rfl (fun j hj => ?_) ?_
    · rw [hone]
      exact Function.update_of_ne hj _ _
    · dsimp only
      rw [hone, hidle, Function.update_self]
      exact hcounted
  · have hsame : (w.advance i c).brokenOff = w.brokenOff := advance_goesOn hholding
    refine h.update rfl (fun j _ => congrFun hsame j) ?_
    rw [hholding, hcounted]
    exact congrArg (· + 1) (congrFun hsame i).symm

theorem onClaim_load (c : ReferenceWorkerClient) (token attempts : Nat)
    (answer : Option (Except ApiError ClaimResult)) :
    (c.onClaim token attempts answer).currentLoad =
      c.currentLoad + (c.onClaim token attempts answer).phase.holding := by
  rcases answer with _ | (_ | result)
  · simp only [ReferenceWorkerClient.onClaim]
    split <;> rfl
  · rfl
  · simp only [ReferenceWorkerClient.onClaim]
    split <;> rfl

theorem onAck_load (c : ReferenceWorkerClient) (a : Nat)
    (answer : Option (Except ApiError LeaseOut)) :
    (c.onAck a answer).currentLoad = c.currentLoad ∧
      ((c.onAck a answer).phase = .idle ∨ (c.onAck a answer).phase.holding = 1) := by
  rcases answer with _ | (_ | out)
  · exact ⟨rfl, .inl rfl⟩
  · exact ⟨rfl, .inl rfl⟩
  · simp only [ReferenceWorkerClient.onAck]
    split <;> exact ⟨rfl, .inr rfl⟩

theorem onRenew_load (c : ReferenceWorkerClient) (a : Nat)
    (answer : Option (Except ApiError LeaseOut)) :
    (c.onRenew a answer).currentLoad = c.currentLoad ∧
      ((c.onRenew a answer).phase = .idle ∨ (c.onRenew a answer).phase.holding = 1) := by
  rcases answer with _ | (_ | out)
  · exact ⟨rfl, .inl rfl⟩
  · exact ⟨rfl, .inl rfl⟩
  · exact ⟨rfl, .inr rfl⟩

theorem LoadCounted.clientStep (h : LoadCounted w) (op : ClientOp) :
    LoadCounted (w.clientStep i op) := by
  have hi := h i
  unfold Workshop.clientStep
  dsimp only
  split
  · exact h
  · exact h
  · exact h.update rfl (fun _ _ => rfl) hi
  · exact h
  · rename_i token hphase
    split
    · exact h
    · refine h.update rfl (fun _ _ => rfl) ?_
      rw [hphase] at hi
      exact hi
  · rename_i locked fate token attempts hphase
    refine h.update rfl (fun _ _ => rfl) ?_
    rw [hphase] at hi
    have hload : (w.clients i).currentLoad = w.brokenOff i := hi
    rw [onClaim_load, hload]
    rfl
  · rename_i fate a hphase
    obtain ⟨hload, hnext⟩ := onAck_load (w.clients i) a
      (fate.answer (ackAssignment a (w.clients i).worker) w.fleet)
    exact h.advance (hphase ▸ rfl) hload hnext
  · rename_i fate a hphase
    obtain ⟨hload, hnext⟩ := onRenew_load (w.clients i) a
      (fate.answer (renewAssignmentLease a (w.clients i).worker) w.fleet)
    exact h.advance (hphase ▸ rfl) hload hnext
  · rename_i a hphase
    refine h.update rfl (fun _ _ => rfl) ?_
    rw [hphase] at hi
    exact hi
  · rename_i outcome a hphase
    refine h.update rfl (fun _ _ => rfl) ?_
    rw [hphase] at hi
    exact hi
  · rename_i a hphase
    exact h.advance (f := w.fleet) (hphase ▸ rfl) rfl (.inl rfl)
  · rename_i jitter fate a outcome hphase
    split
    · rename_i out hanswer
      refine h.update rfl (fun _ _ => rfl) ?_
      rw [hphase] at hi
      rw [hanswer]
      exact congrArg (· - 1) hi
    · rename_i hfailed
      refine h.advance (hphase ▸ rfl) ?_ (.inl ?_)
      · generalize fate.answer _ w.fleet = answer at hfailed
        rcases answer with _ | (_ | out)
        · rfl
        · rfl
        · exact absurd rfl (hfailed out)
      · generalize fate.answer _ w.fleet = answer at hfailed
        rcases answer with _ | (_ | out) <;> rfl
  · refine h.update rfl (fun j hj => Function.update_of_ne hj _ _) ?_
    dsimp only
    rw [Function.update_self]
    rfl
  · exact h

theorem LoadCounted.replay (ops : List WorkshopOp) (h : LoadCounted w) :
    LoadCounted (replay Workshop.step w ops) := by
  induction ops generalizing w with
  | nil => exact h
  | cons op rest ih =>
    refine ih ?_
    cases op with
    | serve op => exact h
    | client i op => exact h.clientStep op

theorem Workshop.Opening.loadCounted (h : w.Opening) : LoadCounted w := by
  intro i
  rw [h.unloaded i, h.unbroken i, h.idle i]
  rfl

/-! ## Heartbeats -/

/-- What the client says of itself is never `offline`. -/
theorem heartbeatPayload_status (c : ReferenceWorkerClient) :
    c.heartbeatPayload.status ≠ .offline := by
  unfold ReferenceWorkerClient.heartbeatPayload
  dsimp only
  split
  · decide
  · split <;> decide

/-- The registry takes the report of a worker on its books that names no more than its capacity. -/
theorem workerHeartbeat_returns_iff {payload : WorkerHeartbeatIn} {worker : AuthenticatedWorker}
    {f : Fleet} (hstatus : payload.status ≠ .offline) :
    (∃ g, Returns (workerHeartbeat payload worker) f () g) ↔
      ∃ row, f.db.workers.get? worker.workerId = some row ∧ row.deregisteredAt = none ∧
        payload.currentLoad ≤ row.maxConcurrency := by
  constructor
  · rintro ⟨g, h⟩
    cases workerHeartbeat_returns h with
    | beat hfound hlisted _ hfits => exact ⟨_, hfound, hlisted, hfits⟩
  · rintro ⟨row, hfound, hlisted, hfits⟩
    refine ⟨{ f with
      db := modifyWorker worker.workerId (WorkerRegistration.beat payload f.db.now) f.db }, ?_⟩
    unfold workerHeartbeat
    rw [if_neg hstatus]
    simp only [returns_bind, returns_get, returns_orAnswer]
    refine ⟨_, _, ⟨rfl, rfl⟩, row, _, ⟨hfound, rfl⟩, ?_⟩
    rw [if_neg (by rw [hlisted]; decide), if_neg (Nat.not_lt.mpr hfits)]
    simp only [returns_onEngine, returns_modify]
    exact ⟨_, rfl, rfl⟩

theorem getCurrentWorker_returns_iff {credentialId : Nat} {secretHash : String}
    {worker : AuthenticatedWorker} {f g : Fleet} :
    Returns (getCurrentWorker credentialId secretHash) f worker g ↔ f = g ∧
      ∃ credential, f.credentials.get? credentialId = some credential ∧
        credential.secretHash = secretHash ∧ credential.inForce f.db.now = true ∧
        worker = ⟨credential.workerId, credential.id, credential.workspaceId⟩ := by
  constructor
  · intro h
    simp only [getCurrentWorker, returns_bind, returns_get, returns_orAnswer] at h
    obtain ⟨_, _, ⟨rfl, rfl⟩, credential, _, ⟨hfound, rfl⟩, h⟩ := h
    split at h
    · cases h
    · rename_i hsecret
      split at h
      · cases h
      · rename_i hforce
        obtain ⟨rfl, rfl⟩ := returns_pure.mp h
        rw [Bool.not_eq_true', Bool.not_eq_false] at hforce
        exact ⟨rfl, credential, hfound, not_not.mp hsecret, hforce, rfl⟩
  · rintro ⟨rfl, credential, hfound, hsecret, hforce, rfl⟩
    simp only [getCurrentWorker, returns_bind, returns_get, returns_orAnswer]
    refine ⟨_, _, ⟨rfl, rfl⟩, credential, _, ⟨hfound, rfl⟩, ?_⟩
    rw [if_neg (not_not.mpr hsecret), hforce]
    exact returns_pure.mpr ⟨rfl, rfl⟩

/-- A heartbeat as it goes out: under the client's credential, with the secret the client holds, and
nothing between the authentication and the handler. -/
def ReferenceWorkerClient.heartbeatRequest (c : ReferenceWorkerClient) (secretHash : String) :
    Endpoint Unit := do
  let worker ← getCurrentWorker c.worker.credentialId secretHash
  workerHeartbeat c.heartbeatPayload worker

theorem Fate.answered_ok_iff {α : Type} {x : Endpoint α} {f : Fleet} {a : α} :
    Fate.answered.answer x f = some (.ok a) ↔ ∃ g, Returns x f a g := by
  unfold Fate.answer
  constructor
  · intro h
    rcases hrun : x.run f with ⟨b, g⟩ | ⟨e, g⟩
    · simp only [hrun] at h
      cases h
      exact ⟨g, hrun⟩
    · simp only [hrun] at h
      cases h
  · rintro ⟨g, hrun⟩
    have hok : x.run f = .ok a g := hrun
    simp only [hok]

/-- What lets a report of this load in: a credential in force under its own secret, and a listed
registration of at least that capacity. -/
def Heard (f : Fleet) (credentialId : Nat) (secretHash : String) (load : Nat) : Prop :=
  ∃ credential row, f.credentials.get? credentialId = some credential ∧
    credential.secretHash = secretHash ∧ credential.inForce f.db.now = true ∧
    f.db.workers.get? credential.workerId = some row ∧ row.deregisteredAt = none ∧
    load ≤ row.maxConcurrency

theorem heartbeatRequest_returns_iff {c : ReferenceWorkerClient} {secretHash : String} {f : Fleet} :
    (∃ g, Returns (c.heartbeatRequest secretHash) f () g) ↔
      Heard f c.worker.credentialId secretHash c.currentLoad := by
  have hstatus := heartbeatPayload_status c
  simp only [ReferenceWorkerClient.heartbeatRequest, returns_bind]
  constructor
  · rintro ⟨g, worker, f', hcurrent, hbeat⟩
    obtain ⟨rfl, credential, hfound, hsecret, hforce, rfl⟩ :=
      getCurrentWorker_returns_iff.mp hcurrent
    obtain ⟨row, hrow, hlisted, hfits⟩ := (workerHeartbeat_returns_iff hstatus).mp ⟨g, hbeat⟩
    exact ⟨credential, row, hfound, hsecret, hforce, hrow, hlisted, hfits⟩
  · rintro ⟨credential, row, hfound, hsecret, hforce, hrow, hlisted, hfits⟩
    let worker : AuthenticatedWorker :=
      ⟨credential.workerId, credential.id, credential.workspaceId⟩
    have hbeat : ∃ g, Returns (workerHeartbeat c.heartbeatPayload worker) f () g :=
      (workerHeartbeat_returns_iff hstatus).mpr ⟨row, hrow, hlisted, hfits⟩
    obtain ⟨g, hbeat⟩ := hbeat
    exact ⟨g, worker, f, getCurrentWorker_returns_iff.mpr
      ⟨rfl, credential, hfound, hsecret, hforce, rfl⟩, hbeat⟩

/-- In every run a client's load is what it holds and what it lost track of, and its heartbeats get
through exactly as long as its credential is in force and that is within its registered capacity. -/
theorem heartbeat_heard_iff (hopen : w.Opening) (ops : List WorkshopOp) (i : Nat)
    (secretHash : String) :
    let w' := replay Workshop.step w ops
    let c := w'.clients i
    c.currentLoad = w'.brokenOff i + c.phase.holding ∧
      (Fate.answered.answer (c.heartbeatRequest secretHash) w'.fleet = some (.ok ()) ↔
        Heard w'.fleet c.worker.credentialId secretHash (w'.brokenOff i + c.phase.holding)) := by
  intro w' c
  have hload : c.currentLoad = w'.brokenOff i + c.phase.holding := hopen.loadCounted.replay ops i
  refine ⟨hload, ?_⟩
  rw [← hload]
  exact Fate.answered_ok_iff.trans heartbeatRequest_returns_iff

/-- A worker of capacity one gives up before its acknowledgement and is given the assignment again
before it has reported. -/
def lostTrack : List WorkshopOp :=
  .client 0 (.register [] .answered) :: givenHistory.map .serve ++
    [.serve (.engine (.change 61 none)), .client 0 (.heartbeat .answered),
      .serve (.engine (.recover 0 .leaseExpired)), .client 0 (.claimNext 7),
      .client 0 (.claim [] .answered), .client 0 (.ack .requestLost),
      .serve (.engine (.change 61 none)), .serve (.engine (.recover 0 .leaseExpired)),
      .client 0 (.claimNext 8), .client 0 (.claim [] .answered)]

theorem heartbeat_heard_iff_lostTrack :
    let w' := replay Workshop.step demoWorkshop lostTrack
    let c := w'.clients 0
    w'.brokenOff 0 = 1 ∧ c.phase.holding = 1 ∧
      (w'.fleet.db.workers.get? 0).map (·.maxConcurrency) = some 1 ∧
      c.currentLoad = w'.brokenOff 0 + c.phase.holding ∧
      (Fate.answered.answer (c.heartbeatRequest "a") w'.fleet = some (.ok ()) ↔
        Heard w'.fleet c.worker.credentialId "a" (w'.brokenOff 0 + c.phase.holding)) :=
  ⟨by decide +kernel, by decide +kernel, by decide +kernel,
    heartbeat_heard_iff demoWorkshop_opening lostTrack 0 "a"⟩

end ContentOrchestrator

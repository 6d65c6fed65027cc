import ContentOrchestrator.Workers.EffectRecords
import ContentOrchestrator.Workers.FleetMoves
import Mathlib.Logic.Function.Basic

/-! # The reference worker

The client side of the worker protocol: claim with one token over a few tries, acknowledge,
renew, execute, submit. Only a claim is sent again when its answer is lost; any other
failure breaks the cycle off, and the run loop starts the next one. -/

namespace ContentOrchestrator

open Lib

/-! ## Requests over a network -/

/-- What becomes of one request: it never arrives, it is refused before its handler runs, its answer
never arrives, or all goes through. -/
inductive Fate
  | requestLost
  | refused (error : ApiError)
  | answerLost
  | answered
deriving DecidableEq, Repr

/-- The server's state after the request. -/
def Fate.served {α : Type} (fate : Fate) (x : Endpoint α) (f : Fleet) : Fleet :=
  match fate with
  | requestLost | refused _ => f
  | answerLost | answered => atomically x f

/-- What the client sees: `none` is a transport error, an error status raises as well. -/
def Fate.answer {α : Type} (fate : Fate) (x : Endpoint α) (f : Fleet) :
    Option (Except ApiError α) :=
  match fate with
  | requestLost | answerLost => none
  | refused error => some (.error error)
  | answered =>
    match x.run f with
    | .ok a _ => some (.ok a)
    | .error e _ => some (.error e)

/-! ## The client -/

/-- `_CLAIM_NETWORK_RETRY_ATTEMPTS` -/
def claimNetworkRetryAttempts : Nat := 3

/-- What an executor returns. -/
structure Outcome where
  success : Bool
  result : Option (List (String × Json)) := none
  errorMessage : String := ""

/-- What is submitted instead of executing again. -/
def effectRefusal : Outcome where
  success := false
  errorMessage := "provider effect already reserved by a prior attempt of this " ++
    "assignment; refusing to repeat a possibly-billable side effect"

/-- Where a cycle stands: what the client does next. -/
inductive CyclePhase
  | idle
  | claiming (token attempts : Nat)
  | acknowledging (assignmentId : Nat)
  | renewing (assignmentId : Nat)
  | ready (assignmentId : Nat)
  | executing (assignmentId : Nat)
  | submitting (assignmentId : Nat) (outcome : Outcome)

structure ReferenceWorkerClient where
  worker : AuthenticatedWorker
  maxConcurrency : Nat := 1
  supportedStages : List String := []
  currentLoad : Nat := 0
  draining : Bool := false
  phase : CyclePhase := .idle

namespace ReferenceWorkerClient

/-- The cycle raised: the run loop logs it and goes on. -/
def breakOff (c : ReferenceWorkerClient) : ReferenceWorkerClient := { c with phase := .idle }

/-- `claim_next` after one try. -/
def onClaim (c : ReferenceWorkerClient) (token attempts : Nat) :
    Option (Except ApiError ClaimResult) → ReferenceWorkerClient
  | none => if attempts ≤ 1 then c.breakOff else { c with phase := .claiming token (attempts - 1) }
  | some (.error _) => c.breakOff
  | some (.ok result) =>
    match result.outcome, result.assignment with
    | .granted, some assignmentId =>
      { c with phase := .acknowledging assignmentId, currentLoad := c.currentLoad + 1 }
    | _, _ => c.breakOff

/-- After the acknowledgement: an effect that was reserved before is not repeated. -/
def onAck (c : ReferenceWorkerClient) (assignmentId : Nat) :
    Option (Except ApiError LeaseOut) → ReferenceWorkerClient
  | some (.ok out) =>
    if out.providerEffectCreated = some false then
      { c with phase := .submitting assignmentId effectRefusal }
    else { c with phase := .renewing assignmentId }
  | _ => c.breakOff

def onRenew (c : ReferenceWorkerClient) (assignmentId : Nat) :
    Option (Except ApiError LeaseOut) → ReferenceWorkerClient
  | some (.ok _) => { c with phase := .ready assignmentId }
  | _ => c.breakOff

/-- Only an answered submission takes the load down. -/
def onSubmit (c : ReferenceWorkerClient) :
    Option (Except ApiError SubmitOut) → ReferenceWorkerClient
  | some (.ok _) => { c with phase := .idle, currentLoad := c.currentLoad - 1 }
  | _ => c.breakOff

/-- A submission brings no key of its own. -/
def payload (outcome : Outcome) : SubmitIn where
  success := outcome.success
  result := outcome.result
  errorMessage := outcome.errorMessage

def heartbeatPayload (c : ReferenceWorkerClient) : WorkerHeartbeatIn where
  status := if c.draining then .draining else if c.currentLoad = 0 then .online else .busy
  currentLoad := c.currentLoad

def registerPayload (c : ReferenceWorkerClient) : WorkerRegisterIn where
  supportedStages := c.supportedStages
  maxConcurrency := c.maxConcurrency

/-- A new process: the configuration is all that is left. -/
def restart (c : ReferenceWorkerClient) : ReferenceWorkerClient :=
  { worker := c.worker, maxConcurrency := c.maxConcurrency, supportedStages := c.supportedStages }

end ReferenceWorkerClient

/-! ## Clients and server -/

/-- The server, the clients, and what the clients did: the assignments they handed to an executor,
the results that came back, and for each client the cycles it broke off holding an assignment since
it started. -/
structure Workshop where
  fleet : Fleet
  clients : Nat → ReferenceWorkerClient
  executions : List Nat := []
  results : List (Nat × Outcome) := []
  brokenOff : Nat → Nat := fun _ => 0

inductive ClientOp
  | register (locked : List Nat) (fate : Fate)
  | heartbeat (fate : Fate)
  | drain
  | deregister (locked : List Nat) (fate : Fate)
  | claimNext (token : Nat)
  | claim (locked : List Nat) (fate : Fate)
  | ack (fate : Fate)
  | renew (fate : Fate)
  | execute
  | executed (outcome : Outcome)
  | executorRaised
  | submit (jitter : Nat) (fate : Fate)
  | crash

/-- Anyone else's transaction, or a step of a client. -/
inductive WorkshopOp
  | serve (op : FleetOp)
  | client (i : Nat) (op : ClientOp)

namespace Workshop

def setClient (w : Workshop) (i : Nat) (c : ReferenceWorkerClient) : Workshop :=
  { w with clients := Function.update w.clients i c }

/-- The client goes on; a cycle that ends without an answered submission is broken off. -/
def advance (w : Workshop) (i : Nat) (c : ReferenceWorkerClient) : Workshop :=
  { w.setClient i c with
    brokenOff := match c.phase with
      | .idle => Function.update w.brokenOff i (w.brokenOff i + 1)
      | _ => w.brokenOff }

/-- One step of client `i`; what its phase does not allow does nothing. -/
def clientStep (w : Workshop) (i : Nat) (op : ClientOp) : Workshop :=
  let c := w.clients i
  match op, c.phase with
  | .register locked fate, _ =>
    { w with fleet := fate.served (registerWorker c.registerPayload c.worker locked) w.fleet }
  | .heartbeat fate, _ =>
    { w with fleet := fate.served (workerHeartbeat c.heartbeatPayload c.worker) w.fleet }
  | .drain, _ => w.setClient i { c with draining := true }
  | .deregister locked fate, _ =>
    { w with fleet := fate.served (deregisterWorker c.worker locked) w.fleet }
  | .claimNext token, .idle =>
    if c.draining then w
    else w.setClient i { c with phase := .claiming token claimNetworkRetryAttempts }
  | .claim locked fate, .claiming token attempts =>
    let request := claimAssignmentEndpoint (some token) c.worker locked
    { w.setClient i (c.onClaim token attempts (fate.answer request w.fleet)) with
      fleet := fate.served request w.fleet }
  | .ack fate, .acknowledging assignmentId =>
    let request := ackAssignment assignmentId c.worker
    { w.advance i (c.onAck assignmentId (fate.answer request w.fleet)) with
      fleet := fate.served request w.fleet }
  | .renew fate, .renewing assignmentId =>
    let request := renewAssignmentLease assignmentId c.worker
    { w.advance i (c.onRenew assignmentId (fate.answer request w.fleet)) with
      fleet := fate.served request w.fleet }
  | .execute, .ready assignmentId =>
    { w.setClient i { c with phase := .executing assignmentId } with
      executions := w.executions ++ [assignmentId] }
  | .executed outcome, .executing assignmentId =>
    { w.setClient i { c with phase := .submitting assignmentId outcome } with
      results := w.results ++ [(assignmentId, outcome)] }
  | .executorRaised, .executing _ => w.advance i c.breakOff
  | .submit jitter fate, .submitting assignmentId outcome =>
    let request :=
      submitAssignmentResult assignmentId (ReferenceWorkerClient.payload outcome) c.worker jitter
    let answer := fate.answer request w.fleet
    let after := match answer with
      | some (.ok _) => w.setClient i (c.onSubmit answer)
      | _ => w.advance i (c.onSubmit answer)
    { after with fleet := fate.served request w.fleet }
  | .crash, _ =>
    { w.setClient i c.restart with brokenOff := Function.update w.brokenOff i 0 }
  | _, _ => w

def step (w : Workshop) : WorkshopOp → Workshop
  | .serve op => { w with fleet := fleetStep w.fleet op }
  | .client i op => w.clientStep i op

/-- The clients have just started. -/
structure Opening (w : Workshop) : Prop where
  fresh : w.fleet.db.Fresh
  idle : ∀ i, (w.clients i).phase = .idle
  unloaded : ∀ i, (w.clients i).currentLoad = 0
  unbroken : ∀ i, w.brokenOff i = 0
  executions : w.executions = []
  results : w.results = []

end Workshop

/-- Client 1 has the second worker's credential, every other the first's. -/
def demoWorkshop : Workshop where
  fleet := demoFleet
  clients i :=
    { worker := if i = 1 then secondBearer else firstBearer
      supportedStages := ["idea", "scripting"] }

theorem demoWorkshop_opening : demoWorkshop.Opening :=
  ⟨demoFleet_fresh, fun _ => rfl, fun _ => rfl, fun _ => rfl, rfl, rfl⟩

end ContentOrchestrator

import ContentOrchestrator.Orchestration.RunSlice
import ContentOrchestrator.Abstract.RunLife

/-! # Steps that delay or lose a run's work

Each hazard is read off the state before a step, with the engine's own predicates:
the pass that will end in back-pressure, the last one before a job is given up, the
dispatch whose key is taken, the lease about to be reaped, the verdict with no next
step. -/

namespace ContentOrchestrator

open Lib

/-- The leased stage job of the run that the operation processes. -/
def processedJob (s : Db) (op : Op) (runId : Nat) : Option JobSchedule :=
  match op with
  | .processJob jobId _ _ =>
    (s.jobs.get? jobId).filter fun j => j.status == .leased && j.isActiveFor runId
  | _ => none

/-- The pass finds the workspace at its concurrency limit and puts the job off. -/
def postpones (s : Db) (op : Op) (runId : Nat) : Bool :=
  (processedJob s op runId).any fun j => atConcurrencyLimit s j.workspaceId && !j.atCeiling

/-- It is the pass at which the job is given up. -/
def givesUp (s : Db) (op : Op) (runId : Nat) : Bool :=
  (processedJob s op runId).any fun j => atConcurrencyLimit s j.workspaceId && j.atCeiling

/-- The run can be dispatched, but an assignment already has the key of the job's next attempt. -/
def repeatsKey (s : Db) (op : Op) (runId : Nat) : Bool :=
  (processedJob s op runId).any fun j =>
    !atConcurrencyLimit s j.workspaceId && (s.runs.get? runId).any (·.status.isOpen) &&
      (assignmentByKey s j.workspaceId ⟨runId, j.refTable, j.attempt + 1⟩).isSome

/-- A lease on a stage job of the run is reaped. -/
def reapsJob (s : Db) (op : Op) (runId : Nat) : Bool :=
  match op with
  | .reapJobs batchSize lockedJobs =>
    !(s.jobs.select fun j => isReaped batchSize lockedJobs s j && j.isActiveFor runId).isEmpty
  | _ => false

/-- The attempt count of the run's job goes up without an attempt. -/
def delaysJob (s : Db) (op : Op) (runId : Nat) : Bool := postpones s op runId || reapsJob s op runId

/-- An admitted verdict sets the run running, and its route neither ends the run nor queues a
stage: it leads to another gate, or there is none. -/
def strandsRun (s : Db) (op : Op) (runId : Nat) : Bool :=
  match op with
  | .decide workspaceId gateId _ approved expected =>
    (s.gates.get? gateId).any fun gate =>
      gate.pipelineRunId == runId && gate.workspaceId == workspaceId &&
        (assertDecidable gate approved expected).isOk &&
        ((s.runs.get? runId).bind (·.definitionId)).any fun definitionId =>
          resumesRun s definitionId gate approved &&
            !movesOn (route s definitionId gate.stage (reviewTrigger approved) [])
  | _ => false

/-- The run loses its last work and goes on running: its job is given up while it runs, its
dispatch is taken for a repetition, or its verdict has no next step. -/
def losesWork (s : Db) (op : Op) (runId : Nat) : Bool :=
  (givesUp s op runId && (s.runs.get? runId).any (·.status == .running)) ||
    repeatsKey s op runId || strandsRun s op runId

/-- The row a claim would take. -/
def claimedRow (s : Db) (workerId : Nat) (claimToken : Option Nat) (lockedAssignments : List Nat) :
    Option StageAssignment := do
  let worker ← s.workers.get? workerId
  let stages ← worker.supportedStages.mapM ContentStage.ofValue?
  if (heldByToken s worker claimToken).isSome || (worker.refusal s).isSome then none
  else (claimCandidate s worker stages lockedAssignments).1

/-- A late message about a run that has ended and is acted upon: a verdict on a gate it left
behind, a failed attempt, a lost lease with attempts left, or a claim of a row it left behind. -/
def actsOnEnded (s : Db) (op : Op) (runId : Nat) : Bool :=
  match op with
  | .decide workspaceId gateId _ approved expected =>
    (s.gates.get? gateId).any fun gate =>
      gate.pipelineRunId == runId && gate.workspaceId == workspaceId &&
        (assertDecidable gate approved expected).isOk
  | .submit assignmentId false _ _ workerId _ =>
    (s.assignments.get? assignmentId).any fun a =>
      a.pipelineRunId == runId && a.status.inFlight && (assertSubmittable s a workerId).isOk
  | .recover assignmentId _ =>
    (s.assignments.get? assignmentId).any fun a =>
      a.pipelineRunId == runId && a.status.inFlight && canRequeue s a
  | .claim workerId claimToken lockedAssignments =>
    (claimedRow s workerId claimToken lockedAssignments).any fun a => a.pipelineRunId == runId
  | _ => false

/-- The operation is a retry that reaches this run. -/
def retriesRun (s : Db) (op : Op) (runId : Nat) : Bool :=
  match op with
  | .retryFailedJobs workspaceId => (retryTargets s workspaceId).any fun target =>
    target.runId == runId
  | _ => false

/-- What must have held of the step for a move to carry this label. -/
def Label.cause (l : Label) (s : Db) (op : Op) (runId : Nat) : Prop :=
  match l with
  | .delayed => delaysJob s op runId = true
  | .exhausted => givesUp s op runId = true
  | .dropped => repeatsKey s op runId = true
  | .stranded => strandsRun s op runId = true
  | .revived => ∃ workspaceId, op = .retryFailedJobs workspaceId
  | _ => True

/-- The bound of every stage of a definition. -/
def stageLimit (db : Db) (definitionId : Nat) (stage : ContentStage) : Option Nat :=
  (stageDef? db definitionId stage).map (·.maxAttempts)

end ContentOrchestrator

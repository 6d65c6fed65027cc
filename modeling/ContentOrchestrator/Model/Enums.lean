/-! # The status vocabularies of the orchestration tables

Mirrors of the Postgres enum types. `ContentStage` is the only one whose text
form the engine reads back: a queue row carries its stage as text, and a
dead-letter row formats the enum member itself. -/

namespace ContentOrchestrator

inductive ContentStage
  | idea | scripting | voiceover | visuals | rendering | seo | review | scheduled | published
deriving DecidableEq, Repr, Inhabited

namespace ContentStage

/-- The stored text of a stage. -/
def value : ContentStage → String
  | idea => "idea"
  | scripting => "scripting"
  | voiceover => "voiceover"
  | visuals => "visuals"
  | rendering => "rendering"
  | seo => "seo"
  | review => "review"
  | scheduled => "scheduled"
  | published => "published"

/-- What an f-string makes of the enum member: the class and member name, not the value. -/
def formatted : ContentStage → String
  | idea => "ContentStage.IDEA"
  | scripting => "ContentStage.SCRIPTING"
  | voiceover => "ContentStage.VOICEOVER"
  | visuals => "ContentStage.VISUALS"
  | rendering => "ContentStage.RENDERING"
  | seo => "ContentStage.SEO"
  | review => "ContentStage.REVIEW"
  | scheduled => "ContentStage.SCHEDULED"
  | published => "ContentStage.PUBLISHED"

def all : List ContentStage :=
  [idea, scripting, voiceover, visuals, rendering, seo, review, scheduled, published]

/-- Binding a text to a stage column: only the stored texts are accepted. -/
def ofValue? (text : String) : Option ContentStage := all.find? fun s => s.value == text

theorem value_injective {s t : ContentStage} (h : s.value = t.value) : s = t := by
  cases s <;> cases t <;> first | rfl | exact absurd h (by decide)

@[simp] theorem ofValue?_value (s : ContentStage) : ofValue? s.value = some s := by
  cases s <;> decide

theorem ofValue?_eq_some {text : String} {s : ContentStage} :
    ofValue? text = some s ↔ text = s.value := by
  constructor
  · intro h
    have hs := List.find?_some h
    exact (beq_iff_eq.mp hs).symm
  · rintro rfl; exact ofValue?_value s

end ContentStage

inductive PipelineRunStatus
  | created | running | paused | compensating | succeeded | failed | cancelled
deriving DecidableEq, Repr, Inhabited

/-- The statuses the engine treats as final. -/
def PipelineRunStatus.isTerminal : PipelineRunStatus → Bool
  | succeeded | failed | cancelled => true
  | _ => false

inductive StageRunStatus
  | succeeded | failed
deriving DecidableEq, Repr

inductive ReservationStatus
  | reserved | committed | released
deriving DecidableEq, Repr

inductive DeadLetterStatus
  | pending | resolved | discarded
deriving DecidableEq, Repr

inductive WorkflowTransitionTrigger
  | onSuccess | onFailure | onReviewApproved | onReviewRejected
deriving DecidableEq, Repr

inductive OutboxEventStatus
  | pending | dispatched | poison
deriving DecidableEq, Repr

inductive JobType
  | stage | retry | stageTimeout | reviewTimeout | recurring | compensation
deriving DecidableEq, Repr

inductive JobScheduleStatus
  | pending | leased | done | cancelled
deriving DecidableEq, Repr

inductive WorkerStatus
  | online | busy | draining | offline
deriving DecidableEq, Repr

inductive StageAssignmentStatus
  | pending | dispatched | acknowledged | completed | failed | cancelled
deriving DecidableEq, Repr

/-- A worker holds the assignment. -/
def StageAssignmentStatus.inFlight : StageAssignmentStatus → Bool
  | dispatched | acknowledged => true
  | _ => false

/-- The assignment is waiting for a worker or held by one. -/
def StageAssignmentStatus.isLive : StageAssignmentStatus → Bool
  | pending | dispatched | acknowledged => true
  | _ => false

inductive ReviewGateStatus
  | awaiting | approved | rejected | timedOut | escalated
deriving DecidableEq, Repr

inductive PauseReason
  | reviewGate | manual | spendHold
deriving DecidableEq, Repr

inductive ClaimOutcome
  | granted | noWork | capacity | ineligible
deriving DecidableEq, Repr

inductive RecoveryReason
  | leaseExpired | workerOffline | workerDeregistered | workerRevoked | workerRestart
  | maxLeaseExceeded
deriving DecidableEq, Repr

def RecoveryReason.value : RecoveryReason → String
  | leaseExpired => "lease_expired"
  | workerOffline => "worker_offline"
  | workerDeregistered => "worker_deregistered"
  | workerRevoked => "worker_revoked"
  | workerRestart => "worker_restart"
  | maxLeaseExceeded => "max_lease_exceeded"

inductive BackpressureState
  | normal | pressured | throttled
deriving DecidableEq, Repr

end ContentOrchestrator

import ContentOrchestrator.DeskInvariants
import ContentOrchestrator.Lib.Interleaving

/-! # Edits and decisions of a gate side by side

Both services lock the gate row, check it as they read it then, and check no more. An
edit goes on to read the run, the item and the item's current version, each for itself,
and writes what it has made of them. Every call that goes through leaves an entry: what
it named, and what was current when it committed. -/

namespace ContentOrchestrator

open Lib

structure EditRequest where
  workspaceId : Nat
  gateId : Nat
  expected : Nat
  edit : Script
deriving DecidableEq, Repr

structure DecisionRequest where
  workspaceId : Nat
  gateId : Nat
  reviewerId : Nat
  approved : Bool
  expected : Option Nat
deriving DecidableEq, Repr

inductive GateRequest
  | edit (r : EditRequest)
  | decide (r : DecisionRequest)
deriving DecidableEq, Repr

/-- An edit wrote the version `written` of the item, whose current version was `current` until
then. -/
structure EditEntry where
  request : EditRequest
  itemId : Nat
  current : Option Nat
  written : Nat
deriving DecidableEq, Repr

/-- A decision on a gate over the version `shown`, for an item whose current version was
`current`. -/
structure DecisionEntry where
  request : DecisionRequest
  itemId : Option Nat
  shown : Option Nat
  current : Option Nat
deriving DecidableEq, Repr

inductive GateEntry
  | edited (e : EditEntry)
  | decided (e : DecisionEntry)
deriving DecidableEq, Repr

/-- The desk, and the calls that went through, in the order of their commits. -/
structure GateStore where
  desk : Desk
  entries : List GateEntry := []

/-- The statement of a call that comes next, or its end. -/
inductive GatePoint
  | editRequested (r : EditRequest)
  | editable (r : EditRequest) (gate : ReviewGate)
  | runRead (r : EditRequest) (run : PipelineRun)
  | itemRead (r : EditRequest) (item : ContentItem)
  | versionRead (r : EditRequest) (item : ContentItem) (current : Option ContentVersion)
  | decisionRequested (r : DecisionRequest)
  | decidable (r : DecisionRequest) (gate : ReviewGate)
  | refused (error : OrchestrationError)

/-- What an edit checks of the gate it has locked. -/
def assertEditable (gate : ReviewGate) (expected : Nat) : Except OrchestrationError Unit := do
  if gate.status ≠ .awaiting then throw (.valueError "review gate is not awaiting a decision")
  if gate.contentVersionId ≠ some expected then
    throw (.valueError "review gate content has changed since it was loaded; refresh and try again")

/-- The gate of the workspace, for `FOR UPDATE`. -/
def Desk.gateOf (d : Desk) (workspaceId gateId : Nat) : Option ReviewGate :=
  (d.db.gates.get? gateId).filter (·.workspaceId == workspaceId)

/-- Lock the gate and check it. A row that is not there locks nothing. -/
def lockGate (d : Desk) (held : List Nat) (workspaceId gateId : Nat)
    (check : ReviewGate → Except OrchestrationError Unit) (go : ReviewGate → GatePoint) :
    List Nat × GatePoint :=
  match d.gateOf workspaceId gateId with
  | none => (held, .refused .reviewGateNotFound)
  | some gate =>
    match check gate with
    | .error error => (gateId :: held, .refused error)
    | .ok _ => (gateId :: held, go gate)

def GatePoint.next (s : GateStore) (held : List Nat) : GatePoint → Option (List Nat × GatePoint)
  | .editRequested r =>
    some (lockGate s.desk held r.workspaceId r.gateId (assertEditable · r.expected) (.editable r))
  | .editable r gate =>
    match s.desk.db.runs.get? gate.pipelineRunId with
    | none => some (held, .refused (.valueError "review_gate missing pipeline run / content item"))
    | some run => some (held, .runRead r run)
  | .runRead r run =>
    match s.desk.db.contentItems.get? run.contentItemId with
    | none => some (held, .refused (.valueError "review_gate missing content item"))
    | some item => some (held, .itemRead r item)
  | .itemRead r item =>
    some (held, .versionRead r item (item.currentVersionId.bind s.desk.versions.get?))
  | .decisionRequested r =>
    some (lockGate s.desk held r.workspaceId r.gateId (assertDecidable · r.approved r.expected)
      (.decidable r))
  | .versionRead _ _ _ | .decidable _ _ | .refused _ => none

/-- The verdict, from its event to the delivered decision. -/
def deliverVerdict (gate : ReviewGate) (reviewerId : Nat) (approved : Bool) : Session Unit := do
  let event ← submitReviewDecision gate reviewerId approved
  dispatchOne registry event
  let decided ← require ((← get).gates.get? gate.id) .reviewGateNotFound
  if decided.status = .awaiting then throw .reviewGateDelivery

/-- The item of a run, and its current version. -/
def Db.currentOf (db : Db) (itemId : Nat) : Option Nat :=
  (db.contentItems.get? itemId).bind (·.currentVersionId)

def commitEdit (r : EditRequest) (item : ContentItem) (current : Option ContentVersion)
    (s : GateStore) :
    GateStore where
  desk := writeEdit r.workspaceId r.gateId item (r.edit.over current) s.desk
  entries := s.entries ++
    [.edited
      { request := r, itemId := item.id, current := s.desk.db.currentOf item.id
        written := s.desk.versions.next }]

/-- The entry of a decision, from the rows as they stand when it commits. -/
def decisionEntry (r : DecisionRequest) (db : Db) : DecisionEntry :=
  let gate := db.gates.get? r.gateId
  let itemId := (gate.bind fun g => db.runs.get? g.pipelineRunId).map (·.contentItemId)
  { request := r, itemId, shown := gate.bind (·.contentVersionId)
    current := itemId.bind db.currentOf }

/-- A verdict that cannot be delivered is rolled back. -/
def commitDecision (r : DecisionRequest) (gate : ReviewGate) (s : GateStore) : GateStore :=
  match (deliverVerdict gate r.reviewerId r.approved).run s.desk.db with
  | .ok _ db =>
    { desk := { s.desk with db }, entries := s.entries ++ [.decided (decisionEntry r s.desk.db)] }
  | .error _ _ => s

def GatePoint.commit : GatePoint → Option (GateStore → GateStore)
  | .versionRead r item current => some (commitEdit r item current)
  | .decidable r gate => some (commitDecision r gate)
  | _ => none

def GateRequest.start : GateRequest → GatePoint
  | .edit r => .editRequested r
  | .decide r => .decisionRequested r

/-- The gate rows an operation writes. -/
def gatesWritten (op : DeskOp) (d : Desk) : List Nat :=
  (d.db.gates.select fun g => decide ((deskStep d op).db.gates.get? g.id ≠ some g)).map (·.id)

/-- Edits and decisions, among whatever else the desk and the engine do: an operation of one moment
waits for the gates it writes. -/
def gateCalls : Code GateStore Nat GatePoint GateRequest DeskOp where
  start := GateRequest.start
  next s _ held point := point.next s held
  commit := GatePoint.commit
  needs op s := gatesWritten op s.desk
  apply op s := { s with desk := deskStep s.desk op }

/-! ## One call alone -/

variable {d d' : Desk}

theorem gateOf_eq_some {workspaceId gateId : Nat} {gate : ReviewGate} :
    d.gateOf workspaceId gateId = some gate ↔
      d.db.gates.get? gateId = some gate ∧ gate.workspaceId = workspaceId := by
  simp only [Desk.gateOf, Option.filter_eq_some_iff, beq_iff_eq]

theorem assertEditable_iff {gate : ReviewGate} {expected : Nat} :
    assertEditable gate expected = .ok () ↔
      gate.status = .awaiting ∧ gate.contentVersionId = some expected := by
  unfold assertEditable
  by_cases hawait : gate.status = .awaiting
  · by_cases hversion : gate.contentVersionId = some expected
    · simp [hawait, hversion, pure, Except.pure]
    · simp [hawait, hversion]
  · simp [hawait, throw, throwThe, MonadExceptOf.throw, bind, Except.bind]

theorem lockGate_eq {workspaceId gateId : Nat} {check : ReviewGate → Except OrchestrationError Unit}
    {go : ReviewGate → GatePoint} {held held' : List Nat} {point : GatePoint}
    (h : lockGate d held workspaceId gateId check go = (held', point)) :
    (∃ error, point = .refused error) ∨ ∃ gate, d.gateOf workspaceId gateId = some gate ∧
    check gate = .ok () ∧
      held' = gateId :: held ∧ point = go gate := by
  unfold lockGate at h
  split at h
  · cases h
    exact .inl ⟨_, rfl⟩
  · rename_i gate hgate
    split at h
    · cases h
      exact .inl ⟨_, rfl⟩
    · rename_i hcheck
      cases h
      exact .inr ⟨gate, hgate, hcheck, rfl, rfl⟩

/-- An edit over the rows it has just read does what the service does in one piece. -/
theorem writeEdit_alone {r : EditRequest} {gate : ReviewGate} {run : PipelineRun}
    {item : ContentItem} (hgate : d.gateOf r.workspaceId r.gateId = some gate)
    (hedit : assertEditable gate r.expected = .ok ())
    (hrun : d.db.runs.get? gate.pipelineRunId = some run)
    (hitem : d.db.contentItems.get? run.contentItemId = some item) :
    deskStep d (.editReviewGateContent r.workspaceId r.gateId r.expected r.edit) =
      writeEdit r.workspaceId r.gateId item
        (r.edit.over (item.currentVersionId.bind d.versions.get?)) d := by
  obtain ⟨hstored, hws⟩ := gateOf_eq_some.mp hgate
  obtain ⟨hawait, hversion⟩ := assertEditable_iff.mp hedit
  have hreturns : Returns (editReviewGateContent r.workspaceId r.gateId r.expected r.edit) d ()
      (writeEdit r.workspaceId r.gateId item
        (r.edit.over (item.currentVersionId.bind d.versions.get?)) d) := by
    unfold editReviewGateContent
    simp only [returns_bind, returns_get, returns_within, returns_require]
    refine ⟨d, d, ⟨rfl, rfl⟩, gate, d, ⟨d.db, ⟨hstored, rfl⟩, rfl⟩, ?_⟩
    simp only [hws, hawait, hversion, ne_eq, not_true_eq_false, if_false, returns_bind,
      returns_within, returns_require, returns_modify]
    exact ⟨run, d, ⟨d.db, ⟨hrun, rfl⟩, rfl⟩, item, d, ⟨d.db, ⟨hitem, rfl⟩, rfl⟩, rfl⟩
  exact hreturns.atomically

/-- And so does a decision. -/
theorem deliverVerdict_alone {r : DecisionRequest} {gate : ReviewGate} {s t : Db} {v : Unit}
    (hstored : s.gates.get? r.gateId = some gate) (hws : gate.workspaceId = r.workspaceId)
    (hdecide : assertDecidable gate r.approved r.expected = .ok ())
    (h : Returns (deliverVerdict gate r.reviewerId r.approved) s v t) :
    Returns (decideReviewGate r.workspaceId r.gateId r.reviewerId r.approved r.expected) s v t := by
  have hid : gate.id = r.gateId := (Table.get?_eq_some.mp hstored).2
  unfold decideReviewGate
  simp only [returns_bind, returns_get, returns_require]
  refine ⟨s, s, ⟨rfl, rfl⟩, gate, s, ⟨hstored, rfl⟩, ?_⟩
  simp only [hws, ne_eq, not_true_eq_false, if_false, returns_bind, returns_liftExcept]
  refine ⟨(), s, ⟨hdecide, rfl⟩, ?_⟩
  unfold deliverVerdict at h
  rw [hid, returns_bind] at h
  simpa only [returns_bind] using h

end ContentOrchestrator

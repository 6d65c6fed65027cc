import Mathlib.Data.List.Sort
import ContentOrchestrator.Orchestration.Outbox

/-! # Workflow definitions: conditions, transitions and stage rows

A condition is absent or names a dotted path into the context, one of seven
operators and a value. A transition is taken by priority, the first whose
condition holds; a condition that raises stops the search. -/

namespace ContentOrchestrator

open Lib

/-- Lift a pure computation that may raise. -/
def liftExcept {α : Type} : Except OrchestrationError α → Session α
  | .ok a => pure a
  | .error e => throw e

@[simp] theorem returns_liftExcept {α : Type} {x : Except OrchestrationError α} {s t : Db} {a : α} :
    Returns (liftExcept x) s a t ↔ x = .ok a ∧ s = t := by
  cases x <;> simp [liftExcept]

@[simp] theorem raises_liftExcept {α : Type} {x : Except OrchestrationError α} {s t : Db}
    {e : OrchestrationError} : Raises (liftExcept x) s e t ↔ x = .error e ∧ s = t := by
  cases x <;> simp [liftExcept]

/-! ## Condition DSL -/

/-- `path.split(".")`. -/
def splitPath (path : String) : List String :=
  (path.toList.splitOnP (· == '.')).map String.ofList

/-- The operator table; `null` never satisfies an ordering. -/
def conditionOp (op : String) : Option (Json → Json → Except OrchestrationError Bool) :=
  let ordered (o : Json.OrderOp) (a b : Json) : Except OrchestrationError Bool :=
    match a with
    | .null => .ok false
    | _ => Json.pyOrder o a b
  if op = "eq" then some fun a b => .ok (a.pyEq b)
  else if op = "ne" then some fun a b => .ok (!a.pyEq b)
  else if op = "gt" then some (ordered .gt)
  else if op = "gte" then some (ordered .gte)
  else if op = "lt" then some (ordered .lt)
  else if op = "lte" then some (ordered .lte)
  else if op = "in" then some Json.pyIn
  else none

/-- `condition[key]`. -/
def conditionItem (condition : List (String × Json)) (key : String) :
    Except OrchestrationError Json :=
  match condition.lookup key with
  | some v => .ok v
  | none => .error (.keyError key)

/-- The operator a condition names; only a text can be in the table. -/
def operatorOf : Json → Except OrchestrationError (Json → Json → Except OrchestrationError Bool)
  | .str op =>
    match conditionOp op with
    | some f => .ok f
    | none => .error (.valueError ("unsupported condition operator: " ++ op))
  | .arr _ | .obj _ => .error (.typeError "unhashable type")
  | _ => .error (.valueError "unsupported condition operator")

def evaluateCondition (condition : Option (List (String × Json))) (context : List (String × Json)) :
    Except OrchestrationError Bool := do
  match condition with
  | none => return true
  | some condition =>
    match ← conditionItem condition "field" with
    | .str path =>
      let value := (splitPath path).foldl (fun value part => value.get part) (Json.obj context)
      let op ← operatorOf (← conditionItem condition "op")
      op value (← conditionItem condition "value")
    | _ => .error (.attributeError "split")

/-! ## Transitions and stages -/

/-- The outgoing edges of a stage for one trigger, by priority. -/
def outgoing (db : Db) (definitionId : Nat) (fromStage : ContentStage)
    (trigger : WorkflowTransitionTrigger) : List WorkflowTransition :=
  match db.definitions.get? definitionId with
  | none => []
  | some definition =>
    (definition.transitions.filter fun t =>
      t.fromStage == fromStage && t.trigger == trigger).insertionSort fun s t =>
        s.priority ≤ t.priority

/-- The first edge whose condition holds. -/
def firstMatching (context : List (String × Json)) :
    List WorkflowTransition → Except OrchestrationError (Option WorkflowTransition)
  | [] => .ok none
  | t :: rest => do
    if ← evaluateCondition t.condition context then return some t
    firstMatching context rest

def findTransition (db : Db) (definitionId : Nat) (fromStage : ContentStage)
    (trigger : WorkflowTransitionTrigger) (context : List (String × Json)) :
    Except OrchestrationError (Option WorkflowTransition) :=
  firstMatching context (outgoing db definitionId fromStage trigger)

/-- The stage row of a definition; `uq_workflow_stage_per_definition` makes it the only one. -/
def stageDef? (db : Db) (definitionId : Nat) (stageKey : ContentStage) : Option WorkflowStage :=
  (db.definitions.get? definitionId).bind fun d => d.stages.find? fun s => s.stageKey == stageKey

def getStageDef (definitionId : Nat) (stageKey : ContentStage) : Session WorkflowStage := do
  require (stageDef? (← get) definitionId stageKey)
    (.valueError ("workflow_stages has no row for stage " ++ stageKey.value))

/-- The pinned definition of a started run. -/
def definitionIdOf (run : PipelineRun) : Session Nat :=
  require run.definitionId (.valueError "pipeline run has no definition_id pinned")

@[simp] theorem returns_getStageDef {definitionId : Nat} {stageKey : ContentStage} {s t : Db}
    {row : WorkflowStage} :
    Returns (getStageDef definitionId stageKey) s row t ↔
      stageDef? s definitionId stageKey = some row ∧ s = t := by
  simp [getStageDef, and_comm]

theorem stageDef?_stageKey {db : Db} {definitionId : Nat} {stageKey : ContentStage}
    {row : WorkflowStage} (h : stageDef? db definitionId stageKey = some row) :
    row.stageKey = stageKey := by
  obtain ⟨definition, _, hfind⟩ := Option.bind_eq_some_iff.mp h
  have hkey := List.find?_some hfind
  simpa using hkey

/-- A score of 3.5. -/
example : evaluateCondition (some [("field", .str "qa.score"), ("op", .str "gte"),
    ("value", .num (.int 3))]) [("qa", .obj [("score", .num (.float
      ⟨false, 7 * 2 ^ 50, -51, by decide, by decide, by decide, by decide⟩))])] = .ok true := by
  decide +kernel

end ContentOrchestrator

import ContentOrchestrator.Lib.Sorting
import ContentOrchestrator.Orchestration.Controller

/-! # Routing and the order of stored rows

Transitions are read by ascending priority and stages by ascending ordinal, and neither
column is unique, so rows that tie come back in any order. What a route or a start
chooses is fixed exactly when the rows that may come first decide the same. -/

namespace ContentOrchestrator

open Lib

/-- A row of `workflow_transitions`. -/
structure TransitionRow where
  id : Nat
  transition : WorkflowTransition

/-- One definition's rows, with the constraints of their tables. -/
structure StoredWorkflow where
  stages : List WorkflowStage
  transitions : List TransitionRow
  uqWorkflowStagePerDefinition : (stages.map (·.stageKey)).Nodup
  primaryKey : (transitions.map (·.id)).Nodup

namespace StoredWorkflow

variable (w : StoredWorkflow)

/-- The edges that leave a stage on a trigger. -/
def edges (fromStage : ContentStage) (trigger : WorkflowTransitionTrigger) : List TransitionRow :=
  w.transitions.filter fun r =>
    r.transition.fromStage == fromStage && r.transition.trigger == trigger

/-- `ORDER BY priority ASC` -/
def TransitionOrder (fromStage : ContentStage) (trigger : WorkflowTransitionTrigger)
    (result : List TransitionRow) : Prop :=
  OrderedBy (fun s t => s.transition.priority ≤ t.transition.priority) (w.edges fromStage trigger)
    result

/-- `ORDER BY ordinal` -/
def StageOrder (result : List WorkflowStage) : Prop :=
  OrderedBy (fun s t => s.ordinal ≤ t.ordinal) w.stages result

end StoredWorkflow

/-- What `_find_transition` returns when the query's rows come back in this order. -/
def firstMatchingRow (context : List (String × Json)) :
    List TransitionRow → Except OrchestrationError (Option TransitionRow)
  | [] => .ok none
  | r :: rest => do
    if ← evaluateCondition r.transition.condition context then return some r
    firstMatchingRow context rest

/-- The end that an edge puts to the loop: it is chosen, or its condition raises. -/
def TransitionRow.decision (context : List (String × Json)) (r : TransitionRow) :
    Option (Except OrchestrationError TransitionRow) :=
  match evaluateCondition r.transition.condition context with
  | .ok true => some (.ok r)
  | .ok false => none
  | .error e => some (.error e)

/-- The result of the loop from its end. -/
def chosen : Option (Except OrchestrationError TransitionRow) →
    Except OrchestrationError (Option TransitionRow)
  | none => .ok none
  | some (.ok r) => .ok (some r)
  | some (.error e) => .error e

theorem chosen_injective : Function.Injective chosen := by
  intro a b h
  rcases a with _ | _ | _ <;> rcases b with _ | _ | _ <;> simp_all [chosen]

theorem firstMatchingRow_eq (context : List (String × Json)) (rows : List TransitionRow) :
    firstMatchingRow context rows = chosen (rows.findSome? (·.decision context)) := by
  induction rows with
  | nil => rfl
  | cons r rows ih =>
    dsimp only [firstMatchingRow]
    rw [List.findSome?_cons, TransitionRow.decision]
    cases evaluateCondition r.transition.condition context with
    | error e => rfl
    | ok holds =>
      cases holds with
      | true => rfl
      | false => exact ih

/-! ## When the order does not matter -/

namespace StoredWorkflow

/-- The edges that may end the loop first all end it in the same way. -/
def RoutesUnambiguously (w : StoredWorkflow) (fromStage : ContentStage)
    (trigger : WorkflowTransitionTrigger) (context : List (String × Json)) : Prop :=
  Unambiguous (·.transition.priority) (·.decision context) (w.edges fromStage trigger)

/-- One stage has the lowest ordinal. -/
def StartsUnambiguously (w : StoredWorkflow) : Prop :=
  ∀ s ∈ w.stages, ∀ t ∈ w.stages, (∀ u ∈ w.stages, s.ordinal ≤ u.ordinal) →
    (∀ u ∈ w.stages, t.ordinal ≤ u.ordinal) → s = t

theorem startsUnambiguously_iff {w : StoredWorkflow} :
    w.StartsUnambiguously ↔ Unambiguous (·.ordinal) some w.stages := by
  constructor
  · intro h s t hs ht
    exact congrArg some (h s hs.mem t ht.mem (fun u hu => hs.lowest u hu (Option.some_ne_none u))
      fun u hu => ht.lowest u hu (Option.some_ne_none u))
  · intro h s hs t ht hlow hlow'
    exact Option.some.inj (h s t ⟨hs, Option.some_ne_none s, fun u hu _ => hlow u hu⟩
      ⟨ht, Option.some_ne_none t, fun u hu _ => hlow' u hu⟩)

end StoredWorkflow

/-- **Routing does not depend on the storage order** exactly where the rows that may come first
decide the same: for every stored workflow, stage, trigger and context, and for its first stage. -/
theorem routing_order_free_iff (w : StoredWorkflow) :
    (∀ fromStage trigger context,
      (∀ result result', w.TransitionOrder fromStage trigger result →
        w.TransitionOrder fromStage trigger result' →
        firstMatchingRow context result = firstMatchingRow context result') ↔
      w.RoutesUnambiguously fromStage trigger context) ∧
    ((∀ result result', w.StageOrder result → w.StageOrder result' → result.head? = result'.head?) ↔
      w.StartsUnambiguously) := by
  constructor
  · intro fromStage trigger context
    simp only [firstMatchingRow_eq, chosen_injective.eq_iff]
    exact findSome?_stable_iff
  · rw [StoredWorkflow.startsUnambiguously_iff, ← findSome?_stable_iff]
    have hhead : ∀ l : List WorkflowStage, l.findSome? some = l.head? := by
      intro l
      cases l <;> rfl
    simp only [hhead]
    rfl

/-- Two unconditional edges of the default priority, in both storage orders. -/
def forkedWorkflow : StoredWorkflow where
  stages := [{ stageKey := .idea }, { stageKey := .scripting },
    { stageKey := .review, isTerminal := true }]
  transitions :=
    [⟨1, { fromStage := .idea, toStage := .scripting, trigger := .onSuccess }⟩,
     ⟨2, { fromStage := .idea, toStage := .review, trigger := .onSuccess }⟩]
  uqWorkflowStagePerDefinition := by decide
  primaryKey := by decide

theorem tied_edges_route_by_storage :
    ¬ ∀ (w : StoredWorkflow) fromStage trigger context result result',
      w.TransitionOrder fromStage trigger result → w.TransitionOrder fromStage trigger result' →
        firstMatchingRow context result = firstMatchingRow context result' := by
  intro h
  have hchosen :=
    h forkedWorkflow .idea .onSuccess [] forkedWorkflow.transitions
      forkedWorkflow.transitions.reverse
    ⟨List.Perm.refl _, by decide⟩ ⟨List.reverse_perm _, by decide⟩
  have hid : (1 : Nat) = 2 := congrArg (fun r : Except OrchestrationError (Option TransitionRow) =>
    (r.toOption.join.elim 0 (·.id))) hchosen
  exact absurd hid (by decide)

end ContentOrchestrator

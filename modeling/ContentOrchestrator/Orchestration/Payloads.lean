import ContentOrchestrator.Orchestration.PoisonedJobs

/-! # What a worker's payload may raise

A result enters a submission in two places: as the context of the transition
conditions, and through the cost it reports. An ordering needs values of a common
kind, a membership a container, and a cost that reads as a number must be one the
ledger takes. Everything here is a predicate on the payload and the stored rows. -/

namespace ContentOrchestrator

open Lib

/-! ## Operands -/

namespace Json

mutual
/-- The interpreter orders the two values. -/
def hasOrder : Json → Json → Bool
  | bool _, bool _ => true
  | bool _, num _ => true
  | num _, bool _ => true
  | num _, num _ => true
  | str _, str _ => true
  | arr xs, arr ys => hasOrderItems xs ys
  | _, _ => false

/-- Lists are ordered by their first unequal items, which must have an order. -/
def hasOrderItems : List Json → List Json → Bool
  | x :: xs, y :: ys => if pyEq x y then hasOrderItems xs ys else hasOrder x y
  | _, _ => true
end

/-- The interpreter can look for the first value in the second. -/
def canBeIn (a : Json) : Json → Bool
  | arr _ => true
  | obj _ =>
    match a with
    | arr _ | obj _ => false
    | _ => true
  | str _ =>
    match a with
    | str _ => true
    | _ => false
  | _ => false

mutual
theorem pyOrder_isOk (op : OrderOp) (a b : Json) : (pyOrder op a b).isOk = hasOrder a b := by
  cases a <;> cases b <;> first
    | rfl
    | (rw [pyOrder, hasOrder]; exact pyOrderItems_isOk op _ _)

theorem pyOrderItems_isOk (op : OrderOp) (xs ys : List Json) :
    (pyOrderItems op xs ys).isOk = hasOrderItems xs ys := by
  cases xs with
  | nil => cases ys <;> rfl
  | cons x xs =>
    cases ys with
    | nil => rfl
    | cons y ys =>
      rw [pyOrderItems, hasOrderItems]
      split
      · exact pyOrderItems_isOk op xs ys
      · exact pyOrder_isOk op x y
end

theorem pyIn_isOk (a b : Json) : (pyIn a b).isOk = canBeIn a b := by
  cases b with
  | obj fields => cases a <;> rfl
  | str t => cases a <;> rfl
  | null => rfl
  | bool b => rfl
  | num n => rfl
  | arr items => rfl

end Json

/-- The operator is defined on the value found and the condition's own. -/
def operandsFit (op : String) (value operand : Json) : Bool :=
  if op = "eq" ∨ op = "ne" then true
  else if op = "in" then value.canBeIn operand
  else
    match value with
    | .null => true
    | _ => value.hasOrder operand

theorem conditionOp_isOk {op : String} {f : Json → Json → Except OrchestrationError Bool}
    (value operand : Json) (h : conditionOp op = some f) :
    (f value operand).isOk = operandsFit op value operand := by
  have hordered : ∀ o : Json.OrderOp, Except.isOk (match value with
      | .null => .ok false
      | _ => Json.pyOrder o value operand) = (match value with
      | .null => true
      | _ => value.hasOrder operand) := by
    intro o
    cases value <;> first
      | rfl
      | exact Json.pyOrder_isOk o _ operand
  simp only [conditionOp] at h
  repeat' split at h
  all_goals cases h
  all_goals subst_vars
  all_goals first
    | rfl
    | exact hordered _
    | exact Json.pyIn_isOk value operand

/-- `context` under a dotted path -/
def valueAt (context : List (String × Json)) (path : String) : Json :=
  (splitPath path).foldl (fun value part => value.get part) (Json.obj context)

/-- The condition can be evaluated in the context. -/
def evaluable (context : List (String × Json)) : Option (List (String × Json)) → Bool
  | none => true
  | some condition =>
    match conditionItem condition "field", conditionItem condition "op",
      conditionItem condition "value" with
    | .ok (.str path), .ok (.str op), .ok operand =>
      (conditionOp op).isSome && operandsFit op (valueAt context path) operand
    | _, _, _ => false

theorem evaluateCondition_isOk (condition : Option (List (String × Json)))
    (context : List (String × Json)) :
    (evaluateCondition condition context).isOk = evaluable context condition := by
  cases condition with
  | none => rfl
  | some condition =>
    dsimp only [evaluateCondition, evaluable]
    cases conditionItem condition "field" with
    | error e => rfl
    | ok field =>
      cases field with
      | str path =>
        cases conditionItem condition "op" with
        | error e => rfl
        | ok op =>
          cases op with
          | str op =>
            change (do
              let f ← operatorOf (.str op)
              f (valueAt context path) (← conditionItem condition "value")).isOk = _
            dsimp only [operatorOf]
            cases conditionItem condition "value" with
            | error e => cases conditionOp op <;> rfl
            | ok operand =>
              dsimp only
              cases hop : conditionOp op with
              | none => rfl
              | some f => exact conditionOp_isOk _ operand hop
          | null => rfl
          | bool b => rfl
          | num n => rfl
          | arr items => rfl
          | obj fields => rfl
      | null => rfl
      | bool b => rfl
      | num n => rfl
      | arr items => rfl
      | obj fields => rfl

/-- No edge up to the first that holds raises. -/
def routable (context : List (String × Json)) : List WorkflowTransition → Bool
  | [] => true
  | t :: rest =>
    evaluable context t.condition &&
      ((evaluateCondition t.condition context).toOption.getD false || routable context rest)

theorem firstMatching_isOk (context : List (String × Json)) (edges : List WorkflowTransition) :
    (firstMatching context edges).isOk = routable context edges := by
  induction edges with
  | nil => rfl
  | cons t rest ih =>
    rw [routable, ← evaluateCondition_isOk, ← ih, firstMatching]
    cases evaluateCondition t.condition context with
    | error e => rfl
    | ok holds => cases holds <;> rfl

/-! ## Well-formed workflows -/

/-- A field path, one of the operators and a value. -/
def WellFormedCondition (condition : List (String × Json)) : Prop :=
  ∃ path op operand, conditionItem condition "field" = .ok (.str path) ∧
    conditionItem condition "op" = .ok (.str op) ∧ (conditionOp op).isSome = true ∧
    conditionItem condition "value" = .ok operand

structure WorkflowDefinition.WellFormed (w : WorkflowDefinition) : Prop where
  conditions : ∀ t ∈ w.transitions, ∀ c, t.condition = some c → WellFormedCondition c
  /-- The last edge of a stage that is not terminal is taken where no other is. -/
  fallback : ∀ s ∈ w.stages, s.isTerminal = false → ∃ t ∈ w.transitions, t.fromStage = s.stageKey ∧
    t.trigger = .onSuccess ∧ t.condition = none ∧ ∀ t' ∈ w.transitions, t'.fromStage = s.stageKey →
      t'.trigger = .onSuccess → t'.priority ≤ t.priority
  rows : ∀ t ∈ w.transitions, ∃ s ∈ w.stages, s.stageKey = t.toStage

variable {s : Db} {w : WorkflowDefinition} {d : Nat} {stage : ContentStage}
  {context : List (String × Json)}

theorem mem_outgoing (hd : s.definitions.get? d = some w) {trigger : WorkflowTransitionTrigger}
    {t : WorkflowTransition} :
    t ∈ outgoing s d stage trigger ↔
      t ∈ w.transitions ∧ t.fromStage = stage ∧ t.trigger = trigger := by
  simp only [outgoing, hd, List.mem_insertionSort, List.mem_filter, Bool.and_eq_true, beq_iff_eq]

theorem stageDef?_isSome (hd : s.definitions.get? d = some w)
    (hstage : ∃ row ∈ w.stages, row.stageKey = stage) :
    ∃ row ∈ w.stages, row.stageKey = stage ∧ stageDef? s d stage = some row := by
  obtain ⟨row, hrow, hkey⟩ := hstage
  obtain ⟨found, hfound⟩ := Option.isSome_iff_exists.mp
    (List.find?_isSome.mpr ⟨row, hrow,
      beq_iff_eq.mpr hkey⟩ : (w.stages.find? (·.stageKey == stage)).isSome = true)
  have hfoundKey := List.find?_some hfound
  refine ⟨found, List.mem_of_find?_eq_some hfound, by simpa using hfoundKey, ?_⟩
  rw [stageDef?, hd]
  exact hfound

/-- An edge that is found is one of those searched, and an unconditional one is not passed over. -/
theorem firstMatching_ok {edges : List WorkflowTransition} {found : Option WorkflowTransition}
    (h : firstMatching context edges = .ok found) :
    match found with
    | some t => t ∈ edges
    | none => ∀ t ∈ edges, t.condition ≠ none := by
  induction edges with
  | nil =>
    cases h
    exact fun t ht => (by cases ht)
  | cons t rest ih =>
    rw [firstMatching] at h
    cases hcond : evaluateCondition t.condition context with
    | error e =>
      rw [hcond] at h
      cases h
    | ok holds =>
      rw [hcond] at h
      cases holds with
      | true =>
        cases h
        exact List.mem_cons_self ..
      | false =>
        have ih := ih h
        cases found with
        | some u => exact List.mem_cons_of_mem _ ih
        | none =>
          intro u hu
          rcases List.mem_cons.mp hu with rfl | hu
          · intro hnone
            rw [hnone] at hcond
            cases hcond
          · exact ih u hu

/-- **A well-formed workflow has a way on from each of its stages** wherever no condition raises. -/
theorem route_isOk (hd : s.definitions.get? d = some w) (hw : w.WellFormed)
    (hstage : ∃ row ∈ w.stages, row.stageKey = stage) :
    (route s d stage .onSuccess context).isOk = routable context
    (outgoing s d stage .onSuccess) := by
  rw [← firstMatching_isOk]
  unfold route findTransition
  cases hfound : firstMatching context (outgoing s d stage .onSuccess) with
  | error e => rfl
  | ok found =>
    have hedge := firstMatching_ok hfound
    cases found with
    | some t =>
      obtain ⟨ht, -, -⟩ := (mem_outgoing hd).mp hedge
      obtain ⟨row, -, -, hrow⟩ := stageDef?_isSome hd (hw.rows t ht)
      dsimp only [bind, Except.bind]
      rw [hrow]
      dsimp only
      split
      · rfl
      · split <;> rfl
    | none =>
      obtain ⟨row, hmem, hkey, hrow⟩ := stageDef?_isSome hd hstage
      dsimp only [bind, Except.bind]
      rw [hrow]
      cases hterminal : row.isTerminal with
      | true => simp only [hterminal, if_true]; rfl
      | false =>
        obtain ⟨t, ht, hfrom, htrigger, hnone, -⟩ := hw.fallback row hmem hterminal
        exact absurd hnone (hedge t ((mem_outgoing hd).mpr ⟨ht, hfrom.trans hkey, htrigger⟩))

/-! ## The submission -/

/-- The reported cost is one the ledger takes: a double that is not negative, or what else
settles. -/
def costSettles (settings : Settings) (reserved : Nat) (result : Option (List (String × Json))) :
    Bool :=
  match (result.getD []).lookup "estimated_cost_usd" with
  | some (.num (.float x)) => !x.negative || x.significand == 0
  | _ => (reportedCost settings result).settles reserved

theorem costSettles_eq {settings : Settings} {reserved : Nat}
    {result : Option (List (String × Json))} :
    costSettles settings reserved result = (reportedCost settings result).settles reserved := by
  unfold costSettles
  split
  · rename_i x hreported
    have hcost : reportedCost settings result = .finite (Decimal.ofDouble x) := by
      unfold reportedCost
      rw [hreported]
      rfl
    rw [hcost, Decimal.settles_ofDouble]
  · rfl

theorem commitSpend_fails {run : PipelineRun} {v : SpendReservation}
    {result : Option (List (String × Json))} (hreserved : v.status = .reserved)
    {settings : Settings} :
    Fails (commitSpend run v (reportedCost settings result)) s ↔
      costSettles settings v.estimatedCostUsd result = false := by
  rw [costSettles_eq]
  unfold commitSpend Decimal.settles
  simp only [hreserved]
  cases (reportedCost settings result).isNegative with
  | error e => simp
  | ok negative =>
    cases negative with
    | true => simp
    | false =>
      cases (reportedCost settings result).isSendable v.estimatedCostUsd <;> simp

end ContentOrchestrator

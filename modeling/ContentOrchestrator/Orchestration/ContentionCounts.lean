import ContentOrchestrator.Orchestration.ContentionRows

/-! # Counting what is in flight

Limits count the assignments in flight of a workspace, or of a workspace and a provider.
A commit adds to such a count what it places, whatever part of the rows is counted, and
nothing else that happens adds to it. -/

namespace ContentOrchestrator

open Lib

variable {db : Db} {f : Nat → Option String → Bool}

/-- In flight, in a workspace and under a provider that count. -/
def flightOf (f : Nat → Option String → Bool) (a : StageAssignment) : Bool :=
  a.status.inFlight && f a.workspaceId a.provider

/-- Only these rows are counted. -/
def flightAmong (f : Nat → Option String → Bool) (ids : Nat → Bool) (a : StageAssignment) : Bool :=
  flightOf f a && ids a.id

/-- What the commit puts in flight. -/
def Contender.places (db : Db) (f : Nat → Option String → Bool) : Contender → Nat
  | tick t => (t.own.created.filter (flightOf f)).length
  | claim c =>
    match c.own.granted with
    | none => 0
    | some g => (db.assignments.get? g.assignmentId).elim 0 fun a =>
      (flightOf f (g.update.apply a)).toNat

theorem flightAmong_le {ids : Nat → Bool} {a : StageAssignment} (h : flightAmong f ids a = true) :
    flightOf f a = true := (Bool.and_eq_true_iff.mp h).1

theorem flightOf_move {op : Op} {s : Db} {a a' : StageAssignment} (h : AssignmentMove op s a a')
    (hop : op.isBackground = true) (hflight : flightOf f a' = true) : flightOf f a = true := by
  cases h with
  | kept => exact hflight
  | granted request _ _ _ =>
    rw [request] at hop
    cases hop
  | acknowledged _ held =>
    have hf : f a.workspaceId a.provider = true := (Bool.and_eq_true_iff.mp hflight).2
    rw [flightOf, held, hf]
    rfl
  | renewed _ _ => exact hflight
  | @submitted success _ _ _ _ _ _ _ => cases success <;> cases hflight
  | requeued _ _ => cases hflight
  | exhausted _ _ => cases hflight
  | cancelled _ _ => cases hflight

/-! ## Other operations -/

/-- **What happens besides adds nothing.** -/
theorem background_count_le {op : Op} (hop : op.isBackground = true) (ids : Nat → Bool) :
    (step db op).assignments.count (flightAmong f ids) ≤ db.assignments.count
    (flightAmong f ids) := by
  refine (background_assignments hop).count_le (fun _ _ hmove => hmove.id)
    (fun _ _ hnew => hnew.elim) ?_
  intro a _ a' hmove hflight
  obtain ⟨hflight, hids⟩ := Bool.and_eq_true_iff.mp hflight
  rw [hmove.id] at hids
  exact Bool.and_eq_true_iff.mpr ⟨flightOf_move hmove hop hflight, hids⟩

/-- Limits and budgets stay as they are. -/
def keepsQuotas (db : Db) : Op → Bool
  | .change _ (some environment) =>
    decide (environment.concurrencyLimits.rows = db.concurrencyLimits.rows) &&
      decide (environment.providerBudgets.rows = db.providerBudgets.rows)
  | _ => true

/-- Nothing that happens besides changes them. -/
def fixedQuotas (w : World Db RowLock Contender) : Action ContenderRequest BackgroundOp → Bool
  | .other op => keepsQuotas w.store op.val
  | _ => true

theorem background_quotas {op : Op} (hop : op.isBackground = true)
    (hkeeps : keepsQuotas db op = true) :
    (step db op).concurrencyLimits.rows = db.concurrencyLimits.rows ∧
      (step db op).providerBudgets.rows = db.providerBudgets.rows := by
  rcases step_cases db op with heq | heffect
  · rw [heq]
    exact ⟨rfl, rfl⟩
  cases hchange : op with
  | change elapsed environment =>
    subst hchange
    generalize step db (.change elapsed environment) = t at heffect
    cases heffect with
    | changed =>
      cases environment with
      | none => exact ⟨rfl, rfl⟩
      | some environment =>
        obtain ⟨hlimits, hbudgets⟩ := Bool.and_eq_true_iff.mp hkeeps
        exact ⟨of_decide_eq_true hlimits, of_decide_eq_true hbudgets⟩
  | _ =>
    rw [← hchange]
    have hkinds : ∀ jobId lockedWorkers jitter, op = .processJob jobId lockedWorkers jitter →
        ∀ j ∈ db.jobs, j.jobType ≠ .stageTimeout := by
      intro jobId lockedWorkers jitter heq
      rw [heq] at hop
      cases hop
    have hconfig : (step db op).config = db.config :=
      heffect.configuration hkinds (by rw [hchange]; simp)
    exact ⟨congrArg (·.concurrencyLimits.rows) hconfig, congrArg (·.providerBudgets.rows) hconfig⟩

theorem maxConcurrentAssignments_rows {s t : Db}
    (h : t.concurrencyLimits.rows = s.concurrencyLimits.rows) (workspaceId : Nat) :
    maxConcurrentAssignments t workspaceId = maxConcurrentAssignments s workspaceId := by
  unfold maxConcurrentAssignments Table.select
  rw [h]

theorem budgetOf_rows {s t : Db} (h : t.providerBudgets.rows = s.providerBudgets.rows)
    (workspaceId : Nat) (provider : Option String) :
    budgetOf t workspaceId provider = budgetOf s workspaceId provider := by
  unfold budgetOf Table.select
  rw [h]

/-! ## Commits -/

theorem flightOf_cancel {a : StageAssignment} {now : Nat} :
    flightOf f ((StageAssignment.cancel now).apply a) = false := rfl

/-- Cancelling rows adds nothing. -/
theorem cancel_count_le {t : Table StageAssignment} {q : StageAssignment → Bool} {now : Nat}
    {ids : Nat → Bool} :
    (t.modifyWhere q (StageAssignment.cancel now)).count (flightAmong f ids) ≤ t.count
    (flightAmong f ids) := by
  rw [Table.count_modifyWhere]
  refine Table.count_mono fun a _ hflight => ?_
  split at hflight
  · rw [flightAmong, flightOf_cancel] at hflight
    cases hflight
  · exact hflight

/-- **A commit adds what it places.** -/
theorem commit_count_le (db : Db) {x : Contender} (hshaped : x.Shaped)
    (f : Nat → Option String → Bool) (ids : Nat → Bool) :
    (x.own.apply db).assignments.count (flightAmong f ids) ≤
      db.assignments.count (flightAmong f ids) + x.places db f := by
  rw [OwnWrites.apply_assignments]
  cases x with
  | tick t =>
    have hnone : t.own.granted = none := hshaped
    have hinserts := insertAll_count_le (p := flightOf f) (r := flightAmong f ids)
      (fun _ _ => flightAmong_le) t.own.created (t.own.changed db.now db.assignments)
    have hcancels : (t.own.changed db.now db.assignments).count (flightAmong f ids) ≤
        db.assignments.count (flightAmong f ids) := by
      rw [OwnWrites.changed, hnone]
      exact cancel_count_le
    exact hinserts.trans (Nat.add_le_add_right hcancels _)
  | claim c =>
    have hrows := Claiming.apply_assignments db hshaped
    rw [← OwnWrites.apply_assignments]
    show (c.own.apply db).assignments.count _ ≤ _
    rw [hrows]
    cases hgranted : c.own.granted with
    | none => exact Nat.le_add_right _ _
    | some g =>
      cases hfound : db.assignments.get? g.assignmentId with
      | none =>
        rw [Option.elim_some, Table.modify_of_none hfound]
        exact Nat.le_add_right _ _
      | some a =>
        have hcount := Table.count_modify (u := g.update) hfound (flightAmong f ids)
        have hgained : (flightAmong f ids (g.update.apply a)).toNat ≤
            (flightOf f (g.update.apply a)).toNat := by
          cases hamong : flightAmong f ids (g.update.apply a) with
          | false => exact Nat.zero_le _
          | true => rw [flightAmong_le hamong]
        simp only [Contender.places, hgranted, hfound, Option.elim_some]
        omega

/-! ## What a tick sees -/

/-- The rows of others that the tick still counts. -/
def Tick.spares (t : Tick) (id : Nat) : Bool := !t.own.cancelled.contains id

/-- What the tick sees in flight. -/
def Tick.load (t : Tick) (db : Db) (f : Nat → Option String → Bool) : Nat :=
  db.assignments.count (flightAmong f t.spares) + (t.own.created.filter (flightOf f)).length

theorem Tick.view_count {t : Tick} (hshaped : (Contender.tick t).Shaped) :
    (t.own.apply db).assignments.count (flightOf f) = t.load db f := by
  have hnone : t.own.granted = none := hshaped
  rw [OwnWrites.apply_assignments, insertAll_count (p := flightOf f) fun _ _ => rfl, Tick.load,
    OwnWrites.changed, hnone, Table.count_modifyWhere]
  congr 1
  refine Table.count_congr fun a _ => ?_
  unfold flightAmong Tick.spares
  cases hcancelled : t.own.cancelled.contains a.id
  · simp
  · simp [flightOf_cancel]

/-- Another commit adds to the load what it places. -/
theorem Tick.load_commit (db : Db) (t : Tick) {x : Contender} (hshaped : x.Shaped)
    (f : Nat → Option String → Bool) :
    t.load (x.own.apply db) f ≤ t.load db f + x.places db f := by
  have hcount := commit_count_le db hshaped f t.spares
  unfold Tick.load
  omega

theorem Tick.load_background (db : Db) (t : Tick) {op : Op} (hop : op.isBackground = true)
    (f : Nat → Option String → Bool) :
    t.load (step db op) f ≤ t.load db f :=
  Nat.add_le_add_right (background_count_le hop _) _

/-- Quiet writes do not show in the load. -/
theorem Tick.load_quietly {t t' : Tick} {writes : List QuietWrite}
    (own : t'.own = t.own.quietly writes) :
    t'.load db f = t.load db f := by
  unfold Tick.load Tick.spares
  rw [own]
  rfl

theorem Tick.load_placed (db : Db) {t t' : Tick} {writes : List QuietWrite} {row : StageAssignment}
    (own : t'.own = { t.own.quietly writes with created := t.own.created ++ [row] })
    (f : Nat → Option String → Bool) :
    t'.load db f = t.load db f + (flightOf f row).toNat := by
  unfold Tick.load Tick.spares
  rw [own]
  cases hflight : flightOf f row <;> simp [OwnWrites.quietly, hflight, Nat.add_assoc]

/-- Giving a stage up only takes away. -/
theorem Tick.load_gaveUp {t t' : Tick} {writes : List QuietWrite} {rows : List Nat} {runId : Nat}
    {stage : ContentStage}
    (own : t'.own = { t.own.quietly writes with
      cancelled := t.own.cancelled ++ rows
      created := t.own.created.map fun a =>
        if a.isLiveFor runId stage then (StageAssignment.cancel db.now).apply a else a }) :
    t'.load db f ≤ t.load db f := by
  unfold Tick.load Tick.spares
  rw [own]
  have hrows : db.assignments.count (flightAmong f fun id =>
      !(t.own.cancelled ++ rows).contains id) ≤
      db.assignments.count (flightAmong f fun id => !t.own.cancelled.contains id) := by
    refine Table.count_mono fun a _ hflight => ?_
    obtain ⟨hflight, hids⟩ := Bool.and_eq_true_iff.mp hflight
    refine Bool.and_eq_true_iff.mpr ⟨hflight, ?_⟩
    simp at hids ⊢
    exact hids.1
  have hcreated : ((t.own.created.map fun a =>
      if a.isLiveFor runId stage then (StageAssignment.cancel db.now).apply a else a).filter
        (flightOf f)).length ≤ (t.own.created.filter (flightOf f)).length := by
    rw [List.filter_map, List.length_map]
    refine (List.monotone_filter_right t.own.created fun a ha => ?_).length_le
    simp only [Function.comp_apply] at ha
    split at ha
    · cases ha
    · exact ha
  exact Nat.add_le_add hrows hcreated

end ContentOrchestrator

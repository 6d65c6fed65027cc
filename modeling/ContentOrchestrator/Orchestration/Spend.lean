import ContentOrchestrator.Orchestration.Outbox

/-! # Spend protection

The ledger has two halves: logs, counted from the start of the UTC day or month,
and open reservations, which always count. A reservation is admitted against one
cap row, the provider's own if there is one and the workspace-wide one otherwise;
settling it either commits a log of at most its estimate or releases it. -/

namespace ContentOrchestrator

open Lib

/-- The provider filter of a usage query; `none` counts every provider. -/
def countsProvider (filter : Option String) (provider : String) : Bool :=
  filter.all (· == provider)

/-- Logged amounts at or after `since`. -/
def committedSince (db : Db) (workspaceId : Nat) (provider : Option String) (since : Nat) : Nat :=
  db.spendLogs.total fun l =>
    if l.workspaceId = workspaceId ∧ since ≤ l.occurredAt ∧ countsProvider provider l.provider
    then l.costUsd else 0

/-- Amounts of open reservations, whatever their age. -/
def openReserved (db : Db) (workspaceId : Nat) (provider : Option String) : Nat :=
  db.reservations.total fun v =>
    if v.workspaceId = workspaceId ∧ v.status = .reserved ∧ countsProvider provider v.provider
    then v.estimatedCostUsd else 0

def spendCommittedPlusReserved (db : Db) (workspaceId : Nat) (provider : Option String)
    (since : Nat) : Nat :=
  committedSince db workspaceId provider since + openReserved db workspaceId provider

/-- The cap row a reservation is checked against. -/
def loadSpendCap (db : Db) (workspaceId : Nat) (provider : String) : Option SpendCap :=
  let ofProvider (p : Option String) : Option SpendCap :=
    (db.spendCaps.select fun c => c.workspaceId == workspaceId && c.provider == p).head?
  match ofProvider (some provider) with
  | some cap => some cap
  | none => ofProvider none

inductive CapKind
  | missingCap | daily | monthly
deriving DecidableEq, Repr

/-- A workspace-wide cap aggregates all providers. -/
def usageProvider (cap : SpendCap) (provider : String) : Option String :=
  if cap.provider.isNone then none else some provider

/-- Which limit one more estimate would break; a missing cap row fails closed. -/
def exceededCap (db : Db) (workspaceId : Nat) (provider : String) (estimatedCostUsd : Nat) :
    Option CapKind :=
  match loadSpendCap db workspaceId provider with
  | none => some .missingCap
  | some cap =>
    let filter := usageProvider cap provider
    let daily := spendCommittedPlusReserved db workspaceId filter (utcDayStart db.now)
    let monthly := spendCommittedPlusReserved db workspaceId filter (utcMonthStart db.now)
    if daily + estimatedCostUsd > cap.dailyCapUsd then some .daily
    else if monthly + estimatedCostUsd > cap.monthlyCapUsd then some .monthly
    else none

def SpendReservation.release : Update SpendReservation :=
  ⟨fun v => { v with status := .released }, fun _ => rfl⟩

def SpendReservation.commit : Update SpendReservation :=
  ⟨fun v => { v with status := .committed }, fun _ => rfl⟩

/-- Idempotent: only a reserved row is released. -/
def releaseSpend (run : PipelineRun) (reservation : SpendReservation) (db : Db) : Db :=
  if reservation.status ≠ .reserved then db
  else
    emitForRun EventType.spendReleased run
      { db with reservations := db.reservations.modify reservation.id SpendReservation.release }

/-- Release the rows of one query, in its order. -/
def releaseEach (run : PipelineRun) (rows : List SpendReservation) (db : Db) : Db :=
  rows.foldl (fun db reservation => releaseSpend run reservation db) db

/-- The open reservations of one stage of a run. -/
def SpendReservation.isOpenFor (runId : Nat) (stage : ContentStage) (v : SpendReservation) : Bool :=
  v.pipelineRunId == runId && v.stage == stage && v.status == .reserved

def SpendReservation.isOpenOf (runId : Nat) (v : SpendReservation) : Bool :=
  v.pipelineRunId == runId && v.status == .reserved

/-- Release every prior open row of the stage. -/
def releaseStageReservations (run : PipelineRun) (stage : ContentStage) (db : Db) : Db :=
  releaseEach run (db.reservations.select (·.isOpenFor run.id stage)) db

/-- Only this run's open reservations. -/
def releaseAllReservations (run : PipelineRun) (db : Db) : Db :=
  releaseEach run (db.reservations.select (·.isOpenOf run.id)) db

def PipelineRun.holdForSpend : Update PipelineRun :=
  ⟨fun r => { r with status := .paused, pauseReason := some .spendHold }, fun _ => rfl⟩

/-- The denied branch: the run is paused and the breach is published. -/
def pauseForSpend (run : PipelineRun) (db : Db) : Db :=
  emitForRun EventType.spendBudgetExceeded run
    { db with runs := db.runs.modify run.id PipelineRun.holdForSpend }

def newReservation (run : PipelineRun) (stage : ContentStage) (provider : String)
    (estimatedCostUsd : Nat) (db : Db) : NewRow SpendReservation where
  make id :=
    { id, workspaceId := run.workspaceId, pipelineRunId := run.id, provider, stage
      estimatedCostUsd, createdAt := db.now }
  key_make _ := rfl

/-- The granted branch. -/
def openReservation (run : PipelineRun) (stage : ContentStage) (provider : String)
    (estimatedCostUsd : Nat) (db : Db) : Db :=
  emitForRun EventType.spendReserved run
    { db with
      reservations := db.reservations.insert
        (newReservation run stage provider estimatedCostUsd db) }

/-- **Reserve an estimate before dispatch.** Prior open rows of the stage are released
first, so a retry is not counted twice; a denial pauses the run. -/
def reserveSpend (run : PipelineRun) (stage : ContentStage) (provider : String)
    (estimatedCostUsd : Nat) : Session (Option Nat) := do
  modify (releaseStageReservations run stage)
  let db ← get
  match exceededCap db run.workspaceId provider estimatedCostUsd with
  | some _ =>
    modify (pauseForSpend run)
    return none
  | none =>
    modify (openReservation run stage provider estimatedCostUsd)
    return some db.reservations.next

def newSpendLog (run : PipelineRun) (reservation : SpendReservation) (costUsd : Nat) (db : Db) :
    NewRow SpendLog where
  make id :=
    { id, workspaceId := run.workspaceId, provider := reservation.provider
      stage := reservation.stage, costUsd, occurredAt := db.now }
  key_make _ := rfl

/-- The log and status change of a settled reservation. -/
def commitReservation (run : PipelineRun) (reservation : SpendReservation) (costUsd : Nat)
    (db : Db) : Db :=
  emitForRun EventType.spendCommitted run
    { db with
      reservations := db.reservations.modify reservation.id SpendReservation.commit
      spendLogs := db.spendLogs.insert (newSpendLog run reservation costUsd db) }

/-- **Settle a reservation by its actual cost**, clamped to the estimate. -/
def commitSpend (run : PipelineRun) (reservation : SpendReservation) (actualCostUsd : Decimal) :
    Session Unit := do
  if reservation.status = .committed then return
  if reservation.status ≠ .reserved then
    throw (.valueError "cannot commit reservation; expected reserved")
  match actualCostUsd.isNegative with
  | .error e => throw e
  | .ok true => throw (.valueError "actual_cost_usd must be >= 0")
  | .ok false =>
    unless actualCostUsd.isSendable reservation.estimatedCostUsd do
      throw (.dataError "cannot encode Decimal value into numeric")
    modify (commitReservation run reservation
      (actualCostUsd.clampToGrid reservation.estimatedCostUsd))

/-! ## What each operation does to the tables -/

@[simp] theorem releaseSpend_frame {run : PipelineRun} {v : SpendReservation} {db : Db} :
    (releaseSpend run v db).now = db.now ∧
    (releaseSpend run v db).settings = db.settings ∧
    (releaseSpend run v db).definitions = db.definitions ∧
    (releaseSpend run v db).spendCaps = db.spendCaps ∧
    (releaseSpend run v db).runs = db.runs ∧
    (releaseSpend run v db).jobs = db.jobs ∧
    (releaseSpend run v db).assignments = db.assignments ∧
    (releaseSpend run v db).gates = db.gates ∧
    (releaseSpend run v db).spendLogs = db.spendLogs := by
  unfold releaseSpend
  split <;> simp

@[simp] theorem releaseEach_frame {run : PipelineRun} {rows : List SpendReservation} {db : Db} :
    (releaseEach run rows db).now = db.now ∧
    (releaseEach run rows db).settings = db.settings ∧
    (releaseEach run rows db).definitions = db.definitions ∧
    (releaseEach run rows db).spendCaps = db.spendCaps ∧
    (releaseEach run rows db).runs = db.runs ∧
    (releaseEach run rows db).jobs = db.jobs ∧
    (releaseEach run rows db).assignments = db.assignments ∧
    (releaseEach run rows db).gates = db.gates ∧
    (releaseEach run rows db).spendLogs = db.spendLogs := by
  unfold releaseEach
  induction rows generalizing db with
  | nil => simp
  | cons v rows ih =>
    rw [List.foldl_cons]
    obtain ⟨h1, h2, h3, h4, h5, h6, h7, h8, h9⟩ := @ih (releaseSpend run v db)
    simp [h1, h2, h3, h4, h5, h6, h7, h8, h9]

@[simp] theorem releaseEach_deadLetters {run : PipelineRun} {rows : List SpendReservation}
    {db : Db} :
    (releaseEach run rows db).deadLetters = db.deadLetters := by
  unfold releaseEach
  induction rows generalizing db with
  | nil => rfl
  | cons v rows ih =>
    rw [List.foldl_cons, ih]
    unfold releaseSpend
    split <;> rfl

theorem releaseSpend_reservations {run : PipelineRun} {v : SpendReservation} {db : Db}
    (hv : v.status = .reserved) :
    (releaseSpend run v db).reservations =
    db.reservations.modify v.id SpendReservation.release := by
  simp [releaseSpend, hv]

theorem releaseEach_reservations {run : PipelineRun} {rows : List SpendReservation} {db : Db}
    (hrows : ∀ v ∈ rows, v.status = .reserved) :
    (releaseEach run rows db).reservations =
      rows.foldl (fun t v => t.modify (Keyed.key v) SpendReservation.release) db.reservations := by
  unfold releaseEach
  induction rows generalizing db with
  | nil => rfl
  | cons v rows ih =>
    have hv := hrows v List.mem_cons_self
    have hrest := @ih (releaseSpend run v db) fun w hw => hrows w (List.mem_cons_of_mem v hw)
    rw [List.foldl_cons, hrest, releaseSpend_reservations hv]
    rfl

theorem status_of_isOpenFor {runId : Nat} {stage : ContentStage} {v : SpendReservation}
    (h : v.isOpenFor runId stage = true) : v.status = .reserved := by
  simp only [SpendReservation.isOpenFor, Bool.and_eq_true, beq_iff_eq] at h
  exact h.2

theorem status_of_isOpenOf {runId : Nat} {v : SpendReservation} (h : v.isOpenOf runId = true) :
    v.status = .reserved := by
  simp only [SpendReservation.isOpenOf, Bool.and_eq_true, beq_iff_eq] at h
  exact h.2

@[simp] theorem releaseStageReservations_reservations {run : PipelineRun} {stage : ContentStage}
    {db : Db} :
    (releaseStageReservations run stage db).reservations =
      db.reservations.modifyWhere (·.isOpenFor run.id stage) SpendReservation.release := by
  unfold releaseStageReservations
  rw [releaseEach_reservations]
  · exact Table.foldl_modify_select (u := SpendReservation.release) (fun _ => rfl) _ _
  · exact fun v hv => status_of_isOpenFor (Table.mem_select.mp hv).2

@[simp] theorem releaseAllReservations_reservations {run : PipelineRun} {db : Db} :
    (releaseAllReservations run db).reservations =
      db.reservations.modifyWhere (·.isOpenOf run.id) SpendReservation.release := by
  unfold releaseAllReservations
  rw [releaseEach_reservations]
  · exact Table.foldl_modify_select (u := SpendReservation.release) (fun _ => rfl) _ _
  · exact fun v hv => status_of_isOpenOf (Table.mem_select.mp hv).2

@[simp] theorem releaseStageReservations_frame {run : PipelineRun} {stage : ContentStage}
    {db : Db} :
    (releaseStageReservations run stage db).now = db.now ∧
    (releaseStageReservations run stage db).settings = db.settings ∧
    (releaseStageReservations run stage db).definitions = db.definitions ∧
    (releaseStageReservations run stage db).spendCaps = db.spendCaps ∧
    (releaseStageReservations run stage db).runs = db.runs ∧
    (releaseStageReservations run stage db).jobs = db.jobs ∧
    (releaseStageReservations run stage db).assignments = db.assignments ∧
    (releaseStageReservations run stage db).gates = db.gates ∧
    (releaseStageReservations run stage db).spendLogs = db.spendLogs := by
  simp [releaseStageReservations]

@[simp] theorem releaseAllReservations_frame {run : PipelineRun} {db : Db} :
    (releaseAllReservations run db).now = db.now ∧
    (releaseAllReservations run db).settings = db.settings ∧
    (releaseAllReservations run db).definitions = db.definitions ∧
    (releaseAllReservations run db).spendCaps = db.spendCaps ∧
    (releaseAllReservations run db).runs = db.runs ∧
    (releaseAllReservations run db).jobs = db.jobs ∧
    (releaseAllReservations run db).assignments = db.assignments ∧
    (releaseAllReservations run db).gates = db.gates ∧
    (releaseAllReservations run db).spendLogs = db.spendLogs := by
  simp [releaseAllReservations]

/-- A reservation attempt ends in exactly one of two ways, both normal. -/
theorem reserveSpend_returns {run : PipelineRun} {stage : ContentStage} {provider : String}
    {estimate : Nat} {db db' : Db} {r : Option Nat} :
    Returns (reserveSpend run stage provider estimate) db r db' ↔
      (∃ kind, exceededCap (releaseStageReservations run stage db) run.workspaceId provider estimate
          = some kind ∧ r = none ∧
        db' = pauseForSpend run (releaseStageReservations run stage db)) ∨
      (exceededCap (releaseStageReservations run stage db) run.workspaceId provider estimate =
        none ∧
        r = some db.reservations.next ∧
        db' = openReservation run stage provider estimate
          (releaseStageReservations run stage db)) := by
  unfold reserveSpend
  cases h :
    exceededCap (releaseStageReservations run stage db) run.workspaceId provider estimate with
  | none => simp [h, eq_comm, and_comm]
  | some kind => simp [h, eq_comm, and_comm]

theorem commitSpend_returns {run : PipelineRun} {v : SpendReservation} {actual : Decimal}
    {db db' : Db} (hv : v.status = .reserved) (h : Returns (commitSpend run v actual) db () db') :
    actual.settles v.estimatedCostUsd = true ∧
      db' = commitReservation run v (actual.clampToGrid v.estimatedCostUsd) db := by
  unfold commitSpend at h
  unfold Decimal.settles
  simp only [hv, reduceCtorEq, if_false, ne_eq, not_true_eq_false] at h
  cases hn : actual.isNegative with
  | error e => simp [hn] at h
  | ok b =>
    cases b with
    | true => simp [hn] at h
    | false =>
      cases hsendable : actual.isSendable v.estimatedCostUsd <;> simp_all

@[simp] theorem pauseForSpend_frame {run : PipelineRun} {db : Db} :
    (pauseForSpend run db).runs = db.runs.modify run.id PipelineRun.holdForSpend ∧
    (pauseForSpend run db).jobs = db.jobs ∧
    (pauseForSpend run db).assignments = db.assignments ∧
    (pauseForSpend run db).gates = db.gates ∧
    (pauseForSpend run db).reservations = db.reservations ∧
    (pauseForSpend run db).definitions = db.definitions := by
  simp [pauseForSpend]

@[simp] theorem openReservation_frame {run : PipelineRun} {stage : ContentStage} {provider : String}
    {estimate : Nat} {db : Db} :
    (openReservation run stage provider estimate db).runs = db.runs ∧
    (openReservation run stage provider estimate db).jobs = db.jobs ∧
    (openReservation run stage provider estimate db).assignments = db.assignments ∧
    (openReservation run stage provider estimate db).gates = db.gates ∧
    (openReservation run stage provider estimate db).reservations =
      db.reservations.insert (newReservation run stage provider estimate db) ∧
    (openReservation run stage provider estimate db).definitions = db.definitions := by
  simp [openReservation]

@[simp] theorem commitReservation_frame {run : PipelineRun} {v : SpendReservation} {cost : Nat}
    {db : Db} :
    (commitReservation run v cost db).runs = db.runs ∧
    (commitReservation run v cost db).jobs = db.jobs ∧
    (commitReservation run v cost db).assignments = db.assignments ∧
    (commitReservation run v cost db).gates = db.gates ∧
    (commitReservation run v cost db).reservations =
      db.reservations.modify v.id SpendReservation.commit ∧
    (commitReservation run v cost db).definitions = db.definitions := by
  simp [commitReservation]

end ContentOrchestrator

import ContentOrchestrator.Orchestration.Scheduler
import Mathlib.Data.List.Dedup

/-! # Queue-depth back-pressure

The depth of a workspace's queue is classified by two limits, stored, and announced
when the stored state changes. The maintenance tick evaluates workspaces that have
waiting assignments, as many as one query returns; which ones is up to the database. -/

namespace ContentOrchestrator

open Lib

structure BackpressureSnapshot where
  workspaceId : Nat
  state : BackpressureState
  pendingDepth : Nat
  softLimit : Nat
  hardLimit : Nat
  changed : Bool
deriving DecidableEq, Repr

def classifyDepth (depth soft hard : Nat) : BackpressureState :=
  if hard ≤ depth then .throttled else if soft ≤ depth then .pressured else .normal

def StageAssignment.isPendingIn (workspaceId : Nat) (a : StageAssignment) : Bool :=
  a.workspaceId == workspaceId && a.status == .pending

def pendingDepth (db : Db) (workspaceId : Nat) : Nat :=
  db.assignments.count (·.isPendingIn workspaceId)

/-- The soft and the hard limit, and the most rows of one tick. -/
def queueLimits (db : Db) (workspaceId : Nat) : Nat × Nat × Nat :=
  match (db.concurrencyLimits.select fun l => l.workspaceId == workspaceId).head? with
  | none => (db.settings.queueSoftLimitDefault, db.settings.queueHardLimitDefault, 5)
  | some row => (row.queueSoftLimit, row.queueHardLimit, row.maxPerSchedulerTick)

/-- The stored row of a workspace. -/
def pressureRow (db : Db) (workspaceId : Nat) : Option WorkspaceBackpressureState :=
  (db.backpressureStates.select fun s => s.workspaceId == workspaceId).head?

/-- The stored state; a workspace without a row is in no distress. -/
def storedPressure (db : Db) (workspaceId : Nat) : BackpressureState :=
  (pressureRow db workspaceId).elim .normal (·.state)

/-- What the depth of its queue says now. -/
def currentPressure (db : Db) (workspaceId : Nat) : BackpressureState :=
  let (soft, hard, _) := queueLimits db workspaceId
  classifyDepth (pendingDepth db workspaceId) soft hard

/-- The time a distress began; none outside one. -/
def enteredAt (state : BackpressureState) (now : Nat) : Option Nat :=
  if state = .normal then none else some now

def WorkspaceBackpressureState.observe (state : BackpressureState) (depth now : Nat) :
    Update WorkspaceBackpressureState :=
  ⟨fun row =>
    { row with
      state, pendingDepth := depth, updatedAt := now
      enteredAt := if row.state = state then row.enteredAt
        else ContentOrchestrator.enteredAt state now },
    fun _ => rfl⟩

/-- The row of a workspace observed for the first time. -/
def newPressure (workspaceId : Nat) (state : BackpressureState) (depth now : Nat) :
    NewRow WorkspaceBackpressureState where
  make id := { id, workspaceId, state, pendingDepth := depth, enteredAt := enteredAt state now
               updatedAt := now }
  key_make _ := rfl

def pressureEvent (state : BackpressureState) : String :=
  if state = .normal then EventType.backpressureCleared else EventType.backpressureEntered

/-- The upsert of a workspace's row. -/
def storePressure (workspaceId : Nat) (state : BackpressureState) (depth : Nat) (db : Db) : Db :=
  { db with
    backpressureStates :=
      match pressureRow db workspaceId with
      | none => db.backpressureStates.insert (newPressure workspaceId state depth db.now)
      | some row =>
        db.backpressureStates.modify row.id
          (WorkspaceBackpressureState.observe state depth db.now) }

def evaluateWorkspaceBackpressure (workspaceId : Nat) (db : Db) : BackpressureSnapshot × Db :=
  let (soft, hard, _) := queueLimits db workspaceId
  let depth := pendingDepth db workspaceId
  let newState := classifyDepth depth soft hard
  let changed := decide (storedPressure db workspaceId ≠ newState)
  let stored := storePressure workspaceId newState depth db
  ({ workspaceId, state := newState, pendingDepth := depth, softLimit := soft, hardLimit := hard
     changed },
    if changed then emit (pressureEvent newState) workspaceId (.workspace workspaceId) none stored
      else stored)

/-- The workspaces with waiting assignments, each once, in the order the database happens to give
them. -/
def activeWorkspaces (db : Db) (order : List Nat) : List Nat :=
  let pending := (db.assignments.select fun a => a.status == .pending).map (·.workspaceId)
  (order.filter (pending.contains ·) ++ pending).reverse.dedup.reverse

/-- One workspace after the other. -/
def evaluateEach : List Nat → Db → List BackpressureSnapshot × Db
  | [], db => ([], db)
  | workspaceId :: rest, db =>
    let (snapshot, db) := evaluateWorkspaceBackpressure workspaceId db
    let (snapshots, db) := evaluateEach rest db
    (snapshot :: snapshots, db)

def evaluateAllActiveWorkspaces (order : List Nat) (batchSize : Nat) (db : Db) :
    List BackpressureSnapshot × Db :=
  evaluateEach ((activeWorkspaces db order).take batchSize) db

/-! ## One workspace -/

variable {db : Db} {workspaceId other : Nat}

/-- The pressure events of a workspace so far. -/
def pressureEvents (db : Db) (workspaceId : Nat) : Nat :=
  db.outbox.count fun e => e.workspaceId == workspaceId &&
    (e.eventType == EventType.backpressureEntered || e.eventType == EventType.backpressureCleared)

theorem storedPressure_store (state : BackpressureState) (depth : Nat) :
    storedPressure (storePressure workspaceId state depth db) workspaceId = state := by
  cases hrow : pressureRow db workspaceId with
  | none =>
    have hstored : pressureRow (storePressure workspaceId state depth db) workspaceId =
        some ((newPressure workspaceId state depth db.now).make db.backpressureStates.next) := by
      simp only [storePressure, hrow]
      refine Table.head?_select_insert.trans ?_
      rw [show ((db.backpressureStates.select fun s => s.workspaceId == workspaceId).head?) =
        none from hrow]
      simp [newPressure]
    rw [storedPressure, hstored]
    rfl
  | some row =>
    have hstored : pressureRow (storePressure workspaceId state depth db) workspaceId =
        some ((WorkspaceBackpressureState.observe state depth db.now).apply row) := by
      simp only [storePressure, hrow]
      refine (Table.head?_select_modify fun _ => rfl).trans ?_
      rw [show ((db.backpressureStates.select fun s => s.workspaceId == workspaceId).head?) =
        some row from hrow, Option.map_some, show Keyed.key row = row.id from rfl, beq_self_eq_true,
          if_pos rfl]
    rw [storedPressure, hstored]
    rfl

theorem storedPressure_store_of_ne (state : BackpressureState) (depth : Nat)
    (hne : other ≠ workspaceId) :
    storedPressure (storePressure workspaceId state depth db) other = storedPressure db other := by
  have hstored : pressureRow (storePressure workspaceId state depth db) other =
      pressureRow db other := by
    refine congrArg List.head? ?_
    cases hrow : pressureRow db workspaceId with
    | none =>
      simp only [storePressure, hrow]
      exact Table.select_insert_of_not (by simpa [newPressure] using Ne.symm hne)
    | some row =>
      have hmem : row ∈ db.backpressureStates.select fun s => s.workspaceId == workspaceId :=
        List.mem_of_mem_head? hrow
      obtain ⟨hstored, hws⟩ := Table.mem_select.mp hmem
      simp only [storePressure, hrow]
      refine Table.select_modify_of_not fun a ha => ?_
      have hsame : row = a := Option.some.inj ((Table.get?_of_mem hstored).symm.trans ha)
      subst hsame
      have hother : row.workspaceId ≠ other := fun h => hne (h.symm.trans (by simpa using hws))
      simp [WorkspaceBackpressureState.observe, hother]
  rw [storedPressure, hstored, storedPressure]

theorem evaluate_frame (workspaceId : Nat) (db : Db) :
    (evaluateWorkspaceBackpressure workspaceId db).2.workspaces = db.workspaces ∧
    (evaluateWorkspaceBackpressure workspaceId db).2.assignments = db.assignments ∧
    (evaluateWorkspaceBackpressure workspaceId db).2.concurrencyLimits = db.concurrencyLimits ∧
    (evaluateWorkspaceBackpressure workspaceId db).2.settings = db.settings := by
  simp only [evaluateWorkspaceBackpressure]
  split <;> simp [storePressure, emit]

/-- An evaluation reads the queues and the limits only. -/
theorem currentPressure_evaluate :
    currentPressure (evaluateWorkspaceBackpressure workspaceId db).2 other =
      currentPressure db other := by
  obtain ⟨-, hassignments, hlimits, hsettings⟩ := evaluate_frame workspaceId db
  simp only [currentPressure, queueLimits, pendingDepth, hassignments, hlimits, hsettings]

theorem evaluate_eq :
    (evaluateWorkspaceBackpressure workspaceId db).2 =
      if storedPressure db workspaceId = currentPressure db workspaceId then
        storePressure workspaceId (currentPressure db workspaceId) (pendingDepth db workspaceId) db
      else emit (pressureEvent (currentPressure db workspaceId)) workspaceId
        (.workspace workspaceId) none
        (storePressure workspaceId (currentPressure db workspaceId) (pendingDepth db workspaceId)
          db) := by
  by_cases hsame : storedPressure db workspaceId = currentPressure db workspaceId
  · rw [if_pos hsame]
    have hchanged : decide (storedPressure db workspaceId ≠ currentPressure db workspaceId) =
        false := by simp [hsame]
    exact if_neg (Bool.eq_false_iff.mp hchanged)
  · rw [if_neg hsame]
    have hchanged : decide (storedPressure db workspaceId ≠ currentPressure db workspaceId) =
        true := by simp [hsame]
    exact if_pos hchanged

theorem storedPressure_evaluate :
    storedPressure (evaluateWorkspaceBackpressure workspaceId db).2 other =
      if other = workspaceId then currentPressure db workspaceId else storedPressure db other := by
  have hstates : ∀ state depth,
      (emit (pressureEvent state) workspaceId (.workspace workspaceId) none
      (storePressure workspaceId state depth db)).backpressureStates =
        (storePressure workspaceId state depth db).backpressureStates := fun _ _ => rfl
  have hstored : storedPressure (evaluateWorkspaceBackpressure workspaceId db).2 other =
      storedPressure
      (storePressure workspaceId (currentPressure db workspaceId) (pendingDepth db workspaceId) db)
        other := by
    rw [evaluate_eq]
    split
    · rfl
    · simp only [storedPressure, pressureRow, hstates]
  rw [hstored]
  by_cases hown : other = workspaceId
  · rw [if_pos hown, hown, storedPressure_store]
  · rw [if_neg hown, storedPressure_store_of_ne _ _ hown]

theorem pressureEvents_evaluate :
    pressureEvents (evaluateWorkspaceBackpressure workspaceId db).2 other =
      pressureEvents db other +
        (if other = workspaceId ∧ storedPressure db workspaceId ≠
          currentPressure db workspaceId then 1 else 0) := by
  have hquiet : ∀ state depth, pressureEvents (storePressure workspaceId state depth db) other =
      pressureEvents db other := fun _ _ => rfl
  rw [evaluate_eq]
  by_cases hsame : storedPressure db workspaceId = currentPressure db workspaceId
  · rw [if_pos hsame, if_neg fun h => h.2 hsame, hquiet, Nat.add_zero]
  · rw [if_neg hsame, pressureEvents, emit, Table.count_insert, ← pressureEvents, hquiet]
    by_cases hown : other = workspaceId
    · rw [if_pos ⟨hown, hsame⟩, hown]
      cases currentPressure db workspaceId <;> simp [pressureEvent]
    · rw [if_neg fun h => hown h.1]
      simp [Ne.symm hown]

/-! ## One after the other -/

theorem evaluateEach_frame (ids : List Nat) :
    ∀ db : Db, (evaluateEach ids db).2.workspaces = db.workspaces ∧
      ∀ other, currentPressure (evaluateEach ids db).2 other = currentPressure db other := by
  induction ids with
  | nil => intro db; exact ⟨rfl, fun _ => rfl⟩
  | cons workspaceId rest ih =>
    intro db
    obtain ⟨hworkspaces, hcurrent⟩ := ih (evaluateWorkspaceBackpressure workspaceId db).2
    exact ⟨hworkspaces.trans (evaluate_frame workspaceId db).1,
      fun other => (hcurrent other).trans currentPressure_evaluate⟩

/-- Those evaluated are up to date, and the others as they were. -/
theorem storedPressure_evaluateEach (other : Nat) (ids : List Nat) :
    ∀ db : Db, storedPressure (evaluateEach ids db).2 other =
      if other ∈ ids then currentPressure db other else storedPressure db other := by
  induction ids with
  | nil => intro db; rfl
  | cons workspaceId rest ih =>
    intro db
    have hrest := ih (evaluateWorkspaceBackpressure workspaceId db).2
    rw [currentPressure_evaluate, storedPressure_evaluate] at hrest
    refine hrest.trans ?_
    by_cases hin : other ∈ rest
    · rw [if_pos hin, if_pos (List.mem_cons_of_mem _ hin)]
    · by_cases hown : other = workspaceId
      · rw [if_neg hin, if_pos hown, if_pos (hown ▸ List.mem_cons_self), hown]
      · rw [if_neg hin, if_neg hown, if_neg (by simp [hown, hin])]

/-- Each of distinct workspaces announces its change once. -/
theorem pressureEvents_evaluateEach (other : Nat) (ids : List Nat) :
    ∀ db : Db, ids.Nodup → pressureEvents (evaluateEach ids db).2 other =
      pressureEvents db other +
        (if storedPressure (evaluateEach ids db).2 other = storedPressure db other then 0
          else 1) := by
  induction ids with
  | nil => intro db _; simp [evaluateEach]
  | cons workspaceId rest ih =>
    intro db hnodup
    obtain ⟨hfresh, hrest⟩ := List.nodup_cons.mp hnodup
    have hevents := ih (evaluateWorkspaceBackpressure workspaceId db).2 hrest
    have hstored :=
      storedPressure_evaluateEach other rest (evaluateWorkspaceBackpressure workspaceId db).2
    rw [pressureEvents_evaluate] at hevents
    rw [storedPressure_evaluate] at hevents hstored
    by_cases hown : other = workspaceId
    · subst hown
      rw [if_neg hfresh, if_pos rfl] at hstored
      rw [if_pos rfl, if_pos hstored, Nat.add_zero] at hevents
      refine hevents.trans ?_
      rw [show storedPressure (evaluateEach (other :: rest) db).2 other =
        currentPressure db other from hstored]
      by_cases hsame : currentPressure db other = storedPressure db other
      · rw [if_pos hsame, if_neg fun h => h.2 hsame.symm]
      · rw [if_neg hsame, if_pos ⟨rfl, Ne.symm hsame⟩]
    · rw [if_neg hown, if_neg fun h => hown h.1, Nat.add_zero] at hevents
      exact hevents

theorem activeWorkspaces_nodup (db : Db) (order : List Nat) : (activeWorkspaces db order).Nodup :=
  List.nodup_reverse.mpr (List.nodup_dedup _)

end ContentOrchestrator

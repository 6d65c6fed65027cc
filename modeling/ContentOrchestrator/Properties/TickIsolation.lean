import ContentOrchestrator.Orchestration.SchedulerLoop

/-! # Fault isolation of the scheduler's ticks

A tick isolates faults if the rows of its batch that raise take nothing from the others
and do not come up again as they were. All of a tick is one transaction: the first row
that raises undoes the whole of it, its own lease included. -/

namespace ContentOrchestrator

open Lib

/-- The databases differ at most in these rows of the queue. -/
structure AgreeOff (rows : List Nat) (s t : Db) : Prop where
  jobs : ∀ jobId, jobId ∉ rows → t.jobs.get? jobId = s.jobs.get? jobId
  elsewhere : { t with jobs := s.jobs } = s

/-- The rows of the tick's batch that raise, in the order of the batch. -/
def TickInput.raising (tick : TickInput) (db : Db) : List Nat :=
  raisingRows tick (tickBatch tick db) (leaseBatch (tickBatch tick db) db)

/-- The rest of its batch. -/
def TickInput.sound (tick : TickInput) (db : Db) : List Nat :=
  soundRows tick (tickBatch tick db) (leaseBatch (tickBatch tick db) db)

/-- **A tick isolates faults**: it commits what it would have without the rows that raise, and each
of those has used up an attempt or changed its status. -/
structure FaultIsolated (tick : TickInput) (before after : Db) : Prop where
  others :
    AgreeOff (tick.raising before) (atomically (processBatch tick (tick.sound before)) before) after
  advanced : ∀ jobId ∈ tick.raising before, ∃ j j', before.jobs.get? jobId = some j ∧
    after.jobs.get? jobId = some j' ∧ (j.attempt < j'.attempt ∨ j'.status ≠ j.status)

/-- Ticks of the loop among the engine's other operations. -/
inductive LoopOp
  | tick (input : TickInput)
  | other (op : Op)

def loopStep (db : Db) : LoopOp → Db
  | .tick input => schedulerLoop db input
  | .other op => step db op

/-- No row of the tick's batch raises. -/
def noneRaises (db : Db) : LoopOp → Bool
  | .tick input => (input.raising db).isEmpty
  | .other _ => true

section Ticks

variable {tick : TickInput} {db : Db}

/-- A tick one of whose rows raises leaves no trace. -/
theorem schedulerLoop_raising (h : tick.raising db ≠ []) : schedulerLoop db tick = db :=
  (schedulerTick_fails.mpr h).atomically

theorem schedulerLoop_sound (h : tick.raising db = []) :
    schedulerLoop db tick = atomically (processBatch tick (tick.sound db)) db := by
  have hbatch : tick.sound db = tickBatch tick db := soundRows_eq h
  rw [hbatch]
  rfl

/-- **A tick isolates faults exactly when it has none.** -/
theorem faultIsolated_iff :
    FaultIsolated tick db (schedulerLoop db tick) ↔ tick.raising db = [] := by
  constructor
  · intro h
    cases hraising : tick.raising db with
    | nil => rfl
    | cons jobId rest =>
      have hmem : jobId ∈ tick.raising db := hraising ▸ List.mem_cons_self
      obtain ⟨j, j', hj, hj', hadvanced⟩ := h.advanced jobId hmem
      -- the row is as it was: the lease went with the tick
      rw [schedulerLoop_raising (List.ne_nil_of_mem hmem), hj] at hj'
      obtain rfl := Option.some.inj hj'
      rcases hadvanced with hattempt | hstatus
      · exact (Nat.lt_irrefl _ hattempt).elim
      · exact (hstatus rfl).elim
  · intro h
    refine ⟨?_, ?_⟩
    · rw [schedulerLoop_sound h]
      exact ⟨fun _ _ => rfl, rfl⟩
    · rw [h]
      exact fun _ hmem => (List.not_mem_nil hmem).elim

end Ticks

/-- **Fault isolation, exactly.** In a history of ticks, with any batch sizes, locks and database
faults, among the other operations of the engine, every tick isolates faults exactly when no row of
any tick's batch raises. -/
theorem faults_isolated_iff (db : Db) (history : List LoopOp) :
    (∀ n tick, history[n]? = some (.tick tick) →
      FaultIsolated tick (replay loopStep db (history.take n))
        (replay loopStep db (history.take (n + 1)))) ↔
        admits loopStep noneRaises db history = true := by
  have hstep : ∀ s op, (∀ tick, op = .tick tick → FaultIsolated tick s (loopStep s op)) ↔
      noneRaises s op = true := by
    intro s op
    cases op with
    | tick input =>
      simp only [LoopOp.tick.injEq, forall_eq', noneRaises, List.isEmpty_iff]
      exact faultIsolated_iff
    | other op => simp [noneRaises]
  rw [← everyStep_iff_admits (P := fun s op t => ∀ tick, op = .tick tick →
    FaultIsolated tick s t) hstep]
  constructor
  · rintro h n op hop tick rfl
    exact h n tick hop
  · exact fun h n tick hop => h n _ hop tick rfl

/-- A recurring row waits ahead of the first stage of a run. -/
def recurringDb : Db :=
  let started := step demoDb (.startRun 0 0 0)
  { started with
    jobs := started.jobs.insert ⟨fun id =>
      { id, workspaceId := 0, jobType := .recurring, refTable := "workspaces", refId := .run 0
        runAfter := 0
        priority := 1, createdAt := 0 }, fun _ => rfl⟩ }

/-- The stage row is not dispatched, and the recurring row stays as it was. -/
theorem recurring_row_undoes_tick :
    ¬ ∀ (db : Db) (tick : TickInput), FaultIsolated tick db (schedulerLoop db tick) := by
  intro h
  have hraising : ({ batchSize := 10 } : TickInput).raising recurringDb = [1] := by decide +kernel
  have hisolated := faultIsolated_iff.mp (h recurringDb { batchSize := 10 })
  rw [hraising] at hisolated
  cases hisolated

end ContentOrchestrator

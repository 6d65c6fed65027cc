import ContentOrchestrator.Services.GateLocks

/-! # Decisions, edits and review timeouts of one gate

A decision locks the gate's row and checks it then. The timeout reads the gate and the
run without a lock and writes what it has made of them at its flush: it waits for the
row's lock there, and does not look at the row again. A gate stops waiting by a verdict;
the store keeps the verdicts that were committed, in their order. -/

namespace ContentOrchestrator

open Lib

/-- How a gate stops waiting. -/
inductive GateVerdict
  | decided (reviewerId : Nat) (approved : Bool)
  | escalated
  | timedOut
deriving DecidableEq, Repr

structure VerdictStore where
  desk : Desk
  verdicts : List GateVerdict := []

inductive VerdictRequest
  | call (r : GateRequest)
  | timeout (jobId : Nat)

/-- The statement that comes next, or the end. -/
inductive VerdictPoint
  | call (point : GatePoint)
  | timeoutRequested (jobId : Nat)
  | gateRead (jobId : Nat) (gate : ReviewGate)
  | runRead (jobId : Nat) (gate : ReviewGate) (run : Option PipelineRun)
  | flushed (jobId : Nat) (gate : ReviewGate) (run : Option PipelineRun)
  | stale (jobId : Nat)

def GateVerdict.status : GateVerdict → ReviewGateStatus
  | .decided _ true => .approved
  | .decided _ false => .rejected
  | .escalated => .escalated
  | .timedOut => .timedOut

/-- The row a verdict leaves among the decisions. -/
def GateVerdict.decision : GateVerdict → Option (Nat × Bool)
  | .decided reviewerId approved => some (reviewerId, approved)
  | .escalated | .timedOut => none

/-- The run is as the verdict leaves it. -/
def GateVerdict.fits (before after : PipelineRunStatus) : GateVerdict → Bool
  | .decided _ true => after == .running || after == .succeeded
  | .decided _ false =>
    after == .failed || after == .running || after == .succeeded || after == before
  | .escalated => after == before
  | .timedOut => after == .failed

def GateRequest.on (gateId : Nat) : GateRequest → GateRequest
  | .edit r => .edit { r with gateId }
  | .decide r => .decide { r with gateId }

def VerdictRequest.start (gateId : Nat) : VerdictRequest → VerdictPoint
  | .call r => .call (r.on gateId).start
  | .timeout jobId => .timeoutRequested jobId

def VerdictPoint.next (gateId : Nat) (s : VerdictStore) (held : List Nat) :
    VerdictPoint → Option (List Nat × VerdictPoint)
  | .call point => (point.next { desk := s.desk } held).map fun p => (p.1, .call p.2)
  | .timeoutRequested jobId =>
    match s.desk.db.gates.get? gateId with
    | none => some (held, .stale jobId)
    | some gate =>
      if gate.status ≠ .awaiting then some (held, .stale jobId)
        else some (held, .gateRead jobId gate)
  | .gateRead jobId gate =>
    some (held, .runRead jobId gate (s.desk.db.runs.get? gate.pipelineRunId))
  | .runRead jobId gate run => some (gate.id :: held, .flushed jobId gate run)
  | .flushed _ _ _ | .stale _ => none

/-- The level is counted from the row as it was read. -/
def ReviewGate.escalateFrom (level timeoutAt : Nat) : Update ReviewGate :=
  ⟨fun g =>
    { g with status := .escalated, escalationLevel := level + 1, timeoutAt := some timeoutAt },
    fun _ => rfl⟩

/-- What the timeout writes, with the gate and the run as it has read them. -/
def writeTimeout (gate : ReviewGate) (run : Option PipelineRun) (db : Db) : Db :=
  if gate.escalationLevel = 0 then
    let newTimeout := db.now + hours defaultReviewTimeoutHours
    emit EventType.reviewEscalated gate.workspaceId (.pipelineRun gate.pipelineRunId) (some gate.id)
      { db with
        gates := db.gates.modify gate.id (ReviewGate.escalateFrom gate.escalationLevel newTimeout)
        jobs := db.jobs.insert (reviewTimeoutJob gate.workspaceId gate.id newTimeout db) }
  else
    let closed := emit EventType.reviewTimedOut gate.workspaceId (.pipelineRun gate.pipelineRunId)
        (some gate.id)
      (modifyGate gate.id ReviewGate.timeOut db)
    match run with
    | none => closed
    | some run => failRun run closed

def timeoutVerdict (gate : ReviewGate) : GateVerdict :=
  if gate.escalationLevel = 0 then .escalated else .timedOut

/-- The timeout's job is done with it. -/
def commitTimeout (jobId : Nat) (gate : ReviewGate) (run : Option PipelineRun) (s : VerdictStore) :
    VerdictStore where
  desk := { s.desk with db := modifyJob jobId JobSchedule.done (writeTimeout gate run s.desk.db) }
  verdicts := s.verdicts ++ [timeoutVerdict gate]

def GateEntry.verdict? : GateEntry → Option GateVerdict
  | .edited _ => none
  | .decided e => some (.decided e.request.reviewerId e.request.approved)

/-- A call that goes through leaves its desk, and its verdict if it is one. -/
def commitCall (u : GateStore → GateStore) (s : VerdictStore) : VerdictStore where
  desk := (u { desk := s.desk }).desk
  verdicts := s.verdicts ++ (u { desk := s.desk }).entries.filterMap GateEntry.verdict?

def VerdictPoint.commit : VerdictPoint → Option (VerdictStore → VerdictStore)
  | .call point => point.commit.map commitCall
  | .flushed jobId gate run => some (commitTimeout jobId gate run)
  | .stale jobId =>
    some fun s =>
      { s with desk := { s.desk with db := modifyJob jobId JobSchedule.done s.desk.db } }
  | .timeoutRequested _ | .gateRead _ _ | .runRead _ _ _ => none

def VerdictStore.elapse (elapsed : Nat) (s : VerdictStore) : VerdictStore :=
  { s with desk := { s.desk with db := { s.desk.db with now := s.desk.db.now + elapsed } } }

variable {s t : Db}

/-- A timeout over the rows it has just read does what the handler does in one piece. -/
theorem writeTimeout_alone {gateId : Nat} {gate : ReviewGate}
    (hgate : s.gates.get? gateId = some gate) (hawait : gate.status = .awaiting) :
    handleReviewTimeout gateId s = writeTimeout gate (s.runs.get? gate.pipelineRunId) s := by
  unfold handleReviewTimeout writeTimeout
  simp only [hgate, hawait, ne_eq, not_true_eq_false, if_false]
  by_cases hlevel : gate.escalationLevel = 0
  · have hrow : ∀ timeoutAt, s.gates.modify gate.id (ReviewGate.escalate timeoutAt) =
        s.gates.modify gate.id (ReviewGate.escalateFrom gate.escalationLevel timeoutAt) := by
      intro timeoutAt
      refine Table.modify_congr fun g hg => ?_
      obtain rfl : gate = g := Option.some.inj
        ((Table.get?_of_mem (Table.get?_eq_some.mp hgate).1).symm.trans hg)
      rfl
    rw [if_pos hlevel, if_pos hlevel, escalateGate, hrow]
  · rw [if_neg hlevel, if_neg hlevel]
    rfl

/-- A timeout's verdict on the rows it writes. -/
theorem writeTimeout_gates {gate g : ReviewGate} {run : Option PipelineRun}
    (hg : s.gates.get? gate.id = some g) :
    ∃ g', (writeTimeout gate run s).gates.get? gate.id = some g' ∧
      g'.pipelineRunId = g.pipelineRunId ∧
      g'.status = (timeoutVerdict gate).status ∧ g'.decidedBy = g.decidedBy := by
  unfold writeTimeout timeoutVerdict
  by_cases hlevel : gate.escalationLevel = 0
  · rw [if_pos hlevel, if_pos hlevel]
    exact ⟨(ReviewGate.escalateFrom _ _).apply g, Table.get?_modified _ hg, rfl, rfl, rfl⟩
  · rw [if_neg hlevel, if_neg hlevel]
    refine ⟨ReviewGate.timeOut.apply g, ?_, rfl, rfl, rfl⟩
    cases run with
    | none => exact Table.get?_modified _ hg
    | some run =>
      dsimp only
      rw [failRun_frame.2.2.2.1]
      exact Table.get?_modified _ hg

theorem writeTimeout_runs {gate : ReviewGate} {run row : PipelineRun}
    (hrun : s.runs.get? run.id = some row) :
    ∃ row', (writeTimeout gate (some run) s).runs.get? run.id = some row' ∧
      (timeoutVerdict gate).fits row.status row'.status = true := by
  unfold writeTimeout timeoutVerdict
  by_cases hlevel : gate.escalationLevel = 0
  · rw [if_pos hlevel, if_pos hlevel]
    exact ⟨row, hrun, beq_self_eq_true _⟩
  · rw [if_neg hlevel, if_neg hlevel]
    dsimp only
    rw [failRun_frame.1]
    exact ⟨_, Table.get?_modified (PipelineRun.finish .failed s.now) hrun, rfl⟩

/-! ## A decision's rows -/

section Decisions

/-- The decision rows stay as they are. -/
def SameDecisions (s t : Db) : Prop := t.decisions = s.decisions

theorem SameDecisions.refl (s : Db) : SameDecisions s s := rfl

theorem SameDecisions.trans (a b c : Db) (h : SameDecisions a b) (h' : SameDecisions b c) :
    SameDecisions a c :=
  Eq.trans h' h

variable {α β : Type}

theorem keeps_require (row : Option α) (error : OrchestrationError) :
    Keeps SameDecisions (require row error) := by
  cases row with
  | none => exact keeps_throw SameDecisions.refl error
  | some a => exact keeps_pure SameDecisions.refl a

theorem keeps_liftExcept (x : Except OrchestrationError α) :
    Keeps SameDecisions (liftExcept x) := by
  cases x with
  | error e => exact keeps_throw SameDecisions.refl e
  | ok a => exact keeps_pure SameDecisions.refl a

/-- A query, and what goes on with its answer. -/
theorem keeps_query {f : Db → Session β} (hf : ∀ db, Keeps SameDecisions (f db)) :
    Keeps SameDecisions (get >>= f) :=
  Keeps.bind SameDecisions.trans (keeps_get SameDecisions.refl) hf

theorem keeps_then {x : Session α} {f : α → Session β} (hx : Keeps SameDecisions x)
    (hf : ∀ a, Keeps SameDecisions (f a)) : Keeps SameDecisions (x >>= f) :=
  Keeps.bind SameDecisions.trans hx hf

theorem keeps_write {u : Db → Db} (hu : ∀ s, (u s).decisions = s.decisions) :
    Keeps SameDecisions (modify u : Session PUnit) := keeps_modify hu

theorem keeps_done (a : α) : Keeps SameDecisions (pure a : Session α) :=
  keeps_pure SameDecisions.refl a

theorem keeps_refuse (error : OrchestrationError) : Keeps SameDecisions (throw error : Session α) :=
  keeps_throw SameDecisions.refl error

/-- Nothing runs after a raise. -/
theorem keeps_refuse_then (error : OrchestrationError) (f : α → Session β) :
    Keeps SameDecisions (throw error >>= f) := by
  rintro s t (⟨b, h⟩ | ⟨e, h⟩)
  · obtain ⟨a, u, h1, -⟩ := returns_bind.mp h
    exact absurd h1 returns_throw
  · rcases raises_bind.mp h with h | ⟨a, u, h1, -⟩
    · exact keeps_refuse error s t (.inr ⟨e, h⟩)
    · exact absurd h1 returns_throw

theorem releaseSpend_decisions {run : PipelineRun} {v : SpendReservation} :
    (releaseSpend run v s).decisions = s.decisions := by
  unfold releaseSpend
  split <;> rfl

theorem releaseEach_decisions {run : PipelineRun} {rows : List SpendReservation} :
    (releaseEach run rows s).decisions = s.decisions := by
  unfold releaseEach
  induction rows generalizing s with
  | nil => rfl
  | cons v rest ih => exact ih.trans releaseSpend_decisions

theorem failRun_decisions {run : PipelineRun} : (failRun run s).decisions = s.decisions :=
  releaseEach_decisions

theorem loadRun_keeps (runId : Nat) : Keeps SameDecisions (loadRun runId) := by
  unfold loadRun
  exact keeps_query fun db => keeps_require _ _

theorem pauseForReview_keeps (run : PipelineRun) (stage : ContentStage) (timeout : Nat)
    (stored : Table ReviewGate) :
    Keeps SameDecisions (pauseForReview run stage timeout stored) := by
  unfold pauseForReview
  refine keeps_then (loadRun_keeps _) fun current => ?_
  dsimp only
  split
  · exact keeps_refuse_then _ _
  · split
    · exact keeps_done _
    · exact keeps_query fun db => keeps_then (keeps_require _ _) fun item =>
        keeps_then (keeps_write fun _ => rfl) fun _ => keeps_done _

theorem advanceOrFinish_keeps (run : PipelineRun) (stage : ContentStage)
    (trigger : WorkflowTransitionTrigger) (context : List (String × Json))
    (stored : Table ReviewGate) :
    Keeps SameDecisions (advanceOrFinish run stage trigger context stored) := by
  unfold advanceOrFinish definitionIdOf
  refine keeps_then (keeps_require _ _) fun definitionId => keeps_query fun db =>
    keeps_then (keeps_liftExcept _) fun way => ?_
  cases way with
  | finish stage => exact keeps_write fun _ => rfl
  | gate stageDef =>
    exact keeps_then (keeps_write fun _ => rfl) fun _ =>
      keeps_then (pauseForReview_keeps _ _ _ _) fun _ => keeps_done _
  | work stageDef => exact keeps_then (keeps_write fun _ => rfl) fun _ => keeps_write fun _ => rfl

theorem resumeFromReview_keeps (gate : ReviewGate) (approved : Bool) :
    Keeps SameDecisions (resumeFromReview gate approved) := by
  unfold resumeFromReview
  split
  · exact keeps_done _
  refine keeps_then (loadRun_keeps _) fun run => keeps_query fun stored =>
    keeps_then (keeps_write fun _ => rfl) fun _ => ?_
  split
  · exact keeps_then (keeps_write fun _ => rfl) fun _ => advanceOrFinish_keeps _ _ _ _ _
  refine keeps_query fun db => keeps_then (keeps_require _ _) fun definitionId =>
    keeps_then (keeps_liftExcept _) fun edge => ?_
  cases edge with
  | none =>
    exact keeps_then (keeps_write fun _ => rfl) fun _ => keeps_write fun _ => failRun_decisions
  | some transition =>
    exact keeps_then (keeps_write fun _ => rfl) fun _ => advanceOrFinish_keeps _ _ _ _ _

theorem onReviewDecided_keeps (approved : Bool) (event : OutboxEvent) :
    Keeps SameDecisions (onReviewDecided approved event) := by
  unfold onReviewDecided
  refine keeps_then (keeps_require _ _) fun gateId => keeps_query fun db => ?_
  split
  · exact resumeFromReview_keeps _ _
  · exact keeps_done _

theorem loadEvent_keeps (eventId : Nat) : Keeps SameDecisions (loadEvent eventId) := by
  unfold loadEvent
  exact keeps_query fun db => keeps_require _ _

theorem recordFailure_keeps (eventId : Nat) (consumer : EventConsumer)
    (error : OrchestrationError) :
    Keeps SameDecisions (recordFailure eventId consumer error) := by
  unfold recordFailure
  refine keeps_then (keeps_write fun _ => rfl) fun _ => keeps_then (loadEvent_keeps _) fun event =>
    ?_
  split
  · exact keeps_then (keeps_write fun _ => rfl) fun _ =>
      keeps_then (keeps_write fun _ => rfl) fun _ => keeps_done _
  · exact keeps_done _

/-- Delivery keeps what the handler keeps. -/
theorem deliverTo_keeps {eventId : Nat} {consumer : Consumer}
    (hhandlers : ∀ kind handler event, consumer.handlers.lookup kind = some handler →
      Keeps SameDecisions (handler event)) : Keeps SameDecisions (deliverTo eventId consumer) := by
  unfold deliverTo getOrCreateConsumer getOrCreateCheckpoint
  refine keeps_then (loadEvent_keeps _) fun event => ?_
  split
  · exact keeps_done _
  rename_i handler hlookup
  refine keeps_then (keeps_query fun db => ?_) fun row =>
    keeps_then (keeps_query fun db => ?_) fun checkpoint => ?_
  · split
    · exact keeps_done _
    · exact keeps_then (keeps_write fun _ => rfl) fun _ => keeps_done _
  · split
    · exact keeps_done _
    · exact keeps_then (keeps_write fun _ => rfl) fun _ => keeps_done _
  · split
    · exact keeps_done _
    refine keeps_tryCatch SameDecisions.trans ?_ fun error => ?_
    · exact keeps_then (hhandlers _ _ _ hlookup) fun _ =>
        keeps_then (keeps_write fun _ => rfl) fun _ => keeps_done _
    · split
      · exact keeps_refuse _
      · exact recordFailure_keeps _ _ _

theorem dispatchOne_keeps (eventId : Nat) : Keeps SameDecisions (dispatchOne registry eventId) := by
  unfold dispatchOne registry
  simp only [deliverAll]
  refine keeps_then (keeps_then (deliverTo_keeps fun kind handler event hlookup => ?_) fun _ =>
    keeps_then (keeps_done _) fun _ => keeps_done _) fun _ =>
      keeps_then (loadEvent_keeps _) fun event => ?_
  · simp only [List.lookup_cons, List.lookup_nil] at hlookup
    split at hlookup
    · cases hlookup
      exact onReviewDecided_keeps true event
    · split at hlookup
      · cases hlookup
        exact onReviewDecided_keeps false event
      · cases hlookup
  · split
    · exact keeps_write fun _ => rfl
    · exact keeps_done _

end Decisions

/-! ## What a decision leaves -/

variable {gate : ReviewGate} {approved : Bool}

/-- A run that was set running goes on or is complete. -/
theorem Advanced.status {run row : PipelineRun} {stage : ContentStage}
    {trigger : WorkflowTransitionTrigger} {context : List (String × Json)}
    {stored : Table ReviewGate} (h : Advanced run stage trigger context stored s t)
    (hrow : s.runs.get? run.id = some row) (hrunning : row.status = .running)
    (hwaits : ∃ g, g ∈ stored ∧ g.isAwaitingFor run.id = true) :
    ∃ row', t.runs.get? run.id = some row' ∧
      (row'.status = .running ∨ row'.status = .succeeded) := by
  have hmoved : ∀ stage, (modifyRun run.id (PipelineRun.moveTo stage) s).runs.get? run.id =
      some ((PipelineRun.moveTo stage).apply row) := fun stage => Table.get?_modified _ hrow
  cases h with
  | @finished _ last _ _ =>
    refine ⟨(PipelineRun.moveTo last).apply ((PipelineRun.finish .succeeded s.now).apply row), ?_,
      .inr rfl⟩
    rw [succeedRun_frame.1]
    exact Table.get?_modified _ (Table.get?_modified _ hrow)
  | queued _ _ => exact ⟨_, hmoved _, .inl hrunning⟩
  | gated _ _ clear _ =>
    obtain ⟨g, hg, hawaits⟩ := hwaits
    rw [clear g hg] at hawaits
    cases hawaits
  | kept _ _ _ _ => exact ⟨_, hmoved _, .inl hrunning⟩

/-- **Where a verdict leaves the run of its gate.** -/
theorem Resumed.status {run : PipelineRun} (h : Resumed gate approved s t) (hmem : gate ∈ s.gates)
    (hawait : gate.status = .awaiting) (hrun : s.runs.get? gate.pipelineRunId = some run)
    (hclosed : t.gates ≠ s.gates) (reviewerId : Nat) :
    ∃ run', t.runs.get? gate.pipelineRunId = some run' ∧
      (GateVerdict.decided reviewerId approved).fits run.status run'.status = true := by
  have hresumed : ∀ {row : PipelineRun}, s.runs.get? gate.pipelineRunId = some row →
      row.id = gate.pipelineRunId ∧ (resumeRun gate approved row.id s).runs.get? row.id =
        some (PipelineRun.resume.apply row) := by
    intro row hrow
    have hid : row.id = gate.pipelineRunId := (Table.get?_eq_some.mp hrow).2
    rw [← hid] at hrow
    exact ⟨hid, Table.get?_modified PipelineRun.resume hrow⟩
  have hfits : ∀ {row : PipelineRun}, row.status = .running ∨ row.status = .succeeded →
      (GateVerdict.decided reviewerId approved).fits run.status row.status = true := by
    intro row hstatus
    cases approved <;> rcases hstatus with hstatus | hstatus <;> simp [GateVerdict.fits, hstatus]
  cases h with
  | @rejected row found verdict =>
    have hid : row.id = gate.pipelineRunId := (Table.get?_eq_some.mp found).2
    subst verdict
    refine ⟨(PipelineRun.finish .failed s.now).apply (PipelineRun.clearPause.apply row), ?_, rfl⟩
    rw [failRun_frame.1, ← hid]
    exact Table.get?_modified _ (Table.get?_modified _ (hid ▸ found))
  | @advanced row _ found _ advanced =>
    obtain ⟨hid, hrow⟩ := hresumed found
    have hwaits : gate.isAwaitingFor row.id =
        true := by simp [ReviewGate.isAwaitingFor, hid, hawait]
    obtain ⟨row', hrow', hstatus⟩ := advanced.status hrow rfl ⟨gate, hmem, hwaits⟩
    rw [← hid]
    exact ⟨row', hrow', hfits hstatus⟩
  | @stuck row _ _ found _ raised =>
    obtain ⟨hid, hrow⟩ := hresumed found
    rw [← hid]
    rcases (advanceOrFinish_raises raised).1 with rfl | ⟨_, stageDef, _, _, rfl⟩
    · exact ⟨PipelineRun.resume.apply row, hrow, hfits (.inl rfl)⟩
    · exact ⟨(PipelineRun.moveTo stageDef.stageKey).apply (PipelineRun.resume.apply row),
        Table.get?_modified _ hrow,
        hfits (.inl rfl)⟩
  | unrouted found verdict =>
    subst verdict
    exact ⟨run, hrun, by simp [GateVerdict.fits]⟩
  | unloaded => exact absurd rfl hclosed

theorem writeTimeout_decisions {run : Option PipelineRun} :
    (writeTimeout gate run s).decisions = s.decisions := by
  unfold writeTimeout
  split
  · rfl
  · cases run with
    | none => rfl
    | some run => exact failRun_decisions

/-- The rows a reviewer's verdict leaves. -/
structure VerdictRows (gateId runId reviewerId : Nat) (approved : Bool) (s t : Db) : Prop where
  gates : ∃ now, t.gates = s.gates.modify gateId
    ((ReviewGate.recordReviewer reviewerId).andThen (ReviewGate.decide approved now))
  decisions : ∃ row, t.decisions.rows = s.decisions.rows ++ [row] ∧ row.reviewerId = reviewerId ∧
    row.approved = approved
  run : ∀ run, s.runs.get? runId = some run → ∃ run', t.runs.get? runId = some run' ∧
    (GateVerdict.decided reviewerId approved).fits run.status run'.status = true

theorem deliverVerdict_decisions {reviewerId : Nat} {v : Unit}
    (h : Returns (deliverVerdict gate reviewerId approved) s v t) :
    ∃ row, t.decisions.rows = s.decisions.rows ++ [row] ∧ row.reviewerId = reviewerId ∧
      row.approved = approved := by
  unfold deliverVerdict submitReviewDecision at h
  simp only [returns_bind, returns_get, returns_require] at h
  obtain ⟨eventId, s0, hsubmit, u, s1, hdispatch, _, _, ⟨rfl, rfl⟩, decided, _, ⟨_, rfl⟩, h⟩ := h
  have hlast : t = s1 := by
    split at h
    · exact absurd h returns_throw
    · exact (returns_pure.mp h).2.symm
  have hawait : gate.status = .awaiting := by
    by_contra hne
    simp [hne] at hsubmit
  simp only [hawait, ne_eq, not_true_eq_false, if_false, returns_bind, returns_loadRun,
    returns_modify, returns_get, returns_pure] at hsubmit
  obtain ⟨run, _, ⟨_, rfl⟩, _, _, rfl, _, _, rfl, _, _, ⟨rfl, rfl⟩, _, _, rfl, rfl, rfl⟩ := hsubmit
  have hsame := dispatchOne_keeps _ _ _ (.inl ⟨u, hdispatch⟩)
  rw [hlast, hsame]
  exact ⟨_, rfl, rfl, rfl⟩

/-- **A verdict that is delivered** leaves its own gate, its own decision and its own run. -/
theorem deliverVerdict_rows {gateId reviewerId : Nat} {expected : Option Nat} {v : Unit}
    (found : s.gates.get? gateId = some gate)
    (admitted : assertDecidable gate approved expected = .ok ())
    (h : Returns (deliverVerdict gate reviewerId approved) s v t) :
    VerdictRows gateId gate.pipelineRunId reviewerId approved s t := by
  have halone :=
    deliverVerdict_alone (r := ⟨gate.workspaceId, gateId, reviewerId, approved, expected⟩) found rfl
    admitted h
  obtain ⟨gate', s1, s2, found', -, -, recorded, applied, booked, decided, result, settled⟩ :=
    decideReviewGate_returns halone
  obtain rfl : gate = gate' := Option.some.inj (found.symm.trans found')
  have hrows := decided_rows found admitted recorded applied booked result settled
  refine ⟨⟨s1.now, hrows⟩, deliverVerdict_decisions h, fun run hrun => ?_⟩
  have hget := recorded.recorded_gate found
  have hclosed : s2.gates ≠ s1.gates := by
    intro hsame
    rw [booked.gates, hsame, hget] at result
    exact settled (Option.some.inj result ▸ awaiting_of_decidable admitted)
  have hruns : s1.runs = s.runs := recorded.runs
  rw [booked.runs]
  exact applied.status (Table.get?_eq_some.mp hget).1 (awaiting_of_decidable admitted)
    (by rw [hruns]; exact hrun)
    hclosed reviewerId

end ContentOrchestrator

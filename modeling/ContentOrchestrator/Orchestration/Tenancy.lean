import ContentOrchestrator.Orchestration.RowMoves

/-! # Queue rows stay in the workspace of their run

A job is queued for the workspace of the run it goes on with, or of the gate it watches,
and no later pass over the row moves it. So what is removed by workspace is removed for
every run of it. -/

namespace ContentOrchestrator

open Lib

variable {s t u : Db} {home : Ref → Nat → Prop}

/-- The row is about the same run or gate, for the same workspace. -/
structure SameErrand (j j' : JobSchedule) : Prop where
  workspaceId : j'.workspaceId = j.workspaceId
  refId : j'.refId = j.refId
  jobType : j'.jobType = j.jobType

theorem SameErrand.refl (j : JobSchedule) : SameErrand j j := ⟨rfl, rfl, rfl⟩

theorem SameErrand.trans {a b c : JobSchedule} (h : SameErrand a b) (h' : SameErrand b c) :
    SameErrand a c :=
  ⟨h'.workspaceId.trans h.workspaceId, h'.refId.trans h.refId, h'.jobType.trans h.jobType⟩

/-- A review timeout is about a gate, every other job about a run, and each is queued where
that is at home. -/
structure IsLodged (home : Ref → Nat → Prop) (j : JobSchedule) : Prop where
  place : home j.refId j.workspaceId
  ofGate : j.jobType = .reviewTimeout → ∃ gateId, j.refId = .gate gateId
  ofRun : j.jobType ≠ .reviewTimeout → ∃ runId, j.refId = .run runId

theorem IsLodged.same {a b : JobSchedule} (h : IsLodged home a) (hsame : SameErrand a b) :
    IsLodged home b := by
  refine ⟨?_, ?_, ?_⟩
  · rw [hsame.refId, hsame.workspaceId]
    exact h.place
  · rw [hsame.refId, hsame.jobType]
    exact h.ofGate
  · rw [hsame.refId, hsame.jobType]
    exact h.ofRun

theorem IsLodged.mono {home' : Ref → Nat → Prop} {j : JobSchedule} (h : IsLodged home j)
    (hhome : ∀ ref workspaceId, home ref workspaceId → home' ref workspaceId) :
    IsLodged home' j := ⟨hhome _ _ h.place, h.ofGate, h.ofRun⟩

theorem isLodged_runJob {j : JobSchedule} {runId : Nat} (href : j.refId = .run runId)
    (hkind : j.jobType ≠ .reviewTimeout) (hhome : home (.run runId) j.workspaceId) :
    IsLodged home j :=
  ⟨href ▸ hhome, fun h => absurd h hkind, fun _ => ⟨runId, href⟩⟩

/-- Old rows keep their errand, and new ones are queued at home. -/
abbrev Lodges (home : Ref → Nat → Prop) (s t : Db) : Prop :=
  Table.Evolves SameErrand (IsLodged home) s.jobs t.jobs

namespace Lodges

theorem of_eq (h : t.jobs = s.jobs) : Lodges home s t := Table.Evolves.of_eq SameErrand.refl h

theorem trans (h : Lodges home s t) (h' : Lodges home t u) : Lodges home s u :=
  Table.Evolves.trans (fun _ _ _ => SameErrand.trans) (fun _ _ => IsLodged.same) h h'

theorem modify {k : Nat} {v : Update JobSchedule} (hv : ∀ j, SameErrand j (v.apply j))
    (h : t.jobs = s.jobs.modify k v) : Lodges home s t :=
  Table.Evolves.modify SameErrand.refl (fun j _ => hv j) h

theorem modifyWhere {q : JobSchedule → Bool} {v : Update JobSchedule}
    (hv : ∀ j, SameErrand j (v.apply j)) (h : t.jobs = s.jobs.modifyWhere q v) : Lodges home s t :=
  Table.Evolves.modifyWhere SameErrand.refl (fun j _ _ => hv j) h

theorem enqueueStage {run : PipelineRun} {stage : ContentStage} {attempt : Nat}
    {runAfter : Option Nat} (hhome : home (.run run.id) run.workspaceId) :
    Lodges home s (enqueueStage run stage attempt runAfter s) := by
  refine Table.Evolves.insert SameErrand.refl ?_ enqueueStage_frame.2.1
  refine isLodged_runJob rfl ?_ hhome
  simp only [stageJob]
  split <;> simp

theorem watchGate {gateId workspaceId runAfter : Nat} {m : Db}
    (hhome : home (.gate gateId) workspaceId)
    (h : t.jobs = s.jobs.insert (reviewTimeoutJob workspaceId gateId runAfter m)) :
    Lodges home s t :=
  Table.Evolves.insert SameErrand.refl
    ⟨hhome, fun _ => ⟨gateId, rfl⟩, fun hkind => absurd rfl hkind⟩ h

theorem openReviewGate {run : PipelineRun} {item : ContentItem} {stage : ContentStage}
    {timeout : Nat} (hopened : ∀ gate ∈ (openReviewGate run item stage timeout s).gates,
      home (.gate gate.id) gate.workspaceId) :
    Lodges home s (openReviewGate run item stage timeout s) := by
  refine .watchGate ?_ openReviewGate_frame.2.1
  refine hopened ((newGate run item stage timeout s).make s.gates.next) ?_
  rw [openReviewGate_frame.2.2.2.1]
  exact Table.mem_insert.mpr (.inr rfl)

theorem enqueueCompensations {run : PipelineRun} {stages : List ContentStage}
    (hhome : home (.run run.id) run.workspaceId) :
    Lodges home s (enqueueCompensations run stages s) := by
  unfold ContentOrchestrator.enqueueCompensations
  induction stages generalizing s with
  | nil => exact .of_eq rfl
  | cons stage rest ih =>
    have hrow : Lodges home s (enqueueCompensation run stage s) :=
      Table.Evolves.insert SameErrand.refl (isLodged_runJob rfl (fun h => by cases h) hhome)
        enqueueCompensation_frame.2.1
    exact hrow.trans ih

end Lodges

/-! ## The operations -/

theorem Advanced.lodges {run : PipelineRun} {stage : ContentStage}
    {trigger : WorkflowTransitionTrigger} {context : List (String × Json)}
    {stored : Table ReviewGate} (h : Advanced run stage trigger context stored s t)
    (hhome : home (.run run.id) run.workspaceId)
    (hopened : ∀ gate ∈ t.gates, home (.gate gate.id) gate.workspaceId) : Lodges home s t := by
  cases h with
  | finished _ _ => exact .of_eq (by simp)
  | @queued _ stageDef _ _ =>
    have hmove : Lodges home s (modifyRun run.id (PipelineRun.moveTo stageDef.stageKey) s) :=
      .of_eq rfl
    exact hmove.trans (.enqueueStage hhome)
  | @gated _ stageDef _ _ _ _ _ =>
    have hmove : Lodges home s (modifyRun run.id (PipelineRun.moveTo stageDef.stageKey) s) :=
      .of_eq rfl
    exact hmove.trans (.openReviewGate hopened)
  | kept _ _ _ _ => exact .of_eq rfl

theorem FailureHandled.lodges {run : PipelineRun} {stage : ContentStage} {attempt : Nat}
    {message : String} (h : FailureHandled run stage attempt message s t)
    (hhome : home (.run run.id) run.workspaceId) :
    Lodges home s t := by
  have hfail : Lodges home s (failStage run stage attempt message s) := .of_eq (by simp [failStage])
  cases h with
  | retried _ _ _ _ =>
    have hemit : Lodges home s (emitForRun EventType.stageFailed run s) := .of_eq (by simp)
    exact hemit.trans (.enqueueStage hhome)
  | failed => exact hfail
  | @compensated stages =>
    have hbegin : Lodges home s (modifyRun run.id (PipelineRun.setStatus .compensating)
        (failStage run stage attempt message s)) := hfail.trans (.of_eq rfl)
    exact (hbegin.trans (.enqueueCompensations hhome)).trans (.of_eq rfl)

theorem Submitted.lodges {a : StageAssignment} {result : Option (List (String × Json))}
    {success : Bool} {message : String} (h : Submitted a result message s success t)
    (hhome : ∀ run, s.runs.get? a.pipelineRunId = some run → home (.run run.id) run.workspaceId)
    (hopened : ∀ gate ∈ t.gates, home (.gate gate.id) gate.workspaceId) : Lodges home s t := by
  cases h with
  | orphaned _ => exact .of_eq (by simp)
  | @succeeded run s1 _ found _ settled advanced =>
    have hs1 : Lodges home s s1 := .of_eq (settled_frame settled).2.1
    rcases advanced with ⟨_, rfl⟩ | ⟨_, ha⟩
    · exact hs1
    · exact hs1.trans (ha.lodges (hhome run found) hopened)
  | @failed run s1 _ found _ settled handled =>
    have hs1 : Lodges home s s1 := by
      rcases settled with ⟨_, rfl⟩ | ⟨_, _, rfl⟩ <;> exact .of_eq (by simp [recordFailedAttempt])
    exact hs1.trans (handled.lodges (hhome run found))

theorem Recovered.jobs {a : StageAssignment} {reason : RecoveryReason}
    (h : Recovered a reason s t) :
    t.jobs = s.jobs := by
  cases h with
  | skipped _ => rfl
  | requeued _ _ _ =>
    unfold requeueAssignment
    cases (releaseWorkerSlot a.workerId s).runs.get? a.pipelineRunId <;> simp
  | exhausted _ _ =>
    unfold deadLetterAssignment
    split
    · split <;> simp
    · simp

theorem Claimed.jobs {workerId : Nat} {claimToken : Option Nat} {locked : List Nat}
    (h : Claimed workerId claimToken locked s t) : t.jobs = s.jobs := by
  cases h with
  | idle => rfl
  | chosen _ _ _ _ _ _ _ settled => cases settled <;> simp

theorem handleReviewTimeout_lodges {gateId : Nat}
    (hheld : ∀ gate ∈ s.gates, home (.gate gate.id) gate.workspaceId) :
    Lodges home s (handleReviewTimeout gateId s) := by
  unfold handleReviewTimeout
  split
  · exact .of_eq rfl
  rename_i gate hgate
  split
  · exact .of_eq rfl
  split
  · exact .watchGate (hheld gate (Table.get?_eq_some.mp hgate).1) escalateGate_frame.2.1
  · unfold timeOutGate
    split <;> exact .of_eq (by simp)

theorem Resumed.lodges {gate : ReviewGate} {approved : Bool} (h : Resumed gate approved s t)
    (hhome : ∀ run, s.runs.get? gate.pipelineRunId = some run → home (.run run.id) run.workspaceId)
    (hopened : ∀ gate ∈ t.gates, home (.gate gate.id) gate.workspaceId) : Lodges home s t := by
  have hresume : ∀ runId, Lodges home s (resumeRun gate approved runId s) := fun _ => .of_eq rfl
  cases h with
  | rejected _ _ => exact .of_eq (by simp)
  | advanced found _ advanced => exact (hresume _).trans (advanced.lodges (hhome _ found) hopened)
  | stuck _ _ raised =>
    rcases (advanceOrFinish_raises raised).1 with rfl | ⟨_, _, _, _, rfl⟩ <;> exact .of_eq rfl
  | unrouted _ _ => exact .of_eq rfl
  | unloaded => exact .of_eq rfl

theorem Revivals.lodges {workspaceId : Nat} {targets : List RetryTarget}
    (h : Revivals workspaceId s targets t)
    (hhome : ∀ target ∈ targets, home (.run target.runId) workspaceId) :
    Lodges home s t := by
  induction h with
  | nothing same => exact .of_eq same.jobs
  | @more targets target t u _ once ih =>
    have hbefore := ih fun other hmem => hhome other (List.mem_append_left _ hmem)
    obtain ⟨run, attempt, hrun, _, hsame⟩ := once
    have hid : run.id = target.runId := (Table.get?_eq_some.mp hrun).2
    have hin : home (.run run.id) workspaceId := by
      rw [hid]
      exact hhome target (List.mem_append_right _ (List.mem_singleton_self target))
    have hrevive : Lodges home t (reviveRun run t) := .of_eq reviveRun_frame.1
    have hqueue : Lodges home (reviveRun run t)
        (enqueueOperatorRetry workspaceId run.id target.stageKey attempt (reviveRun run t)) :=
      Table.Evolves.insert SameErrand.refl (isLodged_runJob rfl (fun h => by cases h) hin) rfl
    exact ((hbefore.trans hrevive).trans hqueue).trans (.of_eq hsame.jobs)

theorem Processed.lodges {job : JobSchedule} {lockedWorkers : List Nat}
    (h : Processed job lockedWorkers s t) (hkind : job.jobType ≠ .stageTimeout)
    (hheld : ∀ gate ∈ s.gates, home (.gate gate.id) gate.workspaceId) : Lodges home s t := by
  have hclose : ∀ {m : Db} {v : Update JobSchedule}, m.jobs = s.jobs →
      (∀ j, SameErrand j (v.apply j)) →
      Lodges home s (modifyJob job.id v m) := by
    intro m v hm hv
    refine .modify (k := job.id) (v := v) hv ?_
    rw [← hm]
    exact modifyJob_frame.2.1
  have hdone : ∀ j, SameErrand j (JobSchedule.done.apply j) := fun _ => ⟨rfl, rfl, rfl⟩
  cases h with
  | parked _ _ _ _ _ => exact hclose rfl fun _ => ⟨rfl, rfl, rfl⟩
  | retired _ _ _ _ _ => exact hclose rfl fun _ => ⟨rfl, rfl, rfl⟩
  | repeated _ _ _ _ _ => exact hclose rfl hdone
  | held _ _ _ _ _ _ _ => exact hclose (by simp) fun _ => ⟨rfl, rfl, rfl⟩
  | assigned _ _ _ _ _ _ _ => exact hclose (by simp) hdone
  | waiting _ _ _ _ _ _ _ => exact hclose (by simp) hdone
  | rescheduled _ _ _ => exact hclose rfl fun _ => ⟨rfl, rfl, rfl⟩
  | exhausted _ _ _ exhausted =>
    cases exhausted with
    | alone _ routed =>
      exact .modify (k := job.id) (v := JobSchedule.exhaust) (fun _ => ⟨rfl, rfl, rfl⟩)
        (by simp [routed])
    | withRun _ _ routed =>
      exact .modify (k := job.id) (v := JobSchedule.exhaust) (fun _ => ⟨rfl, rfl, rfl⟩)
        (by simp [routed])
  | stageTimedOut kind => exact absurd kind hkind
  | reviewTimedOut _ _ =>
    exact (handleReviewTimeout_lodges hheld).trans
      (.modify (k := job.id) (v := JobSchedule.done) hdone modifyJob_frame.2.1)
  | finished _ => exact hclose rfl hdone

/-! ## Every step -/

/-- The workspace the stored run belongs to. -/
def Db.houses (db : Db) (runId workspaceId : Nat) : Prop :=
  ∃ run, db.runs.get? runId = some run ∧ run.workspaceId = workspaceId

/-- The stored run or gate belongs to the workspace. -/
def Db.housesRef (db : Db) : Ref → Nat → Prop
  | .run runId, workspaceId => db.houses runId workspaceId
  | .gate gateId, workspaceId =>
    ∃ gate, db.gates.get? gateId = some gate ∧ gate.workspaceId = workspaceId
  | _, _ => False

theorem Db.housesRef_gate {db : Db} {gate : ReviewGate} (hgate : gate ∈ db.gates) :
    db.housesRef (.gate gate.id) gate.workspaceId := ⟨gate, Table.get?_of_mem hgate, rfl⟩

/-- Every job waits in the workspace of the run or gate it is about. -/
def Db.Lodged (db : Db) : Prop := ∀ j ∈ db.jobs, IsLodged db.housesRef j

theorem RunsMove.houses {op : Op} (h : RunsMove op s t) {runId workspaceId : Nat}
    (hin : s.houses runId workspaceId) :
    t.houses runId workspaceId := by
  obtain ⟨run, hrun, hws⟩ := hin
  obtain ⟨run', hrun', hmove⟩ := h.get? hrun
  exact ⟨run', hrun', hmove.same.workspaceId.trans hws⟩

theorem GateMove.place {op : Op} {g g' : ReviewGate} (h : GateMove op s g g') :
    g'.id = g.id ∧ g'.pipelineRunId = g.pipelineRunId ∧ g'.workspaceId = g.workspaceId := by
  cases h with
  | kept => exact ⟨rfl, rfl, rfl⟩
  | escalated => exact ⟨rfl, rfl, rfl⟩
  | @decided _ _ approved => cases approved <;> exact ⟨rfl, rfl, rfl⟩

theorem Effect.housesRef {op : Op} (h : Effect op s t) (hs : s.Sound) (ref : Ref)
    (workspaceId : Nat) (hin : s.housesRef ref workspaceId) : t.housesRef ref workspaceId := by
  cases ref with
  | run runId => exact (h.runs hs.jobs hs.gates).houses hin
  | gate gateId =>
    obtain ⟨gate, hgate, hws⟩ := hin
    obtain ⟨gate', hgate', hmove⟩ :=
      (h.gates hs.jobs hs.gates).get? (fun _ _ hmove => hmove.place.1) hgate
    exact ⟨gate', hgate', hmove.place.2.2.trans hws⟩
  | _ => exact hin.elim

theorem Effect.lodges {op : Op} (h : Effect op s t) (hs : s.Sound) : Lodges t.housesRef s t := by
  have hstay := h.housesRef hs
  have hopened : ∀ gate ∈ t.gates, t.housesRef (.gate gate.id) gate.workspaceId :=
    fun _ => Db.housesRef_gate
  have hheld : ∀ gate ∈ s.gates, t.housesRef (.gate gate.id) gate.workspaceId :=
    fun _ hgate => hstay _ _ (Db.housesRef_gate hgate)
  have hhome : ∀ {runId : Nat} {run : PipelineRun}, s.runs.get? runId = some run →
      t.housesRef (.run run.id) run.workspaceId := by
    intro runId run hrun
    have hid : run.id = runId := (Table.get?_eq_some.mp hrun).2
    exact hstay (.run run.id) _ ⟨run, hid ▸ hrun, rfl⟩
  cases h with
  | @started _ workspaceId contentItemId _ definition first run _ _ row =>
    refine .enqueueStage (s := modifyRun run.id (PipelineRun.pin definition.id first.stageKey s.now)
      (createRun workspaceId contentItemId s))
        ⟨(PipelineRun.pin definition.id first.stageKey s.now).apply run,
        ?_, rfl⟩
    subst row
    simp [createRun, Table.get?_modify, Table.get?_insert]
  | polled => exact .modifyWhere (v := JobSchedule.lease s.now) (fun _ => ⟨rfl, rfl, rfl⟩) rfl
  | processed found _ done => exact done.lodges (hs.jobs _ (Table.get?_eq_some.mp found).1) hheld
  | reaped => exact .modifyWhere (v := JobSchedule.reap) (fun _ => ⟨rfl, rfl, rfl⟩) rfl
  | claimed done => exact .of_eq done.jobs
  | acknowledged _ _ => exact .of_eq rfl
  | renewed _ _ => exact .of_eq rfl
  | submitted _ _ _ done => exact done.lodges (fun _ hrun => hhome hrun) hopened
  | recovered _ done => exact .of_eq done.jobs
  | @decided _ s1 s2 _ _ _ _ _ _ gate _ _ _ _ recorded applied booked _ _ =>
    have hrecord : Lodges t.housesRef s s1 := .of_eq recorded.jobs
    have happlied : Lodges t.housesRef s1 s2 := by
      refine applied.lodges (fun run hrun => ?_) fun gate hgate =>
        hopened gate (booked.gates ▸ hgate)
      rw [recorded.runs] at hrun
      exact hhome hrun
    exact (hrecord.trans happlied).trans (.of_eq booked.jobs)
  | cancelled _ =>
    refine .of_eq ?_
    unfold cancelRun
    split <;> simp
  | @retried _ workspaceId =>
    refine retryFailedJobs_revivals.lodges fun target htarget => ?_
    obtain ⟨run, hrun, hok⟩ := retryTargets_found htarget
    simp only [PipelineRun.isRetryableIn, Bool.and_eq_true, beq_iff_eq] at hok
    exact hstay (.run target.runId) _ ⟨run, hrun, hok.1⟩
  | changed => exact .of_eq rfl

theorem Lodges.lodged (h : Lodges t.housesRef s t) (hs : s.Lodged)
    (hhome : ∀ ref workspaceId, s.housesRef ref workspaceId → t.housesRef ref workspaceId) :
    t.Lodged := by
  intro j hj
  rcases h.new j hj with ⟨i, hi, hsame⟩ | hnew
  · exact ((hs i hi).mono hhome).same hsame
  · exact hnew

theorem step_lodged {op : Op} (hs : s.Sound) (hlodged : s.Lodged) : (step s op).Lodged := by
  rcases step_cases s op with heq | heffect
  · rw [heq]
    exact hlodged
  · exact (heffect.lodges hs).lodged hlodged (heffect.housesRef hs)

end ContentOrchestrator

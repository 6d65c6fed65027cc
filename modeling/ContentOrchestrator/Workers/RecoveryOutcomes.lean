import ContentOrchestrator.Orchestration.RowMoves
import ContentOrchestrator.Workers.ReapLocks

/-! # What a reaper's commit does

A commit recovers the rows it has locked, each once: a row is requeued or failed, an
exhausted one leaves one dead letter and an ended run, and every other row stays. -/

namespace ContentOrchestrator

open Lib

variable {s t : Db} {r : RowRecovery}

/-! ## What a commit makes of a row -/

def RowRecovery.outcome (r : RowRecovery) (now : Nat) : Update StageAssignment :=
  if r.requeues then StageAssignment.requeue now else StageAssignment.exhaust now

theorem RowRecovery.apply_assignments :
    (r.apply s).assignments = s.assignments.modify r.row.id (r.outcome s.now) := by
  unfold RowRecovery.apply RowRecovery.outcome
  cases r.requeues with
  | true => exact requeueAssignment_assignments
  | false => exact deadLetterAssignment_assignments

theorem RowRecovery.apply_config : (r.apply s).config = s.config := by
  unfold RowRecovery.apply
  cases r.requeues with
  | true => exact requeueAssignment_config.trans releaseWorkerSlot_config
  | false => exact deadLetterAssignment_config.trans releaseWorkerSlot_config

theorem RowRecovery.apply_now : (r.apply s).now = s.now :=
  congrArg Configuration.now RowRecovery.apply_config

/-- A row that is not among them stays. -/
theorem recoverRows_other {done : List RowRecovery} {id : Nat} (h : ∀ r ∈ done, r.row.id ≠ id) :
    (recoverRows done s).assignments.get? id = s.assignments.get? id := by
  induction done generalizing s with
  | nil => rfl
  | cons r done ih =>
    have hrest := ih (s := r.apply s) fun r' hr' => h r' (List.mem_cons_of_mem _ hr')
    refine hrest.trans ?_
    rw [RowRecovery.apply_assignments, Table.get?_modify, if_neg (Ne.symm (h r List.mem_cons_self))]

/-- A row among them is recovered, once. -/
theorem recoverRows_row {done : List RowRecovery} (hdistinct : (done.map (·.row.id)).Nodup)
    (hr : r ∈ done) (hrow : s.assignments.get? r.row.id = some r.row) :
    (recoverRows done s).assignments.get? r.row.id = some ((r.outcome s.now).apply r.row) := by
  induction done generalizing s with
  | nil => cases hr
  | cons first done ih =>
    obtain ⟨hfirst, hrest⟩ := List.nodup_cons.mp hdistinct
    rcases List.mem_cons.mp hr with rfl | hr
    · have hothers : ∀ r' ∈ done, r'.row.id ≠ r.row.id := fun r' hr' h =>
        hfirst (List.mem_map.mpr ⟨r', hr', h⟩)
      refine (recoverRows_other hothers).trans ?_
      rw [RowRecovery.apply_assignments]
      exact Table.get?_modified _ hrow
    · have hne : r.row.id ≠ first.row.id := fun h => hfirst (List.mem_map.mpr ⟨r, hr, h⟩)
      have hkept : (first.apply s).assignments.get? r.row.id = some r.row := by
        rw [RowRecovery.apply_assignments, Table.get?_modify, if_neg hne]
        exact hrow
      have hnow : (first.apply s).now = s.now := RowRecovery.apply_now
      exact hnow ▸ ih hrest hr hkept

/-- The dead letters about an assignment. -/
def lettersAbout (db : Db) (assignmentId : Nat) : Nat :=
  db.deadLetters.count (·.relatedId == .assignment assignmentId)

theorem releaseWorkerSlot_deadLetters {workerId : Option Nat} :
    (releaseWorkerSlot workerId s).deadLetters = s.deadLetters := by
  cases workerId with
  | none => rfl
  | some w => rfl

theorem lettersAbout_deadLetterAssignment {a : StageAssignment} {reason : RecoveryReason}
    (id : Nat) :
    lettersAbout (deadLetterAssignment a reason s) id =
      lettersAbout s id + (if a.id = id then 1 else 0) := by
  obtain ⟨-, -, -, text, hletters⟩ := @deadLetterAssignment_frame a reason s
  rw [lettersAbout, hletters]
  simp only [routeToDeadLetter, Table.count_insert, lettersAbout]
  by_cases h : a.id = id
  · simp [h]
  · simp [h]

theorem RowRecovery.apply_letters (id : Nat) :
    lettersAbout (r.apply s) id = lettersAbout s id + (if r.requeues = false ∧ r.row.id = id then 1
      else 0) := by
  unfold RowRecovery.apply
  cases r.requeues with
  | true => simp [lettersAbout, requeueAssignment_frame.2.2.2.2, releaseWorkerSlot_deadLetters]
  | false =>
    simp only [Bool.false_eq_true, if_false, true_and, lettersAbout_deadLetterAssignment]
    rw [lettersAbout, releaseWorkerSlot_deadLetters]
    rfl

/-- One letter for every exhausted row among them. -/
theorem recoverRows_letters (done : List RowRecovery) (id : Nat) :
    lettersAbout (recoverRows done s) id =
      lettersAbout s id + done.countP (fun r => !r.requeues && r.row.id == id) := by
  induction done generalizing s with
  | nil => rfl
  | cons r done ih =>
    have hrest := ih (s := r.apply s)
    rw [RowRecovery.apply_letters] at hrest
    refine hrest.trans ?_
    rw [List.countP_cons, Nat.add_assoc, Nat.add_comm (ite _ _ _)]
    cases r.requeues <;> simp

/-! ## The runs -/

/-- A run stays, or one still going is failed. -/
def RunFailedAtMost (before after : Option PipelineRun) : Prop :=
  after = before ∨ ∃ run run', before = some run ∧ run.status.isTerminal = false ∧
    after = some run' ∧
    run'.status = .failed

theorem RunFailedAtMost.trans {a b c : Option PipelineRun} (h : RunFailedAtMost a b)
    (h' : RunFailedAtMost b c) :
    RunFailedAtMost a c := by
  rcases h with rfl | ⟨run, run', ha, hgoing, hb, hfailed⟩
  · exact h'
  · rcases h' with rfl | ⟨run₁, _, hb', hgoing', _⟩
    · exact .inr ⟨run, run', ha, hgoing, hb, hfailed⟩
    · cases hb.symm.trans hb'
      rw [hfailed] at hgoing'
      cases hgoing'

theorem RowRecovery.apply_runs (runId : Nat) :
    RunFailedAtMost (s.runs.get? runId) ((r.apply s).runs.get? runId) := by
  have hslot : (releaseWorkerSlot r.row.workerId s).runs = s.runs := releaseWorkerSlot_frame.1
  unfold RowRecovery.apply
  split
  · rw [requeueAssignment_frame.1, hslot]
    exact .inl rfl
  · rcases deadLetterAssignment_runs (s := releaseWorkerSlot r.row.workerId s) with
      heq | ⟨run, hrun, hgoing, heq⟩
    · rw [heq, hslot]
      exact .inl rfl
    · rw [heq, hslot, Table.get?_modify]
      split
      · rename_i hid
        have hkey : run.id = r.row.pipelineRunId := (Table.get?_eq_some.mp hrun).2
        rw [hslot, ← hkey, ← hid] at hrun
        rw [← hid, hrun]
        exact .inr ⟨run, _, rfl, hgoing, rfl, rfl⟩
      · exact .inl rfl

/-- The run of an exhausted row has ended. -/
theorem deadLetterAssignment_run_ended {a : StageAssignment} {reason : RecoveryReason}
    {run : PipelineRun}
    (hrun : (deadLetterAssignment a reason s).runs.get? a.pipelineRunId = some run) :
    run.status.isTerminal = true := by
  unfold deadLetterAssignment at hrun
  cases hfound : s.runs.get? a.pipelineRunId with
  | none => simp [hfound] at hrun
  | some before =>
    have hkey : before.id = a.pipelineRunId := (Table.get?_eq_some.mp hfound).2
    simp only [hfound] at hrun
    split at hrun
    · rename_i hended
      rw [routeToDeadLetter_frame.2.2.2.1, hfound] at hrun
      cases hrun
      exact hended
    · rw [failRun_frame.1, routeToDeadLetter_frame.2.2.2.1, hkey, Table.get?_modify, if_pos rfl,
        hfound] at hrun
      cases hrun
      rfl

theorem RowRecovery.apply_run_ended (hkind : r.requeues = false) {run : PipelineRun}
    (hrun : (r.apply s).runs.get? r.row.pipelineRunId = some run) :
    run.status.isTerminal = true := by
  unfold RowRecovery.apply at hrun
  rw [hkind] at hrun
  exact deadLetterAssignment_run_ended hrun

theorem recoverRows_runs (done : List RowRecovery) (runId : Nat) :
    RunFailedAtMost (s.runs.get? runId) ((recoverRows done s).runs.get? runId) := by
  induction done generalizing s with
  | nil => exact .inl rfl
  | cons r done ih => exact (RowRecovery.apply_runs runId).trans (ih (s := r.apply s))

theorem recoverRows_run_ended {done : List RowRecovery} (hr : r ∈ done) (hkind : r.requeues = false)
    {run : PipelineRun} (hrun : (recoverRows done s).runs.get? r.row.pipelineRunId = some run) :
    run.status.isTerminal = true := by
  induction done generalizing s with
  | nil => cases hr
  | cons first done ih =>
    rcases List.mem_cons.mp hr with rfl | hr
    · have hrest : RunFailedAtMost ((r.apply s).runs.get? r.row.pipelineRunId) (some run) :=
        hrun ▸ recoverRows_runs done r.row.pipelineRunId
      rcases hrest with hsame | ⟨_, run', _, _, hafter, hfailed⟩
      · exact RowRecovery.apply_run_ended hkind hsame.symm
      · cases hafter
        rw [hfailed]
        rfl
    · exact ih (s := first.apply s) hr hrun

/-! ## A whole commit -/

theorem RowRecovery.apply_queue : (r.apply s).jobs = s.jobs ∧ (r.apply s).gates = s.gates := by
  have hslot := @releaseWorkerSlot_frame r.row.workerId s
  unfold RowRecovery.apply
  cases r.requeues with
  | true =>
    exact ⟨requeueAssignment_frame.2.1.trans hslot.2.1,
      requeueAssignment_frame.2.2.2.1.trans hslot.2.2.2.1⟩
  | false =>
    exact ⟨deadLetterAssignment_frame.1.trans hslot.2.1,
      deadLetterAssignment_frame.2.2.1.trans hslot.2.2.2.1⟩

theorem RowRecovery.apply_sound (hs : s.Sound) : (r.apply s).Sound := by
  obtain ⟨hjobs, hgates⟩ := RowRecovery.apply_queue (r := r) (s := s)
  refine ⟨hjobs ▸ hs.jobs, fun a ha => ?_, hgates ▸ hs.gates, fun j hj => ?_⟩
  · rw [RowRecovery.apply_assignments] at ha
    obtain ⟨before, hbefore, rfl⟩ := Table.mem_modify.mp ha
    have hkeyed := hs.keyed before hbefore
    split
    · unfold RowRecovery.outcome
      split
      · exact ⟨rfl, Nat.succ_pos _⟩
      · exact ⟨hkeyed.1, hkeyed.2⟩
    · exact hkeyed
  · rw [RowRecovery.apply_now]
    rw [hjobs] at hj
    exact hs.due j hj

theorem recoverRows_sound (done : List RowRecovery) (hs : s.Sound) :
    (recoverRows done s).Sound := by
  induction done generalizing s with
  | nil => exact hs
  | cons r done ih => exact ih (s := r.apply s) (RowRecovery.apply_sound hs)

theorem Db.Sound.withWorkers (hs : s.Sound) (workers : Table WorkerRegistration) :
    Db.Sound { s with workers } :=
  ⟨hs.jobs, hs.keyed, hs.gates, hs.due⟩

/-- A commit recovers the rows; the rest of it is about workers. -/
theorem Reaper.conclude_eq (x : Reaper) (db : Db) :
    ∃ before after, x.conclude db =
      { recoverRows x.done { db with workers := before } with workers := after } := by
  unfold Reaper.conclude Reaper.view modifyWorker
  split
  · rename_i workerId payload hclosing
    rw [hclosing]
    exact ⟨db.workers, _, rfl⟩
  · rename_i workerId hclosing
    rw [hclosing]
    exact ⟨db.workers, _, rfl⟩
  · split
    · exact ⟨_, _, rfl⟩
    · exact ⟨db.workers, _, rfl⟩

/-- Nothing of the tenure is left on the row. -/
structure StageAssignment.IsUnowned (a : StageAssignment) : Prop where
  workerId : a.workerId = none
  leaseExpiresAt : a.leaseExpiresAt = none
  leaseStartedAt : a.leaseStartedAt = none
  leaseExtensionCount : a.leaseExtensionCount = 0
  dispatchedAt : a.dispatchedAt = none
  acknowledgedAt : a.acknowledgedAt = none
  claimedBy : a.claimedBy = none
  claimedAt : a.claimedAt = none
  claimToken : a.claimToken = none

/-- What a commit makes of a row it recovers: another attempt, or a failed row, its dead letter and
a run that has failed unless it had succeeded or was cancelled. -/
inductive RowRecovery.Ends (r : RowRecovery) (s t : Db) : Prop
  | requeued {a : StageAssignment} (kind : r.requeues = true)
      (found : t.assignments.get? r.row.id = some a)
      (status : a.status = .pending) (attempt : a.attemptNumber = r.row.attemptNumber + 1)
      (key : a.idempotencyKey = ⟨r.row.pipelineRunId, r.row.stage.value, r.row.attemptNumber + 1⟩)
      (unowned : a.IsUnowned) (letters : lettersAbout t r.row.id = lettersAbout s r.row.id) :
        r.Ends s t
  | failed {a : StageAssignment} (kind : r.requeues = false)
      (found : t.assignments.get? r.row.id = some a)
      (status : a.status = .failed) (attempt : a.attemptNumber = r.row.attemptNumber)
        (unowned : a.IsUnowned)
      (letters : lettersAbout t r.row.id = lettersAbout s r.row.id + 1)
      (run : ∀ run, t.runs.get? r.row.pipelineRunId = some run →
        run.status = .failed ∨ s.runs.get? r.row.pipelineRunId = some run ∧ run.isSettled = true) :
          r.Ends s t

theorem countP_of_distinct {done : List RowRecovery} (hdistinct : (done.map (·.row.id)).Nodup)
    (hr : r ∈ done) :
    done.countP (fun r' => !r'.requeues && r'.row.id == r.row.id) = (!r.requeues).toNat := by
  induction done with
  | nil => cases hr
  | cons first done ih =>
    obtain ⟨hfirst, hrest⟩ := List.nodup_cons.mp hdistinct
    rw [List.countP_cons]
    rcases List.mem_cons.mp hr with rfl | hr
    · have hothers : done.countP (fun r' => !r'.requeues && r'.row.id == r.row.id) = 0 := by
        refine List.countP_eq_zero.mpr fun r' hr' hboth => hfirst (List.mem_map.mpr ⟨r', hr', ?_⟩)
        simp only [Bool.and_eq_true, beq_iff_eq] at hboth
        exact hboth.2
      rw [hothers]
      cases r.requeues <;> simp
    · have hne : first.row.id ≠ r.row.id := fun h => hfirst (List.mem_map.mpr ⟨r, hr, h.symm⟩)
      rw [ih hrest hr, if_neg (by simp [hne])]
      rfl

theorem Reaper.conclude_ends {x : Reaper} (hdistinct : (x.done.map (·.row.id)).Nodup)
    (hr : r ∈ x.done) (hrow : s.assignments.get? r.row.id = some r.row) :
    r.Ends s (x.conclude s) := by
  obtain ⟨before, after, heq⟩ := x.conclude_eq s
  have hfound : (x.conclude s).assignments.get? r.row.id =
      some ((r.outcome s.now).apply r.row) := by
    rw [heq]
    exact recoverRows_row (s := { s with workers := before }) hdistinct hr hrow
  have hletters : lettersAbout (x.conclude s) r.row.id =
      lettersAbout s r.row.id + (!r.requeues).toNat := by
    rw [← countP_of_distinct hdistinct hr, heq]
    exact recoverRows_letters (s := { s with workers := before }) x.done r.row.id
  cases hkind : r.requeues with
  | true =>
    rw [hkind] at hletters
    rw [RowRecovery.outcome, hkind] at hfound
    exact .requeued hkind hfound rfl rfl rfl ⟨rfl, rfl, rfl, rfl, rfl, rfl, rfl, rfl, rfl⟩ hletters
  | false =>
    rw [hkind] at hletters
    rw [RowRecovery.outcome, hkind] at hfound
    refine .failed hkind hfound rfl rfl ⟨rfl, rfl, rfl, rfl, rfl, rfl, rfl, rfl,
      rfl⟩ hletters fun run hrun => ?_
    rw [heq] at hrun
    have hended := recoverRows_run_ended (s := { s with workers := before }) hr hkind hrun
    have hafter : RunFailedAtMost (s.runs.get? r.row.pipelineRunId) (some run) :=
      hrun ▸ recoverRows_runs (s := { s with workers := before }) x.done r.row.pipelineRunId
    rcases hafter with hsame | ⟨_, run', _, _, hafter, hfailed⟩
    · by_cases hfailed : run.status = .failed
      · exact .inl hfailed
      · refine .inr ⟨hsame.symm, ?_⟩
        cases hstatus : run.status <;> simp_all [PipelineRun.isSettled,
          PipelineRunStatus.isTerminal]
    · cases hafter
      exact .inl hfailed

theorem Reaper.conclude_other {x : Reaper} {id : Nat} (h : ∀ r ∈ x.done, r.row.id ≠ id) :
    (x.conclude s).assignments.get? id = s.assignments.get? id := by
  obtain ⟨before, after, heq⟩ := x.conclude_eq s
  rw [heq]
  exact recoverRows_other (s := { s with workers := before }) h

theorem Reaper.conclude_sound (x : Reaper) (hs : s.Sound) : (x.conclude s).Sound := by
  obtain ⟨before, after, heq⟩ := x.conclude_eq s
  rw [heq]
  exact (recoverRows_sound x.done (hs.withWorkers before)).withWorkers after

end ContentOrchestrator

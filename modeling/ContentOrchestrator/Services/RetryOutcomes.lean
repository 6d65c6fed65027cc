import ContentOrchestrator.Services.ReviewOutcomes

/-! # What the operator's retry can do

The request walks two lists and queues one job for every entry whose run can still be
retried. `retryTargets` reads those runs off the state before the request, and
`Revivals` is the chain of single retries the request amounts to. -/

namespace ContentOrchestrator

open Lib

/-- The run belongs to the workspace and is neither succeeded nor cancelled. -/
def PipelineRun.isRetryableIn (workspaceId : Nat) (run : PipelineRun) : Bool :=
  run.workspaceId == workspaceId && !run.isSettled

/-- A retry to be queued: the run and the text of its stage. -/
structure RetryTarget where
  runId : Nat
  stageKey : String
deriving DecidableEq, Repr

def retryTarget (workspaceId : Nat) (run : PipelineRun) (stageKey : String) : Option RetryTarget :=
  if run.isRetryableIn workspaceId then some ⟨run.id, stageKey⟩ else none

/-- What a dead letter would retry. -/
def deadLetterRetry (db : Db) (workspaceId : Nat) (entry : DeadLetterJob) : Option RetryTarget :=
  (deadLetterTarget db entry).bind fun target => retryTarget workspaceId target.1 target.2

/-- What a failed assignment would retry; a retry already waiting keeps it back. -/
def failedAssignmentRetry (stored db : Db) (workspaceId : Nat) (a : StageAssignment) :
    Option RetryTarget :=
  if hasStoredRetry stored workspaceId a.pipelineRunId then none
  else (db.runs.get? a.pipelineRunId).bind fun run => retryTarget workspaceId run a.stage.value

/-- One entry for every retry the request queues. -/
def retryTargets (db : Db) (workspaceId : Nat) : List RetryTarget :=
  (pendingDeadLetters db workspaceId).filterMap (deadLetterRetry db workspaceId) ++
    (recentFailures db workspaceId).filterMap (failedAssignmentRetry db db workspaceId)

/-- One retry: the run is revived and a job queued. -/
structure RetriedOnce (workspaceId : Nat) (target : RetryTarget) (s t : Db) : Prop where
  out : ∃ run attempt, s.runs.get? target.runId = some run ∧ run.isRetryableIn workspaceId = true ∧
    SameWork (enqueueOperatorRetry workspaceId run.id target.stageKey attempt (reviveRun run s)) t

/-- A chain of single retries. -/
inductive Revivals (workspaceId : Nat) (s : Db) : List RetryTarget → Db → Prop
  | nothing {t : Db} (same : SameWork s t) : Revivals workspaceId s [] t
  | more {targets : List RetryTarget} {target : RetryTarget} {t u : Db}
      (before : Revivals workspaceId s targets t) (once : RetriedOnce workspaceId target t u) :
      Revivals workspaceId s (targets ++ [target]) u

theorem Revivals.sameWork {workspaceId : Nat} {targets : List RetryTarget} {s t u : Db}
    (h : Revivals workspaceId s targets t) (hsame : SameWork t u) :
    Revivals workspaceId s targets u := by
  cases h with
  | nothing same => exact .nothing (same.trans hsame)
  | more before once =>
    obtain ⟨run, attempt, hrun, hok, hstep⟩ := once
    exact .more before ⟨run, attempt, hrun, hok, hstep.trans hsame⟩

@[simp] theorem reviveRun_frame {run : PipelineRun} {db : Db} :
    (reviveRun run db).jobs = db.jobs ∧
    (reviveRun run db).assignments = db.assignments ∧
    (reviveRun run db).gates = db.gates ∧
    (reviveRun run db).reservations = db.reservations ∧
    (reviveRun run db).definitions = db.definitions := by
  unfold reviveRun
  split <;> simp

theorem resolveDeadLetter_sameWork {entryId : Nat} {db : Db} :
    SameWork db (resolveDeadLetter entryId db) := by
  refine ⟨rfl, rfl, rfl, rfl, rfl, rfl, rfl, fun e he runId href => ?_⟩
  obtain ⟨e₀, he₀, rfl⟩ := Table.mem_modify.mp he
  refine ⟨e₀, he₀, ?_⟩
  rw [← href]
  split <;> rfl

/-! ## A retry does not change who can be retried -/

/-- The two states name the same runs as retryable, through the same assignments. -/
structure SameTargets (workspaceId : Nat) (s t : Db) : Prop where
  assignments : t.assignments = s.assignments
  runs : ∀ runId text, ((t.runs.get? runId).bind fun run => retryTarget workspaceId run text) =
    (s.runs.get? runId).bind fun run => retryTarget workspaceId run text

theorem SameWork.sameTargets {workspaceId : Nat} {s t : Db} (h : SameWork s t) :
    SameTargets workspaceId s t :=
  ⟨h.assignments, fun runId text => by rw [h.runs]⟩

theorem SameTargets.trans {workspaceId : Nat} {s t u : Db} (h : SameTargets workspaceId s t)
    (h' : SameTargets workspaceId t u) : SameTargets workspaceId s u :=
  ⟨h'.assignments.trans h.assignments, fun runId text =>
    (h'.runs runId text).trans (h.runs runId text)⟩

/-- Setting a failed run running leaves it retryable. -/
theorem reviveRun_sameTargets {workspaceId : Nat} {run : PipelineRun} {s : Db}
    (hrun : s.runs.get? run.id = some run) : SameTargets workspaceId s (reviveRun run s) := by
  refine ⟨reviveRun_frame.2.1, fun runId text => ?_⟩
  unfold reviveRun
  split
  · rename_i hfailed
    simp only [modifyRun_frame, Table.get?_modify]
    split
    · rename_i h
      rw [h, hrun]
      simp [retryTarget, PipelineRun.isRetryableIn, PipelineRun.isSettled, PipelineRun.setStatus,
        hfailed]
    · rfl
  · rfl

theorem RetriedOnce.sameTargets {workspaceId : Nat} {target : RetryTarget} {s t : Db}
    (h : RetriedOnce workspaceId target s t) : SameTargets workspaceId s t := by
  obtain ⟨run, attempt, hrun, _, hsame⟩ := h
  have hid : run.id = target.runId := (Table.get?_eq_some.mp hrun).2
  have hrevive : SameTargets workspaceId s (reviveRun run s) :=
    reviveRun_sameTargets (hid ▸ hrun)
  have hqueue : SameTargets workspaceId (reviveRun run s)
      (enqueueOperatorRetry workspaceId run.id target.stageKey attempt (reviveRun run s)) :=
    ⟨rfl, fun _ _ => rfl⟩
  exact hrevive.trans (hqueue.trans hsame.sameTargets)

theorem Revivals.sameTargets {workspaceId : Nat} {targets : List RetryTarget} {s t : Db}
    (h : Revivals workspaceId s targets t) : SameTargets workspaceId s t := by
  induction h with
  | nothing same => exact same.sameTargets
  | more _ once ih => exact ih.trans once.sameTargets

theorem SameTargets.deadLetterRetry {workspaceId : Nat} {s t : Db} (h : SameTargets workspaceId s t)
    (entry : DeadLetterJob) :
    deadLetterRetry t workspaceId entry = deadLetterRetry s workspaceId entry := by
  unfold ContentOrchestrator.deadLetterRetry deadLetterTarget
  cases entry.relatedId with
  | run runId =>
    have hruns := h.runs runId entry.jobType
    cases ht : t.runs.get? runId <;> cases hs : s.runs.get? runId <;> simp_all
  | assignment assignmentId =>
    simp only [h.assignments]
    cases s.assignments.get? assignmentId with
    | none => rfl
    | some a =>
      have hruns := h.runs a.pipelineRunId a.stage.value
      cases ht : t.runs.get? a.pipelineRunId <;> cases hs : s.runs.get? a.pipelineRunId <;> simp_all
  | _ => rfl

theorem SameTargets.failedAssignmentRetry {workspaceId : Nat} {stored s t : Db}
    (h : SameTargets workspaceId s t) (a : StageAssignment) :
    failedAssignmentRetry stored t workspaceId a =
      failedAssignmentRetry stored s workspaceId a := by
  unfold ContentOrchestrator.failedAssignmentRetry
  rw [h.runs]

/-! ## One entry -/

/-- What one entry does, given what it would retry. -/
inductive RetryDone (workspaceId : Nat) (s : Db) : Option RetryTarget → Db → Prop
  | skipped {t : Db} (same : SameWork s t) : RetryDone workspaceId s none t
  | retried {target : RetryTarget} {t : Db} (once : RetriedOnce workspaceId target s t) :
      RetryDone workspaceId s (some target) t

theorem deadLetterTarget_found {db : Db} {entry : DeadLetterJob} {run : PipelineRun} {text : String}
    (h : deadLetterTarget db entry = some (run, text)) : db.runs.get? run.id = some run := by
  unfold deadLetterTarget at h
  have hself : ∀ {runId}, db.runs.get? runId = some run → db.runs.get? run.id = some run := by
    intro runId hget
    rw [(Table.get?_eq_some.mp hget).2.symm] at hget
    exact hget
  cases hid : entry.relatedId with
  | run runId =>
    simp only [hid, Option.map_eq_some_iff, Prod.mk.injEq] at h
    obtain ⟨found, hget, rfl, _⟩ := h
    exact hself hget
  | assignment assignmentId =>
    simp only [hid, Option.bind_eq_bind, Option.bind_eq_some_iff, Option.pure_def,
      Option.some.injEq, Prod.mk.injEq] at h
    obtain ⟨a, _, found, hget, rfl, _⟩ := h
    exact hself hget
  | job _ => simp [hid] at h
  | gate _ => simp [hid] at h
  | event _ => simp [hid] at h

theorem retryDeadLetter_done {workspaceId : Nat} {db : Db} {entry : DeadLetterJob} :
    RetryDone workspaceId db (deadLetterRetry db workspaceId entry)
      (retryDeadLetter workspaceId db entry) := by
  unfold retryDeadLetter deadLetterRetry
  cases htarget : deadLetterTarget db entry with
  | none => exact .skipped (.refl db)
  | some target =>
    obtain ⟨run, text⟩ := target
    have hrun := deadLetterTarget_found htarget
    simp only [Option.bind_some, retryTarget, PipelineRun.isRetryableIn]
    by_cases hws : run.workspaceId = workspaceId
    · by_cases hsettled : run.isSettled = true
      · simpa [hws, hsettled] using RetryDone.skipped resolveDeadLetter_sameWork
      · rw [Bool.not_eq_true] at hsettled
        have hok : run.isRetryableIn workspaceId = true := by
          simp [PipelineRun.isRetryableIn, hws, hsettled]
        have hdone : RetryDone workspaceId db (some ⟨run.id, text⟩)
            (resolveDeadLetter entry.id
              (enqueueOperatorRetry workspaceId run.id text entry.attemptCount
                (reviveRun run db))) :=
          .retried ⟨run, _, hrun, hok, resolveDeadLetter_sameWork⟩
        simpa [hws, hsettled] using hdone
    · simpa [hws] using RetryDone.skipped (.refl db)

theorem retryFailedAssignment_done {workspaceId : Nat} {stored db : Db} {a : StageAssignment} :
    RetryDone workspaceId db (failedAssignmentRetry stored db workspaceId a)
      (retryFailedAssignment stored workspaceId db a) := by
  unfold retryFailedAssignment failedAssignmentRetry
  cases hasStoredRetry stored workspaceId a.pipelineRunId with
  | true => exact .skipped (.refl db)
  | false =>
    simp only [Bool.false_eq_true, if_false]
    cases hrun : db.runs.get? a.pipelineRunId with
    | none => exact .skipped (.refl db)
    | some run =>
      have hid : run.id = a.pipelineRunId := (Table.get?_eq_some.mp hrun).2
      simp only [Option.bind_some, retryTarget, PipelineRun.isRetryableIn]
      by_cases hws : run.workspaceId = workspaceId
      · by_cases hsettled : run.isSettled = true
        · simpa [hws, hsettled] using RetryDone.skipped (.refl db)
        · rw [Bool.not_eq_true] at hsettled
          have hok : run.isRetryableIn workspaceId = true := by
            simp [PipelineRun.isRetryableIn, hws, hsettled]
          have hdone : RetryDone workspaceId db (some ⟨run.id, a.stage.value⟩)
              (enqueueOperatorRetry workspaceId run.id a.stage.value a.attemptNumber
                (reviveRun run db)) :=
            .retried ⟨run, _, by rw [hid, hrun], hok, .refl _⟩
          simpa [hws, hsettled] using hdone
      · simpa [hws] using RetryDone.skipped (.refl db)

/-- What a request retries belongs to a run that can be retried. -/
theorem retryTargets_found {workspaceId : Nat} {target : RetryTarget} {s : Db}
    (h : target ∈ retryTargets s workspaceId) :
    ∃ run, s.runs.get? target.runId = some run ∧ run.isRetryableIn workspaceId = true := by
  have hself : ∀ {run : PipelineRun} {text : String}, s.runs.get? run.id = some run →
      retryTarget workspaceId run text = some target →
        ∃ run, s.runs.get? target.runId = some run ∧ run.isRetryableIn workspaceId = true := by
    intro run text hrun htarget
    unfold retryTarget at htarget
    split at htarget
    · rename_i hok
      cases htarget
      exact ⟨run, hrun, hok⟩
    · cases htarget
  rcases List.mem_append.mp h with h | h
  · obtain ⟨entry, _, hentry⟩ := List.mem_filterMap.mp h
    obtain ⟨⟨run, text⟩, hfound, htarget⟩ := Option.bind_eq_some_iff.mp hentry
    exact hself (deadLetterTarget_found hfound) htarget
  · obtain ⟨a, _, ha⟩ := List.mem_filterMap.mp h
    unfold failedAssignmentRetry at ha
    split at ha
    · cases ha
    · obtain ⟨run, hrun, htarget⟩ := Option.bind_eq_some_iff.mp ha
      have hid : run.id = a.pipelineRunId := (Table.get?_eq_some.mp hrun).2
      exact hself (hid ▸ hrun) htarget

/-! ## The whole request -/

/-- Folding entries extends the chain by the runs they retry. -/
theorem foldl_revivals {α : Type} {workspaceId : Nat} {s : Db} {act : Db → α → Db}
    (target : Db → α → Option RetryTarget)
    (hact : ∀ db a, RetryDone workspaceId db (target db a) (act db a))
    (htarget : ∀ db a, SameTargets workspaceId s db → target db a = target s a) :
    ∀ (entries : List α) (targets : List RetryTarget) (t : Db), Revivals workspaceId s targets t →
      Revivals workspaceId s (targets ++ entries.filterMap (target s)) (entries.foldl act t)
  | [], targets, t, h => by simpa using h
  | a :: rest, targets, t, h => by
    have hdone := hact t a
    rw [htarget t a h.sameTargets] at hdone
    rw [List.foldl_cons, List.filterMap_cons]
    cases htgt : target s a with
    | none =>
      rw [htgt] at hdone
      cases hdone with
      | skipped same => exact foldl_revivals target hact htarget rest targets _ (h.sameWork same)
    | some found =>
      rw [htgt] at hdone
      cases hdone with
      | retried once =>
        have hrest := foldl_revivals target hact htarget rest (targets ++ [found]) _ (.more h once)
        simpa using hrest

/-- **The request is a chain of single retries**, one for each target it had at the start. -/
theorem retryFailedJobs_revivals {workspaceId : Nat} {s : Db} :
    Revivals workspaceId s (retryTargets s workspaceId) (retryFailedJobs workspaceId s) := by
  have hletters : Revivals workspaceId s
      ((pendingDeadLetters s workspaceId).filterMap (deadLetterRetry s workspaceId))
      ((pendingDeadLetters s workspaceId).foldl (retryDeadLetter workspaceId) s) :=
    foldl_revivals (fun db => deadLetterRetry db workspaceId) (fun _ _ => retryDeadLetter_done)
      (fun _ e h => h.deadLetterRetry e) _ [] s (.nothing (.refl s))
  exact foldl_revivals (fun db => failedAssignmentRetry s db workspaceId)
    (fun _ _ => retryFailedAssignment_done) (fun _ a h => h.failedAssignmentRetry a) _ _ _ hletters

end ContentOrchestrator

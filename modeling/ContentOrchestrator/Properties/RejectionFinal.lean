import ContentOrchestrator.Properties.TerminalStates

/-! # A rejected run stays failed

The operator's retry looks at dead letters and failed assignments, never at why the run
failed. One that reaches a rejected run through what an earlier attempt left behind sets
it running and queues a job. While no retry reaches it, and no late message about it is
acted upon, the run stays failed and gets no stage job. -/

namespace ContentOrchestrator

open Lib

variable {s t u : Db} {r : Nat}

/-- The step fails the run through a gate of it, by rejection or timeout. -/
structure RejectsRun (s t : Db) (runId : Nat) : Prop where
  gate : ∃ g ∈ s.gates, ∃ g' ∈ t.gates, g'.id = g.id ∧ g.pipelineRunId = runId ∧
    g.status = .awaiting ∧
    (g'.status = .rejected ∨ g'.status = .timedOut)
  run : ∃ run, t.runs.get? runId = some run ∧ run.status = .failed

/-- The run is failed as it was, and every stage job of it is old. -/
structure StaysFailed (runId : Nat) (s t : Db) : Prop where
  run : ∃ run, s.runs.get? runId = some run ∧ t.runs.get? runId = some run ∧ run.status = .failed
  jobs : ∀ j ∈ t.jobs, j.isStageJob = true → j.isActive = true → j.refId = .run runId →
    ∃ i ∈ s.jobs, i.id = j.id

/-- The request sets the run running and queues a retry of it. -/
structure Revives (runId : Nat) (s t : Db) : Prop where
  run : ∃ run, t.runs.get? runId = some run ∧ run.status ≠ .failed
  job : ∃ j ∈ t.jobs, (∀ i ∈ s.jobs, i.id ≠ j.id) ∧ j.jobType = .retry ∧ j.status = .pending ∧
    j.refId = .run runId

theorem reviveRun_status {run : PipelineRun} (hrun : s.runs.get? run.id = some run) :
    ∃ row, (reviveRun run s).runs.get? run.id = some row ∧ row.status ≠ .failed := by
  unfold reviveRun
  split
  · refine ⟨(PipelineRun.setStatus .running).apply run, ?_, fun h => by cases h⟩
    simp only [modifyRun_frame, Table.get?_modify, if_true, hrun, Option.map_some]
  · rename_i hne
    exact ⟨run, hrun, hne⟩

/-- Reviving a run leaves no other run failed that was not. -/
theorem reviveRun_keeps {run row : PipelineRun} (hrow : s.runs.get? r = some row)
    (hne : row.status ≠ .failed) :
    ∃ row', (reviveRun run s).runs.get? r = some row' ∧ row'.status ≠ .failed := by
  unfold reviveRun
  split
  · simp only [modifyRun_frame, Table.get?_modify]
    split
    · rename_i hid
      rw [← hid, hrow]
      exact ⟨_, rfl, fun h => by cases h⟩
    · exact ⟨row, hrow, hne⟩
  · exact ⟨row, hrow, hne⟩

/-- A retry queues a job of its own. -/
theorem enqueueOperatorRetry_job {workspaceId runId attempt : Nat} {stageKey : String} :
    ∃ j ∈ (enqueueOperatorRetry workspaceId runId stageKey attempt s).jobs,
      (∀ i ∈ s.jobs, i.id ≠ j.id) ∧ j.jobType = .retry ∧ j.status = .pending ∧
        j.refId = .run runId :=
  ⟨_, Table.mem_insert.mpr (.inr rfl), fun _ hi => (Table.key_lt hi).ne, rfl, rfl, rfl⟩

/-- A chain of retries revives the run of each of its targets. -/
theorem Revivals.revives {workspaceId : Nat} {targets : List RetryTarget}
    (h : Revivals workspaceId s targets t) {target : RetryTarget} (hmem : target ∈ targets) :
    Revives target.runId s t := by
  induction h with
  | nothing same => cases hmem
  | @more targets last t u before once ih =>
    obtain ⟨run, attempt, hrun, _, hsame⟩ := once
    have hid : run.id = last.runId := (Table.get?_eq_some.mp hrun).2
    have hjobs : u.jobs = (enqueueOperatorRetry workspaceId run.id last.stageKey attempt
        (reviveRun run t)).jobs := hsame.jobs
    have hruns : u.runs = (reviveRun run t).runs := hsame.runs
    rcases List.mem_append.mp hmem with hmem | hmem
    · obtain ⟨⟨row, hrow, hne⟩, ⟨j, hj, hnew, hkind, hpending, href⟩⟩ := ih hmem
      refine ⟨?_, j, ?_, hnew, hkind, hpending, href⟩
      · rw [hruns]
        exact reviveRun_keeps hrow hne
      · rw [hjobs]
        simp only [enqueueOperatorRetry, reviveRun_frame]
        exact Table.mem_insert.mpr (.inl hj)
    · rw [List.mem_singleton.mp hmem]
      obtain ⟨j, hj, hnew, hkind, hpending, href⟩ :
          ∃ j ∈ (enqueueOperatorRetry workspaceId run.id last.stageKey attempt
            (reviveRun run t)).jobs,
            (∀ i ∈ (reviveRun run t).jobs, i.id ≠ j.id) ∧ j.jobType = .retry ∧ j.status = .pending ∧
              j.refId = .run run.id := enqueueOperatorRetry_job
      refine ⟨?_, j, hjobs ▸ hj, fun i hi => hnew i ?_, hkind, hpending,
        href.trans (congrArg Ref.run hid)⟩
      · rw [hruns, ← hid]
        exact reviveRun_status (hid ▸ hrun)
      · simp only [reviveRun_frame]
        exact before.jobs.1 i hi

/-- **A rejection is final** exactly as far as no retry reaches the run: in every continuation of
the rejection whose steps neither reach it by a retry nor act on a late message about it, the run
stays failed without a new stage job; and a retry that does reach it revives it. -/
theorem rejection_final {db : Db} {op : Op} (hfresh : db.Fresh)
    (before : Reach Steps (fun _ _ => True) db s) (rejects : RejectsRun s (step s op) r)
    (after : Reach Steps (fun u op => actsOnEnded u op r = false ∧ retriesRun u op r = false)
      (step s op) t) :
    StaysFailed r (step s op) t ∧ ∀ workspaceId, retriesRun t (.retryFailedJobs workspaceId) r =
      true →
      Revives r t (step t (.retryFailedJobs workspaceId)) := by
  have hs : (step s op).Sound := step_sound s op (history_sound hfresh.sound before)
  obtain ⟨run, hrun, hfailed⟩ := rejects.run
  have habsorbed := (rests_of_spared hs hrun (by rw [hfailed]; rfl)
    (after.mono fun u op h => ⟨h.1, fun _ => h.2⟩)).2.absorbed
  refine ⟨⟨⟨run, hrun, habsorbed.run.trans hrun, hfailed⟩, habsorbed.jobs⟩,
    fun workspaceId hretry => ?_⟩
  obtain ⟨target, htarget, hid⟩ := List.any_eq_true.mp hretry
  rw [← beq_iff_eq.mp hid]
  have hrequest : step t (.retryFailedJobs workspaceId) = retryFailedJobs workspaceId t :=
    Returns.atomically (a := ()) (returns_modify.mpr rfl)
  rw [hrequest]
  exact retryFailedJobs_revivals.revives htarget

/-- What a replayed rejection shows. -/
theorem rejectsRun_of_rows (gateId : Nat)
    (h : ∃ g ∈ s.gates, g.id = gateId ∧ g.pipelineRunId = r ∧ g.status = .awaiting)
    (h' : ∃ g ∈ t.gates, g.id = gateId ∧ g.status = .rejected)
    (hrun : ∃ run ∈ t.runs, run.id = r ∧ run.status = .failed) : RejectsRun s t r := by
  obtain ⟨g, hg, hid, hown, hawait⟩ := h
  obtain ⟨g', hg', hid', hstatus⟩ := h'
  obtain ⟨run, hmem, hkey, hfailed⟩ := hrun
  exact ⟨⟨g, hg, g', hg', hid'.trans hid.symm, hown, hawait, .inl hstatus⟩,
    run, Table.get?_eq_some.mpr ⟨hmem, hkey⟩, hfailed⟩

/-- Nothing failed before the rejection, so the request finds nothing to retry. -/
theorem rejection_final_clean :
    StaysFailed 0 (step (replay step demoDb gateHistory) (.decide 0 0 7 false (some 0)))
      (replay step (step (replay step demoDb gateHistory) (.decide 0 0 7 false (some 0)))
        [.retryFailedJobs 0]) := by
  have hbefore : admits step (fun _ _ => true) demoDb gateHistory = true := by decide +kernel
  have hafter : admits step (fun u op => !actsOnEnded u op 0 && !retriesRun u op 0)
      (step (replay step demoDb gateHistory) (.decide 0 0 7 false (some 0))) [.retryFailedJobs 0] =
        true := by
    decide +kernel
  have hrejects : RejectsRun (replay step demoDb gateHistory)
      (step (replay step demoDb gateHistory) (.decide 0 0 7 false (some 0))) 0 :=
    rejectsRun_of_rows 0 (by decide +kernel) (by decide +kernel) (by decide +kernel)
  have hreach : Reach Steps (fun _ _ => True) demoDb (replay step demoDb gateHistory) :=
    (reach_replay gateHistory _ hbefore).mono fun _ _ _ => trivial
  refine (rejection_final demoDb_fresh hreach hrejects
    ((reach_replay _ _ hafter).mono fun u op h => ?_)).1
  simpa using h

/-- The first stage needs a second attempt before the run reaches its gate. -/
def reattemptedHistory : List Op :=
  [.startRun 0 0 0, .poll 10 [], .processJob 0 [] 0, .submit 0 false none "timeout" (some 0) 0,
   elapse (seconds 20), .poll 10 [], .processJob 1 [] 0, .submit 1 true none "" (some 0) 0,
   .poll 10 [], .processJob 2 [] 0, .submit 2 true none "" (some 0) 0]

/-- The failed first attempt of a stage brings the rejected run back. -/
theorem rejected_run_revived :
    ¬ ∀ (db s t : Db) (op : Op) (r : Nat), db.Fresh → Reach Steps (fun _ _ => True) db s →
        RejectsRun s (step s op) r →
          Reach Steps (fun u op => actsOnEnded u op r = false) (step s op) t →
          StaysFailed r (step s op) t := by
  intro h
  have hbefore : admits step (fun _ _ => true) demoDb reattemptedHistory = true := by decide +kernel
  have hafter : admits step (fun u op => !actsOnEnded u op 0)
      (step (replay step demoDb reattemptedHistory) (.decide 0 0 7 false (some 0)))
      [.retryFailedJobs 0] = true := by decide +kernel
  have hrejects : RejectsRun (replay step demoDb reattemptedHistory)
      (step (replay step demoDb reattemptedHistory) (.decide 0 0 7 false (some 0))) 0 :=
    rejectsRun_of_rows 0 (by decide +kernel) (by decide +kernel) (by decide +kernel)
  have hstays := h demoDb _ _ (.decide 0 0 7 false (some 0)) 0 demoDb_fresh
    ((reach_replay reattemptedHistory _ hbefore).mono fun _ _ _ => trivial) hrejects
    ((reach_replay _ _ hafter).mono fun _ _ h => by simpa using h)
  have hrunning : ∀ run ∈ (replay step (step (replay step demoDb reattemptedHistory)
      (.decide 0 0 7 false (some 0))) [.retryFailedJobs 0]).runs, run.status = .running := by
    decide +kernel
  obtain ⟨run, _, hrun, hfailed⟩ := hstays.run
  rw [hrunning run (Table.get?_eq_some.mp hrun).1] at hfailed
  cases hfailed

end ContentOrchestrator

import ContentOrchestrator.Orchestration.RunInvariants

/-! # The attempt bound

A history is watched for one run: a visit begins when the first job of a stage is
queued, and an attempt starts when a worker gets the assignment. Within a visit the
attempt numbers are the starts counted so far, unless a job is put off or its lease
is reaped: both raise the queue row's attempt, and nothing was started. -/

namespace ContentOrchestrator

open Lib

/-! ## Watching one run -/

namespace RunSlice

/-- The assignments a worker holds now and did not hold before. -/
def starts (before after : RunSlice) : Nat :=
  (after.assignments.filter fun a =>
    a.status.inFlight && !before.assignments.any fun b => b.id == a.id && b.status.inFlight).length

/-- The stage whose first job is queued now and was not before. -/
def opened (before after : RunSlice) : Option ContentStage :=
  (after.jobs.find? fun j => j.attempt == 0 && !before.jobs.any fun i => i.id == j.id).bind fun j =>
    ContentStage.ofValue? j.refTable

end RunSlice

/-- What one transaction adds to the count of the visit, or the visit it begins. -/
def Visit.observe (before after : RunSlice) (visit : Option Visit) : Option Visit :=
  match before.opened after with
  | some stage => some ⟨stage, before.starts after⟩
  | none => visit.map fun visit => { visit with starts := visit.starts + before.starts after }

/-- The system with the current visit of one run. -/
structure Watch where
  db : Db
  visit : Option Visit

def Watch.step (r : Nat) (w : Watch) (op : Op) : Watch where
  db := ContentOrchestrator.step w.db op
  visit := Visit.observe (w.db.slice r) ((ContentOrchestrator.step w.db op).slice r) w.visit

def WatchSteps (r : Nat) (w : Watch) (op : Op) (w' : Watch) : Prop := w.step r op = w'

/-- The attempt bound of a stage in the definition the run is pinned to. -/
def stageBound (db : Db) (runId : Nat) (stage : ContentStage) : Option Nat :=
  ((db.runs.get? runId).bind (·.definitionId)).bind fun definitionId =>
    stageLimit db definitionId stage

/-- The starts of the visit are within the bound of its stage, and every attempt number is
accounted for by them: the attempt at work is the last start, a waiting one would be the next,
and a queued job has exactly the starts behind it. -/
structure Watch.AttemptsBounded (r : Nat) (w : Watch) : Prop where
  visits : ∀ visit, w.visit = some visit →
    ∃ m, stageBound w.db r visit.stage = some m ∧ visit.starts ≤ m
  working : ∀ a ∈ w.db.assignments, a.pipelineRunId = r → a.status.inFlight = true →
    ∃ visit m, w.visit = some visit ∧ stageBound w.db r visit.stage = some m ∧
      a.stage = visit.stage ∧ a.attemptNumber = visit.starts ∧ 1 ≤ a.attemptNumber ∧
        a.attemptNumber ≤ m
  waiting : ∀ a ∈ w.db.assignments, a.pipelineRunId = r → a.status = .pending →
    ∃ visit m, w.visit = some visit ∧ stageBound w.db r visit.stage = some m ∧
      a.stage = visit.stage ∧ a.attemptNumber = visit.starts + 1 ∧ a.attemptNumber ≤ m
  queued : ∀ j ∈ w.db.jobs, j.isActiveFor r = true →
    ∃ visit m, w.visit = some visit ∧ stageBound w.db r visit.stage = some m ∧
      j.refTable = visit.stage.value ∧ j.attempt = visit.starts ∧ j.attempt < m

/-- Every stage of every definition allows at least one attempt. -/
def Db.PositiveBounds (db : Db) : Prop :=
  ∀ definition ∈ db.definitions, ∀ stage ∈ definition.stages, 1 ≤ stage.maxAttempts

variable {s t : Db} {r : Nat} {x y : RunSlice} {v v' : RunView}

/-! ## What is observed is what the views say -/

theorem Shows.starts_eq (hx : Shows x v) (hy : Shows y v') :
    x.starts y = (v'.atWork.isSome && !decide (v'.atWork = v.atWork)).toNat := by
  cases hy with
  | idle _ => rfl
  | queued _ => rfl
  | reviewing _ => rfl
  | waiting _ idle => simp [RunSlice.starts, RunView.atWork, idle, StageAssignmentStatus.inFlight]
  | @working _ _ a _ _ held _ =>
    cases hx with
    | @waiting _ _ b _ idle =>
      have hidle : b.status.inFlight = false := by rw [idle]; rfl
      simp [RunSlice.starts, RunView.atWork, held, hidle]
    | @working _ _ b _ _ held' _ =>
      by_cases hid : a.id = b.id
      · simp [RunSlice.starts, RunView.atWork, held, held', hid]
      · simp [RunSlice.starts, RunView.atWork, held, held', hid, Ne.symm hid]
    | _ => simp [RunSlice.starts, RunView.atWork, held]

theorem Shows.opened_eq (hx : Shows x v) (hy : Shows y v') :
    x.opened y = (v.opens v').bind ContentStage.ofValue? := by
  cases hy with
  | @queued _ _ job _ =>
    cases hx with
    | @queued _ _ old _ =>
      by_cases hnew : job.attempt = 0 ∧ ¬ old.id = job.id
      · simp [RunSlice.opened, RunView.opens, RunView.queuedJob, hnew]
      · have hfind : (job.attempt == 0 && !(old.id == job.id)) = false := by
          simpa using hnew
        simp [RunSlice.opened, RunView.opens, RunView.queuedJob, hnew, hfind]
    | _ =>
      by_cases hzero : job.attempt = 0
      · simp [RunSlice.opened, RunView.opens, RunView.queuedJob, hzero]
      · simp [RunSlice.opened, RunView.opens, RunView.queuedJob, hzero]
  | _ => rfl

/-- The count follows the label of the move. -/
theorem Visit.observe_eq {limit : ContentStage → Option Nat} {l : Label} {visit : Visit} {m : Nat}
    (hx : Shows x v) (hy : Shows y v') (hmove : Move limit v l v')
    (hl : l ≠ .revived ∧ l ≠ .delayed) (hv : v.Counted limit visit m) :
    Visit.observe x y (some visit) = some (visit.next l v') := by
  unfold observe
  rw [hx.opened_eq hy, hmove.opens_eq hl hv, hx.starts_eq hy, ← hmove.starts_eq]
  by_cases hentered : l = .entered
  · subst hentered
    simp [Visit.next, Label.starts]
  · rw [if_neg hentered]
    cases l <;> first | rfl | exact absurd rfl hentered

/-! ## The invariant -/

/-- The run is unknown and unwatched, or its view is counted by its visit. -/
def Watch.Counts (r : Nat) (w : Watch) : Prop :=
  (w.db.slice r = RunSlice.empty ∧ w.visit = none) ∨
    ∃ v visit m, Shows (w.db.slice r) v ∧ v.Settled ∧ w.visit = some visit ∧
      v.Counted (stageLimit w.db v.definitionId) visit m

theorem stageLimit_pos (h : s.PositiveBounds) {d m : Nat} {stage : ContentStage}
    (hm : stageLimit s d stage = some m) : 1 ≤ m := by
  obtain ⟨row, hrow, rfl⟩ := Option.map_eq_some_iff.mp hm
  obtain ⟨definition, hdef, hfind⟩ := Option.bind_eq_some_iff.mp hrow
  exact h definition (Table.get?_eq_some.mp hdef).1 row (List.mem_of_find?_eq_some hfind)

theorem stageLimit_congr (h : t.definitions = s.definitions) {d : Nat} :
    stageLimit t d = stageLimit s d := by
  funext stage
  rw [stageLimit, stageLimit, stageDef?_congr h]

/-- A run that is started is at the beginning of its first visit. -/
theorem Visit.observe_start {stage : ContentStage} {d job : Nat}
    (hy : Shows y (.start stage d job)) :
    Visit.observe RunSlice.empty y none = some ⟨stage, 0⟩ := by
  obtain ⟨row, _, _, _, hpin⟩ := hy.run_some
  have hidle : Shows ⟨some row, [], [], [], []⟩ ⟨row.status, row.currentStage, _, none⟩ :=
    .idle hpin
  have hopened : RunSlice.empty.opened y = some stage := by
    refine (hidle.opened_eq hy).trans ?_
    simp [RunView.opens, RunView.queuedJob, RunView.start]
  have hstarts : RunSlice.empty.starts y = 0 := (hidle.starts_eq hy).trans rfl
  rw [observe, hopened, hstarts]

/-- Nothing is observed of a run that stays unknown. -/
theorem Visit.observe_empty : Visit.observe RunSlice.empty RunSlice.empty none = none := rfl

/-- **One step keeps the count**, if it puts nothing off. -/
theorem Watch.Counts.step {w : Watch} {op : Op} (h : w.Counts r) (hs : w.db.Sound)
    (hpos : w.db.PositiveBounds) (hretry : op.isOperatorRetry = false)
    (hdelay : delaysJob w.db op r = false) : (w.step r op).Counts r := by
  have hdefs : ∀ d, stageLimit (ContentOrchestrator.step w.db op) d = stageLimit w.db d :=
    fun d => stageLimit_congr (step_definitions op hs)
  rcases step_cases w.db op with heq | heffect
  · -- nothing is committed and nothing observed
    rcases h with ⟨habs, hnone⟩ | ⟨v, visit, m, hv, hset, hvisit, hcount⟩
    · refine .inl ⟨by rw [Watch.step, heq]; exact habs, ?_⟩
      rw [Watch.step, heq, hnone, habs]
      exact Visit.observe_empty
    · refine .inr ⟨v, visit, m, by rw [Watch.step, heq]; exact hv, hset, ?_, ?_⟩
      · rw [Watch.step, heq, hvisit]
        exact Visit.observe_eq (l := .quiet) hv hv .quiet ⟨by simp, by simp⟩ hcount
      · rw [Watch.step, heq]
        exact hcount
  · rcases h with ⟨habs, hnone⟩ | ⟨v, visit, m, hv, hset, hvisit, hcount⟩
    · rcases heffect.absent hs habs with hstill | ⟨stage, d, job, hknown, hshow⟩
      · refine .inl ⟨hstill, ?_⟩
        rw [Watch.step, hnone, habs, hstill]
        exact Visit.observe_empty
      · obtain ⟨m, hm⟩ := Option.isSome_iff_exists.mp hknown
        refine .inr ⟨_, ⟨stage, 0⟩, m, hshow, RunView.settled_start, ?_, ?_⟩
        · rw [Watch.step, hnone, habs]
          exact Visit.observe_start hshow
        · refine .enter ?_ (stageLimit_pos hpos hm) rfl
          exact (congrFun (hdefs d) stage).trans hm
    · obtain ⟨l, v', hmove, hcause, hshow⟩ := heffect.moves hs hv hset (retryFits_of_other hretry)
      have hl : l ≠ .revived ∧ l ≠ .delayed := by
        refine ⟨?_, ?_⟩
        · rintro rfl
          obtain ⟨workspaceId, rfl⟩ := hcause
          cases hretry
        · rintro rfl
          rw [show delaysJob w.db op r = true from hcause] at hdelay
          cases hdelay
      obtain ⟨m', hcount'⟩ := hmove.counted (fun _ _ => stageLimit_pos hpos) hl hcount
      refine .inr ⟨v', visit.next l v', m', hshow, hmove.settled hset, ?_, ?_⟩
      · rw [Watch.step, hvisit]
        exact Visit.observe_eq hv hshow hmove hl hcount
      · have hsame : v'.definitionId = v.definitionId := hmove.definitionId
        rw [hsame]
        exact hdefs v.definitionId ▸ hcount'

/-! ## The bound -/

/-- Counted views are counted tables. -/
theorem Watch.Counts.attemptsBounded {w : Watch} (h : w.Counts r) : w.AttemptsBounded r := by
  rcases h with ⟨habs, hnone⟩ | ⟨v, visit, m, hv, _, hvisit, hcount⟩
  · refine ⟨fun visit hvisit => ?_, fun a ha hr hheld => ?_, fun a ha hr hidle => ?_,
      fun j hj hr => ?_⟩
    · rw [hnone] at hvisit
      cases hvisit
    · exact absurd hr.symm (slice_empty_assignment habs ha (isLive_of_inFlight hheld))
    · exact absurd hr.symm (slice_empty_assignment habs ha (isLive_pending hidle))
    · have hin := mem_slice_jobs.mpr ⟨hj, hr⟩
      rw [habs] at hin
      cases hin
  · have hbound : stageBound w.db r visit.stage = some m := by
      obtain ⟨row, hrow, _, _, hpin⟩ := hv.run_some
      rw [slice_run] at hrow
      simp [stageBound, hrow, hpin, hcount.bound]
    refine ⟨fun visit' hvisit' => ?_, fun a ha hr hheld => ?_, fun a ha hr hidle => ?_,
      fun j hj hr => ?_⟩
    · rw [hvisit] at hvisit'
      cases hvisit'
      exact ⟨m, hbound, hcount.starts⟩
    · subst hr
      have hin := mem_slice_assignments.mpr ⟨ha, isLiveOf_self (isLive_of_inFlight hheld)⟩
      obtain ⟨_, _, _, _, _, _, rfl⟩ := hv.of_inFlight hin hheld
      obtain ⟨hstage, hstarts, hone⟩ := hcount.working _ _ _ rfl
      exact ⟨visit, m, hvisit, hbound, hstage, hstarts, hone, hstarts ▸ hcount.starts⟩
    · subst hr
      have hin := mem_slice_assignments.mpr ⟨ha, isLiveOf_self (isLive_pending hidle)⟩
      obtain ⟨_, _, _, _, rfl⟩ := hv.of_pending hin hidle
      obtain ⟨hstage, hstarts, hle⟩ := hcount.waiting _ _ _ rfl
      exact ⟨visit, m, hvisit, hbound, hstage, hstarts, hle⟩
    · obtain ⟨_, _, _, _, rfl⟩ := hv.of_job (mem_slice_jobs.mpr ⟨hj, hr⟩)
      obtain ⟨htext, hstarts, hlt⟩ := hcount.queued _ _ _ rfl
      exact ⟨visit, m, hvisit, hbound, htext, hstarts, hlt⟩

/-- **The attempt bound**: in every history without operator retries in which no job of the run is
put off at the concurrency limit and no lease on one is reaped, attempts are consumed by starts
only, and a visit starts at most as many as its stage allows. -/
theorem attempts_bounded {db : Db} (hfresh : db.Fresh) (hpos : db.PositiveBounds) {w : Watch}
    (h : Reach (WatchSteps r)
      (fun w op => op.isOperatorRetry = false ∧ delaysJob w.db op r = false) ⟨db, none⟩ w) :
    w.AttemptsBounded r := by
  have hinv : (w.db.Sound ∧ w.db.PositiveBounds) ∧ w.Counts r := by
    refine h.invariant (P := fun w => (w.db.Sound ∧ w.db.PositiveBounds) ∧ w.Counts r)
      ⟨⟨hfresh.sound, hpos⟩, .inl ⟨hfresh.slice, rfl⟩⟩ ?_
    rintro w op w' ⟨⟨hs, hbounds⟩, hcounts⟩ ⟨hretry, hdelay⟩ rfl
    refine ⟨⟨step_sound w.db op hs, ?_⟩, hcounts.step hs hbounds hretry hdelay⟩
    have hdefs : (w.step r op).db.definitions = w.db.definitions := step_definitions op hs
    rw [Db.PositiveBounds, hdefs]
    exact hbounds
  exact hinv.2.attemptsBounded

theorem demoDb_positiveBounds : demoDb.PositiveBounds := by
  unfold Db.PositiveBounds
  decide

/-- A failed attempt, a lost lease and a claim: the third start is the last one allowed. -/
def threeStartsHistory : List Op :=
  [.startRun 0 0 0, .poll 10 [], .processJob 0 [] 0, .submit 0 false none "timeout" (some 0) 0,
   elapse (seconds 25), .poll 10 [], .processJob 1 [] 0, .recover 1 .leaseExpired, .claim 0 none []]

theorem attempts_bounded_third_start :
    (replay (Watch.step 0) ⟨demoDb, none⟩ threeStartsHistory).AttemptsBounded 0 ∧
      (replay (Watch.step 0) ⟨demoDb, none⟩ threeStartsHistory).visit = some ⟨.idea, 3⟩ := by
  have hadmits : admits (Watch.step 0) (fun w op => !op.isOperatorRetry && !delaysJob w.db op 0)
      ⟨demoDb, none⟩ threeStartsHistory = true := by decide +kernel
  refine ⟨attempts_bounded demoDb_fresh demoDb_positiveBounds
    ((reach_replay threeStartsHistory _ hadmits).mono ?_), by decide +kernel⟩
  intro w op h
  simpa using h

/-- The second run's first job is put off three times while the first run has the only slot. -/
def putOffHistory : List Op :=
  [.startRun 0 0 0, .startRun 0 0 0, .poll 10 [], .processJob 0 [] 0, .ack 0 (some 800) 0,
   .processJob 1 [] 0, elapse (seconds 25), .poll 10 [], .processJob 1 [] 0,
   elapse (seconds 25), .poll 10 [], .processJob 1 [] 0, .submit 0 true none "" (some 0) 0,
   elapse (seconds 25), .poll 10 [], .processJob 1 [] 0]

/-- The bound does not hold of every history: the passes at the concurrency limit use up attempts,
and the first start is the fourth attempt of three. -/
theorem attempt_out_of_range :
    ¬ ∀ (db : Db) (r : Nat) (w : Watch), db.Fresh → db.PositiveBounds →
        Reach (WatchSteps r) (fun _ op => op.isOperatorRetry = false) ⟨db, none⟩ w →
          w.AttemptsBounded r := by
  intro h
  have hadmits : admits (Watch.step 1) (fun _ op => !op.isOperatorRetry) ⟨narrowDb, none⟩
      putOffHistory = true := by decide +kernel
  have hreach : Reach (WatchSteps 1) (fun _ op => op.isOperatorRetry = false) ⟨narrowDb, none⟩
      (replay (Watch.step 1) ⟨narrowDb, none⟩ putOffHistory) :=
    (reach_replay putOffHistory _ hadmits).mono fun _ op hop => by simpa using hop
  have hbounded := h narrowDb 1 _ narrowDb_fresh demoDb_positiveBounds hreach
  have hfourth : ∃ a ∈ (replay (Watch.step 1) ⟨narrowDb, none⟩ putOffHistory).db.assignments,
      a.pipelineRunId = 1 ∧ a.status.inFlight = true ∧ a.stage = .idea ∧ a.attemptNumber = 4 := by
    decide +kernel
  have hthree : stageBound (replay (Watch.step 1) ⟨narrowDb, none⟩ putOffHistory).db 1 .idea =
      some 3 := by
    decide +kernel
  obtain ⟨a, ha, hr, hheld, hstage, hfour⟩ := hfourth
  obtain ⟨visit, m, _, hbound, hsame, _, _, hle⟩ := hbounded.working a ha hr hheld
  rw [← hsame, hstage, hthree] at hbound
  cases hbound
  omega

end ContentOrchestrator

import ContentOrchestrator.Orchestration.WorkerMoves
import ContentOrchestrator.Workers.FleetMoves
import ContentOrchestrator.Workers.Pausing

/-! # A paused worker only finishes what it has

The scheduler and the claim endpoint look at the drain flag of the worker's row before
they give it an assignment, and of all the program does only resuming and the
administrator's switch take the flag back. So from a pause on, whatever the workers and
the server do, a paused worker is never at an attempt that it was not at when it was
paused. -/

namespace ContentOrchestrator

open Lib

variable {s t u : Db} {f g : Fleet} {workspaceId : Nat}

/-! ## Who gets an assignment -/

/-- The worker is at the same attempt in both. -/
structure SameHold (workerId : Nat) (a b : StageAssignment) : Prop where
  id : b.id = a.id
  holder : a.workerId = some workerId
  held : a.status.inFlight = true
  attempt : b.attemptNumber = a.attemptNumber

/-- Whoever is at an attempt was at it before, or was not draining. -/
def Hands (s t : Db) : Prop :=
  ∀ b ∈ t.assignments, ∀ workerId, b.workerId = some workerId → b.status.inFlight = true →
    (∃ a ∈ s.assignments, SameHold workerId a b) ∨
      ∃ w, s.workers.get? workerId = some w ∧ w.drain = false

theorem Hands.of_eq (h : t.assignments = s.assignments) : Hands s t :=
  fun b hb _ hholder hheld => .inl ⟨b, h ▸ hb, rfl, hholder, hheld, rfl⟩

theorem refusal_none_drain {w : WorkerRegistration} (h : w.refusal s = none) : w.drain = false := by
  unfold WorkerRegistration.refusal at h
  split at h
  · cases h
  · rename_i hdrain
    simpa using hdrain

theorem isEligible_drain {w : WorkerRegistration} {stage : String} {health : Int}
    (h : w.isEligible stage health = true) : w.drain = false := by
  simp only [WorkerRegistration.isEligible, Bool.and_eq_true, Bool.not_eq_true'] at h
  exact h.1.1.1.1.2

/-- A claim gives its row to a worker it did not refuse. -/
theorem Claimed.hands {workerId : Nat} {claimToken : Option Nat} {locked : List Nat}
    (h : Claimed workerId claimToken locked s t) : Hands s t := by
  cases h with
  | idle => exact .of_eq rfl
  | @chosen worker stages row blocked _ registered _ admitted _ _ mem _ settled =>
    rcases settled.assignments with heq | hgrant
    · exact .of_eq heq
    · intro b hb holder hholder hheld
      rw [hgrant] at hb
      obtain ⟨a, ha, rfl⟩ := Table.mem_modify.mp hb
      split at hholder
      · rename_i hrow
        have hworker : workerId = holder := Option.some.inj hholder
        exact .inr ⟨worker, hworker ▸ registered, refusal_none_drain admitted⟩
      · rename_i hother
        rw [if_neg hother] at hheld ⊢
        exact .inl ⟨a, ha, rfl, hholder, hheld, rfl⟩

/-- Every other operation goes on with the attempts there are, or the scheduler selects a worker. -/
theorem AssignmentsMove.hands {op : Op} (h : AssignmentsMove op s t)
    (hop : ∀ workerId claimToken locked, op ≠ .claim workerId claimToken locked) : Hands s t := by
  intro b hb holder hholder hheld
  rcases h.new b hb with ⟨a, ha, hmove⟩ | hnew
  · cases hmove with
    | kept => exact .inl ⟨b, ha, rfl, hholder, hheld, rfl⟩
    | granted request => exact absurd request (hop _ _ _)
    | acknowledged _ held =>
      refine .inl ⟨a, ha, rfl, hholder, ?_, rfl⟩
      rw [held]
      rfl
    | renewed _ held => exact .inl ⟨a, ha, rfl, hholder, held, rfl⟩
    | @submitted success _ _ _ _ _ _ _ => cases success <;> cases hheld
    | requeued => cases hheld
    | exhausted => cases hheld
    | cancelled => cases hheld
  · cases hnew with
    | @made job run runId lockedWorkers jitter stage worker priority _ _ _ _ _ _ _ _ selected =>
      cases worker with
      | none => cases hholder
      | some w =>
        obtain ⟨hmem, heligible⟩ := selectWorker_some (selected w rfl)
        have hid : w.id = holder := Option.some.inj hholder
        exact .inr ⟨w, Table.get?_eq_some.mpr ⟨hmem, hid⟩, isEligible_drain heligible⟩

theorem step_hands (hs : s.Sound) (op : Op) : Hands s (step s op) := by
  rcases step_cases s op with heq | heffect
  · exact .of_eq (by rw [heq])
  · cases op with
    | claim workerId claimToken locked =>
      cases heffect with
      | claimed done => exact done.hands
    | _ => exact AssignmentsMove.hands (step_assignments _ hs) (by simp)

/-! ## The registry -/

/-- The row keeps its worker and its workspace, and a flag that is set stays set. -/
structure StaysDrained (w w' : WorkerRegistration) : Prop where
  id : w'.id = w.id
  workspaceId : w'.workspaceId = w.workspaceId
  drain : w.drain = true → w'.drain = true

theorem StaysDrained.refl (w : WorkerRegistration) : StaysDrained w w := ⟨rfl, rfl, fun h => h⟩

theorem StaysDrained.trans {a b c : WorkerRegistration} (h : StaysDrained a b)
    (h' : StaysDrained b c) : StaysDrained a c :=
  ⟨h'.id.trans h.id, h'.workspaceId.trans h.workspaceId, fun hd => h'.drain (h.drain hd)⟩

abbrev KeepsDrained (s t : Db) : Prop :=
  Table.Evolves StaysDrained (fun _ => True) s.workers t.workers

namespace KeepsDrained

theorem of_eq (h : t.workers = s.workers) : KeepsDrained s t := Table.Evolves.of_eq .refl h

theorem trans (h : KeepsDrained s t) (h' : KeepsDrained t u) : KeepsDrained s u :=
  Table.Evolves.trans (fun _ _ _ => StaysDrained.trans) (fun _ _ _ _ => trivial) h h'

theorem modify {workerId : Nat} {v : Update WorkerRegistration}
    (h : t.workers = s.workers.modify workerId v) (hv : ∀ w, StaysDrained w (v.apply w)) :
    KeepsDrained s t :=
  Table.Evolves.modify .refl (fun w _ => hv w) h

end KeepsDrained

theorem submitSlot_drained (w : WorkerRegistration) :
    StaysDrained w (WorkerRegistration.submitSlot.apply w) := by
  change StaysDrained w (if 0 < w.currentLoad then _ else w)
  split
  · exact ⟨rfl, rfl, fun h => h⟩
  · exact .refl w

theorem forceOffline_drained (w : WorkerRegistration) :
    StaysDrained w (WorkerRegistration.forceOffline.apply w) := by
  change StaysDrained w (if w.deregisteredAt.isNone then _ else w)
  split
  · exact ⟨rfl, rfl, fun h => h⟩
  · exact .refl w

theorem SlotMove.keepsDrained {op : Op} (h : SlotMove op s t) : KeepsDrained s t := by
  cases h with
  | kept workers => exact .of_eq workers
  | granted _ _ _ _ workers => exact .modify workers fun w => ⟨rfl, rfl, fun h => h⟩
  | freed slot workers =>
    refine .modify workers fun w => ?_
    rcases slot with rfl | rfl
    · exact submitSlot_drained w
    · exact ⟨rfl, rfl, fun h => h⟩
  | cancelled _ workers => exact .of_eq workers

theorem step_keepsDrained (hs : s.Sound) (op : Op)
    (hop : ∀ elapsed e, op ≠ .change elapsed (some e)) : KeepsDrained s (step s op) := by
  rcases step_cases s op with heq | heffect
  · exact .of_eq (by rw [heq])
  · cases op with
    | change elapsed environment =>
      cases environment with
      | none => exact .of_eq rfl
      | some e => exact absurd rfl (hop elapsed e)
    | _ => exact (heffect.slots (fun _ _ _ _ => hs.jobs) (by simp)).keepsDrained

theorem Reaped.keepsDrained {reason : RecoveryReason} {ids : List Nat} (h : Reaped reason ids s t)
    (hs : s.Sound) : KeepsDrained s t := by
  induction h with
  | done => exact .of_eq rfl
  | @next id _ _ _ _ _ _ _ taken _ ih =>
    have hone := step_keepsDrained hs (.recover id reason) (by simp)
    rw [taken] at hone
    exact hone.trans (ih (taken ▸ step_sound _ _ hs))

theorem EachStopped.keepsDrained {actor : AdminSession} {ids : List Nat}
    (h : EachStopped workspaceId actor ids f g)
    (hs : f.db.Sound) : KeepsDrained f.db g.db := by
  induction h with
  | done => exact .of_eq rfl
  | @next workerId _ _ _ _ stopped _ ih =>
    obtain ⟨t, hreaped, hrow⟩ := stopped.row
    have hstop : KeepsDrained t (modifyWorker workerId WorkerRegistration.stop t) :=
      .modify rfl fun w => ⟨rfl, rfl, fun _ => rfl⟩
    rw [← hrow] at hstop
    exact ((hreaped.keepsDrained hs).trans hstop).trans
      (ih (hrow ▸ (hreaped.sound hs).modifyWorker))

/-- No request of a worker and no other transaction takes a flag back. -/
theorem fleetStep_keepsDrained (hs : f.db.Sound) (op : FleetOp)
    (hop : ∀ elapsed e, op ≠ .engine (.change elapsed (some e))) :
    KeepsDrained f.db (fleetStep f op).db := by
  rcases fleetStep_cases f op with ⟨heq, -⟩ | heffect
  · exact .of_eq (by rw [heq])
  generalize fleetStep f op = g at heffect
  generalize fleetAnswer f op = answer at heffect
  cases heffect with
  | @engine eop => exact step_keepsDrained hs eop fun elapsed e h => hop elapsed e (h ▸ rfl)
  | registered reaped =>
    exact (reaped.keepsDrained hs).trans (.modify rfl fun w => ⟨rfl, rfl, fun h => h⟩)
  | beat => exact .modify rfl fun w => ⟨rfl, rfl, fun h => h⟩
  | deregistered _ _ reaped =>
    exact (reaped.keepsDrained hs).trans (.modify rfl fun w => ⟨rfl, rfl, fun h => h⟩)
  | already => exact .of_eq rfl
  | claimed => exact step_keepsDrained hs _ (by simp)
  | acknowledged => exact step_keepsDrained hs _ (by simp)
  | renewed => exact step_keepsDrained hs _ (by simp)
  | replayed => exact .of_eq rfl
  | submitted _ _ _ _ taken => exact taken ▸ step_keepsDrained hs _ (by simp)
  | provisioned => exact Table.Evolves.insert .refl trivial rfl
  | rotated => exact .of_eq rfl
  | revoked _ _ reaped => exact (reaped.keepsDrained hs).trans (.modify rfl forceOffline_drained)
  | stopped each => exact (stopEach_returns each).keepsDrained hs

theorem Hands.congr (h : Hands s t) (heq : u.assignments = t.assignments) : Hands s u :=
  fun b hb => h b (heq ▸ hb)

theorem Reclaims.hands (h : Reclaims s t) : Hands s t := by
  intro b hb workerId hholder hheld
  rcases h.new b hb with ⟨a, ha, hmove⟩ | hnone
  · cases hmove with
    | kept => exact .inl ⟨b, ha, rfl, hholder, hheld, rfl⟩
    | requeued => cases hheld
    | exhausted => cases hheld
  · exact hnone.elim

theorem fleetStep_hands (hs : f.db.Sound) (op : FleetOp) : Hands f.db (fleetStep f op).db := by
  rcases fleetStep_cases f op with ⟨heq, -⟩ | heffect
  · exact .of_eq (by rw [heq])
  generalize fleetStep f op = g at heffect
  generalize fleetAnswer f op = answer at heffect
  cases heffect with
  | engine => exact step_hands hs _
  | registered reaped => exact reaped.reclaims.hands.congr rfl
  | beat => exact .of_eq rfl
  | deregistered _ _ reaped => exact reaped.reclaims.hands.congr rfl
  | already => exact .of_eq rfl
  | claimed => exact step_hands hs _
  | acknowledged => exact step_hands hs _
  | renewed => exact step_hands hs _
  | replayed => exact .of_eq rfl
  | submitted _ _ _ _ taken => exact taken ▸ step_hands hs _
  | provisioned => exact .of_eq rfl
  | rotated => exact .of_eq rfl
  | revoked _ _ reaped => exact reaped.reclaims.hands.congr rfl
  | stopped each => exact ((stopEach_returns each).moves hs).2.hands.congr rfl

/-! ## Mission Control -/

/-- A sweep takes no flag back and hands nothing out. -/
theorem EachReaped.paused_frame {locked ids : List Nat} (h : EachReaped locked ids s t)
    (hs : s.Sound) : t.Sound ∧ KeepsDrained s t ∧ Reclaims s t := by
  induction h with
  | done => exact ⟨hs, .of_eq rfl, .of_eq rfl⟩
  | next reaped _ ih =>
    obtain ⟨hsound, hkept, hreclaims⟩ := ih (reaped.sound hs)
    exact ⟨hsound, (reaped.keepsDrained hs).trans hkept, reaped.reclaims.trans hreclaims⟩

theorem setEachDrain_get? {drain : Bool} {workers : List Nat} {workerId : Nat} :
    (setEachDrain drain workers s).workers.get? workerId =
      if workerId ∈ workers then
        (s.workers.get? workerId).map (WorkerRegistration.setDrain drain).apply
      else s.workers.get? workerId := by
  unfold setEachDrain
  induction workers generalizing s with
  | nil => rfl
  | cons k rest ih =>
    rw [List.foldl_cons, ih]
    simp only [modifyWorker, Table.get?_modify, List.mem_cons]
    by_cases hk : k = workerId
    · subst hk
      cases s.workers.get? k <;> simp [WorkerRegistration.setDrain]
    · simp [Ne.symm hk]

/-- Only the registry's flags are touched. -/
theorem setEachDrain_frame (drain : Bool) (workers : List Nat) (hs : s.Sound) :
    (setEachDrain drain workers s).Sound ∧
      (setEachDrain drain workers s).assignments = s.assignments := by
  unfold setEachDrain
  induction workers generalizing s with
  | nil => exact ⟨hs, rfl⟩
  | cons k rest ih => exact ih hs.modifyWorker

theorem drainWorkers_committed (f : Fleet) (drain : Bool) :
    atomically (drainWorkers drain workspaceId) f =
      { f with
        db := recordQuickAction workspaceId
          (setEachDrain drain (workspaceWorkers f.db workspaceId) f.db) } := rfl

/-- The workers are pinned to the workspace, and drained. -/
def Db.Paused (db : Db) (workspaceId : Nat) (workers : List Nat) : Prop :=
  ∀ workerId ∈ workers, ∃ w, db.workers.get? workerId = some w ∧
    w.workspaceId = some workspaceId ∧ w.drain = true

variable {workers : List Nat}

theorem KeepsDrained.paused (h : KeepsDrained s t) (hs : s.Paused workspaceId workers) :
    t.Paused workspaceId workers := by
  intro workerId hmem
  obtain ⟨w, hw, hpin, hdrain⟩ := hs workerId hmem
  obtain ⟨w', hw', hstays⟩ := h.get? (fun _ _ => StaysDrained.id) hw
  exact ⟨w', hw', hstays.workspaceId.trans hpin, hstays.drain hdrain⟩

theorem mem_workspaceWorkers {workerId : Nat} (h : workerId ∈ workspaceWorkers s workspaceId) :
    ∃ w, s.workers.get? workerId = some w ∧ w.workspaceId = some workspaceId := by
  obtain ⟨w, hw, rfl⟩ := List.mem_map.mp h
  obtain ⟨hmem, hmatch⟩ := Table.mem_select.mp hw
  simp only [Bool.and_eq_true, beq_iff_eq] at hmatch
  exact ⟨w, Table.get?_of_mem hmem, hmatch.2⟩

/-- The flag is set of those it is about, and no other row is touched. -/
theorem setEachDrain_paused {drain : Bool} (ids : List Nat)
    (h : ∀ workerId ∈ workers, ∃ w, s.workers.get? workerId = some w ∧
      w.workspaceId = some workspaceId ∧ (drain = true ∧ workerId ∈ ids ∨
        w.drain = true ∧ (workerId ∈ ids → drain = true))) :
    (setEachDrain drain ids s).Paused workspaceId workers := by
  intro workerId hmem
  obtain ⟨w, hw, hpin, hcase⟩ := h workerId hmem
  rw [setEachDrain_get?]
  by_cases hin : workerId ∈ ids
  · rw [if_pos hin, hw]
    refine ⟨_, rfl, hpin, ?_⟩
    rcases hcase with ⟨hdrain, -⟩ | ⟨-, hdrain⟩
    · exact hdrain
    · exact hdrain hin
  · rw [if_neg hin]
    rcases hcase with ⟨-, hin'⟩ | ⟨hdrain, -⟩
    · exact absurd hin' hin
    · exact ⟨w, hw, hpin, hdrain⟩

/-- What a step of the paused fleet keeps. -/
structure PauseStep (workspaceId : Nat) (workers : List Nat) (s t : Db) : Prop where
  sound : t.Sound
  paused : t.Paused workspaceId workers
  hands : Hands s t

/-- The environment may change as long as it leaves the flags. -/
theorem applyEnvironment_paused {elapsed : Nat} {e : Environment}
    (hpaused : s.Paused workspaceId workers) (hkeeps : e.keepsPause workspaceId s = true) :
    (applyEnvironment elapsed (some e) s).Paused workspaceId workers := by
  intro workerId hmem
  obtain ⟨w, hw, hpin, hdrain⟩ := hpaused workerId hmem
  obtain ⟨hstored, rfl⟩ := Table.get?_eq_some.mp hw
  have hselected : w ∈ s.workers.select fun w => w.workspaceId == some workspaceId && w.drain :=
    Table.mem_select.mpr ⟨hstored, by rw [hpin, hdrain, beq_self_eq_true, Bool.and_true]⟩
  obtain ⟨w', hw', hrow⟩ := (Option.any_eq_true _ _).mp (List.all_eq_true.mp hkeeps w hselected)
  rw [Bool.and_eq_true, beq_iff_eq] at hrow
  exact ⟨w', hw', hrow.1, hrow.2⟩

theorem fleetStep_paused (hs : f.db.Sound) (hpaused : f.db.Paused workspaceId workers)
    (op : FleetOp) (hkeeps : (MissionOp.fleet op).keepsPause workspaceId f = true) :
    (fleetStep f op).db.Paused workspaceId workers := by
  by_cases hchange : ∃ elapsed e, op = .engine (.change elapsed (some e))
  · obtain ⟨elapsed, e, rfl⟩ := hchange
    exact applyEnvironment_paused hpaused hkeeps
  · exact (fleetStep_keepsDrained hs op fun elapsed e h => hchange ⟨elapsed, e, h⟩).paused hpaused

theorem sweep_paused (hs : f.db.Sound) (hpaused : f.db.Paused workspaceId workers)
    (lockedWorkers lockedAssignments : List Nat) :
    PauseStep workspaceId workers f.db
      (missionStep f (.sweep lockedWorkers lockedAssignments)).db := by
  change PauseStep workspaceId workers f.db (atomically _ f.db)
  rcases atomically_cases (offlineSweep lockedWorkers lockedAssignments) f.db with
    ⟨_, h⟩ | ⟨-, hstay⟩
  · generalize atomically (offlineSweep lockedWorkers lockedAssignments) f.db = t at h
    have hmarked : KeepsDrained f.db { f.db with
        workers := f.db.workers.modifyWhere (fun w =>
          (selectStaleWorkerIds f.db lockedWorkers).contains w.id)
          WorkerRegistration.markOffline } :=
      Table.Evolves.modifyWhere .refl (fun _ _ _ => ⟨rfl, rfl, fun h => h⟩) rfl
    obtain ⟨hsound, hkept, hreclaims⟩ :=
      (offlineSweep_returns h).paused_frame ⟨hs.jobs, hs.keyed, hs.gates, hs.due⟩
    have hmark : Reclaims f.db { f.db with
        workers := f.db.workers.modifyWhere (fun w =>
          (selectStaleWorkerIds f.db lockedWorkers).contains w.id)
          WorkerRegistration.markOffline } := .of_eq rfl
    exact ⟨hsound, (hmarked.trans hkept).paused hpaused, (hmark.trans hreclaims).hands⟩
  · rw [hstay]
    exact ⟨hs, hpaused, .of_eq rfl⟩

theorem missionStep_paused (hs : f.db.Sound) (hpaused : f.db.Paused workspaceId workers)
    (op : MissionOp) (hkeeps : op.keepsPause workspaceId f = true) :
    PauseStep workspaceId workers f.db (missionStep f op).db := by
  cases op with
  | fleet op =>
    exact ⟨(fleetStep_moves f op hs).1, fleetStep_paused hs hpaused op hkeeps,
      fleetStep_hands hs op⟩
  | sweep lockedWorkers lockedAssignments =>
    exact sweep_paused hs hpaused lockedWorkers lockedAssignments
  | pauseWorkers workspace =>
    rw [missionStep, pauseWorkers, drainWorkers_committed]
    obtain ⟨hsound, hsame⟩ := setEachDrain_frame true (workspaceWorkers f.db workspace) hs
    refine ⟨⟨hsound.jobs, hsound.keyed, hsound.gates, hsound.due⟩, ?_, .of_eq hsame⟩
    refine setEachDrain_paused _ fun workerId hmem => ?_
    obtain ⟨w, hw, hpin, hdrain⟩ := hpaused workerId hmem
    exact ⟨w, hw, hpin, .inr ⟨hdrain, fun _ => rfl⟩⟩
  | resumeWorkers workspace =>
    rw [missionStep, resumeWorkers, drainWorkers_committed]
    obtain ⟨hsound, hsame⟩ := setEachDrain_frame false (workspaceWorkers f.db workspace) hs
    refine ⟨⟨hsound.jobs, hsound.keyed, hsound.gates, hsound.due⟩, ?_, .of_eq hsame⟩
    refine setEachDrain_paused _ fun workerId hmem => ?_
    obtain ⟨w, hw, hpin, hdrain⟩ := hpaused workerId hmem
    refine ⟨w, hw, hpin, .inr ⟨hdrain, fun hin => ?_⟩⟩
    obtain ⟨w', hw', hpin'⟩ := mem_workspaceWorkers hin
    obtain rfl : w = w' := Option.some.inj (hw.symm.trans hw')
    rw [hpin] at hpin'
    exact absurd (Option.some.inj hpin').symm (bne_iff_ne.mp hkeeps)
  | setWorkerDrain workspace workerId drain =>
    change PauseStep workspaceId workers f.db (atomically _ f).db
    rcases atomically_cases (setWorkerDrain workspace workerId drain) f with ⟨_, h⟩ | ⟨-, hstay⟩
    · generalize atomically (setWorkerDrain workspace workerId drain) f = g at h
      simp only [setWorkerDrain, returns_bind, returns_onEngine, returns_modify] at h
      obtain ⟨row, _, hworker, _, rfl, rfl⟩ := h
      obtain ⟨hrow, hpinned, rfl⟩ := getWorkspaceWorker_returns hworker
      refine ⟨hs.modifyWorker, ?_, .of_eq rfl⟩
      refine setEachDrain_paused [workerId] fun k hmem => ?_
      obtain ⟨w, hw, hpin, hdrain⟩ := hpaused k hmem
      refine ⟨w, hw, hpin, .inr ⟨hdrain, fun hin => ?_⟩⟩
      obtain rfl := List.mem_singleton.mp hin
      obtain rfl : w = row := Option.some.inj (hw.symm.trans hrow)
      rw [hpin] at hpinned
      rcases Bool.or_eq_true_iff.mp hkeeps with hset | hother
      · exact hset
      · exact absurd (Option.some.inj hpinned).symm (bne_iff_ne.mp hother)
    · rw [hstay]
      exact ⟨hs, hpaused, .of_eq rfl⟩
  | clearDeadLetterQueue workspace =>
    exact ⟨⟨hs.jobs, hs.keyed, hs.gates, hs.due⟩, hpaused, .of_eq rfl⟩

theorem SameHold.trans {k : Nat} {a b c : StageAssignment} (h : SameHold k a b)
    (h' : SameHold k b c) : SameHold k a c :=
  ⟨h'.id.trans h.id, h.holder, h.held, h'.attempt.trans h.attempt⟩

theorem replay_paused (ops : List MissionOp) (hs : f.db.Sound)
    (hpaused : f.db.Paused workspaceId workers)
    (hkeeps : admits missionStep (MissionOp.keepsPause workspaceId) f ops = true) :
    ∀ b ∈ (replay missionStep f ops).db.assignments, ∀ workerId ∈ workers,
      b.workerId = some workerId → b.status.inFlight = true →
        ∃ a ∈ f.db.assignments, SameHold workerId a b := by
  induction ops generalizing f with
  | nil => exact fun b hb _ _ hholder hheld => ⟨b, hb, rfl, hholder, hheld, rfl⟩
  | cons op rest ih =>
    intro b hb workerId hmem hholder hheld
    obtain ⟨hop, hlater⟩ := Bool.and_eq_true_iff.mp hkeeps
    have hstep := missionStep_paused hs hpaused op hop
    have hrest := ih hstep.sound hstep.paused hlater
    obtain ⟨a, ha, hab⟩ := hrest b hb workerId hmem hholder hheld
    rcases hstep.hands a ha workerId (hab.holder) hab.held with ⟨a', ha', hfirst⟩ | ⟨w, hw, hoff⟩
    · exact ⟨a', ha', hfirst.trans hab⟩
    · obtain ⟨w', hw', -, hon⟩ := hpaused workerId hmem
      obtain rfl : w = w' := Option.some.inj (hw.symm.trans hw')
      rw [hoff] at hon
      cases hon

/-- After a pause, whatever happens short of a resumption, what a paused worker is at it was at
before. -/
theorem paused_workers_finish (hs : f.db.Sound) (ops : List MissionOp)
    (hkeeps : admits missionStep (MissionOp.keepsPause workspaceId)
      (missionStep f (.pauseWorkers workspaceId)) ops = true) :
    let g := replay missionStep (missionStep f (.pauseWorkers workspaceId)) ops
    ∀ b ∈ g.db.assignments, ∀ workerId ∈ workspaceWorkers f.db workspaceId,
      b.workerId = some workerId → b.status.inFlight = true →
        ∃ a ∈ f.db.assignments, a.id = b.id ∧ a.workerId = some workerId ∧
          a.status.inFlight = true ∧ a.attemptNumber = b.attemptNumber := by
  intro g b hb workerId hmem hholder hheld
  have hpaused : (missionStep f (.pauseWorkers workspaceId)).db.Paused workspaceId
      (workspaceWorkers f.db workspaceId) := by
    refine setEachDrain_paused _ fun k hk => ?_
    obtain ⟨w, hw, hpin⟩ := mem_workspaceWorkers hk
    exact ⟨w, hw, hpin, .inl ⟨rfl, hk⟩⟩
  obtain ⟨hsound, hsame⟩ := setEachDrain_frame true (workspaceWorkers f.db workspaceId) hs
  obtain ⟨a, ha, hab⟩ := replay_paused ops ⟨hsound.jobs, hsound.keyed, hsound.gates, hsound.due⟩
    hpaused hkeeps b hb workerId hmem hholder hheld
  exact ⟨a, hsame ▸ ha, hab.id.symm, hab.holder, hab.held, hab.attempt.symm⟩

/-- A run is started that both workers could take, and a sweep goes by. -/
def pausedHistory : List MissionOp :=
  givenHistory.map .fleet ++ [.sweep [] [], .resumeWorkers 1, .setWorkerDrain 0 1 true,
    .fleet (.heartbeat ⟨.online, 0⟩ firstBearer), .fleet (.claim (some 7) firstBearer [])]

/-- Unpaused, the first worker is given the run's first stage. -/
theorem paused_workers_finish_history :
    let g := replay missionStep (missionStep demoFleet (.pauseWorkers 0)) pausedHistory
    (replay missionStep demoFleet pausedHistory).db.assignments.count (·.isHeldBy 0) = 1 ∧
      g.db.assignments.count (fun _ => true) = 1 ∧
      ∀ b ∈ g.db.assignments, ∀ workerId ∈ workspaceWorkers demoFleet.db 0,
        b.workerId = some workerId → b.status.inFlight = true →
          ∃ a ∈ demoFleet.db.assignments, a.id = b.id ∧ a.workerId = some workerId ∧
            a.status.inFlight = true ∧ a.attemptNumber = b.attemptNumber :=
  ⟨by decide +kernel, by decide +kernel,
    paused_workers_finish demoFleet_fresh.sound pausedHistory (by decide +kernel)⟩

end ContentOrchestrator

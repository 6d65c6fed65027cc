import ContentOrchestrator.Orchestration.WorkerMoves

/-! # Load accounting

A worker's load is a counter kept by hand: one up with a grant, one down with a submission
or a recovery. It stays equal to what the worker holds as long as no assignment in its
hands is cancelled; a cancellation ends the assignment and leaves the slot taken. -/

namespace ContentOrchestrator

open Lib

variable {s t : Db} {op : Op}

/-- Every registered worker's load is what it holds. -/
def Db.Accounted (db : Db) : Prop := ∀ w ∈ db.workers, w.currentLoad = heldBy db w.id

/-- Busy when full, online below. -/
def WorkerRegistration.FlaggedByLoad (w : WorkerRegistration) : Prop :=
  w.status = if w.maxConcurrency ≤ w.currentLoad then .busy else .online

/-- Nobody but the engine writes the workers. -/
def leavesWorkers (s : Db) : Op → Bool
  | .change _ (some environment) => decide (environment.workers.rows = s.workers.rows)
  | _ => true

/-! ## One slot -/

theorem takeSlot_flagged {w : WorkerRegistration} (room : w.currentLoad < w.maxConcurrency)
    (h : w.FlaggedByLoad) : (WorkerRegistration.takeSlot.apply w).FlaggedByLoad := by
  have honline : w.status = .online := by
    rw [h, if_neg (Nat.not_le_of_lt room)]
  simp [WorkerRegistration.FlaggedByLoad, WorkerRegistration.takeSlot, honline]

/-- Where there is a slot to give back, submission and recovery do the same. -/
theorem freeSlot_apply {u : Update WorkerRegistration} {w : WorkerRegistration}
    (slot : u = WorkerRegistration.submitSlot ∨ u = WorkerRegistration.releaseSlot)
    (h : 0 < w.currentLoad) :
    u.apply w = { w with
      currentLoad := w.currentLoad - 1
      status := if w.status = .busy ∧ w.currentLoad - 1 < w.maxConcurrency then .online
          else w.status } := by
  rcases slot with rfl | rfl
  · simp [WorkerRegistration.submitSlot, h]
  · rfl

theorem freeSlot_flagged {u : Update WorkerRegistration} {w : WorkerRegistration}
    (slot : u = WorkerRegistration.submitSlot ∨
    u = WorkerRegistration.releaseSlot) (held : 0 < w.currentLoad) (h : w.FlaggedByLoad) :
      (u.apply w).FlaggedByLoad := by
  rw [freeSlot_apply slot held]
  unfold WorkerRegistration.FlaggedByLoad at h ⊢
  dsimp only
  by_cases hfull : w.maxConcurrency ≤ w.currentLoad
  · rw [if_pos hfull] at h
    by_cases hroom : w.currentLoad - 1 < w.maxConcurrency
    · rw [if_pos ⟨h, hroom⟩, if_neg (Nat.not_le_of_lt hroom)]
    · rw [if_neg fun hboth => hroom hboth.2, if_pos (Nat.le_of_not_lt hroom), h]
  · rw [if_neg hfull] at h
    have hbelow : ¬ w.maxConcurrency ≤ w.currentLoad - 1 := by omega
    simp [h, hbelow]

/-! ## One operation -/

theorem SlotMove.accounted (h : SlotMove op s t) (hcancels : cancelsHeld s op = false)
    (hs : s.Accounted) :
    t.Accounted := by
  intro w hw
  cases h with
  | kept workers held =>
    rw [workers] at hw
    rw [held, hs w hw]
  | @granted w₀ found _ _ _ workers held =>
    rw [workers] at hw
    obtain ⟨a, ha, rfl⟩ := Table.mem_modify.mp hw
    have hload := hs a ha
    by_cases hk : a.id = w₀.id
    · have hkey : Keyed.key a = w₀.id := hk
      have hheld := held a.id
      rw [if_pos hk] at hheld
      rw [if_pos hkey]
      exact (congrArg (· + 1) hload).trans hheld.symm
    · have hkey : ¬ Keyed.key a = w₀.id := hk
      have hheld := held a.id
      rw [if_neg hk] at hheld
      rw [if_neg hkey]
      exact hload.trans hheld.symm
  | @freed owner u slot workers held =>
    rw [workers] at hw
    obtain ⟨a, ha, rfl⟩ := Table.mem_modify.mp hw
    have hload := hs a ha
    have hheld := held a.id
    by_cases hk : a.id = owner
    · have hkey : Keyed.key a = owner := hk
      rw [if_pos hk] at hheld
      rw [if_pos hkey, freeSlot_apply slot (by omega)]
      dsimp only
      omega
    · have hkey : ¬ Keyed.key a = owner := hk
      rw [if_neg hk] at hheld
      rw [if_neg hkey]
      exact hload.trans hheld
  | cancelled cancels _ _ =>
    rw [hcancels] at cancels
    cases cancels

/-- A worker flagged by its load stays so. -/
theorem SlotMove.flagged (h : SlotMove op s t) (hs : s.Accounted) {w : WorkerRegistration}
    (hw : w ∈ s.workers) (hflag : w.FlaggedByLoad) :
    ∃ w' ∈ t.workers, w'.id = w.id ∧ w'.FlaggedByLoad := by
  have hmodified : ∀ {k : Nat} {u : Update WorkerRegistration}, t.workers = s.workers.modify k u →
      (w.id = k → (u.apply w).FlaggedByLoad) →
        ∃ w' ∈ t.workers, w'.id = w.id ∧ w'.FlaggedByLoad := by
    intro k u heq hu
    refine ⟨_, heq ▸ Table.mem_modify.mpr ⟨w, hw, rfl⟩, ?_⟩
    by_cases hk : w.id = k
    · have hkey : Keyed.key w = k := hk
      rw [if_pos hkey]
      exact ⟨u.key_apply w, hu hk⟩
    · have hkey : ¬ Keyed.key w = k := hk
      rw [if_neg hkey]
      exact ⟨rfl, hflag⟩
  cases h with
  | kept workers _ => exact ⟨w, workers ▸ hw, rfl, hflag⟩
  | @granted w₀ found _ _ room workers _ =>
    refine hmodified workers fun hk => ?_
    have hsame : w = w₀ := Table.eq_of_key hw (Table.get?_eq_some.mp found).1 hk
    exact takeSlot_flagged (hsame ▸ room) hflag
  | @freed owner u slot workers held =>
    refine hmodified workers fun hk => freeSlot_flagged slot ?_ hflag
    have hheld := held w.id
    rw [if_pos hk] at hheld
    rw [hs w hw, hheld]
    exact Nat.succ_pos _
  | cancelled _ workers _ => exact ⟨w, workers ▸ hw, rfl, hflag⟩

/-- One step keeps the accounts and the flags. -/
theorem step_accounted (hs : s.Sound) (hcancels : cancelsHeld s op = false)
    (hleaves : leavesWorkers s op = true) (haccounted : s.Accounted) :
    (step s op).Accounted ∧ ∀ w ∈ s.workers, w.FlaggedByLoad →
      ∃ w' ∈ (step s op).workers, w'.id = w.id ∧ w'.FlaggedByLoad := by
  have hmoves : SlotMove op s (step s op) →
      (step s op).Accounted ∧ ∀ w ∈ s.workers, w.FlaggedByLoad →
        ∃ w' ∈ (step s op).workers, w'.id = w.id ∧ w'.FlaggedByLoad :=
    fun h => ⟨h.accounted hcancels haccounted, fun w hw hflag => h.flagged haccounted hw hflag⟩
  rcases step_cases s op with heq | heffect
  · exact hmoves (.of_eq (by rw [heq]) (by rw [heq]))
  cases op with
  | change elapsed environment =>
    have hworkers : (step s (.change elapsed environment)).workers.rows = s.workers.rows := by
      cases environment with
      | none => rfl
      | some environment => exact of_decide_eq_true hleaves
    have hmem : ∀ w, w ∈ (step s (.change elapsed environment)).workers ↔ w ∈ s.workers := by
      intro w
      rw [Table.mem_def, Table.mem_def, hworkers]
    refine ⟨fun w hw => haccounted w ((hmem w).mp hw), fun w hw hflag =>
      ⟨w, (hmem w).mpr hw, rfl, hflag⟩⟩
  | _ => exact hmoves (heffect.slots (fun _ _ _ _ => hs.jobs) (by simp))

/-- **Load accounting**: where the loads are right at the start, they are right throughout every
history in which no assignment in a worker's hands is cancelled, and every worker flagged by its
load stays so. -/
theorem worker_loads_accounted {db : Db} (hsound : db.Sound) (hstart : db.Accounted)
    (h : Reach Steps (fun s op => leavesWorkers s op = true ∧ cancelsHeld s op = false) db t) :
    t.Accounted ∧ ∀ w ∈ db.workers, w.FlaggedByLoad →
      ∃ w' ∈ t.workers, w'.id = w.id ∧ w'.FlaggedByLoad := by
  have hinvariant : t.Sound ∧ t.Accounted ∧ ∀ w ∈ db.workers, w.FlaggedByLoad →
      ∃ w' ∈ t.workers, w'.id = w.id ∧ w'.FlaggedByLoad := by
    refine h.invariant (P := fun s => s.Sound ∧ s.Accounted ∧ ∀ w ∈ db.workers, w.FlaggedByLoad →
      ∃ w' ∈ s.workers, w'.id = w.id ∧ w'.FlaggedByLoad) ⟨hsound, hstart,
        fun w hw hf => ⟨w, hw, rfl, hf⟩⟩ ?_
    rintro s op t ⟨hs, haccounted, hflags⟩ ⟨hleaves, hcancels⟩ htaken
    rw [← htaken]
    obtain ⟨hlater, hstays⟩ := step_accounted hs hcancels hleaves haccounted
    refine ⟨step_sound s op hs, hlater, fun w hw hflag => ?_⟩
    obtain ⟨w', hw', hid, hflag'⟩ := hflags w hw hflag
    obtain ⟨w'', hw'', hid', hflag''⟩ := hstays w' hw' hflag'
    exact ⟨w'', hw'', hid'.trans hid, hflag''⟩
  exact hinvariant.2

/-- The worker takes the one assignment it has room for, and is busy; the lease runs out, and it is
recovered; the worker claims it again and submits. -/
def fullWorkerHistory : List Op :=
  [.startRun 0 0 0, .poll 10 [], .processJob 0 [] 0, .recover 0 .leaseExpired, .claim 0 none [],
   .submit 0 true none "" (some 0) 0]

/-- The one worker has one slot. -/
def oneSlotDb : Db :=
  { demoDb with
    workers := oneRow
      (fun id =>
        { id, supportedStages := ["idea", "scripting"], status := .online
          lastHeartbeatAt := some 0 })
      fun _ => rfl }

theorem oneSlotDb_fresh : oneSlotDb.Fresh := ⟨rfl, rfl, rfl, rfl, rfl, rfl, rfl, rfl⟩

theorem worker_loads_accounted_busy :
    (replay step oneSlotDb (fullWorkerHistory.take 5)).Accounted ∧
      (∃ w ∈ (replay step oneSlotDb (fullWorkerHistory.take 5)).workers,
        w.currentLoad = 1 ∧ w.status = .busy) ∧
        (replay step oneSlotDb fullWorkerHistory).Accounted ∧
          ∃ w ∈ (replay step oneSlotDb fullWorkerHistory).workers, w.currentLoad = 0 ∧
            w.status = .online := by
  have hadmits : admits step (fun s op => leavesWorkers s op && !cancelsHeld s op) oneSlotDb
      fullWorkerHistory = true := by decide +kernel
  have hstart : oneSlotDb.Accounted := by
    unfold Db.Accounted
    decide
  have hrun : ∀ n, (replay step oneSlotDb (fullWorkerHistory.take n)).Accounted := fun n =>
    (worker_loads_accounted oneSlotDb_fresh.sound hstart
      ((reach_replay _ _ (admits_take hadmits n)).mono fun s op hok => by simpa using hok)).1
  exact ⟨hrun 5, by decide +kernel, hrun 6, by decide +kernel⟩

/-- The run is cancelled while the worker has its assignment: the assignment is over, the slot stays
taken. -/
theorem cancelled_run_keeps_slot :
    ¬ ∀ db t : Db, db.Sound → db.Accounted →
      Reach Steps (fun s op => leavesWorkers s op = true) db t →
      t.Accounted := by
  intro h
  have hstart : demoDb.Accounted := by
    unfold Db.Accounted
    decide
  have hadmits : admits step leavesWorkers demoDb
      [.startRun 0 0 0, .poll 10 [], .processJob 0 [] 0, .cancelRun 0] = true := by decide +kernel
  have haccounted := h _ _ demoDb_fresh.sound hstart (reach_replay _ _ hadmits)
  have hstranded : ∃ w ∈ (replay step demoDb
      [.startRun 0 0 0, .poll 10 [], .processJob 0 [] 0, .cancelRun 0]).workers,
      w.currentLoad = 1 ∧ heldBy (replay step demoDb
        [.startRun 0 0 0, .poll 10 [], .processJob 0 [] 0, .cancelRun 0]) w.id = 0 := by
          decide +kernel
  obtain ⟨w, hw, hload, hheld⟩ := hstranded
  have hsame := haccounted w hw
  rw [hload, hheld] at hsame
  cases hsame

end ContentOrchestrator

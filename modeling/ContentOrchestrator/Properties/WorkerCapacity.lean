import ContentOrchestrator.Properties.WorkerLoad
import ContentOrchestrator.Workers.OfflineSweep

/-! # Worker capacity

A grant is decided by the load on the worker's row, and the load may be written without
a look at what the worker holds: by its heartbeat, which overwrites it, and by its
registration, which sets it to zero. As long as neither leaves the load below what the
worker holds, no worker ever holds more than it has room for. -/

namespace ContentOrchestrator

open Lib

variable {f g : Fleet} {op : FleetOp} {s t : Db}

/-- No worker holds more than it has room for, and the load of a worker that may be given work
covers what it holds. -/
structure Db.WithinCapacity (db : Db) : Prop where
  unregistered : ∀ v, db.workers.get? v = none → heldBy db v = 0
  bounded : ∀ w ∈ db.workers, heldBy db w.id ≤ w.maxConcurrency
  covered : ∀ w ∈ db.workers, w.status ≠ .offline → w.deregisteredAt = none →
    heldBy db w.id ≤ w.currentLoad

theorem Db.Fresh.withinCapacity (h : s.Fresh) : s.WithinCapacity := by
  have hnone : ∀ v, heldBy s v = 0 := fun v => by
    rw [heldBy, h.assignments]
    rfl
  exact ⟨fun v _ => hnone v, fun w _ => by rw [hnone]; exact Nat.zero_le _,
    fun w _ _ _ => by rw [hnone]; exact Nat.zero_le _⟩

/-! ## The engine's operations -/

theorem Db.WithinCapacity.of_rows (h : s.WithinCapacity) (hw : t.workers.rows = s.workers.rows)
    (hheld : ∀ v, heldBy t v ≤ heldBy s v) : t.WithinCapacity := by
  have hmem : ∀ w, w ∈ t.workers → w ∈ s.workers := fun w hmem => by
    rwa [Table.mem_def, hw] at hmem
  have hget : ∀ v, t.workers.get? v = s.workers.get? v := fun v => by
    rw [Table.get?, hw, Table.get?]
  refine ⟨fun v hv => ?_, fun w hmem' => ?_, fun w hmem' hserving hlisted => ?_⟩
  · rw [hget] at hv
    exact Nat.le_zero.mp (h.unregistered v hv ▸ hheld v)
  · exact (hheld w.id).trans (h.bounded w (hmem w hmem'))
  · exact (hheld w.id).trans (h.covered w (hmem w hmem') hserving hlisted)

/-- One worker's row is written, and what the others hold does not grow. -/
theorem Db.WithinCapacity.modify {k : Nat} {u : Update WorkerRegistration} (h : s.WithinCapacity)
    (workers : t.workers = s.workers.modify k u) (hother : ∀ v, v ≠ k → heldBy t v ≤ heldBy s v)
    (hnone : s.workers.get? k = none → heldBy t k ≤ heldBy s k)
    (hrow : ∀ w, s.workers.get? k = some w → heldBy t k ≤ (u.apply w).maxConcurrency ∧
      ((u.apply w).status ≠ .offline → (u.apply w).deregisteredAt = none →
        heldBy t k ≤ (u.apply w).currentLoad)) : t.WithinCapacity := by
  -- a worker's row is the old one, or that of `k` as it is written
  have hrows : ∀ w ∈ t.workers, (w ∈ s.workers ∧ w.id ≠ k) ∨
      ∃ a, s.workers.get? k = some a ∧ w = u.apply a ∧ w.id = k := by
    intro w hw
    rw [workers] at hw
    obtain ⟨a, ha, rfl⟩ := Table.mem_modify.mp hw
    split
    · rename_i hkey
      have hid : (u.apply a).id = k := (u.key_apply a).trans hkey
      exact .inr ⟨a, Table.get?_eq_some.mpr ⟨ha, hkey⟩, rfl, hid⟩
    · rename_i hkey
      exact .inl ⟨ha, hkey⟩
  refine ⟨fun v hv => ?_, fun w hw => ?_, fun w hw hserving hlisted => ?_⟩
  · rw [workers, Table.get?_modify] at hv
    split at hv
    · rename_i hk
      have habsent := Option.map_eq_none_iff.mp hv
      rw [hk]
      exact Nat.le_zero.mp (h.unregistered k habsent ▸ hnone habsent)
    · rename_i hk
      exact Nat.le_zero.mp (h.unregistered v hv ▸ hother v hk)
  · rcases hrows w hw with ⟨hold, hne⟩ | ⟨a, ha, rfl, hid⟩
    · exact (hother w.id hne).trans (h.bounded w hold)
    · rw [hid]
      exact (hrow a ha).1
  · rcases hrows w hw with ⟨hold, hne⟩ | ⟨a, ha, rfl, hid⟩
    · exact (hother w.id hne).trans (h.covered w hold hserving hlisted)
    · rw [hid]
      exact (hrow a ha).2 hserving hlisted

/-- Giving a slot back takes one off the load at most, and brings nobody online who was offline. -/
theorem freeSlot_covers {u : Update WorkerRegistration} {w : WorkerRegistration}
    (slot : u = WorkerRegistration.submitSlot ∨ u = WorkerRegistration.releaseSlot) :
    (u.apply w).maxConcurrency = w.maxConcurrency ∧ (u.apply w).deregisteredAt = w.deregisteredAt ∧
      w.currentLoad - 1 ≤ (u.apply w).currentLoad ∧ ((u.apply w).status ≠ .offline →
        w.status ≠ .offline) := by
  have hstatus : ∀ b : Prop, [Decidable b] →
      (if w.status = .busy ∧ b then WorkerStatus.online else w.status) ≠ .offline →
        w.status ≠ .offline := by
    intro b _ hne hoffline
    rw [hoffline] at hne
    simp at hne
  rcases slot with rfl | rfl
  · unfold WorkerRegistration.submitSlot
    dsimp only
    split
    · exact ⟨rfl, rfl, Nat.le_of_eq rfl, hstatus _⟩
    · exact ⟨rfl, rfl, Nat.sub_le _ _, id⟩
  · exact ⟨rfl, rfl, Nat.le_of_eq rfl, hstatus _⟩

theorem SlotMove.withinCapacity {op : Op} (h : SlotMove op s t) (hs : s.WithinCapacity) :
    t.WithinCapacity := by
  cases h with
  | kept workers held => exact hs.of_rows (by rw [workers]) fun v => Nat.le_of_eq (held v)
  | cancelled _ workers held => exact hs.of_rows (by rw [workers]) held
  | @granted w₀ found serving listed room workers held =>
    have honline : w₀.status ≠ .offline := by
      intro hoffline
      rw [hoffline] at serving
      rcases serving with hs | hs <;> cases hs
    have hload : heldBy s w₀.id ≤ w₀.currentLoad :=
      hs.covered w₀ (Table.get?_eq_some.mp found).1 honline listed
    have hown : heldBy t w₀.id = heldBy s w₀.id + 1 := by
      rw [held, if_pos rfl]
    refine hs.modify workers (fun v hv => ?_) (fun hnone => ?_) fun w hw => ?_
    · rw [held, if_neg hv]
      exact Nat.le_of_eq rfl
    · rw [found] at hnone
      cases hnone
    · rw [found] at hw
      rw [← Option.some.inj hw, hown]
      refine ⟨?_, fun _ _ => ?_⟩
      · change heldBy s w₀.id + 1 ≤ w₀.maxConcurrency
        omega
      · change heldBy s w₀.id + 1 ≤ w₀.currentLoad + 1
        omega
  | @freed owner u slot workers held =>
    have hless : ∀ v, heldBy t v ≤ heldBy s v := fun v => by
      rw [held v]
      exact Nat.le_add_right _ _
    have hown : heldBy s owner = heldBy t owner + 1 := by
      rw [held, if_pos rfl]
    refine hs.modify workers (fun v _ => hless v) (fun _ => hless owner) fun w hw => ?_
    obtain ⟨hmem, rfl⟩ := Table.get?_eq_some.mp hw
    obtain ⟨hmax, hderegistered, hload, hstatus⟩ := freeSlot_covers (w := w) slot
    refine ⟨?_, fun hserving hlisted => ?_⟩
    · rw [hmax]
      exact (hless w.id).trans (hs.bounded w hmem)
    · have hcovered : heldBy s w.id ≤ w.currentLoad :=
        hs.covered w hmem (hstatus hserving) (hderegistered ▸ hlisted)
      change heldBy s w.id = heldBy t w.id + 1 at hown
      change heldBy t w.id ≤ (u.apply w).currentLoad
      omega

theorem step_withinCapacity {op : Op} (hs : s.Sound) (hleaves : leavesWorkers s op = true)
    (h : s.WithinCapacity) : (step s op).WithinCapacity := by
  rcases step_cases s op with heq | heffect
  · rw [heq]
    exact h
  cases op with
  | change elapsed environment =>
    refine h.of_rows ?_ fun v => Nat.le_of_eq rfl
    cases environment with
    | none => rfl
    | some environment => exact of_decide_eq_true hleaves
  | _ => exact (heffect.slots (fun _ _ _ _ => hs.jobs) (by simp)).withinCapacity h

/-! ## Requests and maintenance -/

theorem Reaped.withinCapacity {reason : RecoveryReason} {ids : List Nat} (h : Reaped reason ids s t)
    (hs : s.Sound) (hcapacity : s.WithinCapacity) : t.WithinCapacity := by
  induction h with
  | done => exact hcapacity
  | next _ _ taken _ ih =>
    rw [← taken] at ih
    exact ih (step_sound _ _ hs) (step_withinCapacity hs rfl hcapacity)

/-- A worker's row is written by someone else than the engine. -/
theorem Db.WithinCapacity.modifyWorker {workerId : Nat} {u : Update WorkerRegistration}
    (h : s.WithinCapacity)
    (hrow : ∀ w, s.workers.get? workerId = some w → heldBy s workerId ≤ (u.apply w).maxConcurrency ∧
      ((u.apply w).status ≠ .offline → (u.apply w).deregisteredAt = none →
        heldBy s workerId ≤ (u.apply w).currentLoad)) :
          (modifyWorker workerId u s).WithinCapacity :=
  h.modify rfl (fun _ _ => Nat.le_of_eq rfl) (fun _ => Nat.le_of_eq rfl) hrow

/-- A worker taken offline keeps what it holds within its room. -/
theorem Db.WithinCapacity.offline {workerId : Nat} {u : Update WorkerRegistration}
    (h : s.WithinCapacity) (hmax : ∀ w, (u.apply w).maxConcurrency = w.maxConcurrency)
    (hoffline : ∀ w, (u.apply w).status = .offline ∨ (u.apply w).deregisteredAt ≠ none) :
    (ContentOrchestrator.modifyWorker workerId u s).WithinCapacity := by
  refine h.modifyWorker fun w hw => ?_
  obtain ⟨hmem, rfl⟩ := Table.get?_eq_some.mp hw
  refine ⟨?_, fun hserving hlisted => ?_⟩
  · rw [hmax]
    exact h.bounded w hmem
  · rcases hoffline w with hstatus | hderegistered
    · exact absurd hstatus hserving
    · exact absurd hlisted hderegistered

theorem WorkerRegistration.forceOffline_offline (w : WorkerRegistration) :
    (forceOffline.apply w).maxConcurrency = w.maxConcurrency ∧
      ((forceOffline.apply w).status = .offline ∨
        (forceOffline.apply w).deregisteredAt ≠ none) := by
  unfold forceOffline
  dsimp only
  split
  · exact ⟨rfl, .inl rfl⟩
  · rename_i hlisted
    refine ⟨rfl, .inr fun hnone => ?_⟩
    rw [hnone] at hlisted
    exact hlisted rfl

theorem EachStopped.withinCapacity {workspaceId : Nat} {actor : AdminSession} {ids : List Nat}
    (h : EachStopped workspaceId actor ids f g) (hs : f.db.Sound)
    (hcapacity : f.db.WithinCapacity) :
    g.db.WithinCapacity := by
  induction h with
  | done => exact hcapacity
  | next stopped _ ih =>
    obtain ⟨t, hreaped, hrow⟩ := stopped.row
    refine ih (hrow ▸ (hreaped.sound hs).modifyWorker) ?_
    rw [hrow]
    exact (hreaped.withinCapacity hs hcapacity).offline (fun _ => rfl) fun _ => .inl rfl

/-- The heartbeat is accepted, and reports less than the worker holds. -/
def underreports (f : Fleet) (payload : WorkerHeartbeatIn) (worker : AuthenticatedWorker) : Bool :=
  payload.status != .offline && decide (payload.currentLoad < heldBy f.db worker.workerId) &&
    (f.db.workers.get? worker.workerId).any fun w =>
      w.deregisteredAt.isNone && decide (payload.currentLoad ≤ w.maxConcurrency)

/-- What the worker holds, and another transaction has locked. -/
def holdsLocked (db : Db) (workerId : Nat) (locked : List Nat) : Bool :=
  decide (∃ a ∈ db.assignments, a.isHeldBy workerId = true ∧ a.id ∈ locked)

/-- No load is written below what its worker holds: a heartbeat does not underreport, and a
registration finds nothing of the worker's locked. -/
def FleetOp.keepsCover (f : Fleet) : FleetOp → Bool
  | engine op => leavesWorkers f.db op
  | heartbeat payload worker => !underreports f payload worker
  | register _ worker locked => !holdsLocked f.db worker.workerId locked
  | _ => true

/-- Nothing is left of what is not locked. -/
theorem Reaped.nothingHeld {reason : RecoveryReason} {workerId : Nat} {locked : List Nat}
    (h : Reaped reason (workerHoldings s workerId locked) s t)
    (hfree : holdsLocked s workerId locked = false) :
    heldBy t workerId = 0 := by
  refine Table.count_eq_zero.mpr fun a ha => ?_
  cases hheld : a.isHeldBy workerId with
  | false => rfl
  | true =>
    obtain ⟨howner, hflight⟩ := isHeldBy_iff.mp hheld
    have hrow : ∃ a ∈ s.assignments, a.isHeldBy workerId = true ∧ a.id ∈ locked :=
      ⟨a, h.reclaims.kept ha hflight, hheld, h.left ha hflight howner⟩
    rw [holdsLocked, decide_eq_true hrow] at hfree
    cases hfree

theorem FleetEffect.withinCapacity {answer : Option SubmitOut} (h : FleetEffect op f answer g)
    (hs : f.db.Sound) (hcover : op.keepsCover f = true) (hcapacity : f.db.WithinCapacity) :
    g.db.WithinCapacity := by
  cases h with
  | engine => exact step_withinCapacity hs hcover hcapacity
  | registered reaped _ _ =>
    have hfree : heldBy _ _ = 0 := reaped.nothingHeld (by simpa [FleetOp.keepsCover] using hcover)
    refine (reaped.withinCapacity hs hcapacity).modifyWorker fun w _ => ?_
    rw [hfree]
    exact ⟨Nat.zero_le _, fun _ _ => Nat.zero_le _⟩
  | @beat payload worker _ w found listed online fits =>
    refine hcapacity.modifyWorker fun w' hw' => ?_
    rw [found] at hw'
    obtain ⟨hmem, hid⟩ := Table.get?_eq_some.mp found
    rw [← Option.some.inj hw']
    refine ⟨hid ▸ hcapacity.bounded w hmem, fun _ _ => ?_⟩
    by_contra hless
    have hunder : underreports f payload worker = true := by
      simp only [underreports, found, Option.any_some, listed, Option.isNone_none, fits,
        Bool.and_eq_true, bne_iff_ne, decide_eq_true_eq]
      exact ⟨⟨online, Nat.lt_of_not_le hless⟩, trivial, trivial⟩
    rw [FleetOp.keepsCover, hunder] at hcover
    cases hcover
  | deregistered _ _ reaped =>
    exact (reaped.withinCapacity hs hcapacity).offline (fun _ => rfl) fun _ => .inl rfl
  | already => exact hcapacity
  | claimed _ => exact step_withinCapacity hs rfl hcapacity
  | acknowledged _ => exact step_withinCapacity hs rfl hcapacity
  | renewed _ => exact step_withinCapacity hs rfl hcapacity
  | replayed _ _ => exact hcapacity
  | submitted _ _ _ _ taken => exact taken ▸ step_withinCapacity hs rfl hcapacity
  | provisioned =>
    have hnew : heldBy f.db f.db.workers.next = 0 := hcapacity.unregistered _ Table.get?_next
    refine ⟨fun v hv => hcapacity.unregistered v ?_, fun w hw => ?_, fun w hw hserving _ => ?_⟩
    · simp only [provisionWorker, Table.get?_insert] at hv
      split at hv
      · cases hv
      · exact hv
    · rcases Table.mem_insert.mp hw with hold | rfl
      · exact hcapacity.bounded w hold
      · exact Nat.le_trans (Nat.le_of_eq hnew) (Nat.zero_le _)
    · rcases Table.mem_insert.mp hw with hold | rfl
      · exact hcapacity.covered w hold hserving ‹_›
      · exact absurd rfl hserving
  | rotated _ _ => exact hcapacity
  | revoked _ _ reaped =>
    exact (reaped.withinCapacity hs hcapacity).offline
      (fun w => (WorkerRegistration.forceOffline_offline w).1) fun w =>
        (WorkerRegistration.forceOffline_offline w).2
  | stopped each =>
    exact ((stopEach_returns each).withinCapacity hs hcapacity).of_rows rfl fun v =>
      Nat.le_of_eq rfl

/-! ## The sweep -/

theorem EachReaped.withinCapacity {locked ids : List Nat} (h : EachReaped locked ids s t)
    (hs : s.Sound) (hcapacity : s.WithinCapacity) : t.Sound ∧ t.WithinCapacity := by
  induction h with
  | done => exact ⟨hs, hcapacity⟩
  | next reaped _ ih => exact ih (reaped.sound hs) (reaped.withinCapacity hs hcapacity)

/-- The flipped workers are offline, and the others as they were. -/
theorem Db.WithinCapacity.marked {stale : WorkerRegistration → Bool} (h : s.WithinCapacity) :
    ({ s with
       workers := s.workers.modifyWhere stale WorkerRegistration.markOffline } :
      Db).WithinCapacity := by
  refine ⟨fun v hv => h.unregistered v ?_, fun w hw => ?_, fun w hw hserving hlisted => ?_⟩
  · rw [Table.get?_modifyWhere] at hv
    exact Option.map_eq_none_iff.mp hv
  · obtain ⟨a, ha, rfl⟩ := Table.mem_modifyWhere.mp hw
    split
    · exact h.bounded a ha
    · exact h.bounded a ha
  · obtain ⟨a, ha, rfl⟩ := Table.mem_modifyWhere.mp hw
    split at hserving
    · exact absurd rfl hserving
    · rename_i hstale
      rw [if_neg hstale] at hlisted ⊢
      exact h.covered a ha hserving hlisted

theorem offlineSweep_withinCapacity {lockedWorkers lockedAssignments : List Nat} (hs : s.Sound)
    (hcapacity : s.WithinCapacity) :
    (atomically (offlineSweep lockedWorkers lockedAssignments) s).Sound ∧
      (atomically (offlineSweep lockedWorkers lockedAssignments) s).WithinCapacity := by
  rcases atomically_cases (offlineSweep lockedWorkers lockedAssignments) s with ⟨_, h⟩ | ⟨_, h⟩
  · exact (offlineSweep_returns h).withinCapacity ⟨hs.jobs, hs.keyed, hs.gates,
      hs.due⟩ hcapacity.marked
  · rw [h]
    exact ⟨hs, hcapacity⟩

/-- No load is written below what its worker holds. -/
def TendedOp.keepsCover (f : Fleet) : TendedOp → Bool
  | fleet op => op.keepsCover f
  | sweep _ _ => true

/-- **Worker capacity**: in every history of requests, engine operations and sweeps in which no
accepted heartbeat reports less than its worker holds, and no registration finds an assignment of
its worker locked, no worker ever holds more assignments than its `max_concurrency`. -/
theorem worker_capacity_bounded {f₀ : Fleet} (hfresh : f₀.db.Fresh)
    (h : Reach TendedSteps (fun f op => op.keepsCover f = true) f₀ f) :
    ∀ w ∈ f.db.workers, heldBy f.db w.id ≤ w.maxConcurrency := by
  have hinvariant : f.db.Sound ∧ f.db.WithinCapacity := by
    refine h.invariant (P := fun f => f.db.Sound ∧ f.db.WithinCapacity) ⟨hfresh.sound,
      hfresh.withinCapacity⟩ ?_
    rintro f op g ⟨hs, hcapacity⟩ hcover htaken
    rw [← htaken]
    cases op with
    | fleet op =>
      refine ⟨(fleetStep_moves f op hs).1, ?_⟩
      rcases fleetStep_cases f op with ⟨heq, _⟩ | heffect
      · change (fleetStep f op).db.WithinCapacity
        rw [heq]
        exact hcapacity
      · exact heffect.withinCapacity hs hcover hcapacity
    | sweep lockedWorkers lockedAssignments => exact offlineSweep_withinCapacity hs hcapacity
  exact hinvariant.2.bounded

/-- One worker with one slot, and its credential. -/
def oneSlotFleet : Fleet where
  db := oneSlotDb
  credentials :=
    oneRow (fun id => { id, workerId := 0, workspaceId := 0, secretHash := "a" })
      firstCredential_key

/-- The worker is given an assignment and goes silent; the sweep takes it back, and the worker
registers again and claims it. -/
def silentHistory : List TendedOp :=
  [.fleet (.engine (.startRun 0 0 0)), .fleet (.engine (.poll 10 [])),
    .fleet (.engine (.processJob 0 [] 0)),
   .fleet (.heartbeat ⟨.busy, 1⟩ firstBearer), .fleet (.engine (elapse (seconds 120))),
     .sweep [] [],
   .fleet (.register { supportedStages := ["idea"], maxConcurrency := 1 } firstBearer []),
   .fleet (.claim none firstBearer [])]

theorem worker_capacity_bounded_silent :
    (∀ w ∈ (replay tendedStep oneSlotFleet silentHistory).db.workers,
      heldBy (replay tendedStep oneSlotFleet silentHistory).db w.id ≤ w.maxConcurrency) ∧
        heldBy (replay tendedStep oneSlotFleet (silentHistory.take 6)).db 0 = 0 ∧
          heldBy (replay tendedStep oneSlotFleet silentHistory).db 0 = 1 := by
  have hadmits : admits tendedStep TendedOp.keepsCover oneSlotFleet silentHistory = true := by
    decide +kernel
  exact ⟨worker_capacity_bounded oneSlotDb_fresh
    (reach_replay _ _ hadmits), by decide +kernel, by decide +kernel⟩

/-- The worker has its one assignment and reports a load of zero; the next run's job is given to it
too. -/
def underreportedHistory : List TendedOp :=
  [.fleet (.engine (.startRun 0 0 0)), .fleet (.engine (.poll 10 [])),
    .fleet (.engine (.processJob 0 [] 0)),
   .fleet (.heartbeat ⟨.online, 0⟩ firstBearer), .fleet (.engine (.startRun 0 0 0)),
   .fleet (.engine (.poll 10 [])), .fleet (.engine (.processJob 1 [] 0))]

theorem heartbeat_overfills_worker :
    ¬ ∀ f₀ f : Fleet, f₀.db.Fresh → Reach TendedSteps (fun _ _ => True) f₀ f →
      ∀ w ∈ f.db.workers, heldBy f.db w.id ≤ w.maxConcurrency := by
  intro h
  have hbounded := h _ _ oneSlotDb_fresh (reach_any underreportedHistory oneSlotFleet)
  have hoverfull : ∃ w ∈ (replay tendedStep oneSlotFleet underreportedHistory).db.workers,
      w.maxConcurrency = 1 ∧
        heldBy (replay tendedStep oneSlotFleet underreportedHistory).db w.id = 2 := by
    decide +kernel
  obtain ⟨w, hw, hmax, hheld⟩ := hoverfull
  have hle := hbounded w hw
  rw [hmax, hheld] at hle
  omega

end ContentOrchestrator

import ContentOrchestrator.Orchestration.LockPaths

/-! # Lock order

A worker's own requests lock its credential, then the worker, then the assignment, then
budget, cap and advisory lock. The others do not keep to one order: a worker is locked
before its credentials are written, an assignment before its worker, a reservation that
is released before the cap, and whoever treats several rows in a loop goes back to an
earlier kind of lock. -/

namespace ContentOrchestrator

open Lib

/-- The worker's own requests, a registration apart, and claims that release a reservation. -/
def LockPath.isOwn : LockPath → Bool
  | claim _ _ candidates => candidates.all (·.gate.priors.isEmpty)
  | ack _ _ _ | renew _ _ _ | submit _ _ _ _ => true
  | _ => false

section

variable {hash : Aggregate → Nat}

/-! ## Guards -/

/-- Every lock is asked for under its guard, whatever is held. -/
def WellGuarded (hash : Aggregate → Nat) (p : Locks) : Prop :=
  ∀ held, p.Meets (lockOrder hash) (lockOrder hash).Guarded held fun _ => True

theorem wellGuarded_done : WellGuarded hash .done := fun _ => trivial

theorem WellGuarded.append {p q : Locks} (hp : WellGuarded hash p) (hq : WellGuarded hash q) :
    WellGuarded hash (p ++ q) :=
  fun held => (hp held).append fun held' _ => hq held'

theorem WellGuarded.each {α : Type} {xs : List α} {p : α → Locks}
    (hp : ∀ x, WellGuarded hash (p x)) :
    WellGuarded hash (.each xs p) :=
  fun _ => LockProgram.Meets.each (I := fun _ => True) (fun x _ held' _ => hp x held') trivial

theorem guarded_of_none {k : Lockable} (h : Lockable.guard hash k = none) (held : List Lockable) :
    (lockOrder hash).Guarded held k := by
  intro g hg
  have hguard : Lockable.guard hash k = some g := hg
  rw [h] at hguard
  cases hguard

theorem wellGuarded_acquire {k : Lockable} (h : Lockable.guard hash k = none) :
    WellGuarded hash (.acquire k) :=
  fun held => ⟨guarded_of_none h held, trivial⟩

theorem WellGuarded.select {α : Type} {lockOf : α → Lockable} {xs : List α} {p : List α → Locks}
    (hguard : ∀ x, Lockable.guard hash (lockOf x) = none)
    (hp : ∀ found, WellGuarded hash (p found)) :
    WellGuarded hash (.select lockOf xs p) :=
  fun _ => LockProgram.Meets.select (I := fun _ => True) hguard (fun _ _ _ => trivial) trivial
    fun found held' _ => hp found held'

/-- Rows without a guard may be flushed at any time. -/
theorem wellGuarded_flush {rows : List Lockable} (h : ∀ k ∈ rows, Lockable.guard hash k = none) :
    WellGuarded hash (flushLocks rows) :=
  fun _ => LockProgram.Meets.each (I := fun _ => True)
    (fun k hk held' _ => wellGuarded_acquire (h k hk) held') trivial

theorem wellGuarded_flush_map {ids : List Nat} {row : Nat → Lockable}
    (h : ∀ id, Lockable.guard hash (row id) = none) :
    WellGuarded hash (flushLocks (ids.map row)) := by
  refine wellGuarded_flush fun k hk => ?_
  obtain ⟨id, _, heq⟩ := List.mem_map.mp hk
  rw [← heq]
  exact h id

theorem wellGuarded_emit {aggregate : Aggregate} : WellGuarded hash (emitLocks hash aggregate) :=
  wellGuarded_acquire rfl

/-- The rows of a run are asked for after its event. -/
theorem guarded_under_run {runId : Nat} {held : List Lockable} {k : Lockable}
    (hadvisory : .advisory (hash (.pipelineRun runId)) ∈ held)
    (hguard : Lockable.guard hash k = some (.advisory (hash (.pipelineRun runId)))) :
    (lockOrder hash).Guarded held k := by
  intro g hg
  have hsome : Lockable.guard hash k = some g := hg
  rw [hguard] at hsome
  cases hsome
  exact hadvisory

theorem mem_hold_self {k : Lockable} {held : List Lockable} : k ∈
    hold k held := mem_hold.mpr (.inl rfl)

theorem mem_hold_of_mem {k k' : Lockable} {held : List Lockable} (h : k ∈ held) :
    k ∈ hold k' held :=
  mem_hold.mpr (.inr h)

theorem wellGuarded_emitRun {runId : Nat} : WellGuarded hash (emitRunLocks hash runId) := by
  intro held
  rw [emitRunLocks, emitLocks, LockProgram.meets_append]
  exact ⟨guarded_of_none rfl held, guarded_under_run mem_hold_self rfl, trivial⟩

theorem wellGuarded_settle {runId reservationId : Nat} :
    WellGuarded hash (settleSpendLocks hash runId reservationId) := by
  intro held
  rw [settleSpendLocks, emitRunLocks, emitLocks, LockProgram.meets_append, LockProgram.meets_append]
  exact ⟨guarded_of_none rfl held, guarded_under_run mem_hold_self rfl,
    guarded_under_run (mem_hold_of_mem mem_hold_self) rfl, trivial⟩

theorem wellGuarded_gate {runId gateId : Nat} :
    WellGuarded hash (emitLocks hash (.pipelineRun runId) ++ .acquire (.gate runId gateId)) := by
  intro held
  rw [emitLocks, LockProgram.meets_append]
  exact ⟨guarded_of_none rfl held, guarded_under_run mem_hold_self rfl, trivial⟩

theorem wellGuarded_releaseAll {runId : Nat} {reservations : List Nat} :
    WellGuarded hash (releaseAllLocks hash runId reservations) := .each fun _ => wellGuarded_settle

theorem wellGuarded_reserve {runId : Nat} {r : Reserving} :
    WellGuarded hash (reserveSpendLocks hash runId r) :=
  (wellGuarded_releaseAll.append (wellGuarded_flush_map fun _ => rfl)).append wellGuarded_emitRun

theorem wellGuarded_stageFailure {runId : Nat} {reservations : List Nat} :
    WellGuarded hash (stageFailureLocks hash runId reservations) :=
  wellGuarded_emitRun.append wellGuarded_releaseAll

theorem wellGuarded_grant {c : Candidate} : WellGuarded hash (grantLocks hash c) := by
  unfold grantLocks
  split
  · exact wellGuarded_emit
  · exact wellGuarded_reserve.append wellGuarded_emit
  · exact wellGuarded_reserve

/-- No guard is given back with a savepoint. -/
theorem guard_ne_of_candidate {c : Candidate} {g : Lockable}
    (h : g ∈ .assignment c.assignmentId :: c.budget.toList.map .budget) (k : Lockable) :
    Lockable.guard hash k ≠ some g := by
  intro hguard
  have hadvisory : ∃ n, g = .advisory n := by
    cases k <;> cases hguard <;> exact ⟨_, rfl⟩
  obtain ⟨n, rfl⟩ := hadvisory
  rcases List.mem_cons.mp h with heq | hmem
  · cases heq
  · obtain ⟨_, _, heq⟩ := List.mem_map.mp hmem
    cases heq

theorem wellGuarded_candidates : ∀ {candidates : List Candidate},
    WellGuarded hash (candidateLocks hash candidates)
  | [] => wellGuarded_done
  | c :: rest => by
    have hrest : WellGuarded hash (candidateLocks hash rest) := wellGuarded_candidates
    have hchosen : WellGuarded hash (flushLocks (c.budget.toList.map .budget) ++
        if c.admitted then grantLocks hash c
        else .release (.assignment c.assignmentId :: c.budget.toList.map .budget)
            (candidateLocks hash rest)) := by
      refine (wellGuarded_flush_map fun _ => rfl).append ?_
      split
      · exact wellGuarded_grant
      · exact fun held => ⟨fun g hg k => guard_ne_of_candidate hg k, hrest _⟩
    exact fun held => ⟨guarded_of_none rfl held, hchosen _, hrest held⟩

theorem wellGuarded_owner {credentialId workerId assignmentId : Nat} :
    WellGuarded hash (ownerLocks credentialId workerId assignmentId) :=
  ((wellGuarded_acquire rfl).append (wellGuarded_acquire rfl)).append (wellGuarded_acquire rfl)

theorem wellGuarded_submitResult {result : SubmittedResult} :
    WellGuarded hash (submitResultLocks hash result) := by
  cases result with
  | orphaned => exact wellGuarded_done
  | succeeded runId reservation =>
    exact (wellGuarded_emit.append (.each fun _ => wellGuarded_settle)).append wellGuarded_emitRun
  | failed runId reservation others =>
    exact (WellGuarded.each fun _ => wellGuarded_settle).append wellGuarded_stageFailure

theorem wellGuarded_recover {unwritten : List Lockable}
    (hunwritten : ∀ k ∈ unwritten, Lockable.guard hash k = none) {h : Holding} :
    WellGuarded hash (recoverLocks hash unwritten h) := by
  refine (wellGuarded_flush_map fun _ => rfl).append ?_
  split
  · exact (wellGuarded_emit.append (wellGuarded_flush hunwritten)).append wellGuarded_releaseAll
  · exact wellGuarded_flush hunwritten
  · exact (wellGuarded_flush hunwritten).append wellGuarded_stageFailure

theorem wellGuarded_reap {unwritten : List Lockable}
    (hunwritten : ∀ k ∈ unwritten, Lockable.guard hash k = none) {batches : List (List Holding)} :
    WellGuarded hash (reapLocks hash unwritten batches) :=
  .each fun _ => .select (fun _ => rfl) fun _ => .each fun _ => wellGuarded_recover hunwritten

theorem wellGuarded_processJob {job : DueJob} : WellGuarded hash (processJobLocks hash job) := by
  unfold processJobLocks
  split
  · exact wellGuarded_done
  · intro held
    refine LockProgram.Meets.selectFirst (I := fun _ => True) (fun _ => rfl) (fun _ _ _ => trivial)
      ?_ trivial
    intro found held' _
    split
    · trivial
    split
    · exact wellGuarded_emit held'
    · refine WellGuarded.append wellGuarded_reserve ?_ held'
      split
      · exact wellGuarded_done
      · exact wellGuarded_emit
  · exact wellGuarded_releaseAll.append (wellGuarded_flush_map fun _ => rfl)
  · exact wellGuarded_stageFailure
  · exact wellGuarded_gate
  · exact wellGuarded_gate.append wellGuarded_stageFailure

/-- **Runs, reservations and gates are written under the run's advisory lock**, on every path. -/
theorem LockPath.wellGuarded (path : LockPath) : WellGuarded hash (path.locks hash) := by
  have hnothing : ∀ k ∈ ([] : List Lockable), Lockable.guard hash k = none :=
    fun _ hk => absurd hk List.not_mem_nil
  have hcredentials : ∀ ids : List Nat, ∀ k ∈ ids.map Lockable.credential, Lockable.guard hash k =
      none := by
    intro ids k hk
    obtain ⟨_, _, rfl⟩ := List.mem_map.mp hk
    rfl
  have hworker : ∀ workerId, WellGuarded hash (.acquire (.worker workerId)) :=
    fun _ => wellGuarded_acquire rfl
  cases path with
  | claim credentialId workerId candidates =>
    exact ((wellGuarded_acquire rfl).append (hworker workerId)).append wellGuarded_candidates
  | ack credentialId workerId assignmentId => exact wellGuarded_owner
  | renew credentialId workerId assignmentId => exact wellGuarded_owner
  | submit credentialId workerId assignmentId result =>
    exact wellGuarded_owner.append wellGuarded_submitResult
  | register workerId batches => exact (hworker workerId).append (wellGuarded_reap hnothing)
  | deregister workerId batches => exact (hworker workerId).append (wellGuarded_reap hnothing)
  | rotate workerId credentials =>
    exact (hworker workerId).append (wellGuarded_flush_map fun _ => rfl)
  | revoke workerId credentials batches =>
    exact ((hworker workerId).append (wellGuarded_reap (hcredentials credentials))).append
      (wellGuarded_flush_map fun _ => rfl)
  | emergencyStop workspaceId workers =>
    refine WellGuarded.append (.each fun w => ?_) wellGuarded_emit
    exact ((hworker w.workerId).append (wellGuarded_flush_map fun _ => rfl)).append
      (wellGuarded_reap hnothing)
  | schedulerTick due expired =>
    refine WellGuarded.append (.select (fun _ => rfl) fun _ => .each fun _ =>
      wellGuarded_processJob) ?_
    exact .select (fun _ => rfl) fun _ => wellGuarded_done
  | maintenanceTick stale expired evaluated =>
    refine (WellGuarded.append (.select (fun _ => rfl) fun _ => .each fun _ =>
      wellGuarded_reap hnothing)
      (wellGuarded_reap hnothing)).append (.each fun e => ?_)
    refine (wellGuarded_acquire rfl).append ?_
    split
    · exact wellGuarded_emit
    · exact wellGuarded_done
  | recoverAssignment holding =>
    exact (wellGuarded_acquire rfl).append (wellGuarded_recover hnothing)

/-! ## A worker's own requests keep the order -/

/-- Nothing is held that comes after this kind of lock. -/
def UpTo (hash : Aggregate → Nat) (kind : Nat) (held : List Lockable) : Prop :=
  ∀ h ∈ held, Lockable.guard hash h = none → h.rank.1 ≤ kind

/-- Of what comes after the caps, only the run's advisory lock is held. -/
def OneRun (hash : Aggregate → Nat) (runId : Nat) (held : List Lockable) : Prop :=
  ∀ h ∈ held, Lockable.guard hash h = none →
    h.rank.1 ≤ 5 ∨ h = .advisory (hash (.pipelineRun runId))

/-- The program asks in order, from a state in which `P` is true to one in which `Q` is. -/
def Ascends (hash : Aggregate → Nat) (P : List Lockable → Prop) (p : Locks)
    (Q : List Lockable → Prop) : Prop :=
  ∀ held, P held → p.Meets (lockOrder hash) (lockOrder hash).Ascending held Q

theorem Ascends.append {p q : Locks} {P Q R : List Lockable → Prop} (hp : Ascends hash P p Q)
    (hq : Ascends hash Q q R) : Ascends hash P (p ++ q) R :=
  fun held h => (hp held h).append hq

theorem Ascends.each {α : Type} {xs : List α} {p : α → Locks} {I : List Lockable → Prop}
    (hp : ∀ x, Ascends hash I (p x) I) : Ascends hash I (.each xs p) I :=
  fun _ h => LockProgram.Meets.each (fun x _ held' hI => hp x held' hI) h

theorem Ascends.imp {p : Locks} {P P' Q Q' : List Lockable → Prop} (h : Ascends hash P p Q)
    (hP : ∀ held, P' held → P held) (hQ : ∀ held, Q held → Q' held) : Ascends hash P' p Q' :=
  fun held hheld => (h held (hP held hheld)).imp (fun _ _ hmay => hmay) hQ

theorem ascends_of_kinds {k : Lockable} {held : List Lockable}
    (h : ∀ h ∈ held, Lockable.guard hash h = none → h.rank.1 < k.rank.1) :
    (lockOrder hash).ascends held k = true := by
  refine List.all_eq_true.mpr fun l hmem => ?_
  cases hguard : Lockable.guard hash l with
  | some g => simp [lockOrder, hguard]
  | none => simp [lockOrder, Lockable.before, h l hmem hguard]

/-- A lock of a later kind is in order. -/
theorem ascends_acquire {kind : Nat} {k : Lockable} (hguard : Lockable.guard hash k = none)
    (hkind : kind < k.rank.1) :
    Ascends hash (UpTo hash kind) (.acquire k) (UpTo hash k.rank.1) := by
  intro held hheld
  refine ⟨⟨guarded_of_none hguard held, .inr (.inr ?_)⟩, ?_⟩
  · exact ascends_of_kinds fun h hmem hh => (hheld h hmem hh).trans_lt hkind
  · intro h hmem hh
    rcases mem_hold.mp hmem with rfl | hold
    · exact Nat.le_refl _
    · exact (hheld h hold hh).trans (by omega)

theorem UpTo.oneRun {runId kind : Nat} {held : List Lockable} (h : UpTo hash kind held)
    (hkind : kind ≤ 5) :
    OneRun hash runId held :=
  fun k hk hguard => .inl ((h k hk hguard).trans hkind)

/-- The event of the run is in order. -/
theorem ascends_emit {runId : Nat} : Ascends hash (OneRun hash runId)
    (emitLocks hash (.pipelineRun runId))
    fun held => OneRun hash runId held ∧ .advisory (hash (.pipelineRun runId)) ∈ held := by
  intro held hheld
  refine ⟨⟨guarded_of_none rfl held, ?_⟩, ?_, mem_hold_self⟩
  · by_cases hmem : Lockable.advisory (hash (.pipelineRun runId)) ∈ held
    · exact .inl hmem
    · refine .inr (.inr (ascends_of_kinds fun h hh hguard => ?_))
      rcases hheld h hh hguard with hkind | heq
      · exact Nat.lt_succ_of_le hkind
      · exact absurd (heq ▸ hh) hmem
  · intro h hmem hguard
    rcases mem_hold.mp hmem with rfl | hold
    · exact .inr rfl
    · exact hheld h hold hguard

/-- So are the rows of the run after it. -/
theorem ascends_under_run {runId : Nat} {k : Lockable}
    (hguard : Lockable.guard hash k = some (.advisory (hash (.pipelineRun runId)))) :
    Ascends hash (fun held => OneRun hash runId held ∧ .advisory (hash (.pipelineRun runId)) ∈ held)
      (.acquire k)
      fun held => OneRun hash runId held ∧ .advisory (hash (.pipelineRun runId)) ∈ held := by
  intro held hheld
  refine ⟨⟨guarded_under_run hheld.2 hguard, .inr (.inl ?_)⟩, ?_, mem_hold_of_mem hheld.2⟩
  · simp [lockOrder, hguard]
  · intro h hmem hnone
    rcases mem_hold.mp hmem with rfl | hold
    · rw [hguard] at hnone
      cases hnone
    · exact hheld.1 h hold hnone

theorem ascends_emitRun {runId : Nat} :
    Ascends hash (OneRun hash runId) (emitRunLocks hash runId) (OneRun hash runId) :=
  (ascends_emit.append (ascends_under_run rfl)).imp (fun _ h => h) fun _ h => h.1

theorem ascends_settle {runId reservationId : Nat} :
    Ascends hash (OneRun hash runId) (settleSpendLocks hash runId reservationId)
      (OneRun hash runId) :=
  ((ascends_emit.append (ascends_under_run rfl)).append (ascends_under_run rfl)).imp
    (fun _ h => h) fun _ h => h.1

theorem ascends_owner {credentialId workerId assignmentId : Nat} :
    Ascends hash (fun held => held = []) (ownerLocks credentialId workerId assignmentId)
      (UpTo hash 3) := by
  refine Ascends.append (Q := UpTo hash 2) (Ascends.append (Q := UpTo hash 1) ?_ ?_) ?_
  · refine (ascends_acquire rfl (Nat.lt_succ_self 0)).imp (fun held hnil => ?_) fun _ h => h
    rw [hnil]
    exact fun _ hk => absurd hk List.not_mem_nil
  · exact ascends_acquire rfl (Nat.lt_succ_self 1)
  · exact ascends_acquire rfl (Nat.lt_succ_self 2)

theorem ascends_submitResult {result : SubmittedResult} :
    Ascends hash (UpTo hash 3) (submitResultLocks hash result) fun _ => True := by
  have honeRun : ∀ runId held, UpTo hash 3 held → OneRun hash runId held :=
    fun _ _ h => h.oneRun (by omega)
  cases result with
  | orphaned => exact fun _ _ => trivial
  | succeeded runId reservation =>
    have hcompleted : Ascends hash (OneRun hash runId) (emitLocks hash (.pipelineRun runId))
        (OneRun hash runId) :=
      ascends_emit.imp (fun _ h => h) fun _ h => h.1
    exact ((hcompleted.append (.each fun _ => ascends_settle)).append ascends_emitRun).imp
      (honeRun runId)
      fun _ _ => trivial
  | failed runId reservation others =>
    have hreleased : Ascends hash (OneRun hash runId) (releaseAllLocks hash runId others)
        (OneRun hash runId) :=
      .each fun _ => ascends_settle
    exact (Ascends.append (.each fun _ => ascends_settle) (ascends_emitRun.append hreleased)).imp
      (honeRun runId)
      fun _ _ => trivial

/-- The budget of a candidate, if there is one. -/
theorem ascends_budget {budget : Option Nat} :
    Ascends hash (UpTo hash 3) (flushLocks (budget.toList.map .budget)) fun held =>
      UpTo hash 4 held ∧ ∀ id, .budget id ∈ held → budget = some id := by
  have hnone : ∀ {held : List Lockable}, UpTo hash 3 held → ∀ id, .budget id ∉ held := by
    intro held h id hmem
    have hle := h _ hmem rfl
    simp [Lockable.rank] at hle
  cases budget with
  | none =>
    intro held h
    exact ⟨fun k hk hguard => (h k hk hguard).trans (by omega), fun id hmem =>
      absurd hmem (hnone h id)⟩
  | some id =>
    intro held h
    have hlock : (LockProgram.acquire (.budget id)).Meets (lockOrder hash)
        (lockOrder hash).Ascending held
        (UpTo hash 4) := ascends_acquire rfl (Nat.lt_succ_self 3) held h
    refine ⟨hlock.1, hlock.2, fun id' hmem => ?_⟩
    rcases mem_hold.mp hmem with heq | hold
    · cases heq
      rfl
    · exact absurd hold (hnone h id')

theorem ascends_cap {cap : Option Nat} :
    Ascends hash (UpTo hash 4) (flushLocks (cap.toList.map .cap)) (UpTo hash 5) := by
  cases cap with
  | none => exact fun held h k hk hguard => (h k hk hguard).trans (by omega)
  | some id => exact fun held h => ascends_acquire rfl (Nat.lt_succ_self 4) held h

/-- Without a reservation to release first, the cap comes before the event. -/
theorem ascends_reserve {runId : Nat} {r : Reserving} (hnone : r.priors = []) :
    Ascends hash (UpTo hash 4) (reserveSpendLocks hash runId r) (OneRun hash runId) := by
  have hpriors : Ascends hash (UpTo hash 4) (releaseAllLocks hash runId r.priors)
      (UpTo hash 4) := by
    rw [hnone]
    exact fun _ h => h
  exact (hpriors.append ascends_cap).append
    (ascends_emitRun.imp (fun _ h => h.oneRun (Nat.le_refl 5)) fun _ h => h)

theorem ascends_grant {c : Candidate} (hnone : c.gate.priors = []) :
    Ascends hash (UpTo hash 4) (grantLocks hash c) fun _ => True := by
  have hassigned : Ascends hash (OneRun hash c.runId) (emitLocks hash (.pipelineRun c.runId))
      fun _ => True :=
    ascends_emit.imp (fun _ h => h) fun _ _ => trivial
  unfold grantLocks
  cases hgate : c.gate with
  | kept => exact hassigned.imp (fun _ h => h.oneRun (by omega)) fun _ h => h
  | reserved reserving =>
    rw [hgate] at hnone
    exact (ascends_reserve hnone).append hassigned
  | exceeded reserving =>
    rw [hgate] at hnone
    exact (ascends_reserve hnone).imp (fun _ h => h) fun _ _ => trivial

/-- What a rolled back candidate leaves is what was held before. -/
theorem UpTo.release {held : List Lockable} {c : Candidate} (h : UpTo hash 4 held)
    (hbudgets : ∀ id, .budget id ∈ held → c.budget = some id) :
    UpTo hash 3 (held.filter fun k =>
      !decide (k ∈ Lockable.assignment c.assignmentId :: c.budget.toList.map .budget)) := by
  intro k hk hguard
  obtain ⟨hheld, hkept⟩ := List.mem_filter.mp hk
  have hle := h k hheld hguard
  have hother : ∀ id, k ≠ .budget id := by
    intro id heq
    subst heq
    simp [hbudgets id hheld] at hkept
  cases k with
  | budget id => exact absurd rfl (hother id)
  | run id => cases hguard
  | reservation runId id => cases hguard
  | gate runId id => cases hguard
  | cap id => exact absurd hle (by simp [Lockable.rank])
  | advisory n => exact absurd hle (by simp [Lockable.rank])
  | backpressure id => exact absurd hle (by simp [Lockable.rank])
  | _ => simp [Lockable.rank]

theorem ascends_candidates :
    ∀ {candidates : List Candidate}, (∀ c ∈ candidates, c.gate.priors = []) →
      Ascends hash (UpTo hash 3) (candidateLocks hash candidates) fun _ => True
  | [], _ => fun _ _ => trivial
  | c :: rest, hnone => by
    intro held h
    have hrest : Ascends hash (UpTo hash 3) (candidateLocks hash rest) fun _ => True :=
      ascends_candidates fun c' hc' => hnone c' (List.mem_cons_of_mem c hc')
    have hlocked : UpTo hash 3 (hold (.assignment c.assignmentId) held) := by
      intro k hk hguard
      rcases mem_hold.mp hk with rfl | hold
      · exact Nat.le_refl 3
      · exact h k hold hguard
    refine ⟨guarded_of_none rfl held, ?_, hrest held h⟩
    refine (ascends_budget _ hlocked).append fun held' hbudgeted => ?_
    split
    · exact ascends_grant (hnone c List.mem_cons_self) held' hbudgeted.1
    · exact ⟨fun g hg k => guard_ne_of_candidate hg k,
        hrest _ (hbudgeted.1.release hbudgeted.2)⟩

/-- **A worker's own requests ask in order.** -/
theorem LockPath.ascends_own {path : LockPath} (hown : path.isOwn = true) :
    (path.locks hash).Meets (lockOrder hash) (lockOrder hash).Ascending [] fun _ => True := by
  cases path with
  | claim credentialId workerId candidates =>
    have hworker : Ascends hash (fun held => held = [])
        (.acquire (.credential credentialId) ++ .acquire (.worker workerId)) (UpTo hash 2) := by
      refine Ascends.append (Q := UpTo hash 1) ?_ (ascends_acquire rfl (Nat.lt_succ_self 1))
      refine (ascends_acquire rfl (Nat.lt_succ_self 0)).imp (fun held hnil => ?_) fun _ h => h
      rw [hnil]
      exact fun _ hk => absurd hk List.not_mem_nil
    have hnone : ∀ c ∈ candidates, c.gate.priors = [] :=
      fun c hc => List.isEmpty_iff.mp (List.all_eq_true.mp hown c hc)
    have hcandidates : Ascends hash (UpTo hash 2) (candidateLocks hash candidates)
        fun _ => True :=
      (ascends_candidates hnone).imp (fun _ h k hk hguard => (h k hk hguard).trans (by omega))
        fun _ h => h
    exact (hworker.append hcandidates) [] rfl
  | ack credentialId workerId assignmentId =>
    exact (ascends_owner.imp (fun _ h => h) fun _ _ => trivial) [] rfl
  | renew credentialId workerId assignmentId =>
    exact (ascends_owner.imp (fun _ h => h) fun _ _ => trivial) [] rfl
  | submit credentialId workerId assignmentId result =>
    exact (ascends_owner.append ascends_submitResult) [] rfl
  | _ => cases hown

/-! ## Every interleaving -/

/-- **Lock order**: in every interleaving in which no registration, deregistration, rotation,
revocation, stop, tick or recovery, and no claim that releases a reservation, has to wait for a lock
that comes before one it holds, no transactions wait for each other in a circle. -/
theorem no_deadlock {w : World Unit Lockable (Waiter LockPath Lockable)}
    (h : Reach (locking (LockPath.locks hash)).Steps
      (fun w a => asksInOrder (lockOrder hash) LockPath.isOwn w a = true) { store := () } w) :
        w.DeadlockFree :=
  deadlockFree_of_asksInOrder (fun path => path.wellGuarded [])
    (fun _ hown => LockPath.ascends_own hown) h

end

/-! ## An acknowledgement and a reaper -/

/-- Each aggregate under its own id. -/
def hashById : Aggregate → Nat
  | .pipelineRun id => 2 * id
  | .workspace id => 2 * id + 1

/-- A worker's assignment whose lease has run out. -/
def lateHolding : Holding := ⟨0, some 0, 0, .requeued []⟩

/-- The maintenance tick has locked the assignment and its worker before the worker acknowledges. -/
def reapFirst : List (Action LockPath Empty) :=
  [.start (.maintenanceTick [] [lateHolding] []), .start (.ack 0 0 0), .run 0, .run 0, .run 1,
    .run 1]

/-- The acknowledgement waits for its worker. -/
theorem no_deadlock_reap_first :
    (replay (locking (LockPath.locks hashById)).step { store := () } reapFirst).DeadlockFree ∧
      (replay (locking (LockPath.locks hashById)).step { store := () } reapFirst).waitsFor 1 0 =
        true := by
  have hadmits : admits (locking (LockPath.locks hashById)).step
      (asksInOrder (lockOrder hashById) LockPath.isOwn)
      { store := () } reapFirst = true := by decide +kernel
  exact ⟨no_deadlock (reach_replay _ _ hadmits), by decide +kernel⟩

/-- The worker has locked itself, the tick its assignment. -/
def reapMeanwhile : List (Action LockPath Empty) :=
  [.start (.ack 0 0 0), .start (.maintenanceTick [] [lateHolding] []), .run 0, .run 0, .run 1,
    .run 0, .run 1]

/-- Each waits for the other. -/
theorem ack_and_reaper_deadlock :
    ¬ ∀ (hash : Aggregate → Nat) (w : World Unit Lockable (Waiter LockPath Lockable)),
        Reach (locking (LockPath.locks hash)).Steps (fun _ _ => True) { store := () } w →
          w.DeadlockFree := by
  intro h
  have hfree := h hashById _ (reach_any reapMeanwhile _)
  have hack : (replay (locking (LockPath.locks hashById)).step
      { store := () } reapMeanwhile).waitsFor 0 1 = true := by
    decide +kernel
  have htick : (replay (locking (LockPath.locks hashById)).step
      { store := () } reapMeanwhile).waitsFor 1 0 = true := by
    decide +kernel
  exact hfree 0 (.tail (.single hack) htick)

end ContentOrchestrator

import ContentOrchestrator.Orchestration.Contention

/-! # What contending transactions do to the assignments

A tick inserts rows and cancels some; a claim grants at most one row; what happens
besides puts nothing in flight. `TickMove` says what one statement of a tick does to its
own writes, and `places` what a commit puts in flight. -/

namespace ContentOrchestrator

open Lib

variable {db : Db}

/-! ## Uncommitted writes -/

theorem insertAll_count {p : StageAssignment → Bool} (hp : ∀ a id, p { a with id } = p a) :
    ∀ (rows : List StageAssignment) (t : Table StageAssignment),
      (insertAll rows t).count p = t.count p + (rows.filter p).length
  | [], t => rfl
  | a :: rows, t => by
    have hrow : p (a.asNew.make t.next) = p a := hp a t.next
    have hrest := insertAll_count hp rows (t.insert a.asNew)
    rw [insertAll, List.foldl_cons, ← insertAll, hrest, Table.count_insert, hrow]
    cases h : p a with
    | false => simp [h]
    | true =>
      simp [h]
      omega

theorem insertAll_count_le {p r : StageAssignment → Bool}
    (hp : ∀ a id, r { a with id } = true → p a = true) :
    ∀ (rows : List StageAssignment) (t : Table StageAssignment),
      (insertAll rows t).count r ≤ t.count r + (rows.filter p).length
  | [], t => Nat.le_refl _
  | a :: rows, t => by
    have hrest := insertAll_count_le hp rows (t.insert a.asNew)
    rw [insertAll, List.foldl_cons, ← insertAll]
    refine hrest.trans ?_
    rw [Table.count_insert]
    cases hr : r (a.asNew.make t.next) with
    | false =>
      have hfilter : (rows.filter p).length ≤ ((a :: rows).filter p).length :=
        ((List.sublist_cons_self a rows).filter p).length_le
      simp only [Bool.toNat_false]
      omega
    | true =>
      have hpa : p a = true := hp a t.next hr
      simp [hpa]
      omega

theorem OwnWrites.apply_assignments {o : OwnWrites} :
    (o.apply db).assignments = insertAll o.created (o.changed db.now db.assignments) := rfl

theorem quiet_config (writes : List QuietWrite) :
    ∀ db : Db, (writes.foldl (fun db q => q.apply db) db).config = db.config := by
  induction writes with
  | nil => exact fun _ => rfl
  | cons q rest ih => exact fun db => (ih (q.apply db)).trans (q.config db)

/-- The settings are the same for every transaction. -/
theorem OwnWrites.apply_config {o : OwnWrites} : (o.apply db).config = db.config :=
  quiet_config o.quiet db

/-! ## One statement of a tick -/

/-- The workspace whose room the tick has counted on, until the row is inserted. -/
def Tick.pending (t : Tick) : Option Nat :=
  match t.point, t.jobs with
  | .status, job :: _ | .worker, job :: _ | .key _, job :: _ | .reserve _, job :: _
      | .insert _ _ _, job :: _ =>
    some job.workspaceId
  | _, _ => none

/-- What a statement of a tick does to its writes. -/
inductive TickMove (db : Db) (held' : List RowLock) (t t' : Tick) : Prop
  | quiet (writes : List QuietWrite) (own : t'.own = t.own.quietly writes)
      (pending : t'.pending = none ∨ t'.pending = t.pending)
  | counted (job : JobSchedule) (own : t'.own = t.own) (pending : t'.pending = some job.workspaceId)
      (room : atConcurrencyLimit (t.own.apply db) job.workspaceId = false)
  | placed (job : JobSchedule) {run : PipelineRun} {stage : ContentStage}
      {worker : Option WorkerRegistration}
      {priority : Int} {writes : List QuietWrite} (before : t.pending = some job.workspaceId)
      (own : t'.own = { t.own.quietly writes with
        created := t.own.created ++
          [(newAssignment (job.request run.id []) stage worker priority db).make 0] })
      (pending : t'.pending = none)
  | gaveUp {rows : List Nat} {runId : Nat} {stage : ContentStage} (writes : List QuietWrite)
      (own : t'.own = { t.own.quietly writes with
        cancelled := t.own.cancelled ++ rows
        created := t.own.created.map fun a =>
          if a.isLiveFor runId stage then (StageAssignment.cancel db.now).apply a else a })
      (pending : t'.pending = none) (locked : ∀ id ∈ rows, .assignment id ∈ held')

/-- Only the place in the code changes. -/
theorem TickMove.of_own {held' : List RowLock} {t t' : Tick} (own : t'.own = t.own)
    (pending : t'.pending = none ∨ t'.pending = t.pending) : TickMove db held' t t' :=
  .quiet [] (by simp [own, OwnWrites.quietly]) pending

theorem Tick.settle_after {held' : List RowLock} {t : Tick} {earlier writes : List QuietWrite} :
    TickMove db held' t (Tick.settle { t with own := t.own.quietly earlier } writes) :=
  .quiet (earlier ++ writes) (by simp [Tick.settle, OwnWrites.quietly]) (.inl rfl)

theorem Tick.settle_move {held' : List RowLock} {t : Tick} {writes : List QuietWrite} :
    TickMove db held' t (t.settle writes) :=
  .quiet writes rfl (.inl rfl)

theorem Tick.settleBy_move {held' : List RowLock} {t : Tick} {job : JobSchedule}
    {outcome : DispatchOutcome} :
    TickMove db held' t (t.settleBy db job outcome) := by
  cases outcome with
  | backpressure =>
    unfold Tick.settleBy
    dsimp only
    split
    · exact .of_own rfl (.inl rfl)
    · exact Tick.settle_move
  | _ => exact Tick.settle_move

/-- **What one statement of a tick does.** -/
theorem Tick.next_move {t t' : Tick} {taken : RowLock → Bool} {held held' : List RowLock}
    (h : t.next db taken held = some (held', t')) : TickMove db held' t t' := by
  unfold Tick.next at h
  dsimp only at h
  split at h
  · -- poll
    cases h
    exact .quiet _ rfl (.inl rfl)
  · cases h
  · -- count
    rename_i job rest hpoint hjobs
    split at h
    · obtain ⟨t'', hout, heq⟩ := Option.map_eq_some_iff.mp h
      cases heq
      unfold Tick.carryOut at hout
      split at hout <;> cases hout <;> exact Tick.settle_move
    split at h
    · cases h
    split at h
    · cases h
      exact Tick.settleBy_move
    · rename_i hroom
      cases h
      exact .counted job rfl (by simp [Tick.pending, hjobs]) (by simpa using hroom)
  · -- status
    rename_i job rest hpoint hjobs
    split at h
    · cases h
      exact Tick.settleBy_move
    · cases h
      exact .of_own rfl (.inr (by simp [Tick.pending, hpoint, hjobs]))
  · -- worker
    rename_i job rest hpoint hjobs
    split at h
    all_goals
      cases h
      exact .of_own rfl (.inr (by simp [Tick.pending, hpoint, hjobs]))
  · -- key
    rename_i worker job rest hpoint hjobs
    split at h
    · cases h
    split at h
    · cases h
      exact Tick.settleBy_move
    · cases h
      exact .of_own rfl (.inr (by simp [Tick.pending, hpoint, hjobs]))
  · -- reserve
    rename_i worker job rest hpoint hjobs
    split at h
    · split at h
      · cases h
        exact .of_own rfl (.inr (by simp [Tick.pending, hpoint, hjobs]))
      · split at h
        · cases h
          exact Tick.settle_after
        · cases h
          refine .quiet _ rfl (.inr ?_)
          simp [Tick.pending, hpoint, hjobs]
    · cases h
  · -- insert
    rename_i run stage worker job rest hpoint hjobs
    split at h
    · cases h
    · cases h
      exact .placed job (by simp [Tick.pending, hpoint, hjobs]) rfl rfl
  · -- give up
    rename_i job rest hpoint hjobs
    unfold Tick.giveUp at h
    split at h
    · cases h
      exact Tick.settle_move
    split at h
    · cases h
    · rename_i run _ _ stage _
      cases h
      refine .gaveUp [.job job.id JobSchedule.exhaust, .releaseRun run,
        .deadLetter job] rfl rfl fun id hid => ?_
      exact List.mem_append.mpr (.inl (List.mem_map_of_mem hid))

/-- A tick gives no lock up before its end. -/
theorem Tick.next_held {t t' : Tick} {taken : RowLock → Bool} {held held' : List RowLock}
    (h : t.next db taken held = some (held', t')) : ∀ k ∈ held, k ∈ held' := by
  intro k hk
  unfold Tick.next Tick.poll Tick.giveUp at h
  dsimp only at h
  repeat' split at h
  all_goals
    first
    | cases h
      done
    | obtain ⟨_, _, heq⟩ := Option.map_eq_some_iff.mp h
      cases heq
      exact hk
    | cases h
      simp [hk]

/-! ## One statement of a claim -/

/-- The spend gate ends the claim, with the grant or without. -/
theorem Claiming.settleSpend_cases (c : Claiming) (db : Db) (row : StageAssignment) :
    ∃ quiet,
      c.settleSpend db row =
          { c with
            point := .done ⟨none, .capacity, "workspace spend cap reached"⟩
            own := { c.own with quiet } } ∨
        c.settleSpend db row =
          { c with
            point := .done ⟨some row.id, .granted, "claimed"⟩
            own := { c.own with
              quiet
              granted := some ⟨row.id, StageAssignment.grant c.workerId c.claimToken db.now
                db.settings.assignmentLeaseSeconds⟩ } } := by
  unfold Claiming.settleSpend
  dsimp only
  split
  · exact ⟨_, .inr rfl⟩
  · split
    · split
      · exact ⟨_, .inl rfl⟩
      · exact ⟨_, .inr rfl⟩
    · exact ⟨_, .inr rfl⟩

/-- What a statement of a claim does. -/
inductive ClaimMove (db : Db) (taken : RowLock → Bool) (held : List RowLock) (c : Claiming) :
    List RowLock → Claiming → Prop
  | ended {result : ClaimResult} (nothing : result.assignment = none) (ungranted : ∀ r,
      c.point ≠ .done r) :
      ClaimMove db taken held c held (c.finish result)
  | registered {w : WorkerRegistration} (point : c.point = .worker)
      (found : db.workers.get? c.workerId = some w) :
      ClaimMove db taken held c (.worker c.workerId :: held) { c with point := .lookup w }
  | replayed {w : WorkerRegistration} {row : StageAssignment} (point : c.point = .lookup w)
      (found : heldByToken db w c.claimToken = some row) :
      ClaimMove db taken held c held (c.finish ⟨some row.id, .granted, "idempotent replay"⟩)
  | searching {w : WorkerRegistration} {stages : List ContentStage} {tries : Nat}
      (point : c.point = .lookup w)
      (fresh : heldByToken db w c.claimToken = none) :
      ClaimMove db taken held c held { c with point := .candidate ⟨w, stages, tries, [], false⟩ }
  | chosen {search : Search} {tries : Nat} {row : StageAssignment}
      (point : c.point = .candidate search)
      (chosen : nextCandidate db search.worker search.stages
        (search.skipped ++ lockedRows taken RowLock.assignment db.assignments) = some row) :
      ClaimMove db taken held c (.assignment row.id :: held)
        { c with point := .budget { search with tries } row held }
  | unbudgeted {search : Search} {row : StageAssignment} {savepoint : List RowLock}
      (point : c.point = .budget search row savepoint)
      (unbudgeted : budgetOf db row.workspaceId row.provider = none) :
      ClaimMove db taken held c held { c with point := .reserve row }
  | budgeted {search : Search} {row : StageAssignment} {savepoint : List RowLock}
      {budget : ProviderConcurrencyBudget} (point : c.point = .budget search row savepoint)
      (budgeted : budgetOf db row.workspaceId row.provider = some budget) :
      ClaimMove db taken held c (.budget budget.id :: held)
        { c with point := .count search row savepoint }
  | admitted {search : Search} {row : StageAssignment} {savepoint : List RowLock}
      (point : c.point = .count search row savepoint)
      (room : hasProviderCapacity db row.workspaceId row.provider = true) :
      ClaimMove db taken held c held { c with point := .reserve row }
  | skipped {search : Search} {row : StageAssignment} {savepoint : List RowLock}
      (point : c.point = .count search row savepoint) :
      ClaimMove db taken held c (held.filter (· ∈ savepoint))
        { c with
          point := .candidate
            { search with skipped := row.id :: search.skipped, sawBlock := true } }
  | settled {row : StageAssignment} (point : c.point = .reserve row) :
      ClaimMove db taken held c held (c.settleSpend db row)

/-- **What one statement of a claim does.** -/
theorem Claiming.next_move {c c' : Claiming} {taken : RowLock → Bool} {held held' : List RowLock}
    (h : c.next db taken held = some (held', c')) : ClaimMove db taken held c held' c' := by
  unfold Claiming.next at h
  split at h
  · rename_i hpoint
    split at h
    · cases h
      exact .ended rfl (by simp [hpoint])
    · rename_i w hfound
      cases h
      exact .registered hpoint hfound
  · rename_i w hpoint
    split at h
    · rename_i row hfound
      cases h
      exact .replayed hpoint hfound
    · rename_i hfresh
      split at h
      · rename_i refusal stages hrefusal
        cases h
        refine .ended ?_ (by simp [hpoint])
        unfold WorkerRegistration.refusal at hrefusal
        repeat' split at hrefusal
        all_goals cases hrefusal <;> rfl
      · cases h
        exact .searching hpoint hfresh
      · cases h
  · rename_i search hpoint
    have hnothing :
        (if search.sawBlock then (⟨none, .capacity, "provider budget exhausted"⟩ : ClaimResult)
        else ⟨none, .noWork, "no eligible assignment"⟩).assignment = none := by split <;> rfl
    dsimp only at h
    split at h
    · cases h
      exact .ended hnothing (by simp [hpoint])
    · split at h
      · cases h
        exact .ended hnothing (by simp [hpoint])
      · rename_i row hchosen
        cases h
        exact .chosen hpoint hchosen
  · rename_i search row savepoint hpoint
    split at h
    · rename_i hnone
      cases h
      exact .unbudgeted hpoint hnone
    · rename_i budget hbudget
      cases h
      exact .budgeted hpoint hbudget
  · rename_i search row savepoint hpoint
    split at h
    · rename_i hroom
      cases h
      exact .admitted hpoint hroom
    · cases h
      exact .skipped hpoint
  · rename_i row hpoint
    cases h
    exact .settled hpoint
  · cases h

/-! ## Shapes -/

/-- A tick grants nothing. A claim writes to assignments by its grant alone, and that at its end. -/
def Contender.Shaped : Contender → Prop
  | tick t => t.own.granted = none
  | claim c => c.own.cancelled = [] ∧ c.own.created = [] ∧
      ((∀ result, c.point ≠ .done result) → c.own.granted = none) ∧
        ∀ g, c.own.granted = some g → ∃ now lease,
          g.update = StageAssignment.grant c.workerId c.claimToken now lease

theorem TickMove.granted {held' : List RowLock} {t t' : Tick} (h : TickMove db held' t t') :
    t'.own.granted = t.own.granted := by
  cases h with
  | quiet _ own _ => rw [own]; rfl
  | counted _ own _ _ => rw [own]
  | placed _ _ own _ => rw [own]; rfl
  | gaveUp _ own _ _ => rw [own]; rfl

theorem ClaimMove.shaped {c c' : Claiming} {taken : RowLock → Bool} {held held' : List RowLock}
    (h : ClaimMove db taken held c held' c') (hshaped : (Contender.claim c).Shaped) :
    (Contender.claim c').Shaped := by
  obtain ⟨hcancelled, hcreated, hungranted, hgrant⟩ := hshaped
  cases h with
  | settled point =>
    rename_i row
    have hnone : c.own.granted = none := hungranted (by simp [point])
    obtain ⟨quiet, heq | heq⟩ := c.settleSpend_cases db row
    · rw [heq]
      exact ⟨hcancelled, hcreated, fun h => absurd rfl (h _), hgrant⟩
    · rw [heq]
      refine ⟨hcancelled, hcreated, fun h => absurd rfl (h _), fun g hg => ?_⟩
      cases hg
      exact ⟨_, _, rfl⟩
  | ended nothing ungranted => exact ⟨hcancelled, hcreated, fun _ => hungranted ungranted, hgrant⟩
  | replayed point _ => exact ⟨hcancelled, hcreated, fun _ => hungranted (by simp [point]), hgrant⟩
  | registered point _ =>
    exact ⟨hcancelled, hcreated, fun _ => hungranted (by simp [point]), hgrant⟩
  | searching point _ => exact ⟨hcancelled, hcreated, fun _ => hungranted (by simp [point]), hgrant⟩
  | chosen point _ => exact ⟨hcancelled, hcreated, fun _ => hungranted (by simp [point]), hgrant⟩
  | unbudgeted point _ =>
    exact ⟨hcancelled, hcreated, fun _ => hungranted (by simp [point]), hgrant⟩
  | budgeted point _ => exact ⟨hcancelled, hcreated, fun _ => hungranted (by simp [point]), hgrant⟩
  | admitted point _ => exact ⟨hcancelled, hcreated, fun _ => hungranted (by simp [point]), hgrant⟩
  | skipped point => exact ⟨hcancelled, hcreated, fun _ => hungranted (by simp [point]), hgrant⟩

theorem contention_next_shaped {x x' : Contender} {taken : RowLock → Bool}
    {held held' : List RowLock} (h : contention.next db taken held x = some (held', x'))
    (hshaped : x.Shaped) : x'.Shaped := by
  cases x with
  | tick t =>
    obtain ⟨⟨held'', t'⟩, hnext, heq⟩ := Option.map_eq_some_iff.mp h
    cases heq
    exact (Tick.next_move hnext).granted.trans hshaped
  | claim c =>
    obtain ⟨⟨held'', c'⟩, hnext, heq⟩ := Option.map_eq_some_iff.mp h
    cases heq
    exact (Claiming.next_move hnext).shaped hshaped

/-- A commit publishes the transaction's own writes. -/
theorem contention_commit {x : Contender} {u : Db → Db} (h : contention.commit x = some u) :
    u = x.own.apply := by
  cases x with
  | tick t =>
    simp only [contention] at h
    split at h
    · exact (Option.some.inj h).symm
    · cases h
  | claim c =>
    simp only [contention] at h
    split at h
    · exact (Option.some.inj h).symm
    · cases h

end ContentOrchestrator

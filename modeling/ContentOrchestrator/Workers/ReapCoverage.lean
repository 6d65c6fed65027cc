import ContentOrchestrator.Lib.Sorting
import ContentOrchestrator.Orchestration.WorkerMoves
import ContentOrchestrator.Workers.RecoveryOutcomes

/-! # What a reaper has in hand, and what it leaves

A reaper's rows are in flight as it read them until it commits. What its queries matched
it has in hand, or another reaper had; and as it holds the worker's row and overdue rows
stay overdue, no lost tenure is added behind its back. -/

namespace ContentOrchestrator

open Lib

variable {batchSize : Nat} {s : ReapStore} {held held' : List RowLock} {x x' : Reaper}

/-! ## What a reaper knows -/

def Reaper.doneIds (x : Reaper) : List Nat := x.done.map (·.row.id)

/-- The rows it has locked are in flight as it read them, and it comes to each of them once. -/
structure Reaper.Knows (s : ReapStore) (held : List RowLock) (x : Reaper) : Prop where
  done : ∀ r ∈ x.done, s.db.assignments.get? r.row.id = some r.row ∧ r.row.status.inFlight = true
  todo : ∀ id ∈ x.todo, ∃ a, s.db.assignments.get? id = some a ∧ a.status.inFlight = true
  distinct : (x.doneIds ++ x.todo).Nodup
  locked : ∀ id, RowLock.assignment id ∈ held ↔ id ∈ x.doneIds ++ x.todo
  idle : x.point = .begin ∨ x.point = .scan → x.todo = []

theorem Scan.mem_rows {db : Db} {scan : Scan} {a : StageAssignment} (h : a ∈ scan.rows db) :
    a ∈ db.assignments ∧ a.status.inFlight = true := by
  cases scan with
  | expired =>
    obtain ⟨hmem, hoverdue⟩ := Table.mem_select.mp ((List.mem_insertionSort _).mp h)
    simp only [StageAssignment.isOverdue, Bool.and_eq_true] at hoverdue
    exact ⟨hmem, hoverdue.1⟩
  | ofWorker workerId reason =>
    obtain ⟨hmem, hheld⟩ := Table.mem_select.mp h
    simp only [Bool.and_eq_true] at hheld
    exact ⟨hmem, hheld.2⟩

theorem Scan.rows_nodup (db : Db) (scan : Scan) : ((scan.rows db).map (·.id)).Nodup := by
  cases scan with
  | expired =>
    exact ((List.perm_insertionSort _ _).map _).nodup_iff.mpr
      (db.assignments.nodup.sublist (List.filter_sublist.map _))
  | ofWorker workerId reason => exact db.assignments.nodup.sublist (List.filter_sublist.map _)

theorem Reaper.mem_found {db : Db} {taken : RowLock → Bool} {scan : Scan} {a : StageAssignment}
    (h : a ∈ x.found batchSize db taken scan) :
    a ∈ db.assignments ∧ a.status.inFlight = true ∧ a.id ∉ x.doneIds := by
  obtain ⟨hrow, hchecks⟩ := List.mem_filter.mp (List.mem_of_mem_take h)
  obtain ⟨hmem, hflight⟩ := Scan.mem_rows hrow
  simp only [Bool.and_eq_true, Bool.not_eq_true', Reaper.recovered, List.any_eq_false,
    beq_iff_eq] at hchecks
  refine ⟨hmem, hflight, fun hdone => ?_⟩
  obtain ⟨r, hr, hid⟩ := List.mem_map.mp hdone
  exact hchecks.2 r hr hid

theorem Reaper.found_nodup (db : Db) (taken : RowLock → Bool) (scan : Scan) :
    ((x.found batchSize db taken scan).map (·.id)).Nodup :=
  (Scan.rows_nodup db scan).sublist (((List.take_sublist _ _).trans List.filter_sublist).map _)

/-- A lock on something else. -/
theorem Reaper.Knows.hold {lock : RowLock} (h : x.Knows s held)
    (hlock : ∀ id, lock ≠ .assignment id) :
    x.Knows s (lock :: held) := by
  refine ⟨h.done, h.todo, h.distinct, fun id => ?_, h.idle⟩
  rw [List.mem_cons, h.locked]
  exact or_iff_right fun heq => hlock id heq.symm

/-- Only what is done, to do and locked counts. -/
theorem Reaper.Knows.congr (h : x.Knows s held) (hdone : x'.done = x.done)
    (htodo : x'.todo = x.todo) (hidle : x'.point = .begin ∨ x'.point = .scan → x.todo = []) :
    x'.Knows s held := by
  have hids : x'.doneIds = x.doneIds := by rw [Reaper.doneIds, Reaper.doneIds, hdone]
  exact ⟨hdone ▸ h.done, htodo ▸ h.todo, by rw [hids, htodo]; exact h.distinct,
    by rw [hids, htodo]; exact h.locked, fun hpoint => htodo.trans (hidle hpoint)⟩

/-- The next row is recovered. -/
theorem Reaper.Knows.recover {row : StageAssignment} {rest : List Nat} {r : RowRecovery}
    (h : x.Knows s held) (htodo : x.todo = row.id :: rest)
    (hrow : s.db.assignments.get? row.id = some row) (hr : r.row = row)
    (hdone : x'.done = x.done ++ [r]) (hrest : x'.todo = rest) (hpoint : x'.point = .recover) :
    x'.Knows s held := by
  have hids : x'.doneIds ++ x'.todo = x.doneIds ++ x.todo := by
    simp [Reaper.doneIds, hdone, hrest, htodo, hr]
  obtain ⟨a, ha, hflight⟩ := h.todo row.id (htodo ▸ List.mem_cons_self)
  cases Option.some.inj (ha.symm.trans hrow)
  refine ⟨fun r' hr' => ?_, fun id hid => h.todo id ?_, hids ▸ h.distinct,
    fun id => hids ▸ h.locked id, fun hidle => ?_⟩
  · rw [hdone] at hr'
    rcases List.mem_append.mp hr' with hr' | hr'
    · exact h.done r' hr'
    · rw [List.mem_singleton.mp hr', hr]
      exact ⟨hrow, hflight⟩
  · rw [htodo]
    exact List.mem_cons_of_mem _ (hrest ▸ hid)
  · rw [hpoint] at hidle
    rcases hidle with hidle | hidle <;> cases hidle

/-- A query locks the rows it finds. -/
theorem Reaper.Knows.query {taken : RowLock → Bool} {scan : Scan} (h : x.Knows s held)
    (hidle : x.todo = []) (hdone : x'.done = x.done)
    (htodo : x'.todo = (x.found batchSize s.db taken scan).map (·.id))
    (hpoint : x'.point = .recover) :
    x'.Knows s ((x.found batchSize s.db taken scan).map (fun a => RowLock.assignment a.id) ++
        held) := by
  have hids : x'.doneIds = x.doneIds := by rw [Reaper.doneIds, Reaper.doneIds, hdone]
  have hold := h.distinct
  rw [hidle, List.append_nil] at hold
  refine ⟨hdone ▸ h.done, fun id hid => ?_, ?_, fun id => ?_, fun hpoints => ?_⟩
  · rw [htodo] at hid
    obtain ⟨a, ha, rfl⟩ := List.mem_map.mp hid
    obtain ⟨hmem, hflight, -⟩ := Reaper.mem_found ha
    exact ⟨a, Table.get?_of_mem hmem, hflight⟩
  · rw [hids, htodo]
    refine List.nodup_append.mpr ⟨hold, Reaper.found_nodup _ _ _, fun id hid id' hid' heq => ?_⟩
    obtain ⟨a, ha, rfl⟩ := List.mem_map.mp hid'
    exact (Reaper.mem_found ha).2.2 (heq ▸ hid)
  · have hlocked := h.locked id
    rw [hidle, List.append_nil] at hlocked
    rw [hids, htodo, List.mem_append, List.mem_append, hlocked, or_comm]
    simp
  · rw [hpoint] at hpoints
    rcases hpoints with hpoints | hpoints <;> cases hpoints

theorem Reaper.begin_knows {taken : RowLock → Bool} (h : x.Knows s held)
    (hpoint : x.point = .begin) :
    (x.begin s.db taken held).2.Knows s (x.begin s.db taken held).1 := by
  have hidle : x.todo = [] := h.idle (.inl hpoint)
  unfold Reaper.begin
  split
  · have hkept : ∀ stale : List Nat, x.Knows s (stale.map RowLock.worker ++ held) := by
      intro stale
      induction stale with
      | nil => exact h
      | cons w stale ih => exact ih.hold fun id heq => by cases heq
    exact (hkept _).congr rfl rfl fun _ => hidle
  · split
    · exact (h.hold fun id heq => by cases heq).congr rfl rfl fun _ => hidle
    · exact h.congr rfl rfl fun _ => hidle
  · split
    · exact h.congr rfl rfl fun _ => hidle
    · split
      · exact (h.hold fun id heq => by cases heq).congr rfl rfl fun _ => hidle
      · exact (h.hold fun id heq => by cases heq).congr rfl rfl fun _ => hidle

theorem Reaper.write_knows {row : StageAssignment} {rest : List Nat} (h : x.Knows s held)
    (htodo : x.todo = row.id :: rest) (hrow : s.db.assignments.get? row.id = some row)
    (hnext : x.write s.db held row rest = some (held', x')) : x'.Knows s held' := by
  obtain ⟨a, ha, hflight⟩ := h.todo row.id (htodo ▸ List.mem_cons_self)
  cases Option.some.inj (ha.symm.trans hrow)
  unfold Reaper.write at hnext
  rw [hflight] at hnext
  dsimp only at hnext
  split at hnext
  · rename_i hidle
    cases hidle
  · split at hnext
    · split at hnext
      · cases hnext
      · cases hnext
        exact (h.hold fun id heq => by cases heq).recover htodo hrow rfl rfl rfl rfl
    · cases hnext
      exact h.recover htodo hrow rfl rfl rfl rfl

/-- **Every statement keeps what the reaper knows.** -/
theorem Reaper.next_knows {taken : RowLock → Bool} (h : x.Knows s held)
    (hnext : x.next batchSize s.db taken held = some (held', x')) : x'.Knows s held' := by
  unfold Reaper.next at hnext
  split at hnext
  · rename_i hpoint
    have hbegun : x.begin s.db taken held = (held', x') := Option.some.inj hnext
    have hknows : (x.begin s.db taken held).2.Knows s (x.begin s.db taken held).1 :=
      Reaper.begin_knows h hpoint
    rw [hbegun] at hknows
    exact hknows
  · cases hnext
  · rename_i scan rest _ hpoint hscans
    cases hnext
    exact h.query (h.idle (.inr hpoint)) rfl rfl rfl
  · rename_i hpoint htodo
    cases hnext
    exact h.congr rfl rfl fun _ => htodo
  · rename_i id rest hpoint htodo
    split at hnext
    · cases hnext
      exact h.congr rfl rfl
        fun hpoints => by rcases hpoints with hpoints | hpoints <;> cases hpoints
    · cases hnext
      refine (h.hold fun id heq => by cases heq).congr rfl rfl fun hpoints => ?_
      rcases hpoints with hpoints | hpoints <;> cases hpoints
  · cases hnext
  · rename_i id rest hpoint htodo
    obtain ⟨row, hrow, hwritten⟩ := Option.bind_eq_some_iff.mp hnext
    have hid : row.id = id := (Table.get?_eq_some.mp hrow).2
    subst hid
    exact Reaper.write_knows h htodo hrow hwritten
  · cases hnext

/-! ## Who comes to hold a row -/

section

variable {op : Op} {db db' : Db} {a b : StageAssignment} {workerId : Nat}

/-- The worker's row shows that it was given an assignment. -/
def TakesSlot (db db' : Db) (workerId : Nat) : Prop :=
  ∃ w, db.workers.get? workerId = some w ∧
    db'.workers.get? workerId = some (WorkerRegistration.takeSlot.apply w)

theorem TakesSlot.of_modify {w : WorkerRegistration} (hw : db.workers.get? workerId = some w)
    (hworkers : db'.workers = db.workers.modify workerId WorkerRegistration.takeSlot) :
    TakesSlot db db' workerId := by
  refine ⟨w, hw, ?_⟩
  rw [hworkers]
  exact Table.get?_modified _ hw

/-- Whoever is given an assignment is locked for it. -/
theorem TakesSlot.changed (h : TakesSlot db db' workerId) :
    RowLock.worker workerId ∈ changedRows db db' := by
  obtain ⟨w, hw, hw'⟩ := h
  obtain ⟨hmem, hid⟩ := Table.get?_eq_some.mp hw
  have hid : w.id = workerId := hid
  refine List.mem_append_left _ (List.mem_append_right _ (List.mem_map.mpr ⟨w, ?_, by rw [hid]⟩))
  refine List.mem_filter.mpr ⟨hmem, ?_⟩
  rw [hid, hw', bne_iff_ne]
  intro heq
  have hload := congrArg WorkerRegistration.currentLoad (Option.some.inj heq)
  exact absurd hload (Nat.succ_ne_self _)

theorem Claimed.holder {claimer : Nat} {claimToken : Option Nat} {locked : List Nat}
    (h : Claimed claimer claimToken locked db db') (hb : b ∈ db'.assignments)
    (hheld : b.isHeldBy workerId = true) :
    b ∈ db.assignments ∨ TakesSlot db db' workerId := by
  cases h with
  | idle => exact .inl hb
  | @chosen worker _ row _ _ registered _ _ _ _ _ _ settled =>
    have hgranted : db'.workers = db.workers.modify claimer WorkerRegistration.takeSlot →
        b ∈ db.assignments ∨ TakesSlot db db' workerId := by
      intro hworkers
      rcases settled.assignments with heq | hgrant
      · exact .inl (heq ▸ hb)
      rw [hgrant] at hb
      obtain ⟨a, ha, rfl⟩ := Table.mem_modify.mp hb
      split at hheld
      · have howner : some claimer = some workerId := (isHeldBy_iff.mp hheld).1
        cases howner
        exact .inr (.of_modify registered hworkers)
      · rename_i hother
        rw [if_neg hother]
        exact .inl ha
    cases settled with
    | held _ _ => exact .inl (by simpa using hb)
    | reserved _ _ => exact hgranted (by simp [grantAssignment]; rfl)
    | granted _ => exact hgranted rfl

theorem Processed.holder {job : JobSchedule} {lockedWorkers : List Nat}
    (h : Processed job lockedWorkers db db') (hkind : job.jobType ≠ .stageTimeout)
    (hb : b ∈ db'.assignments) (hheld : b.isHeldBy workerId = true) :
    b ∈ db.assignments ∨ TakesSlot db db' workerId := by
  cases h with
  | held _ _ _ _ _ _ _ => exact .inl (by simpa using hb)
  | @assigned runId estimate run stage w priority _ _ _ _ _ _ _ selected =>
    have hrows : b ∈ db.assignments ∨ b.workerId = some w.id := by
      simp only [modifyJob_frame, createAssignment_frame] at hb
      rcases Table.mem_insert.mp hb with hold | rfl
      · exact .inl (by simpa using hold)
      · exact .inr rfl
    refine hrows.imp_right fun howner => ?_
    rw [(isHeldBy_iff.mp hheld).1] at howner
    cases howner
    refine .of_modify (Table.get?_of_mem (selectWorker_some selected).1) ?_
    simp [createAssignment]
    rfl
  | waiting _ _ _ _ _ _ _ =>
    simp only [modifyJob_frame, createAssignment_frame] at hb
    rcases Table.mem_insert.mp hb with hold | rfl
    · exact .inl hold
    · cases (isHeldBy_iff.mp hheld).1
  | exhausted _ _ _ exhausted =>
    cases exhausted with
    | alone _ routed => exact .inl (by simpa [routed] using hb)
    | @withRun run stage _ _ _ routed =>
      have hrows : db'.assignments = db.assignments.modifyWhere (fun a => a.isLiveFor run.id stage)
          (StageAssignment.cancel db.now) := by
        rw [routed]
        exact (abandonStage_frame).2.2.1
      rw [hrows] at hb
      obtain ⟨a, ha, rfl⟩ := Table.mem_modifyWhere.mp hb
      split at hheld
      · cases (isHeldBy_iff.mp hheld).2
      · rename_i hother
        rw [if_neg hother]
        exact .inl ha
  | stageTimedOut kind => exact absurd kind hkind
  | reviewTimedOut _ _ => exact .inl (handleReviewTimeout_assignments ▸ hb)
  | _ => exact .inl hb

end

/-! ## What its queries leave -/

/-- A batch that is not full leaves only rows that are locked, or recovered already. -/
theorem Reaper.found_all {db : Db} {taken : RowLock → Bool} {scan : Scan} {a : StageAssignment}
    (hroom : (x.found batchSize db taken scan).length < batchSize) (ha : a ∈ scan.rows db)
    (hfree : taken (.assignment a.id) = false) :
    a.id ∈ x.doneIds ∨ a ∈ x.found batchSize db taken scan := by
  unfold Reaper.found at hroom ⊢
  rw [List.length_take] at hroom
  rw [List.take_of_length_le (by omega)]
  by_cases hdone : x.recovered a.id = true
  · obtain ⟨r, hr, hid⟩ := List.any_eq_true.mp hdone
    exact .inl (List.mem_map.mpr ⟨r, hr, beq_iff_eq.mp hid⟩)
  · exact .inr (List.mem_filter.mpr ⟨ha, by simp [hfree, hdone]⟩)

theorem Reaper.skipped_or_free {db : Db} (taken : RowLock → Bool) {scan : Scan}
    {a : StageAssignment} (ha : a ∈ scan.rows db) :
    a.id ∈ Reaper.skipped db taken scan ∨ taken (.assignment a.id) = false := by
  cases htaken : taken (.assignment a.id) with
  | true => exact .inl (List.mem_map.mpr ⟨a, List.mem_filter.mpr ⟨ha, htaken⟩, rfl⟩)
  | false => exact .inr rfl

/-- The rows are a full batch, and none of their leases ran out later. -/
def LeaseQuery.FilledBefore (q : LeaseQuery) (batchSize : Nat) (a : StageAssignment) : Prop :=
  q.found.length = batchSize ∧
    ∀ b ∈ q.found, b.leaseExpiresAt.getD 0 ≤ a.leaseExpiresAt.getD 0

/-- Overdue rows are asked for in the order in which their leases ran out. -/
theorem Reaper.found_first {db : Db} {taken : RowLock → Bool} {a : StageAssignment}
    (ha : a ∈ Scan.expired.rows db) (hfree : taken (.assignment a.id) = false) :
    a.id ∈ x.doneIds ∨ a ∈ x.found batchSize db taken .expired ∨
      LeaseQuery.FilledBefore ⟨db.now, x.found batchSize db taken .expired⟩ batchSize a := by
  have hlength : (x.found batchSize db taken .expired).length ≤ batchSize := List.length_take_le _ _
  rcases Nat.lt_or_eq_of_le hlength with hroom | hfull
  · exact (Reaper.found_all hroom ha hfree).imp_right .inl
  by_cases hdone : x.recovered a.id = true
  · obtain ⟨r, hr, hid⟩ := List.any_eq_true.mp hdone
    exact .inl (List.mem_map.mpr ⟨r, hr, beq_iff_eq.mp hid⟩)
  refine .inr (Classical.or_iff_not_imp_left.mpr fun hleft => ⟨hfull, fun b hb => ?_⟩)
  have hordered : OrderedBy
      (fun a b : StageAssignment => a.leaseExpiresAt.getD 0 ≤ b.leaseExpiresAt.getD 0)
      (db.assignments.select (·.isOverdue db.now)) (Scan.expired.rows db) :=
    .of_insertionSort (fun _ _ => Nat.le_total _ _) fun _ _ _ => Nat.le_trans
  let open_ := (Scan.expired.rows db).filter
    fun a => !taken (.assignment a.id) && !x.recovered a.id
  have hopen : open_.Pairwise fun a b => a.leaseExpiresAt.getD 0 ≤ b.leaseExpiresAt.getD 0 :=
    hordered.sorted.filter _
  have hmem : a ∈ open_ := List.mem_filter.mpr ⟨ha, by simp [hfree, hdone]⟩
  rw [← List.take_append_drop batchSize open_] at hopen hmem
  have hlater : a ∈ open_.drop batchSize := (List.mem_append.mp hmem).resolve_left hleft
  exact (List.pairwise_append.mp hopen).2.2 b hb a hlater

/-- It has the row in hand or recovered, or another had it when it was asked for. -/
def Reaper.Reaches (x : Reaper) (a : StageAssignment) : Prop :=
  a.id ∈ x.doneIds ++ x.todo ∨ a.id ∈ x.passed

/-- What the query for overdue rows left. -/
structure LeaseQuery.Covers (batchSize : Nat) (db : Db) (x : Reaper) (q : LeaseQuery) : Prop where
  past : q.asOf ≤ db.now
  found : ∀ b ∈ q.found, b.id ∈ x.doneIds ++ x.todo
  rows : ∀ a ∈ db.assignments, a.isOverdue q.asOf = true →
    x.Reaches a ∨ q.FilledBefore batchSize a

/-- Every row of a worker it recovers, and every overdue row, is still to be asked for or has been
reached. -/
structure Reaper.Covers (batchSize : Nat) (s : ReapStore) (held : List RowLock) (x : Reaper) :
    Prop where
  locked : ∀ workerId ∈ x.closing.workerIds, RowLock.worker workerId ∈ held
  registers : ∀ workerId payload, x.request = .register workerId payload →
    x.point = .begin ∨ x.point = .refused ∨ workerId ∈ x.closing.workerIds
  workers : ∀ workerId ∈ x.closing.workerIds, (∃ reason, Scan.ofWorker workerId reason ∈ x.scans) ∨
    ∀ a ∈ s.db.assignments, a.isHeldBy workerId = true → x.Reaches a
  overdue : x.request = .maintenance → x.point = .begin ∨ Scan.expired ∈ x.scans ∨
    ∃ q, x.overdue = some q ∧ q.Covers batchSize s.db x

/-- What is in hand moves on to what is done. -/
theorem Reaper.Covers.congr (h : x.Covers batchSize s held) (hheld : held ⊆ held')
    (hbegun : x.point ≠ .begin) (hrequest : x'.request = x.request)
    (hclosing : x'.closing = x.closing) (hscans : x'.scans = x.scans)
    (hoverdue : x'.overdue = x.overdue) (hpassed : x'.passed = x.passed)
    (hrefused : x.point = .refused → x'.point = .refused)
    (hids : x'.doneIds ++ x'.todo = x.doneIds ++ x.todo) : x'.Covers batchSize s held' := by
  have hreaches : ∀ a, x.Reaches a → x'.Reaches a := by
    intro a ha
    rw [Reaper.Reaches, hids, hpassed]
    exact ha
  refine ⟨fun w hw => hheld (h.locked w (hclosing ▸ hw)), fun w payload hregister => ?_,
    fun w hw => ?_, fun hmaintenance => ?_⟩
  · rw [hrequest] at hregister
    rw [hclosing]
    exact ((h.registers w payload hregister).resolve_left hbegun).imp hrefused id |> .inr
  · rw [hclosing] at hw
    rw [hscans]
    exact (h.workers w hw).imp_right fun hrows a ha hheld => hreaches a (hrows a ha hheld)
  · rw [hrequest] at hmaintenance
    rw [hscans, hoverdue]
    refine .inr (((h.overdue hmaintenance).resolve_left hbegun).imp_right ?_)
    rintro ⟨q, hq, hcovers⟩
    exact ⟨q, hq, hcovers.past, fun b hb => hids ▸ hcovers.found b hb, fun a ha hover =>
      (hcovers.rows a ha hover).imp_left (hreaches a)⟩

theorem Reaper.mem_scansAfter {count : Nat} {scan other : Scan} {rest : List Scan}
    (h : other ∈ rest) : other ∈ Reaper.scansAfter batchSize count scan rest := by
  unfold Reaper.scansAfter
  split
  · exact h
  · split
    · exact h
    · exact List.mem_cons_of_mem _ h

/-- A query reaches what it is about, or is made again. -/
theorem Reaper.Covers.query {taken : RowLock → Bool} {scan : Scan} {rest : List Scan}
    (h : x.Covers batchSize s held) (hbatch : 0 < batchSize) (hpoint : x.point = .scan)
    (hscans : x.scans = scan :: rest) (hidle : x.todo = []) :
    Reaper.Covers batchSize s
      ((x.found batchSize s.db taken scan).map (fun a => RowLock.assignment a.id) ++ held)
      { x with
        point := .recover, reason := scan.reason
        todo := (x.found batchSize s.db taken scan).map (·.id)
        scans := Reaper.scansAfter batchSize (x.found batchSize s.db taken scan).length scan rest
        overdue := x.overdueAfter s.db.now (x.found batchSize s.db taken scan) scan
        passed := x.passed ++ Reaper.skipped s.db taken scan } := by
  have hbegun : x.point ≠ .begin := by rw [hpoint]; intro h; cases h
  -- what was reached before still is
  have hkept : ∀ a, x.Reaches a → a.id ∈ x.doneIds ∨ a.id ∈ x.passed := by
    intro a ha
    rwa [Reaper.Reaches, hidle, List.append_nil] at ha
  refine ⟨fun w hw => List.mem_append_right _ (h.locked w hw), fun w payload hregister => ?_,
    fun w hw => ?_, fun hmaintenance => ?_⟩
  · rcases h.registers w payload hregister with hbegin | hrefused | hmem
    · exact absurd hbegin hbegun
    · rw [hpoint] at hrefused
      cases hrefused
    · exact .inr (.inr hmem)
  · rcases h.workers w hw with ⟨reason, hreason⟩ | hrows
    · rw [hscans] at hreason
      rcases List.mem_cons.mp hreason with rfl | hlater
      · -- the query is about this worker: it is made again after a full batch
        by_cases hroom : (x.found batchSize s.db taken (.ofWorker w reason)).length < batchSize
        · refine .inr fun a ha hheld => ?_
          have hmatch : a ∈ (Scan.ofWorker w reason).rows s.db := Table.mem_select.mpr ⟨ha, hheld⟩
          rcases Reaper.skipped_or_free taken hmatch with hskipped | hfree
          · exact .inr (List.mem_append_right _ hskipped)
          · rcases Reaper.found_all hroom hmatch hfree with hdone | hfound
            · exact .inl (List.mem_append_left _ hdone)
            · exact .inl (List.mem_append_right _ (List.mem_map_of_mem hfound))
        · refine .inl ⟨reason, ?_⟩
          have hagain : ¬((x.found batchSize s.db taken (.ofWorker w reason)).length = 0 ∨
              (x.found batchSize s.db taken (.ofWorker w reason)).length < batchSize) := by omega
          dsimp only [Reaper.scansAfter]
          rw [if_neg hagain]
          exact List.mem_cons_self
      · exact .inl ⟨reason, Reaper.mem_scansAfter hlater⟩
    · refine .inr fun a ha hheld => ?_
      exact (hkept a (hrows a ha hheld)).imp (List.mem_append_left _) (List.mem_append_left _)
  · have hscansKept : ∀ other ∈ rest, other ∈ Reaper.scansAfter batchSize
        (x.found batchSize s.db taken scan).length scan rest := fun _ => Reaper.mem_scansAfter
    cases scan with
    | ofWorker w reason =>
      refine .inr (((h.overdue hmaintenance).resolve_left hbegun).imp (fun hexpired => ?_) ?_)
      · rw [hscans] at hexpired
        have hlater : Scan.expired ∈ rest :=
          (List.mem_cons.mp hexpired).resolve_left fun heq => by cases heq
        exact hscansKept _ hlater
      · rintro ⟨q, hq, hcovers⟩
        refine ⟨q, hq, hcovers.past, fun b hb => List.mem_append_left _ ?_, fun a ha hover => ?_⟩
        · have hfound := hcovers.found b hb
          rwa [hidle, List.append_nil] at hfound
        · refine (hcovers.rows a ha hover).imp_left fun hreached => ?_
          exact (hkept a hreached).imp (List.mem_append_left _) (List.mem_append_left _)
    | expired =>
      refine .inr (.inr ⟨_, rfl, Nat.le_refl _, fun b hb =>
        List.mem_append_right _ (List.mem_map_of_mem hb), fun a ha hover => ?_⟩)
      have hmatch : a ∈ Scan.expired.rows s.db :=
        (List.mem_insertionSort _).mpr (Table.mem_select.mpr ⟨ha, hover⟩)
      rcases Reaper.skipped_or_free taken hmatch with hskipped | hfree
      · exact .inl (.inr (List.mem_append_right _ hskipped))
      · rcases Reaper.found_first hmatch hfree with hdone | hfound | hfilled
        · exact .inl (.inl (List.mem_append_left _ hdone))
        · exact .inl (.inl (List.mem_append_right _ (List.mem_map_of_mem hfound)))
        · exact .inr hfilled

/-- What is covered outlives a commit that brings its workers and the past no rows. -/
theorem Reaper.Covers.keep {t : ReapStore} (h : x.Covers batchSize s held)
    (hnow : s.db.now ≤ t.db.now)
    (hheld : ∀ workerId, RowLock.worker workerId ∈ held → ∀ b ∈ t.db.assignments,
      b.isHeldBy workerId = true → ∃ a ∈ s.db.assignments, a.id = b.id ∧ a.isHeldBy workerId = true)
    (hover : ∀ asOf ≤ s.db.now, ∀ b ∈ t.db.assignments, b.isOverdue asOf = true →
      b ∈ s.db.assignments) : x.Covers batchSize t held where
  locked := h.locked
  registers := h.registers
  workers w hw := by
    refine (h.workers w hw).imp_right fun hrows b hb hholds => ?_
    obtain ⟨a, ha, hid, hbefore⟩ := hheld w (h.locked w hw) b hb hholds
    rw [Reaper.Reaches, ← hid]
    exact hrows a ha hbefore
  overdue hmaintenance := by
    refine (h.overdue hmaintenance).imp_right (Or.imp_right ?_)
    rintro ⟨q, hq, hcovers⟩
    exact ⟨q, hq, hcovers.past.trans hnow, hcovers.found, fun b hb hlate =>
      hcovers.rows b (hover _ hcovers.past b hb hlate) hlate⟩

end ContentOrchestrator

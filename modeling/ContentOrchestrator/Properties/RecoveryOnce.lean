import ContentOrchestrator.Properties.SingleExecution
import ContentOrchestrator.Workers.ReapCoverage

/-! # A lost tenure is recovered once

Two reapers never have one row locked, and a row that was locked is still in flight when
its reaper writes and when it commits. So every attempt of an assignment is ended by one
recovery at most, and an attempt that another one follows by exactly one. -/

namespace ContentOrchestrator

open Lib

variable {batchSize : Nat} {origin s : ReapStore} {held held' : List RowLock} {x x' : Reaper}

/-! ## What other operations leave alone -/

variable {op : Op} {a a' : StageAssignment}

/-- Only a recovery begins another attempt, and a failed row stays failed. -/
theorem AssignmentMove.keeps_attempt {db : Db} (h : AssignmentMove op db a a')
    (hop : op.isRecovery = false) :
    a'.attemptNumber = a.attemptNumber ∧ (a.status = .failed → a'.status = .failed) := by
  cases h with
  | kept => exact ⟨rfl, fun h => h⟩
  | granted _ _ waiting _ => exact ⟨rfl, fun h => by rw [waiting] at h; cases h⟩
  | acknowledged _ held => exact ⟨rfl, fun h => by rw [held] at h; cases h⟩
  | renewed _ _ => exact ⟨rfl, fun h => h⟩
  | submitted _ held _ => exact ⟨rfl, fun h => by rw [h] at held; cases held⟩
  | requeued request _ =>
    rw [request] at hop
    cases hop
  | exhausted request _ =>
    rw [request] at hop
    cases hop
  | cancelled live _ => exact ⟨rfl, fun h => by rw [h] at live; cases live⟩

/-- The row after the operation, by what may become of it. -/
theorem step_row {db : Db} (hs : db.Sound) {id : Nat} (ha : db.assignments.get? id = some a) :
    ∃ a', (step db op).assignments.get? id = some a' ∧ AssignmentMove op db a a' :=
  (step_assignments op hs).get? (fun _ _ h => h.id) ha

/-- What a reaper knows outlives a commit that leaves its rows alone. -/
theorem Reaper.Knows.keep {t : ReapStore} (h : x.Knows s held)
    (hrows : ∀ id a, RowLock.assignment id ∈ held → s.db.assignments.get? id = some a →
      t.db.assignments.get? id = some a) : x.Knows t held where
  done r hr := by
    obtain ⟨hrow, hflight⟩ := h.done r hr
    exact ⟨hrows _ _ ((h.locked _).mpr (List.mem_append_left _ (List.mem_map_of_mem hr))) hrow,
      hflight⟩
  todo id hid := by
    obtain ⟨a, ha, hflight⟩ := h.todo id hid
    exact ⟨a, hrows _ _ ((h.locked _).mpr (List.mem_append_right _ hid)) ha, hflight⟩
  distinct := h.distinct
  locked := h.locked
  idle := h.idle

/-! ## What the store records -/

/-- Every attempt is recorded once at most; a recorded one has ended; and of every row of `origin`,
the attempts up to its present one are on record. -/
structure ReapStore.Sound (origin s : ReapStore) : Prop where
  db : s.db.Sound
  once : (s.recoveries.map fun t => (t.assignmentId, t.attempt)).Nodup
  ended : ∀ t ∈ s.recoveries, ∃ a, s.db.assignments.get? t.assignmentId = some a ∧
    (t.requeued = true ∧ t.attempt < a.attemptNumber ∨
      t.requeued = false ∧ a.attemptNumber = t.attempt ∧ a.status = .failed)
  follows : ∀ a ∈ origin.db.assignments, ∃ a', s.db.assignments.get? a.id = some a' ∧
    a.attemptNumber ≤ a'.attemptNumber ∧
      ∀ n, a.attemptNumber ≤ n → n < a'.attemptNumber → ⟨a.id, n, true⟩ ∈ s.recoveries

theorem ReapStore.Sound.other (h : origin.Sound s) (hop : op.isRecovery = false) :
    origin.Sound { s with db := step s.db op } where
  db := step_sound s.db op h.db
  once := h.once
  ended t ht := by
    obtain ⟨a, ha, hover⟩ := h.ended t ht
    obtain ⟨a', ha', hmove⟩ := @step_row op _ _ h.db _ ha
    obtain ⟨hattempt, hfailed⟩ := hmove.keeps_attempt hop
    refine ⟨a', ha', hover.imp (fun hrequeued => ?_) fun hexhausted => ?_⟩
    · exact ⟨hrequeued.1, hattempt ▸ hrequeued.2⟩
    · exact ⟨hexhausted.1, hattempt.trans hexhausted.2.1, hfailed hexhausted.2.2⟩
  follows a ha := by
    obtain ⟨b, hb, hle, hbetween⟩ := h.follows a ha
    obtain ⟨b', hb', hmove⟩ := @step_row op _ _ h.db _ hb
    rw [← (hmove.keeps_attempt hop).1] at hle hbetween
    exact ⟨b', hb', hle, hbetween⟩

/-! ## Commits -/

/-- The store after the reaper's commit. -/
def Reaper.commitTo (x : Reaper) (s : ReapStore) : ReapStore :=
  { db := x.conclude s.db, recoveries := s.recoveries ++ x.done.map RowRecovery.record }

theorem Reaper.Knows.done_distinct (h : x.Knows s held) : x.doneIds.Nodup :=
  (List.nodup_append.mp h.distinct).1

/-- What a commit does with the rows in hand. -/
theorem Reaper.Knows.ends (h : x.Knows s held) {r : RowRecovery} (hr : r ∈ x.done) :
    r.Ends s.db (x.commitTo s).db :=
  Reaper.conclude_ends h.done_distinct hr (h.done r hr).1

theorem Reaper.Knows.record_over (h : x.Knows s held) {r : RowRecovery} (hr : r ∈ x.done) :
    ∃ a, (x.commitTo s).db.assignments.get? r.row.id = some a ∧
      (r.requeues = true ∧ a.attemptNumber = r.row.attemptNumber + 1 ∨
        r.requeues = false ∧ a.attemptNumber = r.row.attemptNumber ∧ a.status = .failed) := by
  cases h.ends hr with
  | requeued kind found _ attempt => exact ⟨_, found, .inl ⟨kind, attempt⟩⟩
  | failed kind found status attempt => exact ⟨_, found, .inr ⟨kind, attempt, status⟩⟩

/-- A row in hand was not recovered at this attempt before. -/
theorem ReapStore.Sound.unrecorded (h : origin.Sound s) (hknows : x.Knows s held) {r : RowRecovery}
    (hr : r ∈ x.done) :
    (r.row.id, r.row.attemptNumber) ∉ s.recoveries.map fun t => (t.assignmentId, t.attempt) := by
  intro hrecorded
  obtain ⟨t, ht, heq⟩ := List.mem_map.mp hrecorded
  obtain ⟨hid, hattempt⟩ := Prod.mk.inj heq
  obtain ⟨hrow, hflight⟩ := hknows.done r hr
  obtain ⟨a, ha, hover⟩ := h.ended t ht
  rw [hid, hrow] at ha
  cases ha
  rcases hover with ⟨-, hlt⟩ | ⟨-, -, hfailed⟩
  · exact absurd hattempt (Nat.ne_of_lt hlt)
  · rw [hfailed] at hflight
    cases hflight

theorem ReapStore.Sound.commit (h : origin.Sound s) (hknows : x.Knows s held) :
    origin.Sound (x.commitTo s) where
  db := x.conclude_sound h.db
  once := by
    unfold Reaper.commitTo
    rw [List.map_append, List.map_map]
    refine List.nodup_append.mpr ⟨h.once, ?_, fun pair hpair pair' hpair' heq => ?_⟩
    · have hids : ((x.done.map fun r => (r.row.id, r.row.attemptNumber)).map Prod.fst).Nodup := by
        rw [List.map_map]
        exact hknows.done_distinct
      exact hids.of_map
    · obtain ⟨r, hr, rfl⟩ := List.mem_map.mp hpair'
      rw [heq] at hpair
      exact h.unrecorded hknows hr hpair
  ended t ht := by
    rcases List.mem_append.mp ht with hold | hnew
    · obtain ⟨a, ha, hover⟩ := h.ended t hold
      by_cases hdone : ∃ r ∈ x.done, r.row.id = t.assignmentId
      · obtain ⟨r, hr, hid⟩ := hdone
        obtain ⟨hrow, hflight⟩ := hknows.done r hr
        rw [hid, ha] at hrow
        cases hrow
        obtain ⟨a', ha', hafter⟩ := hknows.record_over hr
        refine ⟨a', hid ▸ ha', ?_⟩
        rcases hover with ⟨hrequeued, hlt⟩ | ⟨-, -, hfailed⟩
        · refine .inl ⟨hrequeued, Nat.lt_of_lt_of_le hlt ?_⟩
          rcases hafter with ⟨-, hattempt⟩ | ⟨-, hattempt, -⟩
          · exact hattempt ▸ Nat.le_succ _
          · exact Nat.le_of_eq hattempt.symm
        · rw [hfailed] at hflight
          cases hflight
      · have hother : ∀ r ∈ x.done, r.row.id ≠ t.assignmentId := fun r hr hid => hdone ⟨r, hr, hid⟩
        exact ⟨a, (Reaper.conclude_other hother).trans ha, hover⟩
    · obtain ⟨r, hr, rfl⟩ := List.mem_map.mp hnew
      obtain ⟨a, ha, hafter⟩ := hknows.record_over hr
      refine ⟨a, ha, hafter.imp (fun hrequeued => ⟨hrequeued.1, ?_⟩) fun hexhausted => hexhausted⟩
      exact hrequeued.2 ▸ Nat.lt_succ_self _
  follows a ha := by
    obtain ⟨b, hb, hle, hbetween⟩ := h.follows a ha
    by_cases hdone : ∃ r ∈ x.done, r.row.id = a.id
    · obtain ⟨r, hr, hid⟩ := hdone
      have hrow := (hknows.done r hr).1
      rw [hid, hb] at hrow
      cases hrow
      obtain ⟨a', ha', hafter⟩ := hknows.record_over hr
      rw [hid] at ha'
      rcases hafter with ⟨hkind, hattempt⟩ | ⟨-, hattempt, -⟩
      · refine ⟨a', ha', hattempt ▸ Nat.le_succ_of_le hle, fun n hn hlt => List.mem_append.mpr ?_⟩
        rcases Nat.lt_succ_iff_lt_or_eq.mp (hattempt ▸ hlt) with hlt | rfl
        · exact .inl (hbetween n hn hlt)
        · exact .inr (List.mem_map.mpr ⟨r, hr, by rw [RowRecovery.record, hid, hkind]⟩)
      · exact ⟨a', ha', hattempt.symm ▸ hle, fun n hn hlt =>
          List.mem_append_left _ (hbetween n hn (hattempt ▸ hlt))⟩
    · have hother : ∀ r ∈ x.done, r.row.id ≠ a.id := fun r hr hid => hdone ⟨r, hr, hid⟩
      exact ⟨b, (Reaper.conclude_other hother).trans hb, hle, fun n hn hlt =>
        List.mem_append_left _ (hbetween n hn hlt)⟩

/-- What is in flight after a commit was so before, and is none of the rows in hand. -/
theorem Reaper.Knows.kept (h : x.Knows s held) {a : StageAssignment}
    (ha : a ∈ (x.commitTo s).db.assignments) (hflight : a.status.inFlight = true) :
    a ∈ s.db.assignments ∧ a.id ∉ x.doneIds := by
  have hfound := Table.get?_of_mem ha
  have hnot : a.id ∉ x.doneIds := by
    intro hdone
    obtain ⟨r, hr, hid⟩ := List.mem_map.mp hdone
    cases h.ends hr with
    | requeued _ found status _ _ _ _ =>
      rw [hid] at found
      cases Option.some.inj (found.symm.trans hfound)
      rw [status] at hflight
      cases hflight
    | failed _ found status _ _ _ _ =>
      rw [hid] at found
      cases Option.some.inj (found.symm.trans hfound)
      rw [status] at hflight
      cases hflight
  refine ⟨?_, hnot⟩
  have hother : (x.commitTo s).db.assignments.get? a.id = s.db.assignments.get? a.id :=
    Reaper.conclude_other fun r hr hid => hnot (List.mem_map.mpr ⟨r, hr, hid⟩)
  exact (Table.get?_eq_some.mp (hother ▸ hfound)).1

/-- What a commit leaves in flight: of the workers it is about, and of what was overdue when it
asked, only rows another reaper had in hand then, and rows that come after a full batch. -/
structure Reaper.Leaves (batchSize : Nat) (after : Db) (x : Reaper) : Prop where
  registers : ∀ workerId payload, x.request = .register workerId payload →
    workerId ∈ x.closing.workerIds
  workers : ∀ workerId ∈ x.closing.workerIds, ∀ a ∈ after.assignments,
    a.isHeldBy workerId = true → a.id ∈ x.passed
  overdue : x.request = .maintenance → ∃ q, x.overdue = some q ∧
    (∀ b ∈ q.found, b.id ∈ x.doneIds) ∧
    ∀ a ∈ after.assignments, a.isOverdue q.asOf = true →
      a.id ∈ x.passed ∨ q.FilledBefore batchSize a

/-- The same rows, with their records, as the start of what follows. -/
theorem ReapStore.Sound.restart (h : origin.Sound s) : s.Sound s :=
  ⟨h.db, h.once, h.ended, fun a ha => ⟨a, Table.get?_of_mem ha, Nat.le_refl _, fun _ hn hlt =>
    absurd hlt (Nat.not_lt.mpr hn)⟩⟩

end ContentOrchestrator

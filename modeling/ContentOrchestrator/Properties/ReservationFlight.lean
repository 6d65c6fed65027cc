import ContentOrchestrator.Orchestration.RunInvariants

/-! # A reservation is open exactly while a worker holds the stage

A reservation is opened by the dispatch to a worker and by the claim, and closed by
the submission, the recovery, the cancellation, the failure of the run and the
exhaustion of its job. None of them forgets a side: `Shows` has an open reservation
in its working state only. -/

namespace ContentOrchestrator

open Lib

variable {s t : Db} {r : Nat} {stage : ContentStage}

/-- A worker holds the assignment, and it is about this stage of the run. -/
def StageAssignment.isInFlightFor (runId : Nat) (stage : ContentStage) (a : StageAssignment) :
    Bool :=
  a.pipelineRunId == runId && a.stage == stage && a.status.inFlight

/-- Every run and stage has an open reservation exactly while an assignment of it is in flight,
and then one of each. -/
def Db.ReservationMatchesFlight (db : Db) : Prop :=
  ∀ (runId : Nat) (stage : ContentStage),
    ((∃ w ∈ db.reservations, w.isOpenFor runId stage = true) ↔
      ∃ a ∈ db.assignments, a.isInFlightFor runId stage = true) ∧
    (db.reservations.count (·.isOpenFor runId stage)) ≤ 1 ∧
    (db.assignments.count (·.isInFlightFor runId stage)) ≤ 1

/-- The attempts in flight, seen in the slice. -/
theorem select_isInFlightFor :
    s.assignments.select (·.isInFlightFor r stage) =
      (s.slice r).assignments.filter fun a => a.stage == stage && a.status.inFlight := by
  unfold Db.slice Table.select
  rw [List.filter_filter]
  refine List.filter_congr fun a _ => ?_
  simp only [StageAssignment.isInFlightFor, StageAssignment.isLiveOf]
  cases hheld : a.status.inFlight with
  | true =>
    rw [isLive_of_inFlight hheld]
    cases a.pipelineRunId == r <;> cases a.stage == stage <;> rfl
  | false => simp

/-- In a slice that shows a view, the stage has as many open reservations as attempts in flight. -/
theorem Shows.reservations_eq_inFlight {x : RunSlice} {v : RunView} (h : Shows x v) :
    (x.reservations.filter fun w => w.stage == stage).length =
        (x.assignments.filter fun a => a.stage == stage && a.status.inFlight).length ∧
      (x.reservations.filter fun w => w.stage == stage).length ≤ 1 := by
  cases h with
  | idle _ => exact ⟨rfl, Nat.zero_le 1⟩
  | queued _ => exact ⟨rfl, Nat.zero_le 1⟩
  | reviewing _ => exact ⟨rfl, Nat.zero_le 1⟩
  | waiting _ idle => exact ⟨by simp [idle, StageAssignmentStatus.inFlight], Nat.zero_le 1⟩
  | @working _ _ a w _ held covers =>
    rw [List.filter_singleton, List.filter_singleton, covers, held, Bool.and_true]
    cases a.stage == stage <;> simp

/-- The counts of one run and stage. -/
theorem Follows.reservations_eq_inFlight {P : RunView → Prop} (h : Follows P r t)
    (stage : ContentStage) :
    t.reservations.count (·.isOpenFor r stage) = t.assignments.count (·.isInFlightFor r stage) ∧
      t.reservations.count (·.isOpenFor r stage) ≤ 1 := by
  rw [Table.count_eq_length_select, Table.count_eq_length_select, select_isOpenFor,
    select_isInFlightFor]
  rcases h with habs | ⟨v, hshow, _⟩
  · rw [habs]
    exact ⟨rfl, Nat.zero_le 1⟩
  · exact hshow.reservations_eq_inFlight

/-- **Reservation matches flight**, in every history without operator retries. -/
theorem reservation_matches_flight {db : Db} (hfresh : db.Fresh)
    (h : Reach Steps (fun _ op => op.isOperatorRetry = false) db t) :
    t.ReservationMatchesFlight := by
  intro runId stage
  have hfollows := history_follows (r := runId) (P := fun _ => True) hfresh
    (fun _ _ _ hok _ => retryFits_of_other hok) (fun _ _ _ _ _ => trivial)
    (fun _ _ _ _ _ _ _ _ _ _ => trivial) h
  obtain ⟨heq, hle⟩ := hfollows.2.reservations_eq_inFlight stage
  refine ⟨?_, hle, heq ▸ hle⟩
  rw [← Table.count_pos, ← Table.count_pos, heq]

/-- One run at work and one whose attempt was taken back. -/
def flightHistory : List Op :=
  [.startRun 0 0 0, .startRun 0 0 0, .poll 10 [], .processJob 0 [] 0, .processJob 1 [] 0,
   .recover 0 .leaseExpired]

theorem reservation_matches_flight_recovered :
    (replay step demoDb flightHistory).ReservationMatchesFlight ∧
      (replay step demoDb flightHistory).assignments.count (·.isInFlightFor 1 .idea) = 1 := by
  have hadmits : admits step (fun _ op => !op.isOperatorRetry) demoDb flightHistory = true := by
    decide +kernel
  refine ⟨reservation_matches_flight demoDb_fresh
    ((reach_replay flightHistory demoDb hadmits).mono ?_),
    by decide +kernel⟩
  intro s op h
  simpa using h

end ContentOrchestrator

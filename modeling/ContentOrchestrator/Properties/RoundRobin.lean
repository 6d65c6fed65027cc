import ContentOrchestrator.Orchestration.TickRounds

/-! # The selection loop of a tick is exact

Over any fetched rows, batch size and limits, the loop ends with as many jobs as the
batch and the limits allow, the first of every workspace in fetched order, and no
workspace more than one ahead of another that could have given more. -/

namespace ContentOrchestrator

open Lib

variable {limit : Nat → Nat} {batchSize : Nat} {candidates leased : List JobSchedule}

/-- The selection over fetched rows. -/
structure InTurn (limit : Nat → Nat) (batchSize : Nat) (candidates leased : List JobSchedule) :
    Prop where
  length :
      leased.length = min batchSize ((candidates.map (·.workspaceId)).dedup.map fun workspaceId =>
    min (jobsOf workspaceId candidates).length (limit workspaceId)).sum
  distinct : candidates.Nodup → leased.Nodup
  inOrder : ∀ workspaceId, jobsOf workspaceId leased <+: jobsOf workspaceId candidates
  withinLimit : ∀ workspaceId, (jobsOf workspaceId leased).length ≤ limit workspaceId
  balanced : ∀ workspaceId other,
    (jobsOf workspaceId leased).length ≤ (jobsOf other leased).length + 1 ∨
      jobsOf other leased = jobsOf other candidates ∨ (jobsOf other leased).length = limit other

theorem nodup_of_jobsOf (h : ∀ workspaceId, (jobsOf workspaceId leased).Nodup) : leased.Nodup := by
  refine List.nodup_iff_count_le_one.mpr fun j => ?_
  have hcount : (jobsOf j.workspaceId leased).count j =
      leased.count j := List.count_filter (by simp)
  rw [← hcount]
  exact List.nodup_iff_count_le_one.mp (h j.workspaceId) j

/-- A workspace that has no queue gives nothing. -/
theorem Turns.none_of_absent (h : Turns batchSize (queuesOf limit candidates) leased)
    {workspaceId : Nat} (habsent : ∀ j ∈ candidates, j.workspaceId ≠ workspaceId) :
    jobsOf workspaceId leased = [] ∧ jobsOf workspaceId candidates = [] := by
  refine ⟨jobsOf_eq_nil fun j hj => ?_, jobsOf_eq_nil habsent⟩
  obtain ⟨q, hq, hjq⟩ := h.own j hj
  obtain ⟨⟨i, hi, hown⟩, _⟩ := mem_queuesOf.mp hq
  rw [queuesOf_queued.own q hq j hjq, ← hown]
  exact habsent i hi

/-- The queue of a workspace with fetched rows. -/
theorem queue_of_present {j : JobSchedule} (hj : j ∈ candidates) :
    ⟨j.workspaceId, allowedJobs limit candidates j.workspaceId⟩ ∈ queuesOf limit candidates :=
  mem_queuesOf.mpr ⟨⟨j, hj, rfl⟩, rfl⟩

theorem Turns.inTurn (h : Turns batchSize (queuesOf limit candidates) leased) :
    InTurn limit batchSize candidates leased := by
  have hallowed : ∀ workspaceId, jobsOf workspaceId leased <+:
      allowedJobs limit candidates workspaceId := by
    intro workspaceId
    by_cases hpresent : ∃ j ∈ candidates, j.workspaceId = workspaceId
    · obtain ⟨j, hj, rfl⟩ := hpresent
      exact h.inOrder _ (queue_of_present hj)
    · rw [(h.none_of_absent fun j hj hown => hpresent ⟨j, hj, hown⟩).1]
      exact List.nil_prefix
  have hinOrder : ∀ workspaceId, jobsOf workspaceId leased <+: jobsOf workspaceId candidates :=
    fun workspaceId => (hallowed workspaceId).trans (List.take_prefix _ _)
  refine ⟨by rw [h.length, waiting_queuesOf], fun hnodup => ?_, hinOrder, fun workspaceId => ?_,
    fun workspaceId other => ?_⟩
  · exact nodup_of_jobsOf fun workspaceId =>
      (hnodup.filter _).sublist (hinOrder workspaceId).sublist
  · exact Nat.le_trans (hallowed workspaceId).length_le (List.length_take_le _ _)
  · by_cases hpresent : ∃ j ∈ candidates, j.workspaceId = workspaceId
    · by_cases hother : ∃ j ∈ candidates, j.workspaceId = other
      · obtain ⟨j, hj, rfl⟩ := hpresent
        obtain ⟨i, hi, rfl⟩ := hother
        rcases h.balanced _ (queue_of_present hj) _ (queue_of_present hi) with hless | hdone
        · exact .inl hless
        · -- the other queue is used up: by its rows or by its limit
          refine .inr ?_
          change jobsOf i.workspaceId leased = allowedJobs limit candidates i.workspaceId at hdone
          rw [hdone, allowedJobs]
          rcases Nat.le_total (limit i.workspaceId) (jobsOf i.workspaceId candidates).length with
            hcut | hall
          · exact .inr (List.length_take_of_le hcut)
          · exact .inl (List.take_of_length_le hall)
      · obtain ⟨hnone, hempty⟩ := h.none_of_absent fun j hj hown => hother ⟨j, hj, hown⟩
        exact .inr (.inl (hnone.trans hempty.symm))
    · rw [(h.none_of_absent fun j hj hown => hpresent ⟨j, hj, hown⟩).1]
      exact .inl (Nat.zero_le _)

/-- **The selection is exact** for all fetched rows, limits and batch sizes, and the loop has ended
by then: any further rounds select nothing. -/
theorem leases_in_turn (limit : Nat → Nat) (batchSize : Nat) (candidates : List JobSchedule) :
    InTurn limit batchSize candidates (leaseInTurn limit batchSize candidates) ∧
      ∀ rounds, candidates.length ≤ rounds →
        tickRounds rounds batchSize (queuesOf limit candidates) =
          leaseInTurn limit batchSize candidates := by
  refine ⟨leaseInTurn_turns.inTurn, fun rounds henough => ?_⟩
  have hbound : waiting (queuesOf limit candidates) ≤ candidates.length := waiting_le_length
  rw [leaseInTurn, tickRounds_ends queuesOf_queued (Nat.le_trans hbound henough),
    tickRounds_ends queuesOf_queued hbound]

end ContentOrchestrator

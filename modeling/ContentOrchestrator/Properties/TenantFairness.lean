import ContentOrchestrator.System
import ContentOrchestrator.Orchestration.TickRounds

/-! # Every tenant with due work is served

With no more such tenants than the batch holds, a tick serves exactly those of them that
have a row among the three batches it fetches and are allowed any. A tenant with enough
earlier rows keeps the others out of what is fetched. -/

namespace ContentOrchestrator

open Lib

/-- Due rows in the order of the query. -/
def dueOrder (db : Db) : List JobSchedule :=
  (db.jobs.select fun j => j.isDue db.now).insertionSort fun a b =>
    b.priority < a.priority ∨ (a.priority = b.priority ∧ a.runAfter ≤ b.runAfter)

/-- The workspaces with due work. -/
def dueWorkspaces (db : Db) : List Nat := ((dueOrder db).map (·.workspaceId)).dedup

/-- One of the first due rows, three for each place of the batch, is the workspace's, and its limit
is not zero. -/
def reachesTick (db : Db) (batchSize workspaceId : Nat) : Bool :=
  decide (0 < fairnessLimit db workspaceId) &&
    ((dueOrder db).take (batchSize * 3)).any fun j => j.workspaceId == workspaceId

/-- The tick leases one of the workspace's rows. -/
def ServedInTick (db : Db) (batchSize workspaceId : Nat) : Prop :=
  ∃ j ∈ db.jobs, j.workspaceId = workspaceId ∧ j.status = .pending ∧
    ∃ j' ∈ (pollAndLease batchSize [] db).jobs, j'.id = j.id ∧ j'.status = .leased

variable {db : Db} {batchSize workspaceId : Nat}

theorem dueJobs_unlocked : dueJobs db batchSize [] = (dueOrder db).take (batchSize * 3) := by
  simp only [dueJobs, dueOrder, List.contains_nil, Bool.not_false]
  rw [List.filter_eq_self.mpr fun _ _ => rfl]

theorem mem_dueJobs {lockedJobs : List Nat} {j : JobSchedule}
    (h : j ∈ dueJobs db batchSize lockedJobs) :
    j ∈ db.jobs ∧ j.isDue db.now = true := by
  have hin := (List.mem_filter.mp (List.mem_of_mem_take h)).1
  exact Table.mem_select.mp ((List.mem_insertionSort _).mp hin)

theorem mem_selectLeases {j : JobSchedule} (h : j ∈ selectLeases db batchSize []) :
    j ∈ dueJobs db batchSize [] := by
  obtain ⟨q, hq, hjq⟩ := leaseInTurn_turns.own j h
  rw [(mem_queuesOf.mp hq).2] at hjq
  exact (List.mem_filter.mp (List.mem_of_mem_take hjq)).1

theorem servedInTick_iff : ServedInTick db batchSize workspaceId ↔
    jobsOf workspaceId (selectLeases db batchSize []) ≠ [] := by
  constructor
  · rintro ⟨j, hj, rfl, hpending, j', hj', hid, hleased⟩
    obtain ⟨i, hi, rfl⟩ := Table.mem_modifyWhere.mp hj'
    by_cases hpolled : isPolled batchSize [] db i = true
    · rw [if_pos hpolled] at hid
      have hone : i = j := Table.eq_of_key hi hj hid
      obtain ⟨hchosen, _⟩ := Bool.and_eq_true_iff.mp hpolled
      obtain ⟨k, hk, hkid⟩ := List.mem_map.mp (List.contains_iff_mem.mp hchosen)
      have hsame : k = i := Table.eq_of_key (mem_dueJobs (mem_selectLeases hk)).1 hi hkid
      rw [hsame, hone] at hk
      exact List.ne_nil_of_mem (List.mem_filter.mpr ⟨hk, by simp⟩)
    · rw [if_neg hpolled] at hid hleased
      rw [Table.eq_of_key hi hj hid, hpending] at hleased
      cases hleased
  · intro hsome
    obtain ⟨j, hj⟩ := List.exists_mem_of_ne_nil _ hsome
    obtain ⟨hchosen, hown⟩ := List.mem_filter.mp hj
    obtain ⟨hmem, hdue⟩ := mem_dueJobs (mem_selectLeases hchosen)
    have hpolled : isPolled batchSize [] db j = true :=
      Bool.and_eq_true_iff.mpr ⟨List.contains_iff_mem.mpr (List.mem_map_of_mem hchosen), hdue⟩
    have hpending : j.status = .pending := by
      simp only [JobSchedule.isDue, Bool.and_eq_true, beq_iff_eq] at hdue
      exact hdue.1
    refine ⟨j,
      hmem, by simpa using hown, hpending, (JobSchedule.lease db.now).apply j, ?_, rfl, rfl⟩
    refine Table.mem_modifyWhere.mpr ⟨j, hmem, ?_⟩
    rw [if_pos hpolled]

/-- No more queues than workspaces with due work. -/
theorem queuesOf_length {limit : Nat → Nat} {count : Nat} :
    (queuesOf limit ((dueOrder db).take count)).length ≤ (dueWorkspaces db).length := by
  have hlength : (queuesOf limit ((dueOrder db).take count)).length =
      (((dueOrder db).take count).map (·.workspaceId)).dedup.length := by
    rw [queuesOf, List.length_map]
    exact workspaces_perm.length_eq
  rw [hlength]
  refine (List.subperm_of_subset (List.nodup_dedup _) fun workspaceId hin => ?_).length_le
  obtain ⟨j, hj, rfl⟩ := List.mem_map.mp (List.mem_dedup.mp hin)
  exact List.mem_dedup.mpr (List.mem_map_of_mem (List.mem_of_mem_take hj))

theorem servedInTick_iff_reaches (hfew : (dueWorkspaces db).length ≤ batchSize) :
    ServedInTick db batchSize workspaceId ↔ reachesTick db batchSize workspaceId = true := by
  rw [servedInTick_iff, selectLeases_eq, dueJobs_unlocked]
  simp only [reachesTick, Bool.and_eq_true, decide_eq_true_eq, List.any_eq_true, beq_iff_eq]
  constructor
  · intro hsome
    obtain ⟨j, hj⟩ := List.exists_mem_of_ne_nil _ hsome
    obtain ⟨hchosen, hown⟩ := List.mem_filter.mp hj
    obtain ⟨q, hq, hjq⟩ := leaseInTurn_turns.own j hchosen
    obtain ⟨_, hremaining⟩ := mem_queuesOf.mp hq
    have hname : q.workspaceId = workspaceId :=
      (queuesOf_queued.own q hq j hjq).symm.trans (by simpa using hown)
    rw [hremaining, hname] at hjq
    obtain ⟨hfetched, howns⟩ := List.mem_filter.mp (List.mem_of_mem_take hjq)
    refine ⟨Nat.pos_of_ne_zero fun hzero => ?_, j, hfetched, by simpa using howns⟩
    rw [allowedJobs, hzero, List.take_zero] at hjq
    cases hjq
  · rintro ⟨hallowed, j, hfetched, rfl⟩
    have hqueue : ⟨j.workspaceId,
        allowedJobs (fairnessLimit db) ((dueOrder db).take (batchSize * 3)) j.workspaceId⟩ ∈
        queuesOf (fairnessLimit db) ((dueOrder db).take (batchSize * 3)) := mem_queuesOf.mpr
          ⟨⟨j, hfetched, rfl⟩, rfl⟩
    refine tickRounds_serve_all queuesOf_queued waiting_le_length
      (Nat.le_trans queuesOf_length hfew) hqueue ?_
    have hin : j ∈ jobsOf j.workspaceId ((dueOrder db).take (batchSize * 3)) :=
      List.mem_filter.mpr ⟨hfetched, by simp⟩
    intro hnil
    rcases List.take_eq_nil_iff.mp hnil with hzero | hempty
    · exact hallowed.ne' hzero
    · rw [hempty] at hin
      cases hin

/-- **A tick serves every tenant with due work** exactly when each of them has a row among those it
fetches. -/
theorem tenants_served_iff (db : Db) (batchSize : Nat)
    (hfew : (dueWorkspaces db).length ≤ batchSize) :
    (∀ workspaceId ∈ dueWorkspaces db, ServedInTick db batchSize workspaceId) ↔
      ∀ workspaceId ∈ dueWorkspaces db, reachesTick db batchSize workspaceId = true := by
  constructor
  · exact fun h workspaceId hdue => (servedInTick_iff_reaches hfew).mp (h workspaceId hdue)
  · exact fun h workspaceId hdue => (servedInTick_iff_reaches hfew).mpr (h workspaceId hdue)

/-- Due rows of these workspaces, in this order. -/
def dueDb (workspaceIds : List Nat) : Db :=
  { demoDb with
    jobs := workspaceIds.foldl (fun jobs workspaceId => jobs.insert ⟨fun id =>
      { id, workspaceId, jobType := .stage, refTable := "idea", refId := .run id, runAfter := id
        createdAt := 0 },
        fun _ => rfl⟩) ∅
    now := 100 }

theorem tenants_served_iff_two :
    ServedInTick (dueDb [0, 0, 0, 0, 0, 1]) 2 0 ∧ ServedInTick (dueDb [0, 0, 0, 0, 0, 1]) 2 1 := by
  have hserved := (tenants_served_iff (dueDb [0, 0, 0, 0, 0, 1]) 2 (by decide +kernel)).mpr
      (by decide +kernel)
  exact ⟨hserved 0 (by decide +kernel), hserved 1 (by decide +kernel)⟩

/-- One row more of the first tenant, and the second is left out. -/
theorem flood_starves_tenant :
    ¬ ∀ (db : Db) (batchSize : Nat), (dueWorkspaces db).length ≤ batchSize →
        ∀ workspaceId ∈ dueWorkspaces db, ServedInTick db batchSize workspaceId := by
  intro h
  have hserved := h (dueDb [0, 0, 0, 0, 0, 0, 1]) 2 (by decide +kernel) 1 (by decide +kernel)
  have hnone : jobsOf 1 (selectLeases (dueDb [0, 0, 0, 0, 0, 0, 1]) 2 []) = [] := by decide +kernel
  exact servedInTick_iff.mp hserved hnone

end ContentOrchestrator

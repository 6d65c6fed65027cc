import Mathlib.Data.List.Dedup
import Mathlib.Algebra.BigOperators.Group.List.Lemmas
import Mathlib.Algebra.Order.BigOperators.Group.List
import ContentOrchestrator.Orchestration.Scheduler

/-! # The rounds of a tick

One round takes the next job of every queue that has one, until the batch is full. So
after any number of rounds a queue has given a prefix of its jobs, and only a queue that
is used up can be more than one job behind another. -/

namespace ContentOrchestrator

open Lib

/-- The queues over fetched rows, cut to the workspaces' limits. -/
def queuesOf (limit : Nat → Nat) (candidates : List JobSchedule) : List TickQueue :=
  ((candidates.map (·.workspaceId)).reverse.dedup.reverse).map fun workspaceId =>
    ⟨workspaceId, (candidates.filter fun j => j.workspaceId == workspaceId).take
      (limit workspaceId)⟩

/-- The selection loop over fetched rows. -/
def leaseInTurn (limit : Nat → Nat) (batchSize : Nat) (candidates : List JobSchedule) :
    List JobSchedule :=
  tickRounds candidates.length batchSize (queuesOf limit candidates)

theorem selectLeases_eq (db : Db) (batchSize : Nat) (lockedJobs : List Nat) :
    selectLeases db batchSize lockedJobs =
      leaseInTurn (fairnessLimit db) batchSize (dueJobs db batchSize lockedJobs) := rfl

/-- The jobs of one workspace. -/
def jobsOf (workspaceId : Nat) (jobs : List JobSchedule) : List JobSchedule :=
  jobs.filter fun j => j.workspaceId == workspaceId

/-- What is left to lease. -/
def waiting (queues : List TickQueue) : Nat := (queues.map fun q => q.remaining.length).sum

/-- A queue for each workspace, with its own jobs. -/
structure Queued (queues : List TickQueue) : Prop where
  distinct : (queues.map (·.workspaceId)).Nodup
  own : ∀ q ∈ queues, ∀ j ∈ q.remaining, j.workspaceId = q.workspaceId

variable {queues queues' : List TickQueue} {leased : List JobSchedule} {room : Nat} {q : TickQueue}

theorem jobsOf_append {workspaceId : Nat} {jobs more : List JobSchedule} :
    jobsOf workspaceId (jobs ++ more) = jobsOf workspaceId jobs ++ jobsOf workspaceId more :=
  List.filter_append jobs more

theorem jobsOf_cons_self {workspaceId : Nat} {job : JobSchedule} {jobs : List JobSchedule}
    (h : job.workspaceId = workspaceId) :
    jobsOf workspaceId (job :: jobs) = job :: jobsOf workspaceId jobs :=
  List.filter_cons_of_pos (by simpa using h)

theorem jobsOf_cons_of_ne {workspaceId : Nat} {job : JobSchedule} {jobs : List JobSchedule}
    (h : job.workspaceId ≠ workspaceId) :
    jobsOf workspaceId (job :: jobs) = jobsOf workspaceId jobs :=
  List.filter_cons_of_neg (by simpa using h)

theorem jobsOf_eq_nil {workspaceId : Nat} {jobs : List JobSchedule}
    (h : ∀ j ∈ jobs, j.workspaceId ≠ workspaceId) :
    jobsOf workspaceId jobs = [] :=
  List.filter_eq_nil_iff.mpr fun j hj => by simpa using h j hj

theorem Queued.tail (h : Queued (q :: queues)) : Queued queues where
  distinct := (List.nodup_cons.mp h.distinct).2
  own p hp := h.own p (List.mem_cons_of_mem _ hp)

theorem Queued.ne_head (h : Queued (q :: queues)) {p : TickQueue} (hp : p ∈ queues) :
    p.workspaceId ≠ q.workspaceId := by
  intro hsame
  have hin : p.workspaceId ∈ queues.map (·.workspaceId) := List.mem_map_of_mem hp
  rw [hsame] at hin
  exact (List.nodup_cons.mp h.distinct).1 hin

/-! ## One round -/

/-- What a round does to the queues. -/
structure Round (room : Nat) (queues : List TickQueue) (leased : List JobSchedule)
    (queues' : List TickQueue) : Prop where
  names : queues'.map (·.workspaceId) = queues.map (·.workspaceId)
  own : ∀ j ∈ leased, ∃ q ∈ queues, j ∈ q.remaining
  length : leased.length ≤ room
  taken : ∀ q ∈ queues, ∃ q' ∈ queues', q'.workspaceId = q.workspaceId ∧
    q.remaining = jobsOf q.workspaceId leased ++ q'.remaining ∧
      (jobsOf q.workspaceId leased).length ≤ 1
  rest : waiting queues' + leased.length = waiting queues
  /-- A round that is not cut short serves every queue. -/
  full : leased.length < room → ∀ q ∈ queues, q.remaining ≠ [] →
    (jobsOf q.workspaceId leased).length = 1
  serves : 0 < room → 0 < waiting queues → 0 < leased.length
  /-- Nor is one with room for every queue. -/
  all : queues.length ≤ room → ∀ q ∈ queues, q.remaining ≠ [] → jobsOf q.workspaceId leased ≠ []

theorem Round.idle : Round 0 queues [] queues where
  names := rfl
  own _ hj := absurd hj List.not_mem_nil
  length := Nat.le_of_eq rfl
  taken q hq := ⟨q, hq, rfl, rfl, Nat.zero_le 1⟩
  rest := rfl
  full h := absurd h (Nat.not_lt_zero _)
  serves h := absurd h (Nat.not_lt_zero _)
  all hfew q hq := by
    rw [List.eq_nil_of_length_eq_zero (Nat.le_zero.mp hfew)] at hq
    cases hq

/-- The jobs of later queues are not the head's. -/
theorem Round.none_of_head (h : Round room queues leased queues') (hqueued : Queued (q :: queues)) :
    jobsOf q.workspaceId leased = [] := by
  refine jobsOf_eq_nil fun j hj => ?_
  obtain ⟨p, hp, hjp⟩ := h.own j hj
  rw [hqueued.own p (List.mem_cons_of_mem _ hp) j hjp]
  exact hqueued.ne_head hp

/-- An empty queue is passed over. -/
theorem Round.pass (h : Round room queues leased queues') (hqueued : Queued (q :: queues))
    (hempty : q.remaining = []) :
    Round room (q :: queues) leased (q :: queues') where
  names := by simp [h.names]
  own j hj := by
    obtain ⟨p, hp, hjp⟩ := h.own j hj
    exact ⟨p, List.mem_cons_of_mem _ hp, hjp⟩
  length := h.length
  taken p hp := by
    rcases List.mem_cons.mp hp with rfl | hp
    · have hnone := h.none_of_head hqueued
      exact ⟨p, List.mem_cons_self, rfl, by rw [hnone]; rfl, by rw [hnone]; exact Nat.zero_le 1⟩
    · obtain ⟨p', hp', hsame⟩ := h.taken p hp
      exact ⟨p', List.mem_cons_of_mem _ hp', hsame⟩
  rest := by
    have hrest := h.rest
    simp only [waiting, List.map_cons, List.sum_cons, hempty, List.length_nil,
      Nat.zero_add] at hrest ⊢
    exact hrest
  full hcut p hp hne := by
    rcases List.mem_cons.mp hp with rfl | hp
    · exact absurd hempty hne
    · exact h.full hcut p hp hne
  serves hroom hsome := by
    refine h.serves hroom ?_
    simpa [waiting, hempty] using hsome
  all hfew p hp hne := by
    rcases List.mem_cons.mp hp with rfl | hp
    · exact absurd hempty hne
    · exact h.all (Nat.le_trans (Nat.le_succ _) hfew) p hp hne

/-- A queue with a job gives it. -/
theorem Round.serve (h : Round room queues leased queues') (hqueued : Queued (q :: queues))
    {job : JobSchedule} {jobs : List JobSchedule} (hq : q.remaining = job :: jobs) :
    Round (room + 1) (q :: queues) (job :: leased) ({ q with remaining := jobs } :: queues') := by
  have hjob : job.workspaceId = q.workspaceId :=
    hqueued.own q List.mem_cons_self job (by rw [hq]; exact List.mem_cons_self)
  have hhead : jobsOf q.workspaceId (job :: leased) = [job] := by
    rw [jobsOf_cons_self hjob, h.none_of_head hqueued]
  have hlater : ∀ p ∈ queues, jobsOf p.workspaceId (job :: leased) = jobsOf p.workspaceId leased :=
    fun p hp => jobsOf_cons_of_ne (hjob ▸ (hqueued.ne_head hp).symm)
  refine ⟨by simp [h.names], fun j hj => ?_, Nat.succ_le_succ h.length, fun p hp => ?_, ?_,
          fun hcut p hp hne => ?_,
    fun _ _ => Nat.succ_pos _, fun hfew p hp hne => ?_⟩
  · rcases List.mem_cons.mp hj with rfl | hj
    · exact ⟨q, List.mem_cons_self, by rw [hq]; exact List.mem_cons_self⟩
    · obtain ⟨p, hp, hjp⟩ := h.own j hj
      exact ⟨p, List.mem_cons_of_mem _ hp, hjp⟩
  · rcases List.mem_cons.mp hp with rfl | hp
    · exact ⟨_, List.mem_cons_self,
        rfl, by rw [hhead, hq]; rfl, by rw [hhead]; exact Nat.le_of_eq rfl⟩
    · obtain ⟨p', hp', hrest⟩ := h.taken p hp
      rw [hlater p hp]
      exact ⟨p', List.mem_cons_of_mem _ hp', hrest⟩
  · have hrest := h.rest
    simp only [waiting, List.map_cons, List.sum_cons, hq, List.length_cons] at hrest ⊢
    omega
  · rcases List.mem_cons.mp hp with rfl | hp
    · rw [hhead]
      rfl
    · rw [hlater p hp]
      exact h.full (Nat.lt_of_succ_lt_succ hcut) p hp hne
  · rcases List.mem_cons.mp hp with rfl | hp
    · rw [hhead]
      exact List.cons_ne_nil _ _
    · rw [hlater p hp]
      exact h.all (Nat.le_of_succ_le_succ hfew) p hp hne

theorem tickRound_round (hqueued : Queued queues) :
    Round room queues (tickRound room queues).1 (tickRound room queues).2 := by
  induction queues generalizing room with
  | nil =>
    refine ⟨?_, ?_, ?_, ?_, ?_, ?_, ?_, ?_⟩ <;> simp [tickRound, waiting]
  | cons q queues ih =>
    cases room with
    | zero => exact .idle
    | succ room =>
      obtain ⟨workspaceId, remaining⟩ := q
      cases remaining with
      | nil => exact (ih hqueued.tail).pass hqueued rfl
      | cons job jobs => exact (ih hqueued.tail).serve hqueued rfl

/-! ## The loop -/

/-- What the rounds lease over all. -/
structure Turns (room : Nat) (queues : List TickQueue) (leased : List JobSchedule) : Prop where
  length : leased.length = min room (waiting queues)
  own : ∀ j ∈ leased, ∃ q ∈ queues, j ∈ q.remaining
  inOrder : ∀ q ∈ queues, jobsOf q.workspaceId leased <+: q.remaining
  balanced : ∀ q ∈ queues, ∀ p ∈ queues,
    (jobsOf q.workspaceId leased).length ≤ (jobsOf p.workspaceId leased).length + 1 ∨
      jobsOf p.workspaceId leased = p.remaining

theorem Turns.stop (h : room = 0 ∨ waiting queues = 0) : Turns room queues [] where
  length := by
    rcases h with h | h <;> simp [h]
  own _ hj := absurd hj List.not_mem_nil
  inOrder _ _ := List.nil_prefix
  balanced _ _ _ _ := .inl (Nat.zero_le _)

theorem waiting_eq_zero : waiting queues = 0 ↔ ∀ q ∈ queues, q.remaining = [] := by
  simp only [waiting, List.sum_eq_zero_iff, List.mem_map]
  constructor
  · exact fun h q hq => List.eq_nil_of_length_eq_zero (h _ ⟨q, hq, rfl⟩)
  · rintro h _ ⟨q, hq, rfl⟩
    rw [h q hq]
    rfl

/-- What is left in a queue was in it before. -/
theorem Round.left (h : Round room queues leased queues') (hqueued : Queued queues) {q' : TickQueue}
    (hq' : q' ∈ queues') :
    ∃ q ∈ queues, q.workspaceId = q'.workspaceId ∧ ∀ j ∈ q'.remaining, j ∈ q.remaining := by
  have hin : q'.workspaceId ∈ queues.map (·.workspaceId) := h.names ▸ List.mem_map_of_mem hq'
  obtain ⟨q, hq, hsame⟩ := List.mem_map.mp hin
  obtain ⟨p', hp', hname, hremaining, _⟩ := h.taken q hq
  have hone : p' = q' := List.inj_on_of_nodup_map (h.names ▸ hqueued.distinct) hp' hq'
      (hname.trans hsame)
  refine ⟨q, hq, hsame, fun j hj => ?_⟩
  rw [hremaining, hone]
  exact List.mem_append_right _ hj

theorem Round.queued (h : Round room queues leased queues') (hqueued : Queued queues) :
    Queued queues' where
  distinct := h.names ▸ hqueued.distinct
  own q' hq' j hj := by
    obtain ⟨q, hq, hsame, hleft⟩ := h.left hqueued hq'
    rw [← hsame]
    exact hqueued.own q hq j (hleft j hj)

/-- One round and the rounds after it. -/
theorem Round.turns {later : List JobSchedule} (h : Round room queues leased queues')
    (hqueued : Queued queues) (hlater : Turns (room - leased.length) queues' later) :
    Turns room queues (leased ++ later) := by
  have hcut : leased.length < room ∨ leased.length = room := Nat.lt_or_eq_of_le h.length
  have hstopped : leased.length = room → later = [] := by
    intro hfull
    have hlength := hlater.length
    rw [hfull, Nat.sub_self, Nat.zero_min] at hlength
    exact List.eq_nil_of_length_eq_zero hlength
  refine ⟨?_, fun j hj => ?_, fun q hq => ?_, fun q hq p hp => ?_⟩
  · have hlength := hlater.length
    have hrest := h.rest
    have hroom := h.length
    rw [List.length_append, hlength]
    omega
  · rcases List.mem_append.mp hj with hj | hj
    · exact h.own j hj
    · obtain ⟨q', hq', hjq⟩ := hlater.own j hj
      obtain ⟨q, hq, _, hleft⟩ := h.left hqueued hq'
      exact ⟨q, hq, hleft j hjq⟩
  · obtain ⟨q', hq', hname, hremaining, _⟩ := h.taken q hq
    rw [jobsOf_append, hremaining]
    exact (List.prefix_append_right_inj _).mpr (hname ▸ hlater.inOrder q' hq')
  · obtain ⟨q', hq', hqname, hqremaining, hqone⟩ := h.taken q hq
    obtain ⟨p', hp', hpname, hpremaining, hpone⟩ := h.taken p hp
    simp only [jobsOf_append, List.length_append]
    rcases hcut with hcut | hfull
    · by_cases hempty : p.remaining = []
      · refine .inr ?_
        rw [hempty] at hpremaining ⊢
        obtain ⟨hnow, hleft⟩ := List.append_eq_nil_iff.mp hpremaining.symm
        have hprefix := hlater.inOrder p' hp'
        rw [hleft, hpname] at hprefix
        rw [hnow, List.prefix_nil.mp hprefix]
        rfl
      · have hserved := h.full hcut p hp hempty
        rcases hlater.balanced q' hq' p' hp' with hless | hdone
        · rw [hqname, hpname] at hless
          exact .inl (by omega)
        · rw [hpname] at hdone
          exact .inr (by rw [hpremaining, hdone])
    · rw [hstopped hfull]
      refine .inl ?_
      simp only [jobsOf, List.filter_nil, List.length_nil, Nat.add_zero] at hqone ⊢
      exact Nat.le_trans hqone (Nat.le_add_left 1 _)

theorem stops_iff :
    (room = 0 ∨ queues.all (·.remaining.isEmpty) = true) ↔ (room = 0 ∨ waiting queues = 0) := by
  simp [waiting_eq_zero]

/-- As many rounds as jobs are waiting are enough. -/
theorem tickRounds_turns {rounds : Nat} (hqueued : Queued queues)
    (henough : waiting queues ≤ rounds) :
    Turns room queues (tickRounds rounds room queues) := by
  induction rounds generalizing room queues with
  | zero => exact .stop (.inr (Nat.le_zero.mp henough))
  | succ rounds ih =>
    dsimp only [tickRounds]
    by_cases hstop : room = 0 ∨ queues.all (·.remaining.isEmpty) = true
    · rw [if_pos hstop]
      exact .stop (stops_iff.mp hstop)
    · rw [if_neg hstop]
      have hround : Round room queues _ _ := tickRound_round hqueued
      obtain ⟨hroom, hsome⟩ := not_or.mp (mt stops_iff.mpr hstop)
      have hserves := hround.serves (Nat.pos_of_ne_zero hroom) (Nat.pos_of_ne_zero hsome)
      have hrest := hround.rest
      exact hround.turns hqueued (ih (hround.queued hqueued) (by omega))

/-- With room for every queue the first round serves them all. -/
theorem tickRounds_serve_all {rounds : Nat} (hqueued : Queued queues)
    (henough : waiting queues ≤ rounds) (hfew : queues.length ≤ room) (hq : q ∈ queues)
    (hne : q.remaining ≠ []) :
    jobsOf q.workspaceId (tickRounds rounds room queues) ≠ [] := by
  have hsome : waiting queues ≠ 0 := fun hnone => hne (waiting_eq_zero.mp hnone q hq)
  have hroom : room ≠ 0 := by
    rintro rfl
    rw [List.eq_nil_of_length_eq_zero (Nat.le_zero.mp hfew)] at hq
    cases hq
  obtain ⟨k, rfl⟩ : ∃ k, rounds = k + 1 := ⟨rounds - 1, by omega⟩
  dsimp only [tickRounds]
  rw [if_neg (mt stops_iff.mp (not_or.mpr ⟨hroom, hsome⟩)), jobsOf_append]
  exact fun hnil => (tickRound_round hqueued).all hfew q hq hne (List.append_eq_nil_iff.mp hnil).1

/-- More rounds change nothing: the loop has ended. -/
theorem tickRounds_ends {rounds : Nat} (hqueued : Queued queues)
    (henough : waiting queues ≤ rounds) :
    tickRounds rounds room queues = tickRounds (waiting queues) room queues := by
  suffices h : ∀ (n rounds room : Nat) (queues : List TickQueue), Queued queues →
    waiting queues = n → n ≤ rounds →
      tickRounds rounds room queues = tickRounds n room queues from h _ _ _ _ hqueued rfl henough
  clear hqueued henough
  intro n
  induction n using Nat.strong_induction_on with
  | _ n ih =>
    intro rounds room queues hqueued hn hle
    by_cases hstop : room = 0 ∨ waiting queues = 0
    · have hnone : ∀ k, tickRounds k room queues = [] := by
        intro k
        cases k with
        | zero => rfl
        | succ k =>
          dsimp only [tickRounds]
          rw [if_pos (stops_iff.mpr hstop)]
      rw [hnone, hnone]
    · have hmore : ¬ (room = 0 ∨ queues.all (·.remaining.isEmpty) = true) := mt stops_iff.mp hstop
      obtain ⟨hroom, hsome⟩ := not_or.mp hstop
      have hround : Round room queues _ _ := tickRound_round hqueued
      have hserves := hround.serves (Nat.pos_of_ne_zero hroom) (Nat.pos_of_ne_zero hsome)
      have hrest := hround.rest
      obtain ⟨k, rfl⟩ : ∃ k, n = k + 1 := ⟨n - 1, by omega⟩
      obtain ⟨m, rfl⟩ : ∃ m, rounds = m + 1 := ⟨rounds - 1, by omega⟩
      dsimp only [tickRounds]
      rw [if_neg hmore, if_neg hmore]
      have hnext := ih (waiting (tickRound room queues).2) (by omega)
      rw [hnext m _ _ (hround.queued hqueued) rfl (by omega),
        hnext k _ _ (hround.queued hqueued) rfl (by omega)]

/-! ## The fetched rows -/

variable {limit : Nat → Nat} {candidates : List JobSchedule} {batchSize : Nat}

/-- A workspace's jobs that its limit allows. -/
def allowedJobs (limit : Nat → Nat) (candidates : List JobSchedule) (workspaceId : Nat) :
    List JobSchedule :=
  (jobsOf workspaceId candidates).take (limit workspaceId)

theorem mem_queuesOf : q ∈ queuesOf limit candidates ↔
    (∃ j ∈ candidates, j.workspaceId = q.workspaceId) ∧
    q.remaining = allowedJobs limit candidates q.workspaceId := by
  simp only [queuesOf, List.mem_map, List.mem_reverse, List.mem_dedup]
  constructor
  · rintro ⟨workspaceId, ⟨j, hj, hown⟩, rfl⟩
    exact ⟨⟨j, hj, hown⟩, rfl⟩
  · rintro ⟨⟨j, hj, hown⟩, hremaining⟩
    refine ⟨q.workspaceId, ⟨j, hj, hown⟩, ?_⟩
    obtain ⟨workspaceId, remaining⟩ := q
    exact congrArg (TickQueue.mk workspaceId) hremaining.symm

theorem queuesOf_queued : Queued (queuesOf limit candidates) where
  distinct := by
    have hnames : (queuesOf limit candidates).map (·.workspaceId) =
        (candidates.map (·.workspaceId)).reverse.dedup.reverse := by
      simp only [queuesOf, List.map_map]
      exact List.map_id' _
    rw [hnames]
    exact List.nodup_reverse.mpr (List.nodup_dedup _)
  own q hq j hj := by
    rw [(mem_queuesOf.mp hq).2] at hj
    exact by simpa using (List.mem_filter.mp (List.mem_of_mem_take hj)).2

/-- The workspaces in either order. -/
theorem workspaces_perm :
    ((candidates.map (·.workspaceId)).reverse.dedup.reverse).Perm
    (candidates.map (·.workspaceId)).dedup :=
  (List.perm_ext_iff_of_nodup (List.nodup_reverse.mpr (List.nodup_dedup _))
    (List.nodup_dedup _)).mpr (by simp)

theorem waiting_queuesOf : waiting (queuesOf limit candidates) =
    ((candidates.map (·.workspaceId)).dedup.map fun workspaceId =>
      min (jobsOf workspaceId candidates).length (limit workspaceId)).sum := by
  have hlengths : (queuesOf limit candidates).map (fun q => q.remaining.length) =
      (candidates.map (·.workspaceId)).reverse.dedup.reverse.map fun workspaceId =>
        min (jobsOf workspaceId candidates).length (limit workspaceId) := by
    simp only [queuesOf, List.map_map]
    refine List.map_congr_left fun workspaceId _ => ?_
    simp only [Function.comp_apply, List.length_take]
    exact Nat.min_comm _ _
  rw [waiting, hlengths]
  exact (workspaces_perm.map _).sum_eq

theorem waiting_le_length : waiting (queuesOf limit candidates) ≤ candidates.length := by
  rw [waiting_queuesOf, ← List.length_map (f := (·.workspaceId)),
    ← List.sum_map_count_dedup_eq_length (candidates.map (·.workspaceId))]
  refine List.sum_le_sum fun workspaceId _ => Nat.le_trans (Nat.min_le_left _ _) (Nat.le_of_eq ?_)
  rw [List.count, List.countP_map, jobsOf, ← List.countP_eq_length_filter]
  rfl

theorem leaseInTurn_turns :
    Turns batchSize (queuesOf limit candidates) (leaseInTurn limit batchSize candidates) :=
  tickRounds_turns queuesOf_queued waiting_le_length

end ContentOrchestrator

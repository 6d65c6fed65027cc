import ContentOrchestrator.Orchestration.Controller

/-! # The ledger and its caps

What a cap counts, and how settling, reserving and the passing of time move it: a
release and a later window only lower it, a commit moves an amount of at most the
estimate from the reservations to the logs, and a new reservation adds its estimate
where the cap counts its provider. -/

namespace ContentOrchestrator

open Lib

variable {s t : Db} {cap : SpendCap} {run : PipelineRun} {stage : ContentStage} {provider : String}
  {estimate workspaceId since : Nat} {filter : Option String}

/-- The cap has room for one more estimate. -/
def SpendCap.hasRoom (cap : SpendCap) (db : Db) (estimate : Nat) : Bool :=
  decide (spendCommittedPlusReserved db cap.workspaceId cap.provider (utcDayStart db.now) +
    estimate ≤ cap.dailyCapUsd) &&
    decide (spendCommittedPlusReserved db cap.workspaceId cap.provider (utcMonthStart db.now) +
      estimate ≤
      cap.monthlyCapUsd)

/-- The cap counts the provider's spend in the workspace. -/
def SpendCap.counts (cap : SpendCap) (workspaceId : Nat) (provider : String) : Bool :=
  cap.workspaceId == workspaceId && countsProvider cap.provider provider

/-- Neither limit of the cap is exceeded. -/
def SpendCap.Kept (cap : SpendCap) (db : Db) : Prop := cap.hasRoom db 0 = true

/-- A reservation belongs to its run's workspace. -/
def Db.ReservedAtHome (db : Db) : Prop :=
  ∀ v ∈ db.reservations, ∀ run ∈ db.runs, run.id = v.pipelineRunId → run.workspaceId = v.workspaceId

/-! ## What a cap counts -/

theorem committedSince_later {since' : Nat} (h : since ≤ since') :
    committedSince s workspaceId filter since' ≤ committedSince s workspaceId filter since := by
  refine Table.total_mono fun l _ => ?_
  split
  · rename_i hcounted
    exact Nat.le_of_eq (if_pos ⟨hcounted.1, Nat.le_trans h hcounted.2.1, hcounted.2.2⟩).symm
  · exact Nat.zero_le _

theorem usage_later {since' : Nat} (h : since ≤ since') :
    spendCommittedPlusReserved s workspaceId filter since' ≤
      spendCommittedPlusReserved s workspaceId filter since :=
  Nat.add_le_add_right (committedSince_later h) _

theorem usage_congr (hlogs : t.spendLogs = s.spendLogs)
    (hreservations : t.reservations = s.reservations) :
    spendCommittedPlusReserved t workspaceId filter since =
      spendCommittedPlusReserved s workspaceId filter since := by
  simp only [spendCommittedPlusReserved, committedSince, openReserved, hlogs, hreservations]

theorem openReserved_release {q : SpendReservation → Bool}
    (h : t.reservations = s.reservations.modifyWhere q SpendReservation.release) :
    openReserved t workspaceId filter ≤ openReserved s workspaceId filter := by
  simp only [openReserved, h, Table.total_modifyWhere]
  refine Table.total_mono fun v _ => ?_
  by_cases hq : q v = true
  · have hreleased : ¬ ((SpendReservation.release.apply v).workspaceId = workspaceId ∧
        (SpendReservation.release.apply v).status = .reserved ∧
          countsProvider filter (SpendReservation.release.apply v).provider = true) :=
            fun hopen => by cases hopen.2.1
    rw [if_pos hq, if_neg hreleased]
    exact Nat.zero_le _
  · exact Nat.le_of_eq (by rw [if_neg hq])

/-- What one more reservation adds to the cap's count. -/
def SpendCap.added (cap : SpendCap) (workspaceId : Nat) (provider : String) (estimate : Nat) :
    Nat :=
  if cap.counts workspaceId provider then estimate else 0

theorem usage_open :
    spendCommittedPlusReserved (openReservation run stage provider estimate s) cap.workspaceId
      cap.provider since =
      spendCommittedPlusReserved s cap.workspaceId cap.provider since +
        cap.added run.workspaceId provider estimate := by
  have hreserved : openReserved (openReservation run stage provider estimate s) cap.workspaceId
      cap.provider =
      openReserved s cap.workspaceId cap.provider +
        cap.added run.workspaceId provider estimate := by
    simp only [openReserved, openReservation_frame, Table.total_insert]
    congr 1
    simp only [newReservation, SpendCap.added, SpendCap.counts, Bool.and_eq_true, beq_iff_eq,
      true_and]
    by_cases hcounts :
      cap.workspaceId = run.workspaceId ∧ countsProvider cap.provider provider = true
    · rw [if_pos hcounts, if_pos ⟨hcounts.1.symm, hcounts.2⟩]
    · rw [if_neg hcounts, if_neg fun h => hcounts ⟨h.1.symm, h.2⟩]
  have hlogs : (openReservation run stage provider estimate s).spendLogs = s.spendLogs := by
    simp [openReservation]
  simp only [spendCommittedPlusReserved, committedSince, hlogs, hreserved, Nat.add_assoc]

/-- A settled amount moves to the logs, clamped to its estimate. -/
theorem usage_commit {v : SpendReservation} {cost : Nat} (hv : s.reservations.get? v.id = some v)
    (hopen : v.status = .reserved) (hhome : run.workspaceId = v.workspaceId)
    (hcost : cost ≤ v.estimatedCostUsd) :
    spendCommittedPlusReserved (commitReservation run v cost s) workspaceId filter since ≤
      spendCommittedPlusReserved s workspaceId filter since := by
  have hlogs : (commitReservation run v cost s).spendLogs =
      s.spendLogs.insert (newSpendLog run v cost s) := by
    simp [commitReservation]
  have hreservations : (commitReservation run v cost s).reservations =
      s.reservations.modify v.id SpendReservation.commit := by
    simp
  simp only [spendCommittedPlusReserved, committedSince, openReserved, hlogs, hreservations,
    Table.total_insert]
  have hmoved := Table.total_modify (u := SpendReservation.commit) hv fun v =>
    if v.workspaceId = workspaceId ∧ v.status = .reserved ∧ countsProvider filter v.provider then
      v.estimatedCostUsd else 0
  have hsettled : (SpendReservation.commit.apply v).status ≠ .reserved := fun h => by cases h
  simp only [hsettled, false_and, and_false, if_false, Nat.add_zero, hopen, true_and] at hmoved
  simp only [newSpendLog, hhome]
  by_cases hcounted : v.workspaceId = workspaceId ∧ countsProvider filter v.provider = true
  · rw [if_pos hcounted] at hmoved
    have hlog :
        (if v.workspaceId = workspaceId ∧ since ≤ s.now ∧ countsProvider filter v.provider = true
        then cost else 0) ≤ v.estimatedCostUsd := by
      split
      · exact hcost
      · exact Nat.zero_le _
    omega
  · have hlog : ¬ (v.workspaceId = workspaceId ∧ since ≤ s.now ∧
        countsProvider filter v.provider = true) :=
      fun h => hcounted ⟨h.1, h.2.2⟩
    rw [if_neg hcounted] at hmoved
    rw [if_neg hlog]
    omega

/-! ## Rows written back -/

/-- Releasing rows read as reserved writes back the rows of their keys. -/
theorem releaseEach_where {rows : List SpendReservation}
    (hrows : ∀ v ∈ rows, v.status = .reserved) :
    (releaseEach run rows s).reservations =
      s.reservations.modifyWhere (fun v => (rows.map (·.id)).contains v.id)
        SpendReservation.release := by
  rw [releaseEach_reservations hrows]
  clear hrows
  generalize s.reservations = table
  induction rows generalizing table with
  | nil => exact Table.modifyWhere_false.symm
  | cons v rows ih =>
    rw [List.foldl_cons, ih, Table.modify_modifyWhere (fun _ => rfl) fun _ => rfl]
    refine Table.modifyWhere_congr fun w _ => ?_
    rw [List.map_cons, List.contains_cons]
    rfl

/-! ## Reservations in their run's workspace -/

/-- Runs keep their workspace, and reservations their run. -/
theorem Db.ReservedAtHome.of_moves (hs : s.ReservedAtHome)
    (hruns : ∀ run' ∈ t.runs, ∃ run ∈ s.runs, run'.id = run.id ∧ run'.workspaceId = run.workspaceId)
    (hreservations : ∀ v' ∈ t.reservations,
      (∃ v ∈ s.reservations, v'.pipelineRunId = v.pipelineRunId ∧ v'.workspaceId = v.workspaceId) ∨
        ∃ run ∈ s.runs, v'.pipelineRunId = run.id ∧ v'.workspaceId = run.workspaceId) :
          t.ReservedAtHome := by
  intro v' hv' run' hrun' hid
  obtain ⟨run, hrun, hrunId, hworkspace⟩ := hruns run' hrun'
  rcases hreservations v' hv' with ⟨v, hv, hsame, hhome⟩ | ⟨owner, howner, hsame, hhome⟩
  · rw [hworkspace, hhome]
    exact hs v hv run hrun (hrunId.symm.trans (hid.trans hsame))
  · have hone : run = owner := Table.eq_of_key hrun howner (hrunId.symm.trans (hid.trans hsame))
    rw [hworkspace, hhome, hone]

theorem mem_releaseEach {run : PipelineRun} {rows : List SpendReservation} {v' : SpendReservation}
    (h : v' ∈ (releaseEach run rows s).reservations) :
    ∃ v ∈ s.reservations, v'.id = v.id ∧ v'.pipelineRunId = v.pipelineRunId ∧
      v'.workspaceId = v.workspaceId := by
  induction rows generalizing s with
  | nil => exact ⟨v', h, rfl, rfl, rfl⟩
  | cons w rows ih =>
    have hrest : v' ∈ (releaseEach run rows (releaseSpend run w s)).reservations := h
    obtain ⟨v, hv, hsame⟩ := ih hrest
    unfold releaseSpend at hv
    split at hv
    · exact ⟨v, hv, hsame⟩
    · obtain ⟨v₀, hv₀, rfl⟩ := Table.mem_modify.mp hv
      split at hsame <;> exact ⟨v₀, hv₀, hsame⟩

/-! ## A cap through the operations -/

namespace SpendCap

theorem hasRoom_iff : cap.hasRoom s estimate = true ↔
    spendCommittedPlusReserved s cap.workspaceId cap.provider (utcDayStart s.now) + estimate ≤
      cap.dailyCapUsd ∧
      spendCommittedPlusReserved s cap.workspaceId cap.provider (utcMonthStart s.now) + estimate ≤
        cap.monthlyCapUsd := by
  simp [hasRoom]

/-- What counts no more at the same moment leaves as much room. -/
theorem hasRoom_mono (hnow : t.now = s.now)
    (hle : ∀ since, spendCommittedPlusReserved t cap.workspaceId cap.provider since ≤
      spendCommittedPlusReserved s cap.workspaceId cap.provider since)
    (h : cap.hasRoom s estimate = true) : cap.hasRoom t estimate = true := by
  obtain ⟨hday, hmonth⟩ := hasRoom_iff.mp h
  rw [hasRoom_iff, hnow]
  exact ⟨Nat.le_trans (Nat.add_le_add_right (hle _) _) hday,
    Nat.le_trans (Nat.add_le_add_right (hle _) _) hmonth⟩

theorem hasRoom_congr (hnow : t.now = s.now) (hlogs : t.spendLogs = s.spendLogs)
    (hreservations : t.reservations = s.reservations) :
    cap.hasRoom t estimate = cap.hasRoom s estimate := by
  simp only [hasRoom, hnow, usage_congr hlogs hreservations]

/-- The window only moves on. -/
theorem Kept.elapse (h : cap.Kept s) (duration : Nat) :
    cap.Kept { s with now := s.now + duration } := by
  obtain ⟨hday, hmonth⟩ := hasRoom_iff.mp h
  have hlater : s.now ≤ s.now + duration := Nat.le_add_right _ _
  refine hasRoom_iff.mpr ⟨Nat.le_trans ?_ hday, Nat.le_trans ?_ hmonth⟩
  · exact Nat.le_trans (Nat.le_of_eq (usage_congr rfl rfl)) (usage_later (utcDayStart_mono hlater))
  · exact Nat.le_trans (Nat.le_of_eq (usage_congr rfl rfl))
      (usage_later (utcMonthStart_mono hlater))

theorem Kept.release {rows : List SpendReservation} (h : cap.Kept s) :
    cap.Kept (releaseEach run rows s) := by
  induction rows generalizing s with
  | nil => exact h
  | cons v rows ih =>
    have hone : cap.Kept (releaseSpend run v s) → cap.Kept (releaseEach run (v :: rows) s) := ih
    refine hone ?_
    unfold releaseSpend
    split
    · exact h
    · refine hasRoom_mono (s := s) rfl (fun since => ?_) h
      exact Nat.add_le_add_left (openReserved_release (s := s) rfl) _

theorem Kept.commit {v : SpendReservation} {cost : Nat} (h : cap.Kept s)
    (hv : s.reservations.get? v.id = some v) (hopen : v.status = .reserved)
    (hhome : run.workspaceId = v.workspaceId) (hcost : cost ≤ v.estimatedCostUsd) :
    cap.Kept (commitReservation run v cost s) :=
  hasRoom_mono (s := s) (by simp [commitReservation]) (fun _ => usage_commit hv hopen hhome hcost) h

/-- A new reservation needs room where it is counted. -/
theorem kept_open : cap.Kept (openReservation run stage provider estimate s) ↔
    cap.hasRoom s (cap.added run.workspaceId provider estimate) = true := by
  have hnow : (openReservation run stage provider estimate s).now =
      s.now := by simp [openReservation]
  simp only [Kept, hasRoom, hnow, usage_open, Nat.add_zero]

theorem kept_pause : cap.Kept (pauseForSpend run s) ↔ cap.Kept s := by
  have hlogs : (pauseForSpend run s).spendLogs = s.spendLogs := by simp [pauseForSpend]
  have hnow : (pauseForSpend run s).now = s.now := by simp [pauseForSpend]
  rw [Kept, hasRoom_congr hnow hlogs (by simp)]
  exact Iff.rfl

end SpendCap

/-! ## The row a reservation is checked against -/

theorem loadSpendCap_some (h : loadSpendCap s workspaceId provider = some cap) :
    cap ∈ s.spendCaps ∧ cap.workspaceId = workspaceId ∧ usageProvider cap provider = cap.provider ∧
      (cap.provider = some provider ∨ cap.provider = none) := by
  have hof : ∀ {p : Option String},
      (s.spendCaps.select fun c => c.workspaceId == workspaceId && c.provider == p).head? =
        some cap →
        cap ∈ s.spendCaps ∧ cap.workspaceId = workspaceId ∧ cap.provider = p := by
    intro p hhead
    obtain ⟨hmem, hnamed⟩ := Table.mem_select.mp (List.mem_of_mem_head? hhead)
    simp only [Bool.and_eq_true, beq_iff_eq] at hnamed
    exact ⟨hmem, hnamed⟩
  dsimp only [loadSpendCap] at h
  split at h
  · rename_i found hfound
    cases h
    obtain ⟨hmem, hworkspace, hprovider⟩ := hof hfound
    exact ⟨hmem, hworkspace, by simp [usageProvider, hprovider], .inl hprovider⟩
  · obtain ⟨hmem, hworkspace, hprovider⟩ := hof h
    exact ⟨hmem, hworkspace, by simp [usageProvider, hprovider], .inr hprovider⟩

/-- The check admits what the row it loads has room for. -/
theorem exceededCap_none : exceededCap s workspaceId provider estimate = none ↔
    ∃ cap, loadSpendCap s workspaceId provider = some cap ∧ cap.hasRoom s estimate = true := by
  unfold exceededCap
  cases hload : loadSpendCap s workspaceId provider with
  | none => simp
  | some cap =>
    obtain ⟨_, hworkspace, husage, _⟩ := loadSpendCap_some hload
    simp only [Option.some.injEq, exists_eq_left', SpendCap.hasRoom_iff, husage, hworkspace]
    split
    · simp only [reduceCtorEq, false_iff]
      omega
    · split
      · simp only [reduceCtorEq, false_iff]
        omega
      · simp only [true_iff]
        omega

end ContentOrchestrator

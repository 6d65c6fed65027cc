import ContentOrchestrator.System
import ContentOrchestrator.Orchestration.SpendLedger

/-! # The workspace-wide cap bounds the whole workspace

A reservation is checked against one row only, its provider's own if there is one. So
the workspace-wide cap is kept by exactly the histories in which no reservation that
fits its provider's own cap comes when the workspace-wide one has no room left. -/

namespace ContentOrchestrator

open Lib

/-- The calls that move the ledger, and the passing of time. -/
inductive SpendCall
  | reserveSpend (runId : Nat) (stage : ContentStage) (provider : String) (estimatedCostUsd : Nat)
  | commitSpend (reservationId : Nat) (actualCostUsd : Decimal)
  | releaseSpend (reservationId : Nat)
  | elapse (duration : Nat)

/-- A reservation with its run. -/
def loadReservation (reservationId : Nat) : Session (SpendReservation × PipelineRun) := do
  let reservation ← require ((← get).reservations.get? reservationId)
    (.valueError "reservation not found")
  let run ← loadRun reservation.pipelineRunId
  return (reservation, run)

def SpendCall.body : SpendCall → Session Unit
  | reserveSpend runId stage provider estimatedCostUsd => do
    let run ← loadRun runId
    let _ ← ContentOrchestrator.reserveSpend run stage provider estimatedCostUsd
  | commitSpend reservationId actualCostUsd => do
    let (reservation, run) ← loadReservation reservationId
    ContentOrchestrator.commitSpend run reservation actualCostUsd
  | releaseSpend reservationId => do
    let (reservation, run) ← loadReservation reservationId
    modify (ContentOrchestrator.releaseSpend run reservation)
  | elapse duration => modify fun db => { db with now := db.now + duration }

def spendStep (db : Db) (call : SpendCall) : Db := atomically call.body db

/-- One row for a workspace and provider, and every reservation in its run's workspace. -/
structure Db.SpendSound (db : Db) : Prop where
  caps : ∀ c ∈ db.spendCaps, ∀ c' ∈ db.spendCaps, c.workspaceId = c'.workspaceId →
    c.provider = c'.provider → c = c'
  home : db.ReservedAtHome

/-- Every cap bounds what it counts: the workspace-wide one all providers, the others their own. -/
def Db.CapsKept (db : Db) : Prop := ∀ cap ∈ db.spendCaps, cap.Kept db

/-- The provider's own cap has room, and the workspace-wide one has not. -/
def overlooksCap (db : Db) (workspaceId : Nat) (provider : String) (estimatedCostUsd : Nat) :
    Bool :=
  (db.spendCaps.rows.any fun c =>
    c.workspaceId == workspaceId && c.provider == some provider && c.hasRoom db estimatedCostUsd) &&
  db.spendCaps.rows.any fun c =>
    c.workspaceId == workspaceId && c.provider == none && !c.hasRoom db estimatedCostUsd

/-- The reservation overlooks the workspace-wide cap, once the stage's prior rows are released. -/
def SpendCall.overlooks (db : Db) : SpendCall → Bool
  | reserveSpend runId stage provider estimatedCostUsd =>
    (db.runs.get? runId).any fun run =>
      overlooksCap (releaseStageReservations run stage db) run.workspaceId provider estimatedCostUsd
  | _ => false

variable {s t : Db}

/-! ## One call -/

/-- What a committed call did. -/
inductive SpendEffect (s : Db) : SpendCall → Db → Prop
  | denied (run : PipelineRun) (stage : ContentStage) (provider : String) (estimate : Nat)
      (found : s.runs.get? run.id = some run) {kind : CapKind}
      (exceeded : exceededCap (releaseStageReservations run stage s) run.workspaceId provider
        estimate = some kind) :
      SpendEffect s (.reserveSpend run.id stage provider estimate)
        (pauseForSpend run (releaseStageReservations run stage s))
  | granted (run : PipelineRun) (stage : ContentStage) (provider : String) (estimate : Nat)
      (found : s.runs.get? run.id = some run)
      (admitted : exceededCap (releaseStageReservations run stage s) run.workspaceId provider
        estimate = none) :
      SpendEffect s (.reserveSpend run.id stage provider estimate)
        (openReservation run stage provider estimate (releaseStageReservations run stage s))
  | committed (run : PipelineRun) (v : SpendReservation) (actual : Decimal)
      (found : s.reservations.get? v.id = some v)
      (owner : s.runs.get? v.pipelineRunId = some run) (isOpen : v.status = .reserved) {cost : Nat}
      (clamped : cost ≤ v.estimatedCostUsd) : SpendEffect s (.commitSpend v.id actual)
        (commitReservation run v cost s)
  | released (run : PipelineRun) (v : SpendReservation) :
      SpendEffect s (.releaseSpend v.id) (releaseSpend run v s)
  | elapsed (duration : Nat) : SpendEffect s (.elapse duration) { s with now := s.now + duration }

theorem loadReservation_returns {id : Nat} {v : SpendReservation} {run : PipelineRun}
    (h : Returns (loadReservation id) s (v, run) t) :
    s.reservations.get? id = some v ∧ s.runs.get? v.pipelineRunId = some run ∧ t = s := by
  unfold loadReservation at h
  simp only [returns_bind, returns_get, returns_require, returns_loadRun, returns_pure,
    Prod.mk.injEq] at h
  obtain ⟨_, _, ⟨rfl, rfl⟩, _, _, ⟨hfound, rfl⟩, _, _, ⟨hrun, rfl⟩, ⟨rfl, rfl⟩, rfl⟩ := h
  exact ⟨hfound, hrun, rfl⟩

theorem spendStep_cases (s : Db) (call : SpendCall) :
    spendStep s call = s ∨ SpendEffect s call (spendStep s call) := by
  rcases atomically_cases call.body s with ⟨u, h⟩ | ⟨_, hsame⟩
  · change Returns call.body s u (spendStep s call) at h
    generalize spendStep s call = t at h
    cases call with
    | reserveSpend runId stage provider estimate =>
      simp only [SpendCall.body, returns_bind, returns_loadRun, returns_pure] at h
      obtain ⟨run, _, ⟨hrun, rfl⟩, r, _, hreserve, -, rfl⟩ := h
      have hid : run.id = runId := (Table.get?_eq_some.mp hrun).2
      subst hid
      rcases reserveSpend_returns.mp hreserve with ⟨kind, hexceeded, _, rfl⟩ | ⟨hadmitted, _, rfl⟩
      · exact .inr (.denied run stage provider estimate hrun hexceeded)
      · exact .inr (.granted run stage provider estimate hrun hadmitted)
    | commitSpend id actual =>
      simp only [SpendCall.body, returns_bind] at h
      obtain ⟨⟨v, run⟩, _, hload, hcommit⟩ := h
      obtain ⟨hfound, hrun, rfl⟩ := loadReservation_returns hload
      have hid : v.id = id := (Table.get?_eq_some.mp hfound).2
      subst hid
      by_cases hopen : v.status = .reserved
      · obtain ⟨_, rfl⟩ := commitSpend_returns hopen hcommit
        exact .inr (.committed run v actual hfound hrun hopen (Decimal.clampToGrid_le _ _))
      · refine .inl ?_
        dsimp only [commitSpend] at hcommit
        split at hcommit
        · simp only [returns_pure] at hcommit
          exact hcommit.2.symm
        · simp at hcommit
    | releaseSpend id =>
      simp only [SpendCall.body, returns_bind, returns_modify] at h
      obtain ⟨⟨v, run⟩, _, hload, rfl⟩ := h
      obtain ⟨hfound, _, rfl⟩ := loadReservation_returns hload
      have hid : v.id = id := (Table.get?_eq_some.mp hfound).2
      subst hid
      exact .inr (.released run v)
    | elapse duration =>
      simp only [SpendCall.body, returns_modify] at h
      exact .inr (h ▸ .elapsed duration)
  · exact .inl hsame

theorem SpendEffect.spendCaps {call : SpendCall} (h : SpendEffect s call t) :
    t.spendCaps = s.spendCaps := by
  cases h with
  | denied _ _ _ _ _ _ => simp [pauseForSpend]
  | granted _ _ _ _ _ _ => simp [openReservation]
  | committed _ _ _ _ _ _ _ => simp [commitReservation]
  | released _ _ => simp
  | elapsed _ => rfl

theorem SpendEffect.reservedAtHome {call : SpendCall} (h : SpendEffect s call t)
    (hs : s.ReservedAtHome) :
    t.ReservedAtHome := by
  have hsame : ∀ run' ∈ s.runs, ∃ run ∈ s.runs, run'.id = run.id ∧
      run'.workspaceId = run.workspaceId :=
    fun run hrun => ⟨run, hrun, rfl, rfl⟩
  have hkept : ∀ {run : PipelineRun} {rows : List SpendReservation}, ∀ v' ∈
      (releaseEach run rows s).reservations,
      (∃ v ∈ s.reservations, v'.pipelineRunId = v.pipelineRunId ∧ v'.workspaceId = v.workspaceId) ∨
        ∃ owner ∈ s.runs, v'.pipelineRunId = owner.id ∧ v'.workspaceId = owner.workspaceId := by
    intro run rows v' hv'
    obtain ⟨v, hv, _, hmoved⟩ := mem_releaseEach hv'
    exact .inl ⟨v, hv, hmoved⟩
  cases h with
  | denied run stage _ _ _ _ =>
    refine hs.of_moves (fun run' hrun' => ?_) fun v' hv' => ?_
    · simp only [pauseForSpend_frame, releaseStageReservations_frame] at hrun'
      obtain ⟨run, hrun, rfl⟩ := Table.mem_modify.mp hrun'
      refine ⟨run, hrun, ?_⟩
      split <;> exact ⟨rfl, rfl⟩
    · simp only [pauseForSpend_frame] at hv'
      exact hkept v' hv'
  | granted run stage provider estimate found _ =>
    refine hs.of_moves (fun run' hrun' => ?_) fun v' hv' => ?_
    · simp only [openReservation_frame, releaseStageReservations_frame] at hrun'
      exact hsame run' hrun'
    · simp only [openReservation_frame] at hv'
      rcases Table.mem_insert.mp hv' with hold | rfl
      · exact hkept v' hold
      · exact .inr ⟨run, (Table.get?_eq_some.mp found).1, rfl, rfl⟩
  | committed run v _ _ _ _ _ =>
    refine hs.of_moves (fun run' hrun' => ?_) fun v' hv' => ?_
    · simp only [commitReservation_frame] at hrun'
      exact hsame run' hrun'
    · simp only [commitReservation_frame] at hv'
      obtain ⟨v₀, hv₀, rfl⟩ := Table.mem_modify.mp hv'
      refine .inl ⟨v₀, hv₀, ?_⟩
      split <;> exact ⟨rfl, rfl⟩
  | released run v =>
    refine hs.of_moves (fun run' hrun' => ?_) fun v' hv' => ?_
    · simp only [releaseSpend_frame] at hrun'
      exact hsame run' hrun'
    · have hone : v' ∈ (releaseEach run [v] s).reservations := hv'
      exact hkept v' hone
  | elapsed _ => exact hs

theorem spendStep_sound (s : Db) (call : SpendCall) (hs : s.SpendSound) :
    (spendStep s call).SpendSound := by
  rcases spendStep_cases s call with heq | heffect
  · rw [heq]
    exact hs
  · exact ⟨by rw [heffect.spendCaps]; exact hs.caps, heffect.reservedAtHome hs.home⟩

/-! ## The caps -/

theorem loadSpendCap_own {cap : SpendCap} {workspaceId : Nat} {provider : String}
    (hs : s.SpendSound) (hmem : cap ∈ s.spendCaps) (hworkspace : cap.workspaceId = workspaceId)
    (hprovider : cap.provider = some provider) :
    loadSpendCap s workspaceId provider = some cap := by
  have hin : cap ∈ s.spendCaps.select fun c =>
      c.workspaceId == workspaceId && c.provider == some provider :=
    Table.mem_select.mpr ⟨hmem, by simp [hworkspace, hprovider]⟩
  dsimp only [loadSpendCap]
  cases hfound :
    (s.spendCaps.select fun c => c.workspaceId == workspaceId &&
      c.provider == some provider).head? with
  | none =>
    rw [List.head?_eq_none_iff.mp hfound] at hin
    cases hin
  | some c =>
    obtain ⟨hc, hnamed⟩ := Table.mem_select.mp (List.mem_of_mem_head? hfound)
    simp only [Bool.and_eq_true, beq_iff_eq] at hnamed
    have hone : c = cap := hs.caps c hc cap hmem (hnamed.1.trans hworkspace.symm)
        (hnamed.2.trans hprovider.symm)
    rw [hone]

theorem overlooksCap_iff {workspaceId estimate : Nat} {provider : String} :
    overlooksCap s workspaceId provider estimate = true ↔
      (∃ c ∈ s.spendCaps, c.workspaceId = workspaceId ∧ c.provider = some provider ∧
        c.hasRoom s estimate = true) ∧
        ∃ c ∈ s.spendCaps, c.workspaceId = workspaceId ∧ c.provider = none ∧
          c.hasRoom s estimate = false := by
  simp only [overlooksCap, Bool.and_eq_true, List.any_eq_true, beq_iff_eq, Bool.not_eq_true',
    and_assoc]
  exact Iff.rfl

theorem releaseStage_sound {run : PipelineRun} {stage : ContentStage} (hs : s.SpendSound) :
    (releaseStageReservations run stage s).SpendSound := by
  refine ⟨by simp only [releaseStageReservations_frame]; exact hs.caps,
          hs.home.of_moves (fun run' hrun' => ?_)
    fun v' hv' => ?_⟩
  · simp only [releaseStageReservations_frame] at hrun'
    exact ⟨run', hrun', rfl, rfl⟩
  · obtain ⟨v, hv, _, hmoved⟩ := mem_releaseEach hv'
    exact .inl ⟨v, hv, hmoved⟩

/-- A granted reservation is counted by the row it was checked against, or by the workspace-wide
one. -/
theorem granted_capsKept {run : PipelineRun} {stage : ContentStage} {provider : String}
    {estimate : Nat} (hs : s.SpendSound) (hkept : s.CapsKept)
    (hadmitted : exceededCap s run.workspaceId provider estimate = none)
    (hseen : overlooksCap s run.workspaceId provider estimate = false) :
    (openReservation run stage provider estimate s).CapsKept := by
  intro cap hcap
  simp only [openReservation, emit_frame] at hcap
  rw [SpendCap.kept_open, SpendCap.added]
  split
  · rename_i hcounts
    simp only [SpendCap.counts, countsProvider, Bool.and_eq_true, beq_iff_eq] at hcounts
    obtain ⟨loaded, hload, hroom⟩ := exceededCap_none.mp hadmitted
    obtain ⟨hmem, hworkspace, _, hown⟩ := loadSpendCap_some hload
    cases hprovider : cap.provider with
    | some p =>
      rw [hprovider] at hcounts
      have hp : p = provider := by simpa using hcounts.2
      rw [loadSpendCap_own hs hcap hcounts.1 (hp ▸ hprovider), Option.some.injEq] at hload
      rw [hload]
      exact hroom
    | none =>
      rcases hown with hspecific | hwide
      · -- the row that was checked is the provider's own
        by_contra hfull
        rw [overlooksCap_iff.mpr ⟨⟨loaded, hmem, hworkspace, hspecific, hroom⟩,
          ⟨cap, hcap, hcounts.1, hprovider, by simpa using hfull⟩⟩] at hseen
        cases hseen
      · have hone : cap = loaded := hs.caps cap hcap loaded hmem (hcounts.1.trans hworkspace.symm)
          (hprovider.trans hwide.symm)
        rw [hone]
        exact hroom
  · exact hkept cap hcap

theorem releaseStage_capsKept {run : PipelineRun} {stage : ContentStage} (h : s.CapsKept) :
    (releaseStageReservations run stage s).CapsKept := by
  intro cap hcap
  simp only [releaseStageReservations_frame] at hcap
  have hkept : cap.Kept s := h cap hcap
  exact hkept.release

/-- A reservation that overlooks the workspace-wide cap is granted, and breaks it. -/
theorem overlooked_breaks {runId estimate : Nat} {stage : ContentStage} {provider : String}
    (hs : s.SpendSound)
    (h : SpendCall.overlooks s (.reserveSpend runId stage provider estimate) = true) :
    ¬ (spendStep s (.reserveSpend runId stage provider estimate)).CapsKept := by
  obtain ⟨run, hrun, hoverlooks⟩ := (Option.any_eq_true _ _).mp h
  obtain ⟨⟨own, hown, hworkspace, hprovider, hroom⟩, wide, hwide, hworkspace', hnone, hfull⟩ :=
    overlooksCap_iff.mp hoverlooks
  have hadmitted : exceededCap (releaseStageReservations run stage s) run.workspaceId provider
      estimate = none :=
    exceededCap_none.mpr ⟨own, loadSpendCap_own (releaseStage_sound hs) hown hworkspace hprovider,
      hroom⟩
  have hreturns : Returns (SpendCall.reserveSpend runId stage provider estimate).body s ()
      (openReservation run stage provider estimate (releaseStageReservations run stage s)) := by
    simp only [SpendCall.body, returns_bind, returns_loadRun, returns_pure]
    exact ⟨run, s, ⟨hrun, rfl⟩, _, _, reserveSpend_returns.mpr (.inr ⟨hadmitted, rfl, rfl⟩),
      trivial, rfl⟩
  have hstep : spendStep s (.reserveSpend runId stage provider estimate) =
      openReservation run stage provider estimate (releaseStageReservations run stage s) :=
        hreturns.atomically
  rw [hstep]
  intro hkept
  have hcap := hkept wide (by simpa [openReservation] using hwide)
  have hcounts : wide.counts run.workspaceId provider = true := by
    simp [SpendCap.counts, countsProvider, hworkspace', hnone]
  rw [SpendCap.kept_open, SpendCap.added, if_pos hcounts, hfull] at hcap
  cases hcap

theorem spendStep_capsKept_iff (s : Db) (call : SpendCall) (hs : s.SpendSound)
    (hkept : s.CapsKept) :
    (spendStep s call).CapsKept ↔ (!call.overlooks s) = true := by
  constructor
  · intro hafter
    by_contra hoverlooks
    have hbreaks : call.overlooks s = true := by simpa using hoverlooks
    cases call with
    | reserveSpend runId stage provider estimate => exact overlooked_breaks hs hbreaks hafter
    | commitSpend _ _ => cases hbreaks
    | releaseSpend _ => cases hbreaks
    | elapse _ => cases hbreaks
  · intro hseen
    rcases spendStep_cases s call with heq | heffect
    · rw [heq]
      exact hkept
    generalize spendStep s call = t at heffect
    cases heffect with
    | denied run stage provider estimate found exceeded =>
      intro cap hcap
      simp only [pauseForSpend, emit_frame] at hcap
      exact SpendCap.kept_pause.mpr (releaseStage_capsKept hkept cap hcap)
    | granted run stage provider estimate found admitted =>
      refine granted_capsKept (releaseStage_sound hs) (releaseStage_capsKept hkept) admitted ?_
      simpa [SpendCall.overlooks, found] using hseen
    | committed run v actual found owner isOpen clamped =>
      intro cap hcap
      simp only [commitReservation, emit_frame] at hcap
      have hv := (Table.get?_eq_some.mp found).1
      obtain ⟨hrun, hid⟩ := Table.get?_eq_some.mp owner
      exact SpendCap.Kept.commit (hkept cap hcap) found isOpen (hs.home v hv run hrun hid) clamped
    | released run v =>
      intro cap hcap
      simp only [releaseSpend_frame] at hcap
      have hone : cap.Kept (releaseEach run [v] s) := SpendCap.Kept.release (hkept cap hcap)
      exact hone
    | elapsed duration => exact fun cap hcap => SpendCap.Kept.elapse (hkept cap hcap) duration

/-- **The caps of a workspace are kept** by exactly the histories in which no reservation overlooks
the workspace-wide one. -/
theorem workspace_caps_kept_iff {db : Db} (hsound : db.SpendSound) (hkept : db.CapsKept)
    (calls : List SpendCall) :
    (∀ n, (replay spendStep db (calls.take n)).CapsKept) ↔
      admits spendStep (fun s call => !call.overlooks s) db calls = true :=
  throughout_iff_admits (P := Db.CapsKept) spendStep_sound spendStep_capsKept_iff calls db hsound
    hkept

/-- One dollar a day for the whole workspace, ten for one of its providers, and one started run. -/
def twoCapsDb : Db :=
  { step demoDb (.startRun 0 0 0) with
    spendCaps := demoDb.spendCaps.insert
      ⟨fun id =>
        { id, workspaceId := 0, provider := some "heygen", dailyCapUsd := 100000
          monthlyCapUsd := 100000 },
        fun _ => rfl⟩ }

theorem twoCapsDb_kept : twoCapsDb.SpendSound ∧ twoCapsDb.CapsKept := by
  have hcaps : ∀ c ∈ twoCapsDb.spendCaps, ∀ c' ∈ twoCapsDb.spendCaps,
      c.workspaceId = c'.workspaceId → c.provider = c'.provider → c = c' := by decide +kernel
  have hnone : twoCapsDb.reservations.rows = [] := by decide +kernel
  have hkept : ∀ c ∈ twoCapsDb.spendCaps, c.hasRoom twoCapsDb 0 = true := by decide +kernel
  refine ⟨⟨hcaps, fun v hv => ?_⟩, hkept⟩
  rw [Table.mem_def, hnone] at hv
  cases hv

/-- Within the workspace-wide cap, for two providers and settled. -/
theorem workspace_caps_kept_iff_settled :
    (replay spendStep twoCapsDb
      [.reserveSpend 0 .idea "heygen" 4000, .reserveSpend 0 .scripting "openai" 6000,
       .commitSpend 0 (Decimal.ofGrid 3000), .releaseSpend 1]).CapsKept :=
  (workspace_caps_kept_iff twoCapsDb_kept.1 twoCapsDb_kept.2
    [.reserveSpend 0 .idea "heygen" 4000, .reserveSpend 0 .scripting "openai" 6000,
     .commitSpend 0 (Decimal.ofGrid 3000), .releaseSpend 1]).mpr (by decide +kernel) 4

/-- Two dollars for that provider go past the workspace's one. -/
theorem provider_cap_bypasses_workspace :
    ¬ ∀ (db : Db) (calls : List SpendCall), db.SpendSound → db.CapsKept →
        (replay spendStep db calls).CapsKept := by
  intro h
  have hkept := h twoCapsDb [.reserveSpend 0 .idea "heygen" 20000] twoCapsDb_kept.1 twoCapsDb_kept.2
  have hbroken :
      ∃ c ∈ (replay spendStep twoCapsDb [.reserveSpend 0 .idea "heygen" 20000]).spendCaps,
        c.hasRoom (replay spendStep twoCapsDb [.reserveSpend 0 .idea "heygen" 20000]) 0 =
          false := by decide +kernel
  obtain ⟨c, hc, hfull⟩ := hbroken
  have hroom : c.hasRoom _ 0 = true := hkept c hc
  rw [hfull] at hroom
  cases hroom

end ContentOrchestrator

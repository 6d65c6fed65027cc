import ContentOrchestrator.Lib.Sorting
import ContentOrchestrator.System

/-! # Which waiting row a claim grants

A claim looks at the rows the worker may take by effective priority, at no more of them
than a batch. It passes over rows whose provider has no slot left, and the spend gate of
the first other row decides: a refusal there ends the claim, whatever rows follow. -/

namespace ContentOrchestrator

open Lib

variable {db : Db} {workerId : Nat} {claimToken : Option Nat} {w : WorkerRegistration}
  {stages : List ContentStage} {a : StageAssignment}

/-- The rows the worker may claim, in the order of the claim query. -/
def rankedCandidates (db : Db) (w : WorkerRegistration) (stages : List ContentStage) :
    List StageAssignment :=
  (db.assignments.select (·.isClaimableBy w stages)).insertionSort fun a b =>
    effectivePriority db b < effectivePriority db a ∨
      (effectivePriority db a = effectivePriority db b ∧ a.createdAt ≤ b.createdAt)

/-- The provider of the row has a slot left in the row's workspace. -/
def StageAssignment.hasRoom (db : Db) (a : StageAssignment) : Bool :=
  hasProviderCapacity db a.workspaceId a.provider

/-- The spend gate lets the row through. -/
def spendReservable (db : Db) (a : StageAssignment) : Bool :=
  match db.runs.get? a.pipelineRunId with
  | none => true
  | some run =>
    !(db.reservations.select (·.isOpenFor a.pipelineRunId a.stage)).isEmpty ||
      (exceededCap (releaseStageReservations run a.stage db) run.workspaceId
        (effectiveProvider a.provider)
        db.settings.defaultStageEstimateUsd).isNone

/-- The row that the spend gate decides about: the first of the batch whose provider has room. -/
def examined (db : Db) (w : WorkerRegistration) (stages : List ContentStage) :
    Option StageAssignment :=
  ((rankedCandidates db w stages).take db.settings.claimCandidateBatchSize).find? (·.hasRoom db)

/-- A worker that may claim, with no earlier grant under its token to return. -/
structure Claimant (db : Db) (workerId : Nat) (claimToken : Option Nat) (w : WorkerRegistration)
    (stages : List ContentStage) : Prop where
  stored : db.workers.get? workerId = some w
  unheld : heldByToken db w claimToken = none
  eligible : w.refusal db = none
  supported : w.supportedStages.mapM ContentStage.ofValue? = some stages

/-- The worker could be given the row. -/
structure Grantable (db : Db) (w : WorkerRegistration) (stages : List ContentStage)
    (a : StageAssignment) : Prop where
  mem : a ∈ db.assignments
  claimable : a.isClaimableBy w stages = true
  room : a.hasRoom db = true
  reservable : spendReservable db a = true

/-! ## The candidate loop -/

theorem nextCandidate_eq (excluded : List Nat) :
    nextCandidate db w stages excluded
      = ((rankedCandidates db w stages).filter fun a => !excluded.contains a.id).head? := by
  unfold nextCandidate rankedCandidates
  rw [← insertionSort_filter (by intro a b; omega) (by intro a b c; omega)]
  unfold Table.select
  rw [List.filter_filter]
  simp only [Bool.and_comm]

theorem rankedCandidates_nodup : ((rankedCandidates db w stages).map (·.id)).Nodup :=
  ((List.perm_insertionSort _ _).map _).nodup_iff.mpr
    (db.assignments.nodup.sublist (List.filter_sublist.map _))

theorem mem_rankedCandidates :
    a ∈ rankedCandidates db w stages ↔ a ∈ db.assignments ∧ a.isClaimableBy w stages = true := by
  rw [rankedCandidates, List.mem_insertionSort, Table.mem_select]

theorem nextCandidate_rest {skipped rest : List StageAssignment} {excluded : List Nat}
    (hranked : rankedCandidates db w stages = skipped ++ rest)
    (hexcluded : ∀ i, i ∈ excluded ↔ ∃ b ∈ skipped, b.id = i) :
    nextCandidate db w stages excluded = rest.head? := by
  have hnodup : ((rankedCandidates db w stages).map (·.id)).Nodup := rankedCandidates_nodup
  rw [hranked, List.map_append, List.nodup_append] at hnodup
  have hnone : skipped.filter (fun a => !excluded.contains a.id) = [] := by
    refine List.filter_eq_nil_iff.mpr fun b hb => ?_
    simpa using (hexcluded b.id).mpr ⟨b, hb, rfl⟩
  have hall : rest.filter (fun a => !excluded.contains a.id) = rest := by
    refine List.filter_eq_self.mpr fun b hb => ?_
    suffices b.id ∉ excluded by simpa using this
    intro hin
    obtain ⟨c, hc, hid⟩ := (hexcluded b.id).mp hin
    exact hnodup.2.2 _ (List.mem_map_of_mem hc) _ (List.mem_map_of_mem hb) hid
  rw [nextCandidate_eq, hranked, List.filter_append, hnone, hall, List.nil_append]

/-- **The loop finds the first row with room among the next ones.** -/
theorem searchCandidate_find {n : Nat} {skipped rest : List StageAssignment} {excluded : List Nat}
    {saw : Bool} (hranked : rankedCandidates db w stages = skipped ++ rest)
    (hexcluded : ∀ i, i ∈ excluded ↔ ∃ b ∈ skipped, b.id = i) :
    (searchCandidate db w stages n excluded saw).1 = (rest.take n).find? (·.hasRoom db) := by
  induction n generalizing skipped rest excluded saw with
  | zero => rfl
  | succ n ih =>
    unfold searchCandidate
    rw [nextCandidate_rest hranked hexcluded]
    cases rest with
    | nil => rfl
    | cons row rest =>
      rw [List.take_succ_cons, List.find?_cons, List.head?_cons]
      change (if row.hasRoom db = true then _ else _ : Option StageAssignment × Bool).1 = _
      cases row.hasRoom db with
      | true => rfl
      | false =>
        have hnext : rankedCandidates db w stages = (skipped ++ [row]) ++ rest := by
          rw [hranked, List.append_assoc]
          rfl
        refine ih hnext fun i => ?_
        rw [List.mem_cons, hexcluded]
        constructor
        · rintro (rfl | ⟨b, hb, rfl⟩)
          · exact ⟨row, List.mem_append_right _ (List.mem_singleton.mpr rfl), rfl⟩
          · exact ⟨b, List.mem_append_left _ hb, rfl⟩
        · rintro ⟨b, hb, rfl⟩
          rcases List.mem_append.mp hb with hb | hb
          · exact .inr ⟨b, hb, rfl⟩
          · exact .inl (congrArg _ (List.mem_singleton.mp hb))

theorem claimCandidate_examined : (claimCandidate db w stages []).1 = examined db w stages := by
  have hall : rankedCandidates db w stages = [] ++ rankedCandidates db w stages := rfl
  exact searchCandidate_find hall fun i => by simp

/-! ## The spend gate -/

theorem claimReservation_reservable :
    ∃ t, Returns (claimReservation a) db (spendReservable db a) t := by
  have hget : Returns (get : Session Db) db db db := returns_get.mpr ⟨rfl, rfl⟩
  unfold claimReservation spendReservable
  cases hrun : db.runs.get? a.pipelineRunId with
  | none => exact ⟨db, returns_bind.mpr ⟨db, db, hget, by simp [hrun]⟩⟩
  | some run =>
    cases hopen : db.reservations.select (·.isOpenFor a.pipelineRunId a.stage) with
    | cons v rest => exact ⟨db, returns_bind.mpr ⟨db, db, hget, by simp [hrun, hopen]⟩⟩
    | nil =>
      obtain ⟨r, t, hreserve, hr⟩ :
        ∃ r t, Returns (reserveSpend run a.stage (effectiveProvider a.provider)
          db.settings.defaultStageEstimateUsd) db r t ∧
            r.isSome = (exceededCap (releaseStageReservations run a.stage db)
            run.workspaceId (effectiveProvider a.provider)
              db.settings.defaultStageEstimateUsd).isNone := by
        cases hcap : exceededCap (releaseStageReservations run a.stage db) run.workspaceId
            (effectiveProvider a.provider) db.settings.defaultStageEstimateUsd with
        | none => exact ⟨_, _, reserveSpend_returns.mpr (.inr ⟨hcap, rfl, rfl⟩), rfl⟩
        | some kind => exact ⟨_, _, reserveSpend_returns.mpr (.inl ⟨kind, hcap, rfl, rfl⟩), rfl⟩
      refine ⟨t, returns_bind.mpr ⟨db, db, hget, ?_⟩⟩
      simp only [hrun, hopen, List.head?_nil]
      exact returns_bind.mpr ⟨r, t, hreserve, returns_pure.mpr ⟨hr, rfl⟩⟩

/-! ## What a claim grants -/

/-- What a claim does with the candidate it has found. -/
def answerClaim (workerId : Nat) (claimToken : Option Nat) :
    Option StageAssignment × Bool → Session ClaimResult
  | (none, true) => return ⟨none, .capacity, "provider budget exhausted"⟩
  | (none, false) => return ⟨none, .noWork, "no eligible assignment"⟩
  | (some row, _) => do
    if ← claimReservation row then
      modify (grantAssignment row workerId claimToken)
      return ⟨some row.id, .granted, "claimed"⟩
    else
      return ⟨none, .capacity, "workspace spend cap reached"⟩

/-- **What a claim answers**: the examined row is granted if its spend is reservable, and nothing
else is. -/
theorem claimAssignment_answers (h : Claimant db workerId claimToken w stages) :
    ∃ r t, Returns (claimAssignment workerId claimToken []) db r t ∧
      ∀ i, (r.outcome = .granted ∧ r.assignment = some i) ↔
        ∃ row, examined db w stages = some row ∧ row.id = i ∧ spendReservable db row = true := by
  have hget : Returns (get : Session Db) db db db := returns_get.mpr ⟨rfl, rfl⟩
  have hexamined : (claimCandidate db w stages []).1 = examined db w stages :=
    claimCandidate_examined
  have hstages : Returns
      (require (w.supportedStages.mapM ContentStage.ofValue?) (.dataError "supported_stages")) db
      stages db := returns_require.mpr ⟨h.supported, rfl⟩
  have hreaches : ∀ r t, Returns (answerClaim workerId claimToken (claimCandidate db w stages []))
      db r t →
      Returns (claimAssignment workerId claimToken []) db r t := by
    intro r t hrest
    unfold claimAssignment
    refine returns_bind.mpr ⟨db, db, hget, ?_⟩
    simp only [h.stored, h.unheld, h.eligible]
    exact returns_bind.mpr ⟨stages, db, hstages, hrest⟩
  cases hcandidate : claimCandidate db w stages [] with
  | mk found saw =>
    rw [hcandidate] at hexamined hreaches
    rw [← hexamined]
    cases found with
    | none =>
      have hnothing : ∀ r : ClaimResult, r.outcome ≠ .granted →
          ∀ i, (r.outcome = .granted ∧ r.assignment = some i) ↔
          ∃ row, (none : Option StageAssignment) = some row ∧ row.id = i ∧
            spendReservable db row = true := by
        intro r hdenied i
        constructor
        · rintro ⟨hgranted, -⟩
          exact absurd hgranted hdenied
        · rintro ⟨row, hrow, -⟩
          cases hrow
      cases saw with
      | true => exact ⟨_, db, hreaches _ _ (returns_pure.mpr ⟨rfl, rfl⟩), hnothing _ (by decide)⟩
      | false => exact ⟨_, db, hreaches _ _ (returns_pure.mpr ⟨rfl, rfl⟩), hnothing _ (by decide)⟩
    | some row =>
      have hgates : ∃ t, Returns (claimReservation row) db (spendReservable db row) t :=
        claimReservation_reservable
      obtain ⟨t, hgate⟩ := hgates
      cases hreservable : spendReservable db row with
      | true =>
        rw [hreservable] at hgate
        refine ⟨_, _, hreaches _ _ (returns_bind.mpr ⟨true, t, hgate, returns_bind.mpr
          ⟨(), _, returns_modify.mpr rfl, returns_pure.mpr ⟨rfl, rfl⟩⟩⟩), fun i => ?_⟩
        constructor
        · rintro ⟨-, hi⟩
          exact ⟨row, rfl, Option.some.inj hi, hreservable⟩
        · rintro ⟨_, hrow, rfl, -⟩
          cases hrow
          exact ⟨rfl, rfl⟩
      | false =>
        rw [hreservable] at hgate
        refine ⟨_, _,
          hreaches _ _ (returns_bind.mpr ⟨false, t, hgate, returns_pure.mpr ⟨rfl, rfl⟩⟩),
            fun i => ?_⟩
        constructor
        · rintro ⟨hgranted, -⟩
          cases hgranted
        · rintro ⟨_, hrow, -, htrue⟩
          cases hrow
          rw [hreservable] at htrue
          cases htrue

/-- Fewer rows fail the test than are looked at, so one that passes is found. -/
theorem find?_take_of_few {α : Type} {p : α → Bool} {l : List α} {n : Nat}
    (hfew : (l.filter fun a => !p a).length < n) (hsome : ∃ a ∈ l, p a = true) :
    ∃ a, (l.take n).find? p = some a := by
  cases hfind : (l.take n).find? p with
  | some a => exact ⟨a, rfl⟩
  | none =>
    have hfail : (l.take n).filter (fun a => !p a) = l.take n :=
      List.filter_eq_self.mpr fun a ha => by simpa using List.find?_eq_none.mp hfind a ha
    have hle : (l.take n).length ≤ (l.filter fun a => !p a).length := by
      rw [← hfail]
      exact ((List.take_sublist n l).filter _).length_le
    rw [List.length_take] at hle
    obtain ⟨a, ha, hpa⟩ := hsome
    have hall : l.take n = l := List.take_of_length_le (by omega)
    rw [hall] at hfind
    exact absurd hpa (List.find?_eq_none.mp hfind a ha)

/-- The rows of full providers are fewer than the batch, so one with room is examined. -/
theorem examined_of_few_blocked
    (hfew : (db.assignments.select fun a => a.isClaimableBy w stages && !a.hasRoom db).length
      < db.settings.claimCandidateBatchSize) (hgrantable : Grantable db w stages a) :
    ∃ row, examined db w stages = some row ∧ row ∈ db.assignments ∧
      row.isClaimableBy w stages = true ∧
      row.hasRoom db = true := by
  have hblocked : ((rankedCandidates db w stages).filter fun a => !a.hasRoom db).length
      < db.settings.claimCandidateBatchSize := by
    have hperm : (rankedCandidates db w stages).Perm
        (db.assignments.select (·.isClaimableBy w stages)) :=
      List.perm_insertionSort _ _
    rw [(hperm.filter _).length_eq]
    unfold Table.select at hfew ⊢
    rw [List.filter_filter]
    simpa only [Bool.and_comm] using hfew
  obtain ⟨row, hrow⟩ := find?_take_of_few hblocked
    ⟨a, mem_rankedCandidates.mpr ⟨hgrantable.mem, hgrantable.claimable⟩, hgrantable.room⟩
  obtain ⟨hmem, hclaimable⟩ := mem_rankedCandidates.mp
    (List.mem_of_mem_take (List.mem_of_find?_eq_some hrow))
  have hroom := List.find?_some hrow
  exact ⟨row, hrow, hmem, hclaimable, hroom⟩

/-- **A claim grants the examined row, or nothing.** It grants whenever some row could be granted,
as long as fewer rows than a batch wait on full providers and the spend gate lets every row with
room through. -/
theorem claims_conserve_work (h : Claimant db workerId claimToken w stages) :
    ∃ r t, Returns (claimAssignment workerId claimToken []) db r t ∧
      (∀ i, (r.outcome = .granted ∧ r.assignment = some i) ↔
        ∃ row, examined db w stages = some row ∧ row.id = i ∧ spendReservable db row = true) ∧
      ((∃ a, Grantable db w stages a) →
        (db.assignments.select fun a => a.isClaimableBy w stages && !a.hasRoom db).length
          < db.settings.claimCandidateBatchSize →
        (∀ a ∈ db.assignments, a.isClaimableBy w stages = true → a.hasRoom db = true →
          spendReservable db a = true) →
        r.outcome = .granted) := by
  obtain ⟨r, t, hreturns, hanswers⟩ := claimAssignment_answers h
  refine ⟨r, t, hreturns, hanswers, ?_⟩
  rintro ⟨a, hgrantable⟩ hfew hreservable
  obtain ⟨row, hexamined, hmem, hclaimable, hroom⟩ := examined_of_few_blocked hfew hgrantable
  exact ((hanswers row.id).mpr ⟨row, hexamined, rfl, hreservable row hmem hclaimable hroom⟩).1

/-! ## A tenant whose budget is spent -/

theorem bareWorkspace_key (id : Nat) : Keyed.key ({ id } : Workspace) = id := rfl

theorem secondItem_key (id : Nat) :
    Keyed.key ({ id, workspaceId := 1, currentVersionId := some 1 } : ContentItem) = id := rfl

theorem plainCap_key (workspaceId cap id : Nat) :
    Keyed.key
      ({ id, workspaceId, provider := none, dailyCapUsd := cap, monthlyCapUsd := cap } : SpendCap) =
        id := rfl

/-- Two tenants, of which the first may spend nothing; the row of each waits, that of the first
ahead. -/
def twoTenantDb : Db :=
  replay step
    { demoDb with
      workspaces := demoDb.workspaces.insert ⟨fun id => { id }, bareWorkspace_key⟩
      contentItems := demoDb.contentItems.insert
        ⟨fun id => { id, workspaceId := 1, currentVersionId := some 1 }, secondItem_key⟩
      spendCaps :=
        (oneRow (fun id =>
          { id, workspaceId := 0, provider := none, dailyCapUsd := 0, monthlyCapUsd := 0 })
        (plainCap_key 0 0) : Table SpendCap).insert
          ⟨fun id =>
            { id, workspaceId := 1, provider := none, dailyCapUsd := 10000
              monthlyCapUsd := 10000 },
            plainCap_key 1 10000⟩ }
    [.startRun 0 0 0, .startRun 1 1 0, .poll 10 [], .processJob 0 [0] 0, .processJob 1 [0] 0]

/-- The first worker may claim ideas, and some row could be given to it. -/
def servesIdeas (db : Db) : Bool :=
  (db.workers.get? 0).any fun w =>
    (heldByToken db w none).isNone && (w.refusal db).isNone &&
      w.supportedStages.mapM ContentStage.ofValue? == some [.idea, .scripting] &&
      db.assignments.rows.any fun a =>
        a.isClaimableBy w [.idea, .scripting] && a.hasRoom db && spendReservable db a

theorem claimant_of_serves (h : servesIdeas db = true) :
    ∃ w, Claimant db 0 none w [.idea, .scripting] ∧ ∃ a, Grantable db w [.idea, .scripting] a := by
  obtain ⟨w, hw, hchecks⟩ := (Option.any_eq_true _ _).mp h
  simp only [Bool.and_eq_true, Option.isNone_iff_eq_none, beq_iff_eq] at hchecks
  obtain ⟨⟨⟨hheld, hrefusal⟩, hstages⟩, hrows⟩ := hchecks
  obtain ⟨a, ha, hgrantable⟩ := List.any_eq_true.mp hrows
  simp only [Bool.and_eq_true] at hgrantable
  exact ⟨w, ⟨hw, hheld, hrefusal, hstages⟩, a, Table.mem_def.mpr ha, hgrantable.1.1, hgrantable.1.2,
    hgrantable.2⟩

/-- A claim of the first worker is granted. -/
def claimGrants (db : Db) : Bool :=
  match (claimAssignment 0 none []).run db with
  | .ok r _ => r.outcome == .granted
  | .error _ _ => false

/-- The only waiting row is granted. -/
theorem claims_conserve_work_single : ∃ r t,
    Returns (claimAssignment 0 none [])
      (replay step demoDb [.startRun 0 0 0, .poll 10 [], .processJob 0 [0] 0]) r t ∧
      r.outcome = .granted := by
  have hserves :
      servesIdeas (replay step demoDb [.startRun 0 0 0, .poll 10 [], .processJob 0 [0] 0]) =
        true := by
    decide +kernel
  obtain ⟨w, hclaimant, hgrantable⟩ := claimant_of_serves hserves
  obtain ⟨r, t, hreturns, -, hconserves⟩ := claims_conserve_work hclaimant
  refine ⟨r, t, hreturns, hconserves hgrantable ?_ ?_⟩
  · exact Nat.lt_of_le_of_lt (List.length_filter_le _ _) (by decide +kernel)
  · have hall : ∀ a ∈
        (replay step demoDb [.startRun 0 0 0, .poll 10 [], .processJob 0 [0] 0]).assignments,
        spendReservable (replay step demoDb [.startRun 0 0 0, .poll 10 [], .processJob 0 [0] 0]) a =
          true := by
      decide +kernel
    exact fun a ha _ _ => hall a ha

/-- A batch of one; the first tenant's provider has its only slot in use, and another of its rows
waits ahead of the second tenant's. -/
def fullProviderDb : Db :=
  replay step
    { demoDb with
      settings := { claimCandidateBatchSize := 1 }
      workspaces := demoDb.workspaces.insert ⟨fun id => { id }, bareWorkspace_key⟩
      contentItems := demoDb.contentItems.insert
        ⟨fun id => { id, workspaceId := 1, currentVersionId := some 1 }, secondItem_key⟩
      spendCaps := demoDb.spendCaps.insert
        ⟨fun id =>
          { id, workspaceId := 1, provider := none, dailyCapUsd := 10000, monthlyCapUsd := 10000 },
          plainCap_key 1 10000⟩
      providerBudgets := oneRow (fun id =>
        { id, workspaceId := 0, provider := "draft_desk", maxConcurrent := 1 })
        fun _ => rfl }
    [.startRun 0 0 0, .poll 10 [], .processJob 0 [] 0, .startRun 0 0 0, .startRun 1 1 0,
      .poll 10 [],
     .processJob 1 [0] 0, .processJob 2 [0] 0]

theorem not_granted_of_refused {db : Db} {r : ClaimResult} {t : Db}
    (hrefused : claimGrants db = false) (h : Returns (claimAssignment 0 none []) db r t) :
    r.outcome ≠ .granted := by
  intro hgranted
  rw [claimGrants, show (claimAssignment 0 none []).run db = .ok r t from h] at hrefused
  simp [hgranted] at hrefused

/-- The refusal of the first tenant's row is the claim's answer, though the row of the second could
be granted; and where the spend gate lets every row through, a full provider's rows can take up the
whole batch. -/
theorem blocked_rows_end_claim :
    (¬ ∀ db workerId claimToken w stages, Claimant db workerId claimToken w stages →
      (∃ a, Grantable db w stages a) →
        ∃ r t, Returns (claimAssignment workerId claimToken []) db r t ∧ r.outcome = .granted) ∧
    ¬ ∀ db workerId claimToken w stages, Claimant db workerId claimToken w stages →
      (∃ a, Grantable db w stages a) → (∀ a ∈ db.assignments, spendReservable db a = true) →
        ∃ r t, Returns (claimAssignment workerId claimToken []) db r t ∧ r.outcome = .granted := by
  constructor
  · intro h
    have hserves : servesIdeas twoTenantDb = true := by decide +kernel
    obtain ⟨w, hclaimant, hgrantable⟩ := claimant_of_serves hserves
    obtain ⟨r, t, hreturns, hgranted⟩ := h twoTenantDb 0 none w _ hclaimant hgrantable
    exact not_granted_of_refused (by decide +kernel) hreturns hgranted
  · intro h
    have hserves : servesIdeas fullProviderDb = true := by decide +kernel
    obtain ⟨w, hclaimant, hgrantable⟩ := claimant_of_serves hserves
    obtain ⟨r, t, hreturns, hgranted⟩ := h fullProviderDb 0 none w _ hclaimant hgrantable
      (by decide +kernel)
    exact not_granted_of_refused (by decide +kernel) hreturns hgranted

end ContentOrchestrator

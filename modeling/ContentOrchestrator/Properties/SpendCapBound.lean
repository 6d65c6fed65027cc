import ContentOrchestrator.Orchestration.SpendRows
import ContentOrchestrator.System

/-! # A spend cap under concurrent reservations

A reserver that holds the cap's row compares the limits with what it has added up over
several statements. Commits of others move amounts from the reservations to the logs
meanwhile, and only one between the two sums of a check escapes it. -/

namespace ContentOrchestrator

open Lib

variable {db db' : Db} {s : SpendStore} {cap : SpendCap} {held : List SpendLock} {run : PipelineRun}
  {ids : List Nat} {rows : List SpendReservation} {since : Nat}

/-- What an open reservation counts, unless it is one of these. -/
def SpendCap.weight (cap : SpendCap) (ids : List Nat) (v : SpendReservation) : Nat :=
  if cap.counts v.workspaceId v.provider = true ∧ v.status = .reserved ∧ v.id ∉ ids then
    v.estimatedCostUsd else 0

def openWithout (db : Db) (cap : SpendCap) (ids : List Nat) : Nat :=
  db.reservations.total (cap.weight ids)

def loggedSince (db : Db) (cap : SpendCap) (since : Nat) : Nat :=
  committedSince db cap.workspaceId cap.provider since

def usageWithout (db : Db) (cap : SpendCap) (ids : List Nat) (since : Nat) : Nat :=
  loggedSince db cap since + openWithout db cap ids

def Reserver.releasedIds (x : Reserver) : List Nat := x.released.map (·.id)

/-- The sums of a check stand apart here. -/
def SpendPoint.betweenSums (capId : Nat) : SpendPoint → Bool
  | .dayLogged x _ | .monthLogged x _ _ => x.cap.id == capId
  | _ => false

/-- A charge the cap counts was read under the lock of the run's events or commits while its row is
reserved, and nobody is between two sums; a reservation the cap counts was checked against it. -/
def SpendPoint.fitsCap (cap : SpendCap) (db : Db) (summing : Bool) : SpendPoint → Bool
  | .charged c =>
    !cap.counts c.run.workspaceId c.reservation.provider ||
      ((c.readLocked || (db.reservations.get? c.reservation.id).any (·.status == .reserved)) &&
        !summing)
  | .opened x => !cap.counts x.run.workspaceId x.q.provider || x.cap.id == cap.id
  | _ => true

def fitsCap (cap : SpendCap) (w : World SpendStore SpendLock SpendPoint) :
    Action SpendRequest Nat → Bool
  | .commit id =>
    (w.running.get? id).all fun x =>
      x.locals.fitsCap cap w.store.db (w.running.rows.any fun y => y.locals.betweenSums cap.id)
  | _ => true

/-! ## What the cap counts -/

section

variable {v : SpendReservation}

theorem SpendCap.weight_settled (h : v.status ≠ .reserved) : cap.weight ids v = 0 :=
  if_neg fun hcounted => h hcounted.2.1

theorem SpendCap.weight_without (h : v.id ∈ ids) : cap.weight ids v = 0 :=
  if_neg fun hcounted => hcounted.2.2 h

theorem SpendCap.weight_other (h : cap.counts v.workspaceId v.provider = false) :
    cap.weight ids v = 0 := by
  refine if_neg fun hcounted => ?_
  rw [h] at hcounted
  cases hcounted.1

theorem SpendCap.weight_counted (hcounts : cap.counts v.workspaceId v.provider = true)
    (hopen : v.status = .reserved) (hid : v.id ∉ ids) : cap.weight ids v =
    v.estimatedCostUsd := if_pos ⟨hcounts, hopen, hid⟩

end

theorem openReserved_eq : openReserved db cap.workspaceId cap.provider = openWithout db cap [] := by
  refine Table.total_congr fun v _ => ?_
  simp only [SpendCap.weight, SpendCap.counts, Bool.and_eq_true, beq_iff_eq, List.not_mem_nil,
    not_false_eq_true, and_true]
  refine if_congr ?_ rfl rfl
  constructor
  · rintro ⟨hworkspace, hopen, hprovider⟩
    exact ⟨⟨hworkspace.symm, hprovider⟩, hopen⟩
  · rintro ⟨⟨hworkspace, hprovider⟩, hopen⟩
    exact ⟨hworkspace.symm, hopen, hprovider⟩

theorem SpendCap.kept_iff : cap.Kept db ↔
    usageWithout db cap [] (utcDayStart db.now) ≤ cap.dailyCapUsd ∧
      usageWithout db cap [] (utcMonthStart db.now) ≤ cap.monthlyCapUsd := by
  simp only [SpendCap.Kept, SpendCap.hasRoom_iff, spendCommittedPlusReserved, openReserved_eq,
    Nat.add_zero]
  exact Iff.rfl

/-- Released rows are left out of the sum. -/
theorem openWithout_released (hrows : ∀ v ∈ rows, v.status = .reserved) :
    openWithout (releaseEach run rows db) cap [] = openWithout db cap (rows.map (·.id)) := by
  rw [openWithout, openWithout, releaseEach_where hrows, Table.total_modifyWhere]
  refine Table.total_congr fun v _ => ?_
  by_cases hid : v.id ∈ rows.map (·.id)
  · have hreleased : (SpendReservation.release.apply v).status ≠ .reserved := fun h => by cases h
    rw [if_pos (List.contains_iff_mem.mpr hid), SpendCap.weight_settled hreleased,
      SpendCap.weight_without hid]
  · rw [if_neg fun hcontains => hid (List.contains_iff_mem.mp hcontains)]
    exact if_congr (by simp [hid]) rfl rfl

theorem loggedSince_congr (hlogs : db'.spendLogs = db.spendLogs) :
    loggedSince db' cap since = loggedSince db cap since := by
  rw [loggedSince, committedSince, hlogs]
  rfl

theorem usageWithout_congr (hlogs : db'.spendLogs = db.spendLogs)
    (hrows : db'.reservations = db.reservations) :
    usageWithout db' cap ids since = usageWithout db cap ids since := by
  rw [usageWithout, loggedSince_congr hlogs, openWithout, hrows]
  rfl

theorem openWithout_release (hrows : ∀ v ∈ rows, v.status = .reserved) :
    openWithout (releaseEach run rows db) cap ids ≤ openWithout db cap ids := by
  rw [openWithout, openWithout, releaseEach_where hrows, Table.total_modifyWhere]
  refine Table.total_mono fun v _ => ?_
  have hreleased : (SpendReservation.release.apply v).status ≠ .reserved := fun h => by cases h
  split
  · rw [SpendCap.weight_settled hreleased]
    exact Nat.zero_le _
  · exact Nat.le_refl _

theorem usageWithout_release (hrows : ∀ v ∈ rows, v.status = .reserved) :
    usageWithout (releaseEach run rows db) cap ids since ≤ usageWithout db cap ids since := by
  rw [usageWithout, loggedSince_congr releaseEach_frame.2.2.2.2.2.2.2.2]
  exact Nat.add_le_add_left (openWithout_release hrows) _

theorem usageWithout_later {since' : Nat} (h : since ≤ since') :
    usageWithout db cap ids since' ≤ usageWithout db cap ids since :=
  Nat.add_le_add_right (committedSince_later h) _

/-- A reservation that the cap does not count leaves its usage alone. -/
theorem usageWithout_open {stage : ContentStage} {provider : String} {estimate : Nat}
    (hother : cap.counts run.workspaceId provider = false) :
    usageWithout (openReservation run stage provider estimate db) cap ids since =
      usageWithout db cap ids since := by
  have hlogs : (openReservation run stage provider estimate db).spendLogs = db.spendLogs := by
    simp [openReservation]
  have hnone :
      cap.weight ids ((newReservation run stage provider estimate db).make db.reservations.next) =
        0 :=
    SpendCap.weight_other hother
  rw [usageWithout, loggedSince_congr hlogs, openWithout, openReservation_frame.2.2.2.2.1,
    Table.total_insert, hnone]
  rfl

/-- **A charge moves its amount** from a reserved row to a log of at most its estimate. -/
theorem usageWithout_charge {c : Charge} (hc : c.Knows s.db held)
    (hhome : c.run.workspaceId = c.reservation.workspaceId)
    (hopen : cap.counts c.run.workspaceId c.reservation.provider = true →
      (s.db.reservations.get? c.reservation.id).any (·.status == .reserved) = true ∧
        c.reservation.id ∉ ids) :
    usageWithout (s.charge c).db cap ids since ≤ usageWithout s.db cap ids since := by
  obtain ⟨w, hw, hterms⟩ := hc.row
  have hlogs : (s.charge c).db.spendLogs =
      s.db.spendLogs.insert (newSpendLog c.run c.reservation c.costUsd
        { s.db with now := c.occurredAt }) := rfl
  have hmoved := Table.total_modify (u := SpendReservation.commit) hw (cap.weight ids)
  have hsettled : (SpendReservation.commit.apply w).status ≠ .reserved := fun h => by cases h
  rw [SpendCap.weight_settled hsettled, Nat.add_zero] at hmoved
  have hreserved : openWithout (s.charge c).db cap ids + cap.weight ids w =
      openWithout s.db cap ids := hmoved
  have hcounts : cap.counts c.run.workspaceId c.reservation.provider =
      cap.counts w.workspaceId w.provider := by
    rw [hhome, hterms.workspaceId, hterms.provider]
  -- the log counts no more than the row did
  have hlogged : loggedSince (s.charge c).db cap since ≤
      loggedSince s.db cap since + cap.weight ids w := by
    rw [loggedSince, committedSince, hlogs, Table.total_insert]
    refine Nat.add_le_add_left ?_ _
    split
    · rename_i hcounted
      have hmine : cap.counts c.run.workspaceId c.reservation.provider = true :=
        Bool.and_eq_true_iff.mpr ⟨beq_iff_eq.mpr hcounted.1.symm, hcounted.2.2⟩
      obtain ⟨hstatus, hkept⟩ := hopen hmine
      rw [hw, Option.any_some, beq_iff_eq] at hstatus
      have hid : w.id ∉ ids := hterms.id ▸ hkept
      rw [SpendCap.weight_counted (hcounts ▸ hmine) hstatus hid, hterms.estimatedCostUsd]
      exact hc.within
    · exact Nat.zero_le _
  rw [usageWithout, usageWithout]
  omega

/-! ## A check under way -/

/-- What a reserver has added up so far is not exceeded, of what it has not released itself. -/
def SpendPoint.Checked (cap : SpendCap) (db : Db) : SpendPoint → Prop
  | .dayLogged x logged => x.cap.id = cap.id → loggedSince db cap (utcDayStart db.now) ≤ logged
  | .daySummed x daily => x.cap.id = cap.id →
      usageWithout db cap x.releasedIds (utcDayStart db.now) ≤ daily
  | .monthLogged x daily logged => x.cap.id = cap.id →
    usageWithout db cap x.releasedIds (utcDayStart db.now) ≤ daily ∧
      loggedSince db cap (utcMonthStart db.now) ≤ logged
  | .admitted x | .inserted x | .opened x => x.cap.id = cap.id →
    usageWithout db cap x.releasedIds (utcDayStart db.now) + x.q.estimatedCostUsd ≤
      cap.dailyCapUsd ∧
      usageWithout db cap x.releasedIds (utcMonthStart db.now) + x.q.estimatedCostUsd ≤
        cap.monthlyCapUsd
  | _ => True

/-- The cap's row is there, every reservation is in its run's workspace, and neither limit is
exceeded. -/
structure CapHeld (cap : SpendCap) (db : Db) : Prop where
  stored : cap ∈ db.spendCaps
  home : db.ReservedAtHome
  kept : cap.Kept db

theorem Reserver.Knows.sums {x : Reserver} (h : x.Knows db held) (hstored : cap ∈ db.spendCaps)
    (hmine : x.cap.id = cap.id) :
    x.cap = cap ∧ (∀ since, x.logged db since = loggedSince db cap since) ∧
      x.reserved db = openWithout db cap x.releasedIds := by
  have hcap : x.cap = cap := Table.eq_of_key h.cap hstored hmine
  have hworkspace : x.run.workspaceId = cap.workspaceId := hcap ▸ h.home.symm
  have hfilter : x.filter = cap.provider := hcap ▸ h.filter
  refine ⟨hcap, fun since => ?_, ?_⟩
  · rw [Reserver.logged, hworkspace, hfilter]
    exact loggedSince_congr releaseEach_frame.2.2.2.2.2.2.2.2
  · rw [Reserver.reserved, hworkspace, hfilter, openReserved_eq]
    exact openWithout_released h.rows.reserved

theorem SpendPoint.next_checked {point point' : SpendPoint} {taken : SpendLock → Bool}
    {held' : List SpendLock} (hstored : cap ∈ s.db.spendCaps) (hknows : point.Knows s.db held)
    (h : point.Checked cap s.db) (hnext : point.next s taken held = some (held', point')) :
    point'.Checked cap s.db := by
  cases point with
  | requested r =>
    cases hnext
    cases r with
    | commit target actualCostUsd =>
      dsimp only [SpendRequest.read]
      split
      · trivial
      · unfold beginCharge
        split <;> trivial
    | _ =>
      dsimp only [SpendRequest.read]
      split <;> trivial
  | releasing run todo released after =>
    cases todo with
    | cons v todo =>
      cases hnext
      trivial
    | nil =>
      cases after with
      | done => cases hnext
      | rest =>
        cases hnext
        trivial
      | reserve q =>
        dsimp only [SpendPoint.next] at hnext
        split at hnext <;> (cases hnext; trivial)
  | capLocked x =>
    cases hnext
    intro hmine
    obtain ⟨-, hlogged, -⟩ := Reserver.Knows.sums hknows hstored hmine
    exact Nat.le_of_eq (hlogged _).symm
  | dayLogged x logged =>
    cases hnext
    intro hmine
    obtain ⟨-, -, hreserved⟩ := Reserver.Knows.sums hknows hstored hmine
    rw [hreserved]
    exact Nat.add_le_add_right (h hmine) _
  | daySummed x daily =>
    cases hnext
    intro hmine
    obtain ⟨-, hlogged, -⟩ := Reserver.Knows.sums hknows hstored hmine
    exact ⟨h hmine, Nat.le_of_eq (hlogged _).symm⟩
  | monthLogged x daily logged =>
    cases hnext
    unfold Reserver.check
    split
    · trivial
    · split
      · trivial
      · intro hmine
        obtain ⟨hcap, -, hreserved⟩ := Reserver.Knows.sums hknows hstored hmine
        obtain ⟨hday, hmonth⟩ := h hmine
        have hmonthly : usageWithout s.db cap x.releasedIds (utcMonthStart s.db.now) ≤
            logged + x.reserved s.db := by
          rw [hreserved]
          exact Nat.add_le_add_right hmonth _
        rw [← hcap]
        rw [← hcap] at hday hmonthly
        omega
  | admitted x =>
    dsimp only [SpendPoint.next] at hnext
    split at hnext
    · cases hnext
      exact h
    · split at hnext
      · cases hnext
      · cases hnext
        trivial
  | inserted x =>
    cases hnext
    exact h
  | exceeded run released =>
    cases hnext
    trivial
  | charging c =>
    cases hnext
    trivial
  | opened _ | denied _ _ | charged _ | ended | refused => cases hnext

/-- A check stands when the usage has not grown, nor the logs between its sums. -/
theorem SpendPoint.Checked.keep {point : SpendPoint} (h : point.Checked cap db)
    (hknows : point.Knows db held) (hnow : db.now ≤ db'.now)
    (husage : ∀ x : Reserver, x.Knows db held → x.cap.id = cap.id → ∀ since,
      usageWithout db' cap x.releasedIds since ≤ usageWithout db cap x.releasedIds since)
    (hlogs : point.betweenSums cap.id = true →
    ∀ since, loggedSince db' cap since ≤ loggedSince db cap since) :
    point.Checked cap db' := by
  have hday := utcDayStart_mono hnow
  have hmonth := utcMonthStart_mono hnow
  have hlower : ∀ x : Reserver, x.Knows db held → x.cap.id = cap.id →
      ∀ {since since' : Nat}, since ≤ since' →
      usageWithout db' cap x.releasedIds since' ≤ usageWithout db cap x.releasedIds since :=
    fun x hx hmine _ _ hle => Nat.le_trans (husage x hx hmine _) (usageWithout_later hle)
  have hlogged : point.betweenSums cap.id = true → ∀ {since since' : Nat}, since ≤ since' →
      loggedSince db' cap since' ≤ loggedSince db cap since :=
    fun hbetween _ _ hle => Nat.le_trans (hlogs hbetween _) (committedSince_later hle)
  cases point with
  | dayLogged x logged =>
    intro hmine
    exact Nat.le_trans (hlogged (beq_iff_eq.mpr hmine) hday) (h hmine)
  | daySummed x daily =>
    intro hmine
    exact Nat.le_trans (hlower x hknows hmine hday) (h hmine)
  | monthLogged x daily logged =>
    intro hmine
    exact ⟨Nat.le_trans (hlower x hknows hmine hday) (h hmine).1,
      Nat.le_trans (hlogged (beq_iff_eq.mpr hmine) hmonth) (h hmine).2⟩
  | admitted x =>
    intro hmine
    exact ⟨Nat.le_trans (Nat.add_le_add_right (hlower x hknows hmine hday) _) (h hmine).1,
      Nat.le_trans (Nat.add_le_add_right (hlower x hknows hmine hmonth) _) (h hmine).2⟩
  | inserted x | opened x =>
    intro hmine
    exact ⟨Nat.le_trans (Nat.add_le_add_right (hlower x hknows.1 hmine hday) _) (h hmine).1,
      Nat.le_trans (Nat.add_le_add_right (hlower x hknows.1 hmine hmonth) _) (h hmine).2⟩
  | _ => trivial

/-! ## Commits -/

theorem ReservedAtHome.moves (h : db.ReservedAtHome) (hmove : MovesLedger held db db')
    (hnone : ∀ runId stage, .openRow runId stage ∉ held) : db'.ReservedAtHome := by
  refine h.of_moves (fun r' hr' => ?_) fun v' hv' => ?_
  · rcases hmove.runs.new r' hr' with ⟨r, hr, hsame⟩ | hnew
    · exact ⟨r, hr, hsame⟩
    · exact hnew.elim
  · rcases hmove.rows.new v' hv' with ⟨v, hv, hsettles⟩ | hnew
    · exact .inl ⟨v, hv, hsettles.terms.pipelineRunId, hsettles.terms.workspaceId⟩
    · exact absurd hnew (hnone _ _)

theorem ReservedAtHome.open {stage : ContentStage} {provider : String} {estimate : Nat}
    (h : db.ReservedAtHome) (hrun : KnowsRun db run) :
    (openReservation run stage provider estimate db).ReservedAtHome := by
  obtain ⟨row, hrow, hworkspace⟩ := hrun
  obtain ⟨hmem, hid⟩ := Table.get?_eq_some.mp hrow
  refine h.of_moves (fun r hr => ?_) fun v hv => ?_
  · rw [openReservation_frame.1] at hr
    exact ⟨r, hr, rfl, rfl⟩
  · rw [openReservation_frame.2.2.2.2.1] at hv
    rcases Table.mem_insert.mp hv with hv | rfl
    · exact .inl ⟨v, hv, rfl, rfl⟩
    · exact .inr ⟨row, hmem, hid.symm, hworkspace.symm⟩

theorem Charge.Knows.home {c : Charge} (h : c.Knows db held) (hhome : db.ReservedAtHome) :
    c.run.workspaceId = c.reservation.workspaceId := by
  obtain ⟨w, hw, hterms⟩ := h.row
  obtain ⟨row, hrow, hworkspace⟩ := h.run
  obtain ⟨hmem, hid⟩ := Table.get?_eq_some.mp hrow
  have hsame := hhome w (Table.get?_eq_some.mp hw).1 row hmem
    (Eq.trans hid (h.owner.trans hterms.pipelineRunId.symm))
  rw [← hworkspace, hsame, hterms.workspaceId]

theorem CapHeld.release (h : CapHeld cap db) (hrows : KnowsRows db rows) :
    CapHeld cap (releaseEach run rows db) where
  stored := by rw [releaseEach_frame.2.2.2.1]; exact h.stored
  home := ReservedAtHome.moves h.home (.release_locked hrows) fun _ _ => by simp
  kept := h.kept.release

theorem CapHeld.open {x : Reserver} (h : CapHeld cap db) (hknows : x.Knows db held)
    (hchecked : (SpendPoint.opened x).Checked cap db)
    (hmine : cap.counts x.run.workspaceId x.q.provider = true → x.cap.id = cap.id) :
    CapHeld cap (openReservation x.run x.q.stage x.q.provider x.q.estimatedCostUsd
      (releaseEach x.run x.released db)) := by
  have hafter : CapHeld cap (releaseEach x.run x.released db) := h.release hknows.rows
  have hmoves : MovesLedger held db (releaseEach x.run x.released db) :=
    .release hknows.rows fun v hv => (hknows.locked v hv).2
  have hrun : KnowsRun (releaseEach x.run x.released db) x.run := hknows.run.moves hmoves
  refine ⟨?_, ReservedAtHome.open hafter.home hrun, SpendCap.kept_open.mpr ?_⟩
  · have hcaps : (openReservation x.run x.q.stage x.q.provider x.q.estimatedCostUsd
        (releaseEach x.run x.released db)).spendCaps =
          (releaseEach x.run x.released db).spendCaps := by
      simp [openReservation]
    rw [hcaps]
    exact hafter.stored
  · by_cases hcounts : cap.counts x.run.workspaceId x.q.provider = true
    · have hfits := hchecked (hmine hcounts)
      have hnow : (releaseEach x.run x.released db).now = db.now := releaseEach_frame.1
      rw [SpendCap.added, if_pos hcounts, SpendCap.hasRoom_iff, spendCommittedPlusReserved,
        spendCommittedPlusReserved, openReserved_eq, openWithout_released hknows.rows.reserved,
          hnow]
      have hlogs : ∀ since, committedSince (releaseEach x.run x.released db) cap.workspaceId
          cap.provider since =
          loggedSince db cap since := fun _ => loggedSince_congr releaseEach_frame.2.2.2.2.2.2.2.2
      rw [hlogs, hlogs]
      exact hfits
    · rw [SpendCap.added, if_neg hcounts]
      exact hafter.kept

/-- A charge that fits the cap finds its row open. -/
theorem Charge.Knows.reserved_of_fits {c : Charge} {summing : Bool} (h : c.Knows db held)
    (hfits : (SpendPoint.charged c).fitsCap cap db summing = true)
    (hcounts : cap.counts c.run.workspaceId c.reservation.provider = true) :
    (db.reservations.get? c.reservation.id).any (·.status == .reserved) = true := by
  rw [SpendPoint.fitsCap, hcounts] at hfits
  rcases Bool.or_eq_true_iff.mp (Bool.and_eq_true_iff.mp hfits).1 with hread | hopen
  · obtain ⟨-, hfound, hstatus⟩ := h.fresh hread
    rw [hfound, Option.any_some, hstatus]
    rfl
  · exact hopen

theorem CapHeld.charge {c : Charge} (h : CapHeld cap s.db) (hc : c.Knows s.db held)
    (hopen : cap.counts c.run.workspaceId c.reservation.provider = true →
      (s.db.reservations.get? c.reservation.id).any (·.status == .reserved) = true) :
    CapHeld cap (s.charge c).db := by
  have hlower : ∀ since, usageWithout (s.charge c).db cap [] since ≤
      usageWithout s.db cap [] since := fun since =>
    usageWithout_charge hc (hc.home h.home) fun hcounts => ⟨hopen hcounts, List.not_mem_nil⟩
  obtain ⟨hday, hmonth⟩ := SpendCap.kept_iff.mp h.kept
  have hmove : MovesLedger [.events c.reservation.pipelineRunId] s.db (s.charge c).db :=
    .charge hc.row List.mem_cons_self
  refine ⟨h.stored, ReservedAtHome.moves h.home hmove fun _ _ => by simp,
          SpendCap.kept_iff.mpr ⟨?_, ?_⟩⟩
  · exact Nat.le_trans (hlower _) hday
  · exact Nat.le_trans (hlower _) hmonth

/-- **Both limits hold after a commit** that fits the cap. -/
theorem CapHeld.commit {point : SpendPoint} {u : SpendStore → SpendStore} {summing : Bool}
    (h : CapHeld cap s.db) (hknows : point.Knows s.db held) (hchecked : point.Checked cap s.db)
    (hfits : point.fitsCap cap s.db summing = true) (hcommit : point.commit = some u) :
    CapHeld cap (u s).db := by
  cases point with
  | releasing run todo released after =>
    cases todo with
    | cons v todo => cases hcommit
    | nil =>
      cases after with
      | done =>
        cases hcommit
        exact h.release hknows.2.1
      | _ => cases hcommit
  | denied run released =>
    cases hcommit
    have hafter : CapHeld cap (releaseEach run released s.db) := h.release hknows.2.1
    have hhome : (pauseForSpend run (releaseEach run released s.db)).ReservedAtHome :=
      ReservedAtHome.moves hafter.home .pause fun _ _ => List.not_mem_nil
    refine ⟨?_, hhome, SpendCap.kept_pause.mpr hafter.kept⟩
    have hcaps : (pauseForSpend run (releaseEach run released s.db)).spendCaps =
        (releaseEach run released s.db).spendCaps := by simp [pauseForSpend]
    exact hcaps ▸ hafter.stored
  | opened x =>
    cases hcommit
    refine h.open hknows.1 hchecked fun hcounts => ?_
    rw [SpendPoint.fitsCap, hcounts] at hfits
    exact beq_iff_eq.mp hfits
  | charged c =>
    cases hcommit
    exact h.charge hknows.1 (hknows.1.reserved_of_fits hfits)
  | _ => cases hcommit

theorem SpendPoint.commit_now {point : SpendPoint} {u : SpendStore → SpendStore}
    (hcommit : point.commit = some u) :
    (u s).db.now = s.db.now := by
  cases point with
  | releasing run todo released after =>
    cases todo with
    | cons v todo => cases hcommit
    | nil =>
      cases after with
      | done =>
        cases hcommit
        exact releaseEach_frame.1
      | _ => cases hcommit
  | denied run released =>
    cases hcommit
    simp [SpendStore.onDb, SpendStore.release, pauseForSpend]
  | opened x =>
    cases hcommit
    simp [SpendStore.onDb, SpendStore.release, openReservation]
  | charged c =>
    cases hcommit
    rfl
  | _ => cases hcommit

/-- Between two sums no log is added that the cap counts. -/
theorem SpendPoint.commit_logs {point : SpendPoint} {u : SpendStore → SpendStore}
    (hfits : point.fitsCap cap s.db true = true) (hcommit : point.commit = some u) :
    loggedSince (u s).db cap since ≤ loggedSince s.db cap since := by
  cases point with
  | releasing run todo released after =>
    cases todo with
    | cons v todo => cases hcommit
    | nil =>
      cases after with
      | done =>
        cases hcommit
        exact Nat.le_of_eq (loggedSince_congr releaseEach_frame.2.2.2.2.2.2.2.2)
      | _ => cases hcommit
  | denied run released =>
    cases hcommit
    exact Nat.le_of_eq
      (loggedSince_congr (by simp [SpendStore.onDb, SpendStore.release, pauseForSpend]))
  | opened x =>
    cases hcommit
    exact Nat.le_of_eq
      (loggedSince_congr (by simp [SpendStore.onDb, SpendStore.release, openReservation]))
  | charged c =>
    cases hcommit
    simp only [SpendPoint.fitsCap, Bool.not_true, Bool.and_false, Bool.or_false,
      Bool.not_eq_true'] at hfits
    have hlogs : (s.charge c).db.spendLogs =
        s.db.spendLogs.insert (newSpendLog c.run c.reservation c.costUsd
          { s.db with now := c.occurredAt }) := rfl
    have hnone : ¬ (c.run.workspaceId = cap.workspaceId ∧ since ≤ c.occurredAt ∧
        countsProvider cap.provider c.reservation.provider = true) := by
      rintro ⟨hworkspace, -, hprovider⟩
      have hcounts : cap.counts c.run.workspaceId c.reservation.provider = true :=
        Bool.and_eq_true_iff.mpr ⟨beq_iff_eq.mpr hworkspace.symm, hprovider⟩
      rw [hfits] at hcounts
      cases hcounts
    rw [loggedSince, committedSince, hlogs, Table.total_insert]
    split
    · rename_i hcounted
      exact absurd hcounted hnone
    · exact Nat.le_refl _
  | _ => cases hcommit

/-- **What a reserver has added up** no commit of another raises. -/
theorem SpendPoint.commit_usage {point : SpendPoint} {u : SpendStore → SpendStore} {summing : Bool}
    {held' : List SpendLock} {x : Reserver} (hs : CapHeld cap s.db) (hknows : point.Knows s.db held)
    (hfits : point.fitsCap cap s.db summing = true) (hcommit : point.commit = some u)
    (hx : x.Knows s.db held') (hmine : x.cap.id = cap.id) (hfree : ∀ k ∈ held', k ∉ held) :
    usageWithout (u s).db cap x.releasedIds since ≤ usageWithout s.db cap x.releasedIds since := by
  cases point with
  | releasing run todo released after =>
    cases todo with
    | cons v todo => cases hcommit
    | nil =>
      cases after with
      | done =>
        cases hcommit
        exact usageWithout_release hknows.2.1.reserved
      | _ => cases hcommit
  | denied run released =>
    cases hcommit
    have hsame : usageWithout (pauseForSpend run (releaseEach run released s.db)) cap x.releasedIds
        since =
        usageWithout (releaseEach run released s.db) cap x.releasedIds since :=
      usageWithout_congr (by simp [pauseForSpend]) pauseForSpend_frame.2.2.2.2.1
    exact Nat.le_trans (Nat.le_of_eq hsame) (usageWithout_release hknows.2.1.reserved)
  | opened y =>
    cases hcommit
    have hother : cap.counts y.run.workspaceId y.q.provider = false := by
      by_contra hcounts
      rw [Bool.not_eq_false] at hcounts
      -- two reservers would have the cap's row locked
      rw [SpendPoint.fitsCap, hcounts] at hfits
      have hsame : y.cap.id = cap.id := beq_iff_eq.mp hfits
      have hlock := hfree _ hx.capLocked
      rw [hmine, ← hsame] at hlock
      exact hlock hknows.1.capLocked
    exact Nat.le_trans (Nat.le_of_eq (usageWithout_open hother))
      (usageWithout_release hknows.1.rows.reserved)
  | charged c =>
    cases hcommit
    refine usageWithout_charge hknows.1 (hknows.1.home hs.home) fun hcounts =>
      ⟨hknows.1.reserved_of_fits hfits hcounts, fun hreleased => ?_⟩
    obtain ⟨v, hv, hid⟩ := List.mem_map.mp hreleased
    have hlock := (hx.locked v hv).1
    rw [hid] at hlock
    exact hfree _ hlock (hknows.2 _ List.mem_cons_self).1
  | _ => cases hcommit

theorem capCalls_outline :
    Outline spendCalls (fun w a => fitsCap cap w a = true) (fun s => CapHeld cap s.db)
      fun s held point => point.Knows s.db held ∧ point.Checked cap s.db where
  starts _ _ := ⟨trivial, trivial⟩
  runs hw hx _ hnext _ :=
    have hpoint := hw.running _ hx
    ⟨SpendPoint.next_knows hpoint.1 hnext,
      SpendPoint.next_checked hw.store.stored hpoint.1 hpoint.2 hnext⟩
  commits := by
    intro w x u hw hx hok hcommit
    obtain ⟨hknows, hchecked⟩ := hw.running x hx
    have hfound : w.running.get? x.id = some x := Table.get?_of_mem hx
    rw [fitsCap, hfound, Option.all_some] at hok
    refine ⟨hw.store.commit hknows hchecked hok hcommit, fun y hy hne => ?_⟩
    obtain ⟨hyknows, hychecked⟩ := hw.running y hy
    have hfree : ∀ k ∈ y.held, k ∉ x.held := fun k hk => hw.exclusive y hy x hx hne k hk
    refine ⟨hyknows.moves (SpendPoint.commit_moves hknows hcommit) hfree,
      hychecked.keep hyknows ?_ ?_ fun hbetween => ?_⟩
    · exact Nat.le_of_eq (SpendPoint.commit_now hcommit).symm
    · exact fun z hz hmine since =>
        SpendPoint.commit_usage hw.store hknows hok hcommit hz hmine hfree
    · have hsumming : (w.running.rows.any fun y => y.locals.betweenSums cap.id) = true :=
        List.any_eq_true.mpr ⟨y, hy, hbetween⟩
      rw [hsumming] at hok
      exact fun since => SpendPoint.commit_logs hok hcommit
  others := by
    intro w elapsed hw _ _
    refine ⟨⟨hw.store.stored, hw.store.home, hw.store.kept.elapse elapsed⟩, fun y hy => ?_⟩
    obtain ⟨hknows, hchecked⟩ := hw.running y hy
    have hmoves : MovesLedger [] w.store.db (spendCalls.apply elapsed w.store).db :=
      .of_same rfl rfl rfl
    refine ⟨hknows.moves hmoves fun _ _ => List.not_mem_nil,
      hchecked.keep hknows (Nat.le_add_right _ _) ?_ ?_⟩
    · exact fun _ _ _ _ => Nat.le_of_eq (usageWithout_congr rfl rfl)
    · exact fun _ _ => Nat.le_of_eq (loggedSince_congr rfl)

/-- **Spend cap safety**: neither limit is exceeded in any state of a run in which what the cap
counts is charged while it is reserved and nobody is between two sums of a check, and reserved
against this cap. -/
theorem cap_held {db : Db} (hstored : cap ∈ db.spendCaps) (hhome : db.ReservedAtHome)
    (hkept : cap.Kept db) {w : World SpendStore SpendLock SpendPoint}
    (h : Reach spendCalls.Steps (fun w a => fitsCap cap w a = true) { store := { db } } w) :
    cap.Kept w.store.db := by
  have hstart : World.Holds (fun s : SpendStore => CapHeld cap s.db)
      (fun (s : SpendStore) held (point : SpendPoint) =>
        point.Knows s.db held ∧ point.Checked cap s.db)
      ({ store := { db } } : World SpendStore SpendLock SpendPoint) := .idle ⟨hstored, hhome, hkept⟩
  exact (capCalls_outline.sound hstart h).store.kept

/-! ## A charge during a check -/

/-- One dollar a day, ten a month. -/
def dayCap : SpendCap :=
  { id := 0, workspaceId := 0, provider := none, dailyCapUsd := 10000, monthlyCapUsd := 100000 }

theorem dayCap_key (id : Nat) : Keyed.key { dayCap with id } = id := rfl

/-- Two runs of the demo workspace under that cap. -/
def cappedDb : Db :=
  { replay step demoDb [.startRun 0 0 0, .startRun 0 0 0] with
    spendCaps := oneRow (fun id => { dayCap with id }) dayCap_key }

theorem cappedDb_held :
    dayCap ∈ cappedDb.spendCaps ∧ cappedDb.ReservedAtHome ∧ dayCap.Kept cappedDb := by
  have hnone : ∀ v ∈ cappedDb.reservations, False := by decide +kernel
  have hstored : dayCap ∈ cappedDb.spendCaps.rows := by decide +kernel
  refine ⟨hstored, fun v hv => (hnone v hv).elim, ?_⟩
  unfold SpendCap.Kept
  decide +kernel

def reserveFor (runId : Nat) : SpendRequest := .reserve ⟨runId, .idea, draftDeskProvider, 6000⟩

/-- The first run's estimate is reserved, and the second asks for as much after the first was
charged. -/
def chargeBefore : List (Action SpendRequest Nat) :=
  [.start (reserveFor 0)] ++ List.replicate 8 (.run 0) ++
    [.commit 0, .start (.commit (.newest 0 .idea) (.ofGrid 4000)), .run 1, .run 1, .commit 1,
      .start (reserveFor 1)] ++
    List.replicate 8 (.run 2) ++ [.commit 2]

theorem cap_held_charged :
    dayCap.Kept (replay spendCalls.step { store := { db := cappedDb } } chargeBefore).store.db ∧
      usageWithout (replay spendCalls.step { store := { db := cappedDb } } chargeBefore).store.db
        dayCap [] 0 = 10000 := by
  have hadmits : admits spendCalls.step (fitsCap dayCap) { store := { db := cappedDb } }
      chargeBefore = true := by
    decide +kernel
  obtain ⟨hstored, hhome, hkept⟩ := cappedDb_held
  exact ⟨cap_held hstored hhome hkept (reach_replay chargeBefore _ hadmits), by decide +kernel⟩

/-- The first run is charged when the second has summed up the day's logs, and not yet the
reservations. -/
def chargeBetween : List (Action SpendRequest Nat) :=
  [.start (reserveFor 0)] ++ List.replicate 8 (.run 0) ++
    [.commit 0, .start (.commit (.newest 0 .idea) (.ofGrid 6000)), .run 1, .start (reserveFor 1),
      .run 2, .run 2, .run 2,
     .run 1, .commit 1] ++
    List.replicate 5 (.run 2) ++ [.commit 2]

/-- **The check counts the charge in neither sum**, and the day's limit is exceeded. -/
theorem charge_escapes_check :
    usageWithout (replay spendCalls.step { store := { db := cappedDb } } chargeBetween).store.db
      dayCap [] 0 = 12000 ∧
      ¬ ∀ (cap : SpendCap) (db : Db) (w : World SpendStore SpendLock SpendPoint), cap ∈
        db.spendCaps →
        db.ReservedAtHome → cap.Kept db →
          Reach spendCalls.Steps (fun _ _ => True) { store := { db } } w →
          cap.Kept w.store.db := by
  refine ⟨by decide +kernel, fun h => ?_⟩
  obtain ⟨hstored, hhome, hkept⟩ := cappedDb_held
  have hafter :=
    h dayCap cappedDb (replay spendCalls.step { store := { db := cappedDb } } chargeBetween) hstored
      hhome hkept
    (reach_any chargeBetween _)
  have hexceeded : dayCap.hasRoom
      (replay spendCalls.step { store := { db := cappedDb } } chargeBetween).store.db 0 =
        false := by decide +kernel
  rw [SpendCap.Kept, hexceeded] at hafter
  cases hafter

end ContentOrchestrator

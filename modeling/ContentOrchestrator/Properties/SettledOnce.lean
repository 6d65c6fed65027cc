import ContentOrchestrator.Orchestration.SpendRows
import ContentOrchestrator.System

/-! # One settlement a reservation

A settlement writes over whatever the row has come to since it was read. So long as each
one still finds the row as it needs it, a reservation that is no longer open has been
settled once, for good, and with a log exactly when it was charged. -/

namespace ContentOrchestrator

open Lib

variable {db origin : Db} {s t : SpendStore} {held : List SpendLock} {run : PipelineRun}
  {rows : List SpendReservation} {logs logs' : Table SpendLog} {before : ReservationStatus}
  {v v' : SpendReservation} {means : List SettledBy}

/-- What has become of a reservation, in order. -/
def SpendStore.meansOf (s : SpendStore) (id : Nat) : List SettledBy :=
  (s.settlements.filter (·.reservationId == id)).map (·.means)

def SettledBy.logId? : SettledBy → Option Nat
  | .charge logId => some logId
  | .release => none

structure IsLogOf (v : SpendReservation) (log : SpendLog) : Prop where
  provider : log.provider = v.provider
  stage : log.stage = v.stage
  within : log.costUsd ≤ v.estimatedCostUsd

/-- The status of the row goes with what has become of it. -/
def Accounted (logs : Table SpendLog) (before : ReservationStatus) (v : SpendReservation) :
    List SettledBy → Prop
  | [] => v.status = before
  | [.release] => before = .reserved ∧ v.status = .released
  | [.charge logId] => before = .reserved ∧ v.status = .committed ∧
      ∃ log, logs.get? logId = some log ∧ IsLogOf v log
  | _ => False

def statusAtStart (origin : Db) (id : Nat) : ReservationStatus :=
  (origin.reservations.get? id).elim .reserved (·.status)

/-- Each row is accounted for, and every log is the start's or that of one charge. -/
structure SettledOnce (origin : Db) (s : SpendStore) : Prop where
  rows : ∀ v ∈ s.db.reservations,
    Accounted s.db.spendLogs (statusAtStart origin v.id) v (s.meansOf v.id)
  logs : s.db.spendLogs.rows.map (·.id) =
    origin.spendLogs.rows.map (·.id) ++ s.settlements.filterMap (·.means.logId?)

/-- What the unique index over open rows promises. -/
def OneOpen (db : Db) : Prop :=
  ∀ v ∈ db.reservations, ∀ w ∈ db.reservations, v.status = .reserved → w.status = .reserved →
    v.pipelineRunId = w.pipelineRunId → v.stage = w.stage → v = w

/-- The rows about to be written back have not been settled otherwise since they were read; what is
charged is of no concern if it was read under the lock of the run's events. -/
def SpendPoint.findsOpen (db : Db) : SpendPoint → Bool
  | .releasing _ [] released .done | .denied _ released =>
    released.all fun v => !(db.reservations.get? v.id).any (·.status == .committed)
  | .opened x => x.released.all fun v => !(db.reservations.get? v.id).any (·.status == .committed)
  | .charged c =>
    c.readLocked || (db.reservations.get? c.reservation.id).any (·.status == .reserved)
  | _ => true

/-- A commit finds its reservations as it needs them. -/
def settlesOpen (w : World SpendStore SpendLock SpendPoint) : Action SpendRequest Nat → Bool
  | .commit id => (w.running.get? id).all fun x => x.locals.findsOpen w.store.db
  | _ => true

/-! ## One row -/

theorem Accounted.release_iff (h : Accounted logs before v means) :
    Accounted logs before (SpendReservation.release.apply v)
      (means ++ if v.status = .released then [] else [.release]) ↔ v.status ≠ .committed := by
  rcases means with _ | ⟨m, rest⟩
  · obtain rfl : v.status = before := h
    cases hstatus : v.status with
    | reserved => exact iff_of_true ⟨rfl, rfl⟩ (by simp)
    | committed =>
      refine iff_of_false (fun hafter => ?_) (by simp)
      cases hafter.1
    | released => exact iff_of_true rfl (by simp)
  · rcases rest with _ | ⟨m', rest⟩
    · cases m with
      | release =>
        obtain ⟨hbefore, hstatus⟩ := h
        rw [if_pos hstatus, hstatus]
        exact iff_of_true ⟨hbefore, rfl⟩ (by simp)
      | charge logId =>
        obtain ⟨-, hstatus, -⟩ := h
        rw [hstatus]
        exact iff_of_false (fun hafter => hafter) (by simp)
    · cases m <;> exact absurd h id

theorem Accounted.charge_iff {logId : Nat} {log : SpendLog} (h : Accounted logs before v means)
    (hlog : logs'.get? logId = some log) (hof : IsLogOf v log) :
    Accounted logs' before (SpendReservation.commit.apply v) (means ++ [.charge logId]) ↔
      v.status = .reserved := by
  rcases means with _ | ⟨m, rest⟩
  · obtain rfl : v.status = before := h
    exact ⟨fun hafter => hafter.1, fun hopen =>
      ⟨hopen, rfl, log, hlog, hof.provider, hof.stage, hof.within⟩⟩
  · rcases rest with _ | ⟨m', rest⟩
    · have hsettled : v.status ≠ .reserved := by
        cases m with
        | release => simp [h.2]
        | charge logId => simp [h.2.1]
      refine iff_of_false (fun hafter => ?_) hsettled
      cases m <;> exact hafter
    · cases m <;> exact absurd h id

theorem Accounted.mono (h : Accounted logs before v means)
    (hlogs : ∀ k log, logs.get? k = some log → logs'.get? k = some log) :
    Accounted logs' before v means := by
  rcases means with _ | ⟨m, rest⟩
  · exact h
  · rcases rest with _ | ⟨m', rest⟩
    · cases m with
      | release => exact h
      | charge logId =>
        obtain ⟨hbefore, hstatus, log, hlog, hof⟩ := h
        exact ⟨hbefore, hstatus, log, hlogs _ _ hlog, hof⟩
    · cases m <;> exact h

/-- **What is settled stays so**, whatever more is recorded. -/
theorem Accounted.stays {more : List SettledBy} (h : Accounted logs before v means)
    (h' : Accounted logs' before v' (means ++ more)) (hsettled : v.status ≠ .reserved) :
    v'.status = v.status := by
  rcases means with _ | ⟨m, rest⟩
  · obtain rfl : v.status = before := h
    rcases more with _ | ⟨m, rest⟩
    · exact h'
    · rcases rest with _ | ⟨m', rest⟩
      · cases m with
        | release => exact absurd h'.1 hsettled
        | charge logId => exact absurd h'.1 hsettled
      · cases m <;> exact absurd h' id
  · rcases rest with _ | ⟨m', rest⟩
    · rcases more with _ | ⟨m', more⟩
      · cases m with
        | release => exact h'.2.trans h.2.symm
        | charge logId => exact h'.2.1.trans h.2.1.symm
      · cases m <;> exact absurd h' id
    · cases m <;> exact absurd h id

/-! ## The store -/

theorem meansOf_append {more : List Settlement} {id : Nat}
    (h : t.settlements = s.settlements ++ more) :
    t.meansOf id = s.meansOf id ++ ((more.filter (·.reservationId == id)).map (·.means)) := by
  simp [SpendStore.meansOf, h]

/-- Of distinct rows one at most is the row of a key. -/
theorem released_once {p : SpendReservation → Bool} {id : Nat} (hrows : (rows.map (·.id)).Nodup) :
    ((((rows.filter p).map fun v => (⟨v.id, .release⟩ : Settlement)).filter
    (·.reservationId == id)).map (·.means)) =
      if rows.any fun v => v.id == id && p v then [.release] else [] := by
  induction rows with
  | nil => rfl
  | cons v rows ih =>
    obtain ⟨hfirst, hrest⟩ := List.nodup_cons.mp hrows
    have hlater := ih hrest
    by_cases hid : v.id = id
    · have hnone : (rows.any fun w => w.id == id && p w) = false := by
        refine List.any_eq_false.mpr fun w hw htaken => ?_
        have hsame : w.id = v.id :=
          (beq_iff_eq.mp (Bool.and_eq_true_iff.mp htaken).1).trans hid.symm
        have hagain : v.id ∈ rows.map (·.id) := hsame ▸ List.mem_map_of_mem hw
        exact hfirst hagain
      rw [hnone] at hlater
      cases hp : p v with
      | true => simpa [hp, hid] using hlater
      | false => simpa [hp, hid, hnone] using hlater
    · cases hp : p v with
      | true => simpa [hp, hid] using hlater
      | false => simpa [hp, hid] using hlater

theorem meansOf_release (hrows : (rows.map (·.id)).Nodup) (hv : v ∈ s.db.reservations) :
    (s.release run rows).meansOf v.id =
      s.meansOf v.id ++ if v.id ∈ rows.map (·.id) ∧ v.status ≠ .released then [.release]
        else [] := by
  rw [meansOf_append (s := s) rfl, released_once hrows]
  congr 1
  refine if_congr ?_ rfl rfl
  have hfound : s.db.reservations.get? v.id = some v := Table.get?_of_mem hv
  simp only [List.any_eq_true, Bool.and_eq_true, beq_iff_eq, List.mem_map]
  constructor
  · rintro ⟨w, hw, hid, hopen⟩
    rw [hid, hfound] at hopen
    exact ⟨⟨w, hw, hid⟩, by simpa using hopen⟩
  · rintro ⟨⟨w, hw, hid⟩, hopen⟩
    refine ⟨w, hw, hid, ?_⟩
    rw [hid, hfound]
    simpa using hopen

theorem SettledOnce.release_iff (h : SettledOnce origin s) (hrows : KnowsRows s.db rows) :
    SettledOnce origin (s.release run rows) ↔
      (rows.all fun v => !(s.db.reservations.get? v.id).any (·.status == .committed)) = true := by
  have hlogs : (s.release run rows).db.spendLogs = s.db.spendLogs :=
    releaseEach_frame.2.2.2.2.2.2.2.2
  have hafter : (s.release run rows).db.reservations =
      s.db.reservations.modifyWhere (fun v => (rows.map (·.id)).contains v.id)
        SpendReservation.release :=
    releaseEach_where hrows.reserved
  -- a row of the transaction is accounted for as it is written back
  have hrow : ∀ v ∈ s.db.reservations, v.id ∈ rows.map (·.id) →
      (Accounted s.db.spendLogs (statusAtStart origin v.id) (SpendReservation.release.apply v)
        ((s.release run rows).meansOf v.id) ↔ v.status ≠ .committed) := by
    intro v hv hid
    rw [meansOf_release hrows.distinct hv, ← (h.rows v hv).release_iff]
    by_cases hstatus : v.status = .released
    · simp [hid, hstatus]
    · simp [hid, hstatus]
  rw [List.all_eq_true]
  constructor
  · intro hsettled v hv
    obtain ⟨w, hw, hterms⟩ := hrows.found v hv
    obtain ⟨hmem, hid⟩ := Table.get?_eq_some.mp hw
    have hmine : w.id ∈ rows.map (·.id) := by
      rw [hterms.id]
      exact List.mem_map_of_mem hv
    have haccounted := hsettled.rows (SpendReservation.release.apply w) (by
      rw [hafter]
      exact Table.mem_modifyWhere.mpr ⟨w, hmem, if_pos (List.contains_iff_mem.mpr hmine)⟩)
    rw [hlogs] at haccounted
    have hopen := (hrow w hmem hmine).mp haccounted
    simpa [hw] using hopen
  · intro hopen
    refine ⟨fun v' hv' => ?_, ?_⟩
    · rw [hafter] at hv'
      obtain ⟨v, hv, rfl⟩ := Table.mem_modifyWhere.mp hv'
      rw [hlogs]
      split
      · rename_i hmine
        have hid : v.id ∈ rows.map (·.id) := List.contains_iff_mem.mp hmine
        obtain ⟨w, hw, hsame⟩ := List.mem_map.mp hid
        have hfound : s.db.reservations.get? v.id = some v := Table.get?_of_mem hv
        have hstatus := hopen w hw
        rw [hsame, hfound] at hstatus
        exact (hrow v hv hid).mpr (by simpa using hstatus)
      · rename_i hother
        have hid : v.id ∉ rows.map (·.id) := fun hid => hother (List.contains_iff_mem.mpr hid)
        rw [meansOf_release hrows.distinct hv, if_neg fun hmine => hid hmine.1, List.append_nil]
        exact h.rows v hv
    · have hnone : ∀ released : List SpendReservation,
          (released.map fun v => (⟨v.id, .release⟩ : Settlement)).filterMap (·.means.logId?) =
            [] := by
        intro released
        rw [List.filterMap_map, List.filterMap_eq_nil_iff]
        exact fun _ _ => rfl
      rw [hlogs, h.logs, SpendStore.release, List.filterMap_append, hnone, List.append_nil]

theorem SettledOnce.charge_iff {c : Charge} (h : SettledOnce origin s) (hc : c.Knows s.db held) :
    SettledOnce origin (s.charge c) ↔
      (s.db.reservations.get? c.reservation.id).any (·.status == .reserved) = true := by
  obtain ⟨w, hw, hterms⟩ := hc.row
  obtain ⟨hmem, hid⟩ := Table.get?_eq_some.mp hw
  have hafter : (s.charge c).db.reservations =
      s.db.reservations.modify c.reservation.id SpendReservation.commit := rfl
  have hlogs : (s.charge c).db.spendLogs =
      s.db.spendLogs.insert (newSpendLog c.run c.reservation c.costUsd
        { s.db with now := c.occurredAt }) := rfl
  have hmeans : ∀ id, (s.charge c).meansOf id =
      s.meansOf id ++ if id = c.reservation.id then [.charge s.db.spendLogs.next] else [] := by
    intro id
    rw [meansOf_append (s := s) rfl]
    by_cases hone : id = c.reservation.id
    · simp [hone]
    · simp [hone, Ne.symm hone]
  have hkept : ∀ k log, s.db.spendLogs.get? k = some log →
      (s.charge c).db.spendLogs.get? k = some log := by
    intro k log hlog
    rw [hlogs, Table.get?_insert, if_neg, hlog]
    rintro rfl
    rw [Table.get?_next] at hlog
    cases hlog
  have hnew : (s.charge c).db.spendLogs.get? s.db.spendLogs.next =
      some ((newSpendLog c.run c.reservation c.costUsd { s.db with now := c.occurredAt }).make
        s.db.spendLogs.next) := by
    rw [hlogs, Table.get?_insert, if_pos rfl]
  have hof : IsLogOf w
      ((newSpendLog c.run c.reservation c.costUsd { s.db with now := c.occurredAt }).make
        s.db.spendLogs.next) :=
    ⟨hterms.provider.symm, hterms.stage.symm, hterms.estimatedCostUsd.symm ▸ hc.within⟩
  have hrow : Accounted (s.charge c).db.spendLogs (statusAtStart origin w.id)
      (SpendReservation.commit.apply w)
      ((s.charge c).meansOf w.id) ↔ w.status = .reserved := by
    rw [hmeans, if_pos hterms.id]
    exact (h.rows w hmem).charge_iff hnew hof
  rw [hw, Option.any_some, beq_iff_eq, ← hrow]
  constructor
  · intro hsettled
    refine hsettled.rows (SpendReservation.commit.apply w) ?_
    rw [hafter]
    exact Table.mem_modify.mpr ⟨w, hmem, if_pos hid⟩
  · intro haccounted
    refine ⟨fun v' hv' => ?_, ?_⟩
    · rw [hafter] at hv'
      obtain ⟨v, hv, rfl⟩ := Table.mem_modify.mp hv'
      split
      · rename_i hmine
        obtain rfl : v = w := Table.eq_of_key hv hmem (hmine.trans hid.symm)
        exact haccounted
      · rename_i hother
        have hne : v.id ≠ c.reservation.id := hother
        rw [hmeans, if_neg hne, List.append_nil]
        exact (h.rows v hv).mono hkept
    · rw [hlogs]
      simp [Table.insert, newSpendLog, SpendStore.charge, h.logs, SettledBy.logId?]

theorem SettledOnce.congr (hrows : t.db.reservations = s.db.reservations)
    (hlogs : t.db.spendLogs = s.db.spendLogs) (hsettlements : t.settlements = s.settlements) :
    SettledOnce origin t ↔ SettledOnce origin s := by
  have hmeans : ∀ id, t.meansOf id = s.meansOf id :=
    fun id => by rw [SpendStore.meansOf, hsettlements]; rfl
  constructor
  · intro h
    refine ⟨fun v hv => ?_, ?_⟩
    · have hrow := h.rows v (hrows ▸ hv)
      rw [hlogs, hmeans] at hrow
      exact hrow
    · rw [← hlogs, ← hsettlements]
      exact h.logs
  · intro h
    refine ⟨fun v hv => ?_, ?_⟩
    · rw [hrows] at hv
      rw [hlogs, hmeans]
      exact h.rows v hv
    · rw [hlogs, hsettlements]
      exact h.logs

/-- What is recorded is about rows that are there, and of each stage one row at most is open. -/
structure SpendStore.Sound (origin : Db) (s : SpendStore) : Prop where
  known : ∀ e ∈ s.settlements, e.reservationId < s.db.reservations.next
  grown : origin.reservations.next ≤ s.db.reservations.next
  single : OneOpen s.db

theorem OneOpen.moves {db' : Db} (h : OneOpen db) (hmove : MovesLedger held db db')
    (hnone : ∀ runId stage, .openRow runId stage ∉ held) : OneOpen db' := by
  intro v' hv' w' hw' hv hw hrun hstage
  have hback : ∀ v ∈ db'.reservations, v.status = .reserved → v ∈ db.reservations := by
    intro v hv hopen
    rcases hmove.rows.new v hv with ⟨u, hu, hsettles⟩ | hnew
    · rw [hsettles.same hopen]
      exact hu
    · exact absurd hnew (hnone _ _)
  exact h v' (hback v' hv' hv) w' (hback w' hw' hw) hv hw hrun hstage

theorem OneOpen.open {stage : ContentStage} {provider : String} {estimate : Nat} (h : OneOpen db)
    (hnone : db.reservations.select (·.isOpenFor run.id stage) = []) :
    OneOpen (openReservation run stage provider estimate db) := by
  have hfirst : ∀ v ∈ db.reservations, v.status = .reserved →
      ¬ (v.pipelineRunId = run.id ∧ v.stage = stage) := by
    rintro v hv hopen ⟨hrun, hstage⟩
    have hclosed := Table.select_eq_nil.mp hnone v hv
    simp [SpendReservation.isOpenFor, hrun, hstage, hopen] at hclosed
  intro v hv w hw hvopen hwopen hrun hstage
  rw [openReservation_frame.2.2.2.2.1] at hv hw
  rcases Table.mem_insert.mp hv with hv | rfl
  · rcases Table.mem_insert.mp hw with hw | rfl
    · exact h v hv w hw hvopen hwopen hrun hstage
    · exact absurd ⟨hrun, hstage⟩ (hfirst v hv hvopen)
  · rcases Table.mem_insert.mp hw with hw | rfl
    · exact absurd ⟨hrun.symm, hstage.symm⟩ (hfirst w hw hwopen)
    · rfl

theorem SpendStore.Sound.release (hs : s.Sound origin) (hrows : KnowsRows s.db rows) :
    (s.release run rows).Sound origin := by
  have hnext : (s.release run rows).db.reservations.next = s.db.reservations.next :=
    (congrArg Table.next (releaseEach_where hrows.reserved)).trans Table.next_modifyWhere
  refine ⟨fun e he => ?_, ?_, hs.single.moves (MovesLedger.release_locked hrows) fun _ _ => by simp⟩
  · rw [hnext]
    rcases List.mem_append.mp he with he | he
    · exact hs.known e he
    · obtain ⟨v, hv, rfl⟩ := List.mem_map.mp he
      obtain ⟨w, hw, -⟩ := hrows.found v (List.mem_filter.mp hv).1
      obtain ⟨hmem, hid⟩ := Table.get?_eq_some.mp hw
      exact hid ▸ Table.key_lt hmem
  · rw [hnext]
    exact hs.grown

theorem SpendStore.Sound.charge {c : Charge} (hs : s.Sound origin) (hc : c.Knows s.db held) :
    (s.charge c).Sound origin := by
  have hnext : (s.charge c).db.reservations.next = s.db.reservations.next := Table.next_modify
  have hmove : MovesLedger [.events c.reservation.pipelineRunId] s.db (s.charge c).db :=
    .charge hc.row List.mem_cons_self
  refine ⟨fun e he => ?_, ?_, hs.single.moves hmove fun _ _ => by simp⟩
  · rw [hnext]
    rcases List.mem_append.mp he with he | he
    · exact hs.known e he
    · rw [List.mem_singleton.mp he]
      obtain ⟨w, hw, -⟩ := hc.row
      obtain ⟨hmem, hid⟩ := Table.get?_eq_some.mp hw
      exact hid ▸ Table.key_lt hmem
  · rw [hnext]
    exact hs.grown

theorem SpendStore.Sound.open {stage : ContentStage} {provider : String} {estimate : Nat}
    (hs : s.Sound origin) (hnone : s.db.reservations.select (·.isOpenFor run.id stage) = []) :
    (s.onDb (openReservation run stage provider estimate)).Sound origin := by
  have hnext : (s.onDb (openReservation run stage provider estimate)).db.reservations.next =
      s.db.reservations.next + 1 :=
    (congrArg Table.next openReservation_frame.2.2.2.2.1).trans Table.next_insert
  refine ⟨fun e he => ?_, ?_, hs.single.open hnone⟩
  · rw [hnext]
    exact Nat.lt_succ_of_lt (hs.known e he)
  · rw [hnext]
    exact Nat.le_succ_of_le hs.grown

theorem SpendStore.Sound.pause (hs : s.Sound origin) :
    (s.onDb (pauseForSpend run)).Sound origin := by
  have hrows : (s.onDb (pauseForSpend run)).db.reservations = s.db.reservations :=
    pauseForSpend_frame.2.2.2.2.1
  refine ⟨fun e he => ?_, ?_, hs.single.moves MovesLedger.pause fun _ _ => List.not_mem_nil⟩
  · rw [hrows]
    exact hs.known e he
  · rw [hrows]
    exact hs.grown

theorem SettledOnce.pause_iff :
    SettledOnce origin (s.onDb (pauseForSpend run)) ↔ SettledOnce origin s :=
  SettledOnce.congr pauseForSpend_frame.2.2.2.2.1 (by simp [SpendStore.onDb, pauseForSpend]) rfl

theorem SettledOnce.open_iff {stage : ContentStage} {provider : String} {estimate : Nat}
    (hs : s.Sound origin) :
    SettledOnce origin (s.onDb (openReservation run stage provider estimate)) ↔
      SettledOnce origin s := by
  have hlogs : (openReservation run stage provider estimate s.db).spendLogs = s.db.spendLogs := by
    simp [openReservation]
  have hrows : (openReservation run stage provider estimate s.db).reservations =
      s.db.reservations.insert (newReservation run stage provider estimate s.db) :=
        openReservation_frame.2.2.2.2.1
  have hmeans : ∀ id, (s.onDb (openReservation run stage provider estimate)).meansOf id =
      s.meansOf id := fun _ => rfl
  constructor
  · intro h
    refine ⟨fun v hv => ?_, ?_⟩
    · have hrow := h.rows v (by
        rw [SpendStore.onDb, hrows]
        exact Table.mem_insert.mpr (.inl hv))
      rw [SpendStore.onDb, hlogs] at hrow
      exact hrow
    · rw [← hlogs]
      exact h.logs
  · intro h
    refine ⟨fun v hv => ?_, ?_⟩
    · rw [SpendStore.onDb, hrows] at hv
      rw [SpendStore.onDb, hlogs]
      rcases Table.mem_insert.mp hv with hv | rfl
      · exact h.rows v hv
      · -- nothing has been recorded of a new row, at the start nor since
        have hnone : s.meansOf s.db.reservations.next = [] := by
          refine List.map_eq_nil_iff.mpr (List.filter_eq_nil_iff.mpr fun e he => ?_)
          have hlt := hs.known e he
          simp only [beq_iff_eq]
          omega
        have hstart : origin.reservations.get? s.db.reservations.next = none := by
          refine Table.get?_eq_none.mpr fun v hv hid => ?_
          have hlt : v.id < origin.reservations.next := Table.key_lt hv
          have hgrown := hs.grown
          have hsame : v.id = s.db.reservations.next := hid
          omega
        have hbefore : statusAtStart origin s.db.reservations.next = .reserved := by
          rw [statusAtStart, hstart]
          rfl
        have haccounted : Accounted s.db.spendLogs (statusAtStart origin s.db.reservations.next)
            ((newReservation run stage provider estimate s.db).make s.db.reservations.next)
            (s.meansOf s.db.reservations.next) := by
          rw [hnone, hbefore]
          rfl
        exact haccounted
    · rw [SpendStore.onDb, hlogs]
      exact h.logs

/-! ## The transactions -/

/-- Under the lock of the events the reservation is open still. -/
theorem Charge.Knows.findsOpen_iff {c : Charge} (h : c.Knows db held) :
    (SpendPoint.charged c).findsOpen db = true ↔
      (db.reservations.get? c.reservation.id).any (·.status == .reserved) = true := by
  rw [SpendPoint.findsOpen, Bool.or_eq_true, or_iff_right_iff_imp]
  intro hread
  obtain ⟨-, hfound, hopen⟩ := h.fresh hread
  rw [hfound, Option.any_some, hopen]
  rfl

/-- A commit accounts for its reservations exactly when it finds them open. -/
theorem SpendPoint.commit_settles {point : SpendPoint} {u : SpendStore → SpendStore}
    (h : point.Knows s.db held) (hs : s.Sound origin) (hcommit : point.commit = some u) :
    (u s).Sound origin ∧
      (SettledOnce origin s → (SettledOnce origin (u s) ↔ point.findsOpen s.db = true)) := by
  cases point with
  | releasing run todo released after =>
    cases todo with
    | cons v todo => cases hcommit
    | nil =>
      cases after with
      | done =>
        cases hcommit
        exact ⟨hs.release h.2.1, fun hsettled => hsettled.release_iff h.2.1⟩
      | _ => cases hcommit
  | denied run released =>
    cases hcommit
    refine ⟨(hs.release h.2.1).pause, fun hsettled => ?_⟩
    exact SettledOnce.pause_iff.trans (hsettled.release_iff h.2.1)
  | opened x =>
    cases hcommit
    refine ⟨(hs.release h.1.rows).open h.2.1, fun hsettled => ?_⟩
    exact (SettledOnce.open_iff (hs.release h.1.rows)).trans (hsettled.release_iff h.1.rows)
  | charged c =>
    cases hcommit
    exact ⟨hs.charge h.1, fun hsettled => (hsettled.charge_iff h.1).trans h.1.findsOpen_iff.symm⟩
  | _ => cases hcommit

theorem SpendPoint.findsOpen_of_unfinished {point : SpendPoint} (h : point.commit = none) :
    point.findsOpen db = true := by
  cases point with
  | releasing run todo released after =>
    cases todo with
    | cons v todo => rfl
    | nil =>
      cases after with
      | done => cases h
      | _ => rfl
  | denied _ _ | opened _ | charged _ => cases h
  | _ => rfl

theorem spendCalls_outline :
    Outline spendCalls (fun _ _ => True) (SpendStore.Sound origin) fun s held point =>
      point.Knows s.db held where
  starts _ _ := trivial
  runs hw hx _ hnext _ := SpendPoint.next_knows (hw.running _ hx) hnext
  commits := by
    intro w x u hw hx _ hcommit
    have hmoves : MovesLedger x.held w.store.db (u w.store).db :=
      SpendPoint.commit_moves (hw.running x hx) hcommit
    refine ⟨(SpendPoint.commit_settles (hw.running x hx) hw.store hcommit).1, fun y hy hne => ?_⟩
    exact SpendPoint.Knows.moves (hw.running y hy) hmoves fun k hk =>
      hw.exclusive y hy x hx hne k hk
  others := by
    intro w elapsed hw _ _
    refine ⟨⟨hw.store.known, hw.store.grown, hw.store.single⟩, fun y hy => ?_⟩
    have hmoves : MovesLedger [] w.store.db (spendCalls.apply elapsed w.store).db :=
      .of_same rfl rfl rfl
    exact SpendPoint.Knows.moves (hw.running y hy) hmoves fun _ _ => List.not_mem_nil

theorem spendCalls_step {w : World SpendStore SpendLock SpendPoint} (a : Action SpendRequest Nat)
    (hw : w.Holds (SpendStore.Sound origin) fun s held point => point.Knows s.db held)
    (hsettled : SettledOnce origin w.store) :
    SettledOnce origin (spendCalls.step w a).store ↔ settlesOpen w a = true := by
  cases a with
  | commit id =>
    cases hfound : w.running.get? id with
    | none =>
      simp only [Code.step, settlesOpen, hfound, Option.bind_none, Option.all_none]
      exact iff_of_true hsettled trivial
    | some x =>
      cases hcommit : x.locals.commit with
      | none =>
        have hidle : spendCalls.commit x.locals = none := hcommit
        simp only [Code.step, settlesOpen, hfound, Option.bind_some, hidle, Option.all_some]
        exact iff_of_true hsettled (SpendPoint.findsOpen_of_unfinished hcommit)
      | some u =>
        have hdone : spendCalls.commit x.locals = some u := hcommit
        simp only [Code.step, settlesOpen, hfound, Option.bind_some, hdone, Option.all_some]
        have hknows := hw.running x (Table.get?_eq_some.mp hfound).1
        exact (SpendPoint.commit_settles hknows hw.store hcommit).2 hsettled
  | other elapsed =>
    refine iff_of_true ?_ rfl
    rw [Code.step]
    split
    · have hsame : SettledOnce origin (spendCalls.apply elapsed w.store) ↔
          SettledOnce origin w.store :=
        SettledOnce.congr rfl rfl rfl
      exact hsame.mpr hsettled
    · exact hsettled
  | run id =>
    refine iff_of_true ?_ rfl
    have hstore : (spendCalls.step w (.run id)).store = w.store := by
      rw [Code.step]
      split
      · rfl
      · split
        · rfl
        · split <;> rfl
    rw [hstore]
    exact hsettled
  | start request => exact iff_of_true hsettled rfl
  | abort id => exact iff_of_true hsettled rfl

/-- Settlements are added, and rows stay. -/
structure Later (origin : Db) (w w' : World SpendStore SpendLock SpendPoint) : Prop where
  holds : w'.Holds (SpendStore.Sound origin) fun s held point => point.Knows s.db held
  settlements : w.store.settlements <+: w'.store.settlements
  rows : ∀ v ∈ w.store.db.reservations, ∃ v', w'.store.db.reservations.get? v.id = some v'

theorem SpendPoint.commit_grows {point : SpendPoint} {u : SpendStore → SpendStore}
    (hcommit : point.commit = some u) :
    s.settlements <+: (u s).settlements := by
  cases point with
  | releasing run todo released after =>
    cases todo with
    | cons v todo => cases hcommit
    | nil =>
      cases after with
      | done =>
        cases hcommit
        exact List.prefix_append _ _
      | _ => cases hcommit
  | denied _ _ | opened _ | charged _ =>
    cases hcommit
    exact List.prefix_append _ _
  | _ => cases hcommit

theorem spendCalls_later {w : World SpendStore SpendLock SpendPoint} (a : Action SpendRequest Nat)
    (hw : w.Holds (SpendStore.Sound origin) fun s held point => point.Knows s.db held) :
    Later origin w (spendCalls.step w a) := by
  have hstays : ∀ v ∈ w.store.db.reservations, ∃ v', w.store.db.reservations.get? v.id = some v' :=
    fun v hv => ⟨v, Table.get?_of_mem hv⟩
  have hholds := spendCalls_outline.step hw (a := a) trivial
  rcases spendCalls.step_cases w a with heq | heffect
  · rw [heq]
    exact ⟨hw, List.prefix_refl _, hstays⟩
  · generalize spendCalls.step w a = w' at heffect hholds
    cases heffect with
    | committed x found commit =>
      refine ⟨hholds, SpendPoint.commit_grows commit, fun v hv => ?_⟩
      have hmoves := SpendPoint.commit_moves (hw.running x (Table.get?_eq_some.mp found).1) commit
      obtain ⟨v', hv', hsettles⟩ := hmoves.rows.old v hv
      exact ⟨v', hsettles.terms.id ▸ Table.get?_of_mem hv'⟩
    | _ => exact ⟨hholds, List.prefix_refl _, hstays⟩

/-- The state of a run after some of its steps. -/
def spendRun (db : Db) (actions : List (Action SpendRequest Nat)) (n : Nat) :
    World SpendStore SpendLock SpendPoint :=
  replay spendCalls.step { store := { db } } (actions.take n)

/-- All rows are accounted for, one of a stage at most is open, and whoever lost it to another has
left nothing. -/
structure ExactlyOnce (origin : Db) (w : World SpendStore SpendLock SpendPoint) : Prop where
  settled : SettledOnce origin w.store
  single : OneOpen w.store.db
  losers : ∀ x ∈ w.running, x.locals = .refused →
    ∀ a ∈ [Action.run x.id, .commit x.id, .abort x.id], (spendCalls.step w a).store = w.store

theorem refused_leaves_nothing {w : World SpendStore SpendLock SpendPoint}
    {x : Tx SpendLock SpendPoint} (hx : x ∈ w.running) (hrefused : x.locals = .refused) :
    ∀ a ∈ [Action.run x.id, .commit x.id, .abort x.id], (spendCalls.step w a).store = w.store := by
  have hfound : w.running.get? x.id = some x := Table.get?_of_mem hx
  have hnext : spendCalls.next w.store (w.taken x.id) x.held x.locals = none := by
    rw [hrefused]; rfl
  have hcommit : spendCalls.commit x.locals = none := by rw [hrefused]; rfl
  intro a ha
  simp only [List.mem_cons, List.not_mem_nil, or_false] at ha
  rcases ha with rfl | rfl | rfl
  · simp only [Code.step, hfound, hnext]
  · simp only [Code.step, hfound, Option.bind_some, hcommit]
  · rfl

/-- **Each reservation is settled once, and for good**, in every state of a run, exactly when every
commit still finds its reservations open: a release none that was charged, and a charge on a row
its caller has loaded a reserved one. A submitted result always does. -/
theorem settles_exactly_once (hopen : OneOpen db) (actions : List (Action SpendRequest Nat)) :
    (∀ n, ExactlyOnce db (spendRun db actions n) ∧
        ∀ m, n ≤ m → ∀ v ∈ (spendRun db actions n).store.db.reservations, v.status ≠ .reserved →
          ∃ v', (spendRun db actions m).store.db.reservations.get? v.id = some v' ∧
            v'.status = v.status) ↔
      admits spendCalls.step settlesOpen { store := { db } } actions = true := by
  have hstart : World.Holds (SpendStore.Sound db) (fun s held point => point.Knows s.db held)
      ({ store := { db } } : World SpendStore SpendLock SpendPoint) :=
    .idle ⟨fun _ he => absurd he List.not_mem_nil, Nat.le_refl _, hopen⟩
  have hsettled : SettledOnce db { db } := by
    refine ⟨fun v hv => ?_, (List.append_nil _).symm⟩
    have hfound : db.reservations.get? v.id = some v := Table.get?_of_mem hv
    have hbefore : statusAtStart db v.id = v.status := by
      rw [statusAtStart, hfound]
      rfl
    rw [hbefore]
    exact rfl
  have hlater : ∀ {n m : Nat}, n ≤ m →
      Later db (spendRun db actions n) (spendRun db actions m) := by
    intro n m hle
    have hall : ∀ {n m : Nat}, n ≤ m →
        (spendRun db actions n).Holds (SpendStore.Sound db) (fun s held point =>
          point.Knows s.db held) →
          Later db (spendRun db actions n) (spendRun db actions m) := by
      intro n m hle
      refine replay_mono (R := fun w w' : World SpendStore SpendLock SpendPoint =>
        w.Holds (SpendStore.Sound db) (fun s held point => point.Knows s.db held) → Later db w w')
        (fun w hw => ⟨hw, List.prefix_refl _, fun v hv => ⟨v, Table.get?_of_mem hv⟩⟩)
        (fun w w' w'' h h' hw => ?_) (fun w a hw => spendCalls_later a hw) actions
          { store := { db } } hle
      have hfirst := h hw
      have hsecond := h' hfirst.holds
      refine ⟨hsecond.holds, hfirst.settlements.trans hsecond.settlements, fun v hv => ?_⟩
      obtain ⟨v', hv'⟩ := hfirst.rows v hv
      obtain ⟨hmem, hid⟩ := Table.get?_eq_some.mp hv'
      have hkey : v'.id = v.id := hid
      exact hkey ▸ hsecond.rows v' hmem
    exact hall hle (hall (Nat.zero_le n) hstart).holds
  refine Iff.trans ⟨fun h n => (h n).1.settled, fun h n =>
    ⟨⟨h n, ?_, ?_⟩, fun m hle v hv hclosed => ?_⟩⟩
    (throughout_iff_admits (P := fun w : World SpendStore SpendLock SpendPoint =>
      SettledOnce db w.store)
      (fun w a hw => spendCalls_outline.step hw trivial)
        (fun w a hw hsettled => spendCalls_step a hw hsettled) actions
      { store := { db } } hstart hsettled)
  · exact (hlater (Nat.le_refl n)).holds.store.single
  · exact fun x hx hrefused => refused_leaves_nothing hx hrefused
  · obtain ⟨v', hv'⟩ := (hlater hle).rows v hv
    obtain ⟨hmem, hid⟩ := Table.get?_eq_some.mp hv'
    have hkey : v'.id = v.id := hid
    obtain ⟨more, hmore⟩ := (hlater hle).settlements
    have hafter := (h m).rows v' hmem
    rw [hkey, meansOf_append hmore.symm] at hafter
    exact ⟨v', hv', ((h n).rows v hv).stays hafter hclosed⟩

/-! ## A worker's result and the end of its run -/

/-- The demo's first run is at work, with its estimate reserved. -/
def reservedDb : Db :=
  replay step demoDb [.startRun 0 0 0, .startRun 0 0 0, .poll 10 [], .processJob 0 [] 0]

theorem reservedDb_oneOpen : OneOpen reservedDb := by
  unfold OneOpen
  decide +kernel

/-- The run is failed after the result has committed. -/
def resultFirst : List (Action SpendRequest Nat) :=
  [.start (.commit (.newest 0 .idea) (.ofGrid 40)), .run 0, .run 0, .commit 0,
    .start (.releaseAll 0), .run 1, .commit 1]

theorem settles_exactly_once_charged :
    ExactlyOnce reservedDb (spendRun reservedDb resultFirst 7) ∧
      (spendRun reservedDb resultFirst 7).store.settlements = [⟨0, .charge 0⟩] := by
  have hadmits : admits spendCalls.step settlesOpen { store := { db := reservedDb } } resultFirst =
      true := by
    decide +kernel
  exact ⟨((settles_exactly_once reservedDb_oneOpen resultFirst).mpr hadmits 7).1, by decide +kernel⟩

/-- The result commits between the read and the write of the cancellation. -/
def cancelAround : List (Action SpendRequest Nat) :=
  [.start (.releaseAll 0), .run 0, .start (.commit (.newest 0 .idea) (.ofGrid 40)), .run 1, .run 1,
    .commit 1, .run 0, .commit 0]

/-- **A charged reservation is released**: it changes its status again, and keeps its log. -/
theorem charged_then_released :
    (spendRun reservedDb cancelAround 8).store.settlements = [⟨0, .charge 0⟩, ⟨0, .release⟩] ∧
      ((spendRun reservedDb cancelAround 6).store.db.reservations.get? 0).map (·.status) =
        some .committed ∧
      ((spendRun reservedDb cancelAround 8).store.db.reservations.get? 0).map (·.status) =
        some .released ∧
      (spendRun reservedDb cancelAround 8).store.db.spendLogs.rows.map (·.costUsd) = [40] ∧
      ¬ SettledOnce reservedDb (spendRun reservedDb cancelAround 8).store := by
  refine ⟨by decide +kernel, by decide +kernel, by decide +kernel, by decide +kernel,
    fun hsettled => ?_⟩
  have hrow : ∃ v ∈ (spendRun reservedDb cancelAround 8).store.db.reservations, v.id = 0 := by
    decide +kernel
  obtain ⟨v, hv, hid⟩ := hrow
  have hmeans : (spendRun reservedDb cancelAround 8).store.meansOf 0 = [.charge 0, .release] := by
    decide +kernel
  have haccounted := hsettled.rows v hv
  rw [hid, hmeans] at haccounted
  exact haccounted

end ContentOrchestrator

import ContentOrchestrator.Orchestration.SpendLocks

/-! # What a transaction knows of the ledger

A row once read stays under its key with the same terms, and only its status may have
moved on, by one who holds the lock of its run's events: a row read under that lock is as
it was. The rows a transaction has released it has locked; of the index entry it has
locked nobody else can open a row. -/

namespace ContentOrchestrator

open Lib

variable {db db' : Db} {s t : SpendStore} {held : List SpendLock} {run : PipelineRun}
  {todo released rows : List SpendReservation}

/-- The second row has what never changes of the first. -/
structure SameTerms (v w : SpendReservation) : Prop where
  id : w.id = v.id
  workspaceId : w.workspaceId = v.workspaceId
  pipelineRunId : w.pipelineRunId = v.pipelineRunId
  provider : w.provider = v.provider
  stage : w.stage = v.stage
  estimatedCostUsd : w.estimatedCostUsd = v.estimatedCostUsd

theorem SameTerms.refl (v : SpendReservation) : SameTerms v v := ⟨rfl, rfl, rfl, rfl, rfl, rfl⟩

theorem SameTerms.trans {u v w : SpendReservation} (h : SameTerms u v) (h' : SameTerms v w) :
    SameTerms u w :=
  ⟨h'.id.trans h.id, h'.workspaceId.trans h.workspaceId, h'.pipelineRunId.trans h.pipelineRunId,
    h'.provider.trans h.provider, h'.stage.trans h.stage,
      h'.estimatedCostUsd.trans h.estimatedCostUsd⟩

/-- The row is as it was, or settled under the lock of its run's events. -/
structure RowSettles (held : List SpendLock) (v w : SpendReservation) : Prop where
  terms : SameTerms v w
  same : w.status = .reserved → w = v
  locked : w = v ∨ .events v.pipelineRunId ∈ held

theorem RowSettles.refl (v : SpendReservation) : RowSettles held v v :=
  ⟨.refl v, fun _ => rfl, .inl rfl⟩

theorem RowSettles.trans {u v w : SpendReservation} (h : RowSettles held u v)
    (h' : RowSettles held v w) : RowSettles held u w := by
  refine ⟨h.terms.trans h'.terms, fun hopen => ?_, ?_⟩
  · have hv := h'.same hopen
    subst hv
    exact h.same hopen
  · rcases h'.locked with rfl | hlock
    · exact h.locked
    · exact .inr (h.terms.pipelineRunId ▸ hlock)

/-- What a commit under these locks does to the ledger. -/
structure MovesLedger (held : List SpendLock) (db db' : Db) : Prop where
  rows : Table.Evolves (RowSettles held) (fun w => .openRow w.pipelineRunId w.stage ∈ held)
    db.reservations db'.reservations
  runs : Table.Evolves (fun r r' => r'.id = r.id ∧ r'.workspaceId = r.workspaceId)
    (fun _ => False) db.runs db'.runs
  caps : db'.spendCaps = db.spendCaps

theorem MovesLedger.of_same (hrows : db'.reservations = db.reservations)
    (hruns : db'.runs = db.runs) (hcaps : db'.spendCaps = db.spendCaps) : MovesLedger held db db' :=
  ⟨.of_eq .refl hrows, .of_eq (fun _ => ⟨rfl, rfl⟩) hruns, hcaps⟩

theorem MovesLedger.trans {a b c : Db} (h : MovesLedger held a b) (h' : MovesLedger held b c) :
    MovesLedger held a c where
  rows := .trans (fun _ _ _ => RowSettles.trans)
    (fun v w hnew hmove => by rw [hmove.terms.pipelineRunId, hmove.terms.stage]; exact hnew) h.rows
      h'.rows
  runs := .trans (fun _ _ _ h h' => ⟨h'.1.trans h.1, h'.2.trans h.2⟩) (fun _ _ hnew _ => hnew)
    h.runs h'.runs
  caps := h'.caps.trans h.caps

theorem MovesLedger.pause : MovesLedger held db (pauseForSpend run db) where
  rows := .of_eq .refl pauseForSpend_frame.2.2.2.2.1
  runs := .modify (fun _ => ⟨rfl, rfl⟩) (fun _ _ => ⟨rfl, rfl⟩) pauseForSpend_frame.1
  caps := by simp [pauseForSpend]

theorem MovesLedger.open {stage : ContentStage} {provider : String} {estimate : Nat}
    (hlock : SpendLock.openRow run.id stage ∈ held) :
    MovesLedger held db (openReservation run stage provider estimate db) where
  rows := .insert .refl hlock openReservation_frame.2.2.2.2.1
  runs := .of_eq (fun _ => ⟨rfl, rfl⟩) openReservation_frame.1
  caps := by simp [openReservation]

theorem MovesLedger.charge {c : Charge} (hrow : ∃ w, s.db.reservations.get? c.reservation.id =
    some w ∧ SameTerms c.reservation w) (hlock : .events c.reservation.pipelineRunId ∈ held) :
    MovesLedger held s.db (s.charge c).db where
  rows := by
    obtain ⟨w, hw, hterms⟩ := hrow
    refine .modify .refl (fun v hv => ?_) rfl
    obtain rfl : w = v := Option.some.inj (hw.symm.trans hv)
    exact ⟨⟨rfl, rfl, rfl, rfl, rfl, rfl⟩, fun hopen => (by cases hopen),
      .inr (hterms.pipelineRunId ▸ hlock)⟩
  runs := .of_eq (fun _ => ⟨rfl, rfl⟩) rfl
  caps := rfl

/-! ## The rows of one transaction -/

/-- Rows read as reserved, each once, and still under their keys. -/
structure KnowsRows (db : Db) (rows : List SpendReservation) : Prop where
  reserved : ∀ v ∈ rows, v.status = .reserved
  found : ∀ v ∈ rows, ∃ w, db.reservations.get? v.id = some w ∧ SameTerms v w
  distinct : (rows.map (·.id)).Nodup

theorem KnowsRows.same_run (h : KnowsRows db rows) {v : SpendReservation} (hv : v ∈ db.reservations)
    (hid : v.id ∈ rows.map (·.id)) : ∃ w ∈ rows, SameTerms w v := by
  obtain ⟨w, hw, hsame⟩ := List.mem_map.mp hid
  obtain ⟨u, hu, hterms⟩ := h.found w hw
  have hfound : db.reservations.get? v.id = some v := Table.get?_of_mem hv
  rw [hsame, hfound] at hu
  cases hu
  exact ⟨w, hw, hterms⟩

theorem MovesLedger.release (hrows : KnowsRows db rows)
    (hlocks : ∀ v ∈ rows, .events v.pipelineRunId ∈ held) :
    MovesLedger held db (releaseEach run rows db) where
  rows := by
    refine .modifyWhere .refl (fun v hv hid => ?_) (releaseEach_where hrows.reserved)
    obtain ⟨w, hw, hterms⟩ := hrows.same_run hv (List.contains_iff_mem.mp hid)
    exact ⟨⟨rfl, rfl, rfl, rfl, rfl, rfl⟩, fun hopen => (by cases hopen),
      .inr (hterms.pipelineRunId ▸ hlocks w hw)⟩
  runs := .of_eq (fun _ => ⟨rfl, rfl⟩) releaseEach_frame.2.2.2.2.1
  caps := releaseEach_frame.2.2.2.1

theorem MovesLedger.release_locked (hrows : KnowsRows db rows) :
    MovesLedger (rows.map fun v => .events v.pipelineRunId) db (releaseEach run rows db) :=
  .release hrows fun _ hv => List.mem_map_of_mem hv

theorem KnowsRows.moves (h : KnowsRows db rows) (hmove : MovesLedger held db db') :
    KnowsRows db' rows where
  reserved := h.reserved
  found v hv := by
    obtain ⟨w, hw, hterms⟩ := h.found v hv
    obtain ⟨w', hw', hsettles⟩ := hmove.rows.get? (fun _ _ h => h.terms.id) hw
    exact ⟨w', hw', hterms.trans hsettles.terms⟩
  distinct := h.distinct

theorem KnowsRows.perm {rows' : List SpendReservation} (h : KnowsRows db rows)
    (hperm : rows'.Perm rows) :
    KnowsRows db rows' where
  reserved v hv := h.reserved v (hperm.mem_iff.mp hv)
  found v hv := h.found v (hperm.mem_iff.mp hv)
  distinct := (hperm.map _).nodup_iff.mpr h.distinct

theorem knowsRows_nil : KnowsRows db [] :=
  ⟨fun _ hv => absurd hv List.not_mem_nil, fun _ hv => absurd hv List.not_mem_nil, List.nodup_nil⟩

theorem knowsRows_select {p : SpendReservation → Bool}
    (hp : ∀ v, p v = true → v.status = .reserved) :
    KnowsRows db (db.reservations.select p) where
  reserved v hv := hp v (Table.mem_select.mp hv).2
  found v hv := ⟨v, Table.get?_of_mem (Table.mem_select.mp hv).1, .refl v⟩
  distinct := db.reservations.nodup.sublist (List.Sublist.map _ List.filter_sublist)

/-- What is open in a reserver's view it has not released. -/
theorem mem_view (hrows : ∀ v ∈ rows, v.status = .reserved) {v : SpendReservation}
    (hv : v ∈ (releaseEach run rows db).reservations) (hopen : v.status = .reserved) :
    v ∈ db.reservations ∧ v.id ∉ rows.map (·.id) := by
  rw [releaseEach_where hrows] at hv
  obtain ⟨w, hw, rfl⟩ := Table.mem_modifyWhere.mp hv
  split at hopen
  · cases hopen
  · rename_i hkept
    rw [if_neg hkept]
    exact ⟨hw, fun hid => hkept (List.contains_iff_mem.mpr hid)⟩

theorem KnowsRows.rest (h : KnowsRows db released) {p : SpendReservation → Bool}
    (hp : ∀ v, p v = true → v.status = .reserved) :
    KnowsRows db ((releaseEach run released db).reservations.select p ++ released) := by
  have hview : ∀ v ∈ (releaseEach run released db).reservations.select p,
      v.status = .reserved ∧ v ∈ db.reservations ∧ v.id ∉ released.map (·.id) := by
    intro v hv
    obtain ⟨hmem, hv⟩ := Table.mem_select.mp hv
    exact ⟨hp v hv, mem_view h.reserved hmem (hp v hv)⟩
  refine ⟨fun v hv => ?_, fun v hv => ?_, ?_⟩
  · rcases List.mem_append.mp hv with hv | hv
    · exact (hview v hv).1
    · exact h.reserved v hv
  · rcases List.mem_append.mp hv with hv | hv
    · exact ⟨v, Table.get?_of_mem (hview v hv).2.1, .refl v⟩
    · exact h.found v hv
  · rw [List.map_append]
    refine List.Nodup.append ?_ h.distinct fun id hnew hold => ?_
    · exact (releaseEach run released db).reservations.nodup.sublist
        (List.Sublist.map _ List.filter_sublist)
    · obtain ⟨v, hv, rfl⟩ := List.mem_map.mp hnew
      exact (hview v hv).2.2 hold

/-! ## A transaction -/

/-- The run's row is there, in the workspace it was read in. -/
def KnowsRun (db : Db) (run : PipelineRun) : Prop :=
  ∃ row, db.runs.get? run.id = some row ∧ row.workspaceId = run.workspaceId

/-- The rows are locked, and with them the events of their runs. -/
def LockedRows (held : List SpendLock) (rows : List SpendReservation) : Prop :=
  ∀ v ∈ rows, .row v.id ∈ held ∧ .events v.pipelineRunId ∈ held

theorem LockedRows.mono {held' : List SpendLock} (h : LockedRows held rows)
    (hle : ∀ k ∈ held, k ∈ held') : LockedRows held' rows :=
  fun v hv => ⟨hle _ (h v hv).1, hle _ (h v hv).2⟩

theorem lockedRows_nil : LockedRows held [] := fun _ hv => absurd hv List.not_mem_nil

structure Reserver.Knows (db : Db) (held : List SpendLock) (x : Reserver) : Prop where
  run : KnowsRun db x.run
  rows : KnowsRows db x.released
  locked : LockedRows held x.released
  cap : x.cap ∈ db.spendCaps
  home : x.cap.workspaceId = x.run.workspaceId
  filter : x.filter = x.cap.provider
  capLocked : .cap x.cap.id ∈ held

structure Charge.Knows (db : Db) (held : List SpendLock) (c : Charge) : Prop where
  run : KnowsRun db c.run
  owner : c.run.id = c.reservation.pipelineRunId
  row : ∃ w, db.reservations.get? c.reservation.id = some w ∧ SameTerms c.reservation w
  within : c.costUsd ≤ c.reservation.estimatedCostUsd
  /-- What was read under the lock of the events is still so. -/
  fresh : c.readLocked = true → .events c.reservation.pipelineRunId ∈ held ∧
    db.reservations.get? c.reservation.id = some c.reservation ∧ c.reservation.status = .reserved

def SpendPoint.Knows (db : Db) (held : List SpendLock) : SpendPoint → Prop
  | .requested _ | .ended | .refused => True
  | .releasing run todo released _ =>
    KnowsRun db run ∧ KnowsRows db (todo ++ released) ∧ LockedRows held released ∧
      ∀ v ∈ todo, v.pipelineRunId = run.id
  | .exceeded run released | .denied run released =>
    KnowsRun db run ∧ KnowsRows db released ∧ LockedRows held released
  | .capLocked x | .dayLogged x _ | .daySummed x _ | .monthLogged x _ _
  | .admitted x => x.Knows db held
  | .inserted x | .opened x =>
    x.Knows db held ∧ x.rivals db = [] ∧ .openRow x.run.id x.q.stage ∈ held
  | .charging c => c.Knows db held
  | .charged c => c.Knows db held ∧ LockedRows held [c.reservation]

theorem knowsRun_read {runId : Nat} (h : db.runs.get? runId = some run) : KnowsRun db run := by
  obtain ⟨_, rfl⟩ := Table.get?_eq_some.mp h
  exact ⟨run, h, rfl⟩

theorem load_eq_some {target : SpendTarget} {v : SpendReservation}
    (h : target.load db = some (v, run)) :
    v ∈ db.reservations ∧ db.runs.get? v.pipelineRunId = some run := by
  obtain ⟨w, hw, hrun⟩ := Option.bind_eq_some_iff.mp h
  obtain ⟨row, hrow, heq⟩ := Option.map_eq_some_iff.mp hrun
  cases heq
  refine ⟨?_, hrow⟩
  cases target with
  | row reservationId => exact (Table.get?_eq_some.mp hw).1
  | newest runId stage =>
    unfold SpendTarget.find newestOpenReservation at hw
    have hmem := (List.mem_insertionSort _).mp (List.mem_of_mem_head? hw)
    exact (Table.mem_select.mp hmem).1

theorem ofRun_of_isOpenFor {runId : Nat} {stage : ContentStage} {v : SpendReservation}
    (h : v.isOpenFor runId stage = true) : v.pipelineRunId = runId := by
  simp only [SpendReservation.isOpenFor, Bool.and_eq_true, beq_iff_eq] at h
  exact h.1.1

theorem ofRun_of_isOpenOf {runId : Nat} {v : SpendReservation} (h : v.isOpenOf runId = true) :
    v.pipelineRunId = runId := by
  simp only [SpendReservation.isOpenOf, Bool.and_eq_true, beq_iff_eq] at h
  exact h.1

theorem newest_ofRun {runId : Nat} {stage : ContentStage} {v : SpendReservation}
    (h : newestOpenReservation db runId stage = some v) : v.pipelineRunId = runId := by
  unfold newestOpenReservation at h
  have hmem := (List.mem_insertionSort _).mp (List.mem_of_mem_head? h)
  exact ofRun_of_isOpenFor (Table.mem_select.mp hmem).2

theorem beginCharge_knows {v : SpendReservation} {actual : Decimal} {now : Nat} {readLocked : Bool}
    (hv : v ∈ db.reservations) (hrun : db.runs.get? v.pipelineRunId = some run)
    (hlock : readLocked = true → .events v.pipelineRunId ∈ held) :
    (beginCharge run v actual now readLocked).Knows db held := by
  unfold beginCharge
  split
  · rename_i hsettles
    exact ⟨knowsRun_read hrun, (Table.get?_eq_some.mp hrun).2, ⟨v, Table.get?_of_mem hv, .refl v⟩,
      Decimal.clampToGrid_le _ _, fun hread => ⟨hlock hread, Table.get?_of_mem hv, hsettles.1⟩⟩
  · trivial

theorem SpendRequest.read_knows (r : SpendRequest) : (r.read db).Knows db (r.locks ++ held) := by
  have hselect : ∀ {run : PipelineRun} {runId : Nat} {p : SpendReservation → Bool}
      {after : AfterRelease} {held : List SpendLock}, db.runs.get? runId = some run →
      (∀ v, p v = true → v.status = .reserved) → (∀ v, p v = true → v.pipelineRunId = run.id) →
      (SpendPoint.releasing run (db.reservations.select p) [] after).Knows db held := by
    intro run runId p after held hrun hp hof
    refine ⟨knowsRun_read hrun, ?_, lockedRows_nil, fun v hv => hof v (Table.mem_select.mp hv).2⟩
    rw [List.append_nil]
    exact knowsRows_select hp
  cases r with
  | reserve q =>
    dsimp only [SpendRequest.read]
    split
    · trivial
    · exact hselect ‹_› (fun _ hopen => status_of_isOpenFor hopen)
        fun _ hopen => ofRun_of_isOpenFor hopen
  | commit target actualCostUsd =>
    dsimp only [SpendRequest.read]
    split
    · trivial
    · rename_i v run hload
      obtain ⟨hv, hrun⟩ := load_eq_some hload
      refine beginCharge_knows hv hrun fun hsubmitted => ?_
      cases target with
      | row reservationId => cases hsubmitted
      | newest runId stage =>
        obtain ⟨w, hw, hsame⟩ := Option.bind_eq_some_iff.mp hload
        obtain ⟨_, -, heq⟩ := Option.map_eq_some_iff.mp hsame
        cases heq
        rw [newest_ofRun hw]
        exact List.mem_cons_self
  | release target fails =>
    dsimp only [SpendRequest.read]
    split
    · trivial
    · rename_i v run hload
      obtain ⟨hv, hrun⟩ := load_eq_some hload
      have hof : v.pipelineRunId = run.id := (Table.get?_eq_some.mp hrun).2.symm
      refine ⟨knowsRun_read hrun, ?_, lockedRows_nil, fun w hw => ?_⟩
      · rw [List.append_nil]
        split
        · rename_i hopen
          refine ⟨fun w hw => ?_, fun w hw => ?_, List.nodup_singleton _⟩
          · rw [List.mem_singleton.mp hw]
            exact hopen
          · rw [List.mem_singleton.mp hw]
            exact ⟨v, Table.get?_of_mem hv, .refl v⟩
        · exact knowsRows_nil
      · split at hw
        · rw [List.mem_singleton.mp hw]
          exact hof
        · cases hw
  | recover runId stage =>
    dsimp only [SpendRequest.read]
    split
    · trivial
    · exact hselect ‹_› (fun _ hopen => status_of_isOpenFor hopen)
        fun _ hopen => ofRun_of_isOpenFor hopen
  | failRun runId | releaseAll runId =>
    dsimp only [SpendRequest.read]
    split
    · trivial
    · exact hselect ‹_› (fun _ hopen => status_of_isOpenOf hopen)
        fun _ hopen => ofRun_of_isOpenOf hopen

theorem Reserver.Knows.mono {held' : List SpendLock} {x : Reserver} (h : x.Knows db held)
    (hle : ∀ k ∈ held, k ∈ held') : x.Knows db held' :=
  { h with
    locked := h.locked.mono hle
    capLocked := hle _ h.capLocked }

theorem Charge.Knows.mono {held' : List SpendLock} {c : Charge} (h : c.Knows db held)
    (hle : ∀ k ∈ held, k ∈ held') : c.Knows db held' :=
  { h with fresh := fun hread => ⟨hle _ (h.fresh hread).1, (h.fresh hread).2⟩ }

/-- A statement knows what the ones before it have found. -/
theorem SpendPoint.next_knows {point point' : SpendPoint} {taken : SpendLock → Bool}
    {held' : List SpendLock} (h : point.Knows s.db held)
    (hnext : point.next s taken held = some (held', point')) : point'.Knows s.db held' := by
  have hmore : ∀ k : SpendLock, ∀ k' ∈ held, k' ∈ k :: held :=
    fun k k' hk => List.mem_cons_of_mem k hk
  cases point with
  | requested r =>
    cases hnext
    exact r.read_knows
  | releasing run todo released after =>
    obtain ⟨hrun, hrows, hlocked, hof⟩ := h
    cases todo with
    | cons v todo =>
      cases hnext
      refine ⟨hrun, ?_, fun w hw => ?_, fun w hw => hof w (List.mem_cons_of_mem _ hw)⟩
      · have hmiddle : (todo ++ (v :: released)).Perm (v :: todo ++ released) := List.perm_middle
        have hend : (todo ++ (released ++ [v])).Perm (todo ++ (v :: released)) :=
          List.Perm.append_left todo (List.perm_append_singleton v released)
        exact hrows.perm (hend.trans hmiddle)
      · rcases List.mem_append.mp hw with hw | hw
        · exact hlocked.mono (fun k hk => by simp [hk]) w hw
        · rw [List.mem_singleton.mp hw, hof v List.mem_cons_self]
          simp
    | nil =>
      cases after with
      | done => cases hnext
      | rest =>
        cases hnext
        refine ⟨hrun, hrows.rest fun _ hopen => status_of_isOpenOf hopen,
          hlocked.mono (hmore _), fun v hv => ?_⟩
        exact ofRun_of_isOpenOf (Table.mem_select.mp hv).2
      | reserve q =>
        dsimp only [SpendPoint.next] at hnext
        split at hnext
        · cases hnext
          exact ⟨hrun, hrows, hlocked⟩
        · rename_i cap hload
          cases hnext
          obtain ⟨hcap, hhome, hfilter, -⟩ := loadSpendCap_some hload
          exact ⟨hrun, hrows, hlocked.mono (hmore _), hcap, hhome, hfilter, List.mem_cons_self⟩
  | capLocked x =>
    cases hnext
    exact h
  | dayLogged x logged =>
    cases hnext
    exact h
  | daySummed x daily =>
    cases hnext
    exact h
  | monthLogged x daily logged =>
    cases hnext
    unfold Reserver.check
    split
    · exact ⟨h.run, h.rows, h.locked⟩
    · split
      · exact ⟨h.run, h.rows, h.locked⟩
      · exact h
  | admitted x =>
    dsimp only [SpendPoint.next] at hnext
    split at hnext
    · rename_i hrivals
      cases hnext
      exact ⟨h.mono (hmore _), hrivals, List.mem_cons_self⟩
    · split at hnext
      · cases hnext
      · cases hnext
        trivial
  | inserted x =>
    cases hnext
    exact ⟨h.1.mono (hmore _), h.2.1, hmore _ _ h.2.2⟩
  | exceeded run released =>
    cases hnext
    exact ⟨h.1, h.2.1, h.2.2.mono (hmore _)⟩
  | charging c =>
    cases hnext
    have hknows : c.Knows s.db held := h
    refine ⟨hknows.mono fun k hk => (by simp [hk]), fun v hv => ?_⟩
    rw [List.mem_singleton.mp hv, hknows.owner]
    simp
  | opened _ | denied _ _ | charged _ | ended | refused => cases hnext

/-! ## Side by side -/

theorem KnowsRun.moves {held' : List SpendLock} (h : KnowsRun db run)
    (hmove : MovesLedger held' db db') :
    KnowsRun db' run := by
  obtain ⟨row, hrow, hworkspace⟩ := h
  obtain ⟨row', hrow', -, hsame⟩ := hmove.runs.get? (fun _ _ h => h.1) hrow
  exact ⟨row', hrow', hsame.trans hworkspace⟩

theorem Reserver.rivals_eq_nil {x : Reserver} (hrows : ∀ v ∈ x.released, v.status = .reserved) :
    x.rivals db = [] ↔
      ∀ v ∈ db.reservations, v.id ∉ x.released.map (·.id) →
        v.isOpenFor x.run.id x.q.stage = false := by
  rw [Reserver.rivals, Table.select_eq_nil]
  constructor
  · intro h v hv hkept
    refine h v ?_
    rw [Reserver.view, releaseEach_where hrows, Table.mem_modifyWhere]
    exact ⟨v, hv, if_neg fun hid => hkept (List.contains_iff_mem.mp hid)⟩
  · intro h v hv
    by_cases hopen : v.isOpenFor x.run.id x.q.stage = true
    · obtain ⟨hmem, hkept⟩ := mem_view hrows hv (status_of_isOpenFor hopen)
      exact h v hmem hkept
    · exact Bool.eq_false_iff.mpr hopen

/-- Whoever has the index entry keeps rivals out. -/
theorem Reserver.rivals_moves {held' : List SpendLock} {x : Reserver}
    (hmove : MovesLedger held' db db') (hrows : ∀ v ∈ x.released, v.status = .reserved)
    (hlock : SpendLock.openRow x.run.id x.q.stage ∉ held') (h : x.rivals db = []) :
    x.rivals db' = [] := by
  rw [rivals_eq_nil hrows] at h ⊢
  intro w hw hkept
  by_cases hopen : w.isOpenFor x.run.id x.q.stage = true
  · rcases hmove.rows.new w hw with ⟨v, hv, hsettles⟩ | hnew
    · obtain rfl := hsettles.same (status_of_isOpenFor hopen)
      exact h w hv hkept
    · simp only [SpendReservation.isOpenFor, Bool.and_eq_true, beq_iff_eq] at hopen
      rw [hopen.1.1, hopen.1.2] at hnew
      exact absurd hnew hlock
  · exact Bool.eq_false_iff.mpr hopen

theorem Reserver.Knows.moves {held' : List SpendLock} {x : Reserver} (h : x.Knows db held)
    (hmove : MovesLedger held' db db') : x.Knows db' held :=
  { h with
    run := h.run.moves hmove
    rows := h.rows.moves hmove
    cap := by rw [hmove.caps]; exact h.cap }

theorem Charge.Knows.moves {held' : List SpendLock} {c : Charge} (h : c.Knows db held)
    (hmove : MovesLedger held' db db') (hfree : ∀ k ∈ held, k ∉ held') : c.Knows db' held := by
  obtain ⟨w, hw, hterms⟩ := h.row
  obtain ⟨w', hw', hsettles⟩ := hmove.rows.get? (fun _ _ h => h.terms.id) hw
  refine { h with
    run := h.run.moves hmove
    row := ⟨w', hw', hterms.trans hsettles.terms⟩
    fresh := fun hread => ?_ }
  obtain ⟨hlock, hsame, hopen⟩ := h.fresh hread
  rw [hw, Option.some.injEq] at hsame
  rcases hsettles.locked with rfl | htaken
  · exact ⟨hlock, hsame ▸ hw', hopen⟩
  · exact absurd htaken (hsame ▸ hfree _ hlock)

/-- **What a transaction knows the others leave alone.** -/
theorem SpendPoint.Knows.moves {held' : List SpendLock} {point : SpendPoint}
    (h : point.Knows db held) (hmove : MovesLedger held' db db') (hfree : ∀ k ∈ held, k ∉ held') :
    point.Knows db' held := by
  cases point with
  | requested _ | ended | refused => trivial
  | releasing run todo released after => exact ⟨h.1.moves hmove, h.2.1.moves hmove, h.2.2⟩
  | exceeded run released | denied run released =>
    exact ⟨h.1.moves hmove, h.2.1.moves hmove, h.2.2⟩
  | capLocked x | dayLogged x _ | daySummed x _ | monthLogged x _ _ | admitted x =>
    exact Reserver.Knows.moves h hmove
  | inserted x | opened x =>
    obtain ⟨hknows, hrivals, hlock⟩ := h
    exact ⟨hknows.moves hmove, x.rivals_moves hmove hknows.rows.reserved (hfree _ hlock) hrivals,
      hlock⟩
  | charging c => exact Charge.Knows.moves h hmove hfree
  | charged c => exact ⟨h.1.moves hmove hfree, h.2⟩

theorem SpendPoint.commit_moves {point : SpendPoint} {u : SpendStore → SpendStore}
    (h : point.Knows s.db held) (hcommit : point.commit = some u) :
    MovesLedger held s.db (u s).db := by
  cases point with
  | releasing run todo released after =>
    cases todo with
    | cons v todo => cases hcommit
    | nil =>
      cases after with
      | done =>
        cases hcommit
        exact .release h.2.1 fun v hv => (h.2.2.1 v hv).2
      | _ => cases hcommit
  | denied run released =>
    cases hcommit
    exact .trans (.release h.2.1 fun v hv => (h.2.2 v hv).2) .pause
  | opened x =>
    cases hcommit
    exact .trans (.release h.1.rows fun v hv => (h.1.locked v hv).2) (.open h.2.2)
  | charged c =>
    cases hcommit
    exact .charge h.1.row (h.2 _ List.mem_cons_self).2
  | _ => cases hcommit

end ContentOrchestrator

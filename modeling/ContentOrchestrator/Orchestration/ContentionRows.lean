import ContentOrchestrator.Orchestration.ContentionMoves

/-! # Locked assignments

A row that a transaction has locked stays as it was read until that transaction ends:
a commit changes only rows it has locked itself, and adds new ones; what happens
besides waits for the row. `Relies` is what a claim may count on by its place in the
code, and `Relied` says that a claim or a tick has locked whatever it writes to. -/

namespace ContentOrchestrator

open Lib

variable {db : Db}

theorem get?_insertAll {id : Nat} {a : StageAssignment} :
    ∀ (rows : List StageAssignment) (t : Table StageAssignment),
    t.get? id = some a → (insertAll rows t).get? id = some a
  | [], _, h => h
  | b :: rows, t, h => by
    refine get?_insertAll rows (t.insert b.asNew) ?_
    obtain ⟨hmem, hid⟩ := Table.get?_eq_some.mp h
    rw [Table.get?_insert, if_neg]
    · exact h
    · intro hnext
      have hold : Keyed.key a < t.next := Table.key_lt hmem
      omega

/-- The transaction has locked the rows of others that it changes. -/
def Contender.Locked (held : List RowLock) (x : Contender) : Prop :=
  (∀ id ∈ x.own.cancelled, .assignment id ∈ held) ∧
    ∀ g, x.own.granted = some g → .assignment g.assignmentId ∈ held

/-- **A commit leaves alone what its transaction has not locked.** -/
theorem commit_get? {x : Contender} {held : List RowLock} (hlocked : x.Locked held)
    {a : StageAssignment} (hfree : .assignment a.id ∉ held)
    (hrow : db.assignments.get? a.id = some a) :
    (x.own.apply db).assignments.get? a.id = some a := by
  have hkept : x.own.cancelled.contains a.id = false := by
    cases hcancelled : x.own.cancelled.contains a.id with
    | false => rfl
    | true => exact absurd (hlocked.1 a.id (by simpa using hcancelled)) hfree
  rw [OwnWrites.apply_assignments]
  refine get?_insertAll _ _ ?_
  have hothers : (db.assignments.modifyWhere (fun b => x.own.cancelled.contains b.id)
      (StageAssignment.cancel db.now)).get? a.id = some a := by
    rw [Table.get?_modifyWhere, hrow, Option.map_some, if_neg]
    rw [hkept]
    exact Bool.false_ne_true
  unfold OwnWrites.changed
  cases hgranted : x.own.granted with
  | none => exact hothers
  | some g =>
    have hother : a.id ≠ g.assignmentId := by
      intro heq
      exact hfree (heq ▸ hlocked.2 g hgranted)
    dsimp only
    rw [Table.get?_modify, if_neg hother]
    exact hothers

/-- A claim's commit changes at most the row it grants. -/
theorem Claiming.apply_assignments (db : Db) {c : Claiming} (hshaped : (Contender.claim c).Shaped) :
    (c.own.apply db).assignments =
      c.own.granted.elim db.assignments fun g => db.assignments.modify g.assignmentId g.update := by
  obtain ⟨hcancelled, hcreated, _, _⟩ := hshaped
  rw [OwnWrites.apply_assignments, hcreated]
  unfold OwnWrites.changed
  rw [hcancelled]
  have hsame : db.assignments.modifyWhere (fun a => [].contains a.id)
      (StageAssignment.cancel db.now) =
      db.assignments := Table.modifyWhere_false
  cases c.own.granted with
  | none => exact hsame
  | some g => exact congrArg (Table.modify · g.assignmentId g.update) hsame

/-- A row whose lock an operation does not need stays as it is. -/
theorem AssignmentMove.eq_of_free {op : Op} {a a' : StageAssignment} (h : AssignmentMove op db a a')
    (hop : op.isBackground = true) (hrow : db.assignments.get? a.id = some a)
    (hfree : .assignment a.id ∉ lockedBy db op) : a' = a := by
  cases h with
  | kept => rfl
  | granted request _ _ _ =>
    rw [request] at hop
    cases hop
  | acknowledged request _ =>
    rw [request] at hfree
    exact absurd (List.mem_singleton.mpr rfl) hfree
  | renewed request _ =>
    rw [request] at hfree
    exact absurd (List.mem_singleton.mpr rfl) hfree
  | submitted request _ _ =>
    rw [request] at hfree
    exact absurd List.mem_cons_self hfree
  | requeued request _ =>
    rw [request] at hfree
    exact absurd List.mem_cons_self hfree
  | exhausted request _ =>
    rw [request] at hfree
    exact absurd List.mem_cons_self hfree
  | cancelled live request =>
    rcases request with ⟨runId, request, hlive⟩ | ⟨_, _, _, request⟩
    · rw [request] at hfree
      have hmem : a ∈ db.assignments.select (·.isLiveOf runId) :=
        Table.mem_select.mpr ⟨(Table.get?_eq_some.mp hrow).1, hlive⟩
      exact absurd (List.mem_map.mpr ⟨a, hmem, rfl⟩) hfree
    · rw [request] at hop
      cases hop

/-- What an operation besides may do: it makes no row. -/
theorem background_assignments {op : Op} (hop : op.isBackground = true) :
    Table.Evolves (AssignmentMove op db) (fun _ => False) db.assignments
      (step db op).assignments := by
  rcases step_cases db op with heq | heffect
  · exact .of_eq (fun _ => .kept) (by rw [heq])
  · have hkinds : ∀ jobId lockedWorkers jitter, op = .processJob jobId lockedWorkers jitter →
        ∀ j ∈ db.jobs, j.jobType ≠ .stageTimeout := by
      intro jobId lockedWorkers jitter heq
      rw [heq] at hop
      cases hop
    refine (heffect.assignments hkinds).mono (fun _ _ _ _ h => h) fun _ _ hnew => ?_
    cases hnew with
    | made request _ _ _ _ _ _ _ _ =>
      rw [request] at hop
      cases hop

theorem background_get? {op : Op} (hop : op.isBackground = true) {a : StageAssignment}
    (hfree : .assignment a.id ∉ lockedBy db op) (hrow : db.assignments.get? a.id = some a) :
    (step db op).assignments.get? a.id = some a := by
  obtain ⟨b, hb, hmove⟩ := (background_assignments hop).get? (fun _ _ h => h.id) hrow
  rw [hmove.eq_of_free hop hrow hfree] at hb
  exact hb

/-! ## What a claim relies on -/

/-- A waiting row as the transaction read it when it locked it. -/
structure RowKept (db : Db) (held : List RowLock) (row : StageAssignment) : Prop where
  locked : .assignment row.id ∈ held
  stored : db.assignments.get? row.id = some row
  waiting : row.status = .pending

/-- What a claim may count on, by its place in the code. -/
def Claiming.Relies (db : Db) (held : List RowLock) (c : Claiming) : Prop :=
  match c.point with
  | .worker => True
  | .lookup w => .worker c.workerId ∈ held ∧ w.id = c.workerId
  | .candidate _ => .worker c.workerId ∈ held
  | .budget _ row savepoint | .count _ row savepoint =>
    .worker c.workerId ∈ held ∧ .worker c.workerId ∈ savepoint ∧ RowKept db held row
  | .reserve row => .worker c.workerId ∈ held ∧ RowKept db held row
  | .done _ => ∀ g, c.own.granted = some g →
      .worker c.workerId ∈ held ∧ ∃ row, row.id = g.assignmentId ∧ RowKept db held row

/-- What is known of either. -/
def Contender.Relied (db : Db) (held : List RowLock) (x : Contender) : Prop :=
  x.Locked held ∧
    match x with
    | tick _ => True
    | claim c => c.Relies db held

theorem RowKept.mono {held held' : List RowLock} {row : StageAssignment} (h : RowKept db held row)
    (hheld : ∀ k ∈ held, k ∈ held') : RowKept db held' row :=
  ⟨hheld _ h.locked, h.stored, h.waiting⟩

/-- The row stays when another transaction commits. -/
theorem RowKept.commit {x : Contender} {held heldBy : List RowLock} {row : StageAssignment}
    (h : RowKept db held row) (hlocked : x.Locked heldBy) (hexclusive : ∀ k ∈ held, k ∉ heldBy) :
    RowKept (x.own.apply db) held row :=
  ⟨h.locked, commit_get? hlocked (hexclusive _ h.locked) h.stored, h.waiting⟩

theorem RowKept.background {held : List RowLock} {row : StageAssignment} {op : Op}
    (h : RowKept db held row) (hop : op.isBackground = true)
    (hfree : ∀ k ∈ lockedBy db op, k ∉ held) :
    RowKept (step db op) held row :=
  ⟨h.locked, background_get? hop (fun hneeded => hfree _ hneeded h.locked) h.stored, h.waiting⟩

/-- The claim relies on its rows alone. -/
theorem Claiming.Relies.mono {s t : Db} {c : Claiming} {held : List RowLock} (h : c.Relies s held)
    (hrows : ∀ row, RowKept s held row → RowKept t held row) : c.Relies t held := by
  unfold Claiming.Relies at h ⊢
  split at h
  · trivial
  · exact h
  · exact h
  · exact ⟨h.1, h.2.1, hrows _ h.2.2⟩
  · exact ⟨h.1, h.2.1, hrows _ h.2.2⟩
  · exact ⟨h.1, hrows _ h.2⟩
  · intro g hg
    obtain ⟨hworker, row, hid, hrow⟩ := h g hg
    exact ⟨hworker, row, hid, hrows row hrow⟩

theorem Contender.Relied.commit {x y : Contender} {held heldBy : List RowLock}
    (h : y.Relied db held) (hx : x.Relied db heldBy) (hexclusive : ∀ k ∈ held, k ∉ heldBy) :
    y.Relied (x.own.apply db) held := by
  obtain ⟨hlocked, hrelies⟩ := h
  refine ⟨hlocked, ?_⟩
  cases y with
  | tick t => trivial
  | claim c => exact Claiming.Relies.mono hrelies fun row hrow => hrow.commit hx.1 hexclusive

theorem Contender.Relied.background {y : Contender} {held : List RowLock} {op : Op}
    (h : y.Relied db held) (hop : op.isBackground = true) (hfree : ∀ k ∈ lockedBy db op, k ∉ held) :
    y.Relied (step db op) held := by
  obtain ⟨hlocked, hrelies⟩ := h
  refine ⟨hlocked, ?_⟩
  cases y with
  | tick t => trivial
  | claim c => exact Claiming.Relies.mono hrelies fun row hrow => hrow.background hop hfree

/-! ## One statement -/

theorem Tick.next_locked {t t' : Tick} {taken : RowLock → Bool} {held held' : List RowLock}
    (h : t.next db taken held = some (held', t')) (hlocked : (Contender.tick t).Locked held) :
    (Contender.tick t').Locked held' := by
  have hheld := Tick.next_held h
  have hmove := Tick.next_move h
  refine ⟨fun id hid => ?_, fun g hg => ?_⟩
  · have hold : id ∈ t.own.cancelled → .assignment id ∈ held' := fun hmem =>
        hheld _ (hlocked.1 id hmem)
    have hid' : id ∈ t'.own.cancelled := hid
    cases hmove with
    | quiet _ own _ =>
      rw [own] at hid'
      exact hold hid'
    | counted _ own _ _ =>
      rw [own] at hid'
      exact hold hid'
    | placed _ _ own _ =>
      rw [own] at hid'
      exact hold hid'
    | gaveUp _ own _ locked =>
      rw [own] at hid'
      rcases List.mem_append.mp hid' with hmem | hnew
      · exact hold hmem
      · exact locked id hnew
  · have hg' : t.own.granted = some g := hmove.granted ▸ hg
    exact hheld _ (hlocked.2 g hg')

/-- The candidate is a waiting row that nobody has locked. -/
theorem RowKept.chosen {w : WorkerRegistration} {stages : List ContentStage} {excluded : List Nat}
    {row : StageAssignment} {held : List RowLock}
    (h : nextCandidate db w stages excluded = some row) :
    RowKept db (.assignment row.id :: held) row := by
  obtain ⟨hmem, hclaimable, _⟩ := nextCandidate_some h
  simp only [StageAssignment.isClaimableBy, Bool.and_eq_true, beq_iff_eq] at hclaimable
  exact ⟨List.mem_cons_self, Table.get?_of_mem hmem, hclaimable.1.1⟩

/-- **One statement of a claim** keeps what the claim relies on. -/
theorem ClaimMove.relies {c c' : Claiming} {taken : RowLock → Bool} {held held' : List RowLock}
    (h : ClaimMove db taken held c held' c') (hshaped : (Contender.claim c).Shaped)
    (hrelies : c.Relies db held) :
    c'.Relies db held' := by
  have hungranted : (∀ r, c.point ≠ .done r) → ∀ g, c.own.granted ≠ some g := by
    intro hpoint g hg
    rw [hshaped.2.2.1 hpoint] at hg
    cases hg
  have hmore : ∀ {k : RowLock}, ∀ k' ∈ held, k' ∈ k :: held := fun _ hk => List.mem_cons_of_mem _ hk
  cases h with
  | ended nothing ungranted => exact fun g hg => absurd hg (hungranted ungranted g)
  | replayed point _ => exact fun g hg => absurd hg (hungranted (by simp [point]) g)
  | registered point found => exact ⟨List.mem_cons_self, (Table.get?_eq_some.mp found).2⟩
  | searching point _ =>
    simp only [Claiming.Relies, point] at hrelies
    exact hrelies.1
  | chosen point chosen =>
    simp only [Claiming.Relies, point] at hrelies
    exact ⟨hmore _ hrelies, hrelies, .chosen chosen⟩
  | unbudgeted point _ =>
    simp only [Claiming.Relies, point] at hrelies
    exact ⟨hrelies.1, hrelies.2.2⟩
  | budgeted point _ =>
    simp only [Claiming.Relies, point] at hrelies
    exact ⟨hmore _ hrelies.1, hrelies.2.1, hrelies.2.2.mono hmore⟩
  | admitted point _ =>
    simp only [Claiming.Relies, point] at hrelies
    exact ⟨hrelies.1, hrelies.2.2⟩
  | skipped point =>
    simp only [Claiming.Relies, point] at hrelies
    exact List.mem_filter.mpr ⟨hrelies.1, by simpa using hrelies.2.1⟩
  | settled point =>
    rename_i row
    simp only [Claiming.Relies, point] at hrelies
    obtain ⟨quiet, heq | heq⟩ := c.settleSpend_cases db row
    · rw [heq]
      exact fun g hg => absurd hg (hungranted (by simp [point]) g)
    · rw [heq]
      intro g hg
      cases hg
      exact ⟨hrelies.1, row, rfl, hrelies.2⟩

/-- A grant is of a waiting row, and the worker's own row is locked. -/
theorem Claiming.Relies.granted {c : Claiming} {held : List RowLock} (h : c.Relies db held)
    (hshaped : (Contender.claim c).Shaped) {g : Grant} (hg : c.own.granted = some g) :
    .worker c.workerId ∈ held ∧ ∃ row, row.id = g.assignmentId ∧ RowKept db held row := by
  unfold Claiming.Relies at h
  split at h
  case h_7 => exact h g hg
  all_goals
    rename_i hpoint
    rw [hshaped.2.2.1 (by simp [hpoint])] at hg
    cases hg

/-- A claim has locked what it grants. -/
theorem Claiming.Relies.locked {c : Claiming} {held : List RowLock} (h : c.Relies db held)
    (hshaped : (Contender.claim c).Shaped) : (Contender.claim c).Locked held := by
  refine ⟨fun id hid => ?_, fun g hg => ?_⟩
  · have hnone : id ∈ c.own.cancelled := hid
    rw [hshaped.1] at hnone
    exact absurd hnone List.not_mem_nil
  · obtain ⟨_, row, hid, hrow⟩ := h.granted hshaped hg
    exact hid ▸ hrow.locked

theorem contention_start_relied (db : Db) (request : ContenderRequest) :
    (contention.start request).Shaped ∧ (contention.start request).Relied db [] := by
  cases request with
  | tick batchSize jitter =>
    exact ⟨rfl, ⟨fun _ hid => absurd hid List.not_mem_nil, fun _ hg => by cases hg⟩, trivial⟩
  | claim workerId claimToken =>
    refine ⟨⟨rfl, rfl, fun _ => rfl, fun _ hg => by cases hg⟩, ?_, trivial⟩
    exact ⟨fun _ hid => absurd hid List.not_mem_nil, fun _ hg => by cases hg⟩

/-- **One statement of either.** -/
theorem contention_next_relied {x x' : Contender} {taken : RowLock → Bool}
    {held held' : List RowLock} (h : contention.next db taken held x = some (held', x'))
    (hshaped : x.Shaped) (hrelied : x.Relied db held) : x'.Relied db held' := by
  cases x with
  | tick t =>
    obtain ⟨⟨held'', t'⟩, hnext, heq⟩ := Option.map_eq_some_iff.mp h
    cases heq
    exact ⟨Tick.next_locked hnext hrelied.1, trivial⟩
  | claim c =>
    obtain ⟨⟨held'', c'⟩, hnext, heq⟩ := Option.map_eq_some_iff.mp h
    cases heq
    have hmove := Claiming.next_move hnext
    have hrelies := hmove.relies hshaped hrelied.2
    exact ⟨hrelies.locked (hmove.shaped hshaped), hrelies⟩

end ContentOrchestrator

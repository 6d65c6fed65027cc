import ContentOrchestrator.Orchestration.ContentionCounts

/-! # The concurrency limit of a workspace

A tick counts before it places, and what it has counted on it may place later; no lock
keeps others from placing in between. A claim does not count at all. -/

namespace ContentOrchestrator

open Lib

/-- Everything of the workspace. -/
def ofWorkspace (workspaceId : Nat) (w : Nat) (_ : Option String) : Bool := w == workspaceId

/-- The workspace's assignments in flight. -/
def inFlightCount (db : Db) (workspaceId : Nat) : Nat :=
  db.assignments.count (·.isInFlightIn workspaceId)

/-- No workspace has more assignments in flight than it may have. -/
def Db.WithinLimits (db : Db) : Prop :=
  ∀ workspaceId, inFlightCount db workspaceId ≤ maxConcurrentAssignments db workspaceId

/-- The tick has placed an assignment of the workspace, or is about to. -/
def Tick.promises (t : Tick) (workspaceId : Nat) : Bool :=
  t.pending == some workspaceId || t.own.created.any (flightOf (ofWorkspace workspaceId))

/-- What the tick will have in flight with the row it is about to place. -/
def Tick.promised (t : Tick) (db : Db) (workspaceId : Nat) : Nat :=
  t.load db (ofWorkspace workspaceId) + (t.pending == some workspaceId).toNat

/-- The workspaces a commit places assignments in. -/
def Contender.placedIn (db : Db) : Contender → List Nat
  | tick t => t.own.created.map (·.workspaceId)
  | claim c =>
    (c.own.granted.bind fun g => db.assignments.get? g.assignmentId).toList.map (·.workspaceId)

/-- A claim finds its workspace below the limit, although it does not look. -/
def Contender.leavesRoom (db : Db) (workspaceId : Nat) : Contender → Bool
  | tick _ => true
  | claim c =>
    decide (inFlightCount db workspaceId + Contender.places db (ofWorkspace workspaceId)
      (.claim c) ≤
      maxConcurrentAssignments db workspaceId)

/-- What the tick has counted on is still there when `n` more are placed. -/
def Contender.overtaken (db : Db) (workspaceId n : Nat) : Contender → Bool
  | tick t => t.promises workspaceId &&
      decide (maxConcurrentAssignments db workspaceId < t.promised db workspaceId + n)
  | claim _ => false

/-- The condition on a step: a commit that places assignments of a workspace leaves it within its
limit if it is a claim's, and takes no room that another tick has counted on. -/
def placesInOrder (w : World Db RowLock Contender) : Action ContenderRequest BackgroundOp → Bool
  | .commit id =>
    (w.running.get? id).all fun x => (x.locals.placedIn w.store).all fun workspaceId =>
      x.locals.leavesRoom w.store workspaceId && w.running.rows.all fun y => y.id == id ||
        !y.locals.overtaken w.store workspaceId (x.locals.places w.store (ofWorkspace workspaceId))
  | .other op => keepsQuotas w.store op.val
  | _ => true

/-! ## What a tick may rely on -/

variable {db : Db}

theorem inFlightCount_eq {workspaceId : Nat} :
    inFlightCount db workspaceId = db.assignments.count (flightOf (ofWorkspace workspaceId)) :=
  Table.count_congr fun _ _ => Bool.and_comm _ _

/-- The tick stays within the limit, with what it is about to place. -/
def Contender.WithinRoom (db : Db) : Contender → Prop
  | tick t => ∀ workspaceId, t.promises workspaceId = true →
      t.promised db workspaceId ≤ maxConcurrentAssignments db workspaceId
  | claim _ => True

/-- What is known of a running transaction. -/
def Contender.Counted (db : Db) (_ : List RowLock) (x : Contender) : Prop :=
  x.Shaped ∧ x.WithinRoom db

theorem maxConcurrentAssignments_apply (db : Db) (o : OwnWrites) (workspaceId : Nat) :
    maxConcurrentAssignments (o.apply db) workspaceId =
      maxConcurrentAssignments db workspaceId := by
  have hlimits : (o.apply db).concurrencyLimits = db.concurrencyLimits :=
    congrArg Configuration.concurrencyLimits o.apply_config
  exact maxConcurrentAssignments_rows (by rw [hlimits]) workspaceId

/-- **One statement of a tick.** The count is what lets it place one more. -/
theorem TickMove.withinRoom {held' : List RowLock} {t t' : Tick} (h : TickMove db held' t t')
    (hshaped : (Contender.tick t).Shaped) (hroom : (Contender.tick t).WithinRoom db) :
    (Contender.tick t').WithinRoom db := by
  intro workspaceId hpromises
  have hbefore := hroom workspaceId
  unfold Tick.promises Tick.promised at *
  cases h with
  | quiet _ own pending =>
    rw [Tick.load_quietly own]
    have hcreated : t'.own.created = t.own.created := by rw [own]; rfl
    rw [hcreated] at hpromises
    rcases pending with hnone | hsame
    · rw [hnone] at hpromises ⊢
      have hle := hbefore (by simpa using .inr (by simpa using hpromises))
      simp only [Option.none_beq_some, Bool.toNat_false]
      omega
    · rw [hsame] at hpromises ⊢
      exact hbefore hpromises
  | counted job own pending room =>
    have hquiet : t'.own = t.own.quietly [] := by simp [own, OwnWrites.quietly]
    rw [Tick.load_quietly hquiet, pending]
    rw [own, pending] at hpromises
    by_cases hsame : job.workspaceId = workspaceId
    · subst hsame
      have hlimit := maxConcurrentAssignments_apply db t.own job.workspaceId
      have hcount : inFlightCount (t.own.apply db) job.workspaceId =
          t.load db (ofWorkspace job.workspaceId) := by
        rw [inFlightCount_eq, Tick.view_count hshaped]
      have hbelow : ¬ maxConcurrentAssignments (t.own.apply db) job.workspaceId ≤
          inFlightCount (t.own.apply db) job.workspaceId := of_decide_eq_false room
      simp only [BEq.rfl, Bool.toNat_true]
      omega
    · have hother : (some job.workspaceId == some workspaceId) = false := by simpa using hsame
      rw [hother] at hpromises ⊢
      have hle := hbefore (by rw [Bool.or_eq_true]; exact .inr (by simpa using hpromises))
      simp only [Bool.toNat_false]
      omega
  | @placed job run stage worker priority writes before own pending =>
    have hload := Tick.load_placed db own (ofWorkspace workspaceId)
    rw [hload, pending]
    have hrow : (flightOf (ofWorkspace workspaceId)
        ((newAssignment (job.request run.id []) stage worker priority db).make 0)).toNat ≤
          (t.pending == some workspaceId).toNat := by
      rw [before]
      by_cases hsame : job.workspaceId = workspaceId
      · rw [hsame]
        simp [Bool.toNat_le]
      · have hother : ofWorkspace workspaceId job.workspaceId (some (effectiveProvider none)) =
            false := by
          simpa [ofWorkspace] using hsame
        have hnone : flightOf (ofWorkspace workspaceId)
            ((newAssignment (job.request run.id []) stage worker priority db).make 0) = false := by
          rw [flightOf]
          exact Bool.and_eq_false_iff.mpr (.inr hother)
        rw [hnone]
        exact Nat.zero_le _
    have hpromised : (t.pending == some workspaceId ||
        t.own.created.any (flightOf (ofWorkspace workspaceId))) = true := by
      rw [own, pending] at hpromises
      simp only [Option.none_beq_some, Bool.false_or, List.any_append, List.any_cons, List.any_nil,
        Bool.or_false, Bool.or_eq_true] at hpromises
      rcases hpromises with hold | hnew
      · rw [hold, Bool.or_true]
      · rw [hnew] at hrow
        cases hpending : t.pending == some workspaceId with
        | true => rfl
        | false =>
          rw [hpending] at hrow
          cases hrow
    have hle := hbefore hpromised
    simp only [Option.none_beq_some, Bool.toNat_false]
    omega
  | gaveUp _ own pending _ =>
    have hload : t'.load db (ofWorkspace workspaceId) ≤ _ := Tick.load_gaveUp own
    rw [own, pending] at hpromises
    rw [pending]
    have hcreated : t.own.created.any (flightOf (ofWorkspace workspaceId)) = true := by
      simp only [Option.none_beq_some, Bool.false_or, List.any_map, List.any_eq_true,
        Function.comp_apply]
        at hpromises
      obtain ⟨a, ha, hflight⟩ := hpromises
      refine List.any_eq_true.mpr ⟨a, ha, ?_⟩
      split at hflight
      · cases hflight
      · exact hflight
    have hle := hbefore (by rw [hcreated, Bool.or_true])
    simp only [Option.none_beq_some, Bool.toNat_false]
    omega

/-! ## Commits -/

/-- Without a row of the workspace nothing is placed there. -/
theorem Contender.places_eq_zero {x : Contender} {workspaceId : Nat}
    (h : workspaceId ∉ x.placedIn db) (hshaped : x.Shaped) :
    x.places db (ofWorkspace workspaceId) = 0 := by
  cases x with
  | tick t =>
    refine List.length_eq_zero_iff.mpr (List.filter_eq_nil_iff.mpr fun a ha hflight => h ?_)
    have hworkspace : a.workspaceId = workspaceId := by
      simpa [ofWorkspace] using (Bool.and_eq_true_iff.mp hflight).2
    exact List.mem_map.mpr ⟨a, ha, hworkspace⟩
  | claim c =>
    obtain ⟨_, _, _, hgrant⟩ := hshaped
    cases hgranted : c.own.granted with
    | none => simp [Contender.places, hgranted]
    | some g =>
      cases hfound : db.assignments.get? g.assignmentId with
      | none => simp [Contender.places, hgranted, hfound]
      | some a =>
        obtain ⟨now, lease, hupdate⟩ := hgrant g hgranted
        have hother : a.workspaceId ≠ workspaceId := by
          intro hsame
          simp [Contender.placedIn, hgranted, hfound, hsame] at h
        have hrow : flightOf (ofWorkspace workspaceId) (g.update.apply a) = false := by
          rw [hupdate, flightOf]
          exact Bool.and_eq_false_iff.mpr
            (.inr (by simpa [ofWorkspace, StageAssignment.grant] using hother))
        simp [Contender.places, hgranted, hfound, hrow]

/-- The commit itself stays within the limit. -/
theorem commit_within {x : Contender} (hshaped : x.Shaped) (hroom : x.WithinRoom db)
    (hwithin : db.WithinLimits)
    (hleaves : ∀ workspaceId ∈ x.placedIn db, x.leavesRoom db workspaceId = true) :
    (x.own.apply db).WithinLimits := by
  intro workspaceId
  rw [maxConcurrentAssignments_apply]
  have hbefore := hwithin workspaceId
  have hcommit : inFlightCount (x.own.apply db) workspaceId ≤
      inFlightCount db workspaceId + x.places db (ofWorkspace workspaceId) := by
    have hall := commit_count_le db hshaped (ofWorkspace workspaceId) fun _ => true
    have hids : flightAmong (ofWorkspace workspaceId) (fun _ => true) =
        flightOf (ofWorkspace workspaceId) :=
      funext fun _ => Bool.and_true _
    rw [hids] at hall
    rw [inFlightCount_eq, inFlightCount_eq]
    exact hall
  by_cases hplaced : workspaceId ∈ x.placedIn db
  · cases x with
    | claim c =>
      have hleft : inFlightCount db workspaceId +
          Contender.places db (ofWorkspace workspaceId) (.claim c) ≤
          maxConcurrentAssignments db workspaceId := of_decide_eq_true (hleaves workspaceId hplaced)
      exact hcommit.trans hleft
    | tick t =>
      by_cases hpromises : t.promises workspaceId = true
      · have hview : inFlightCount (t.own.apply db) workspaceId =
            t.load db (ofWorkspace workspaceId) := by
          rw [inFlightCount_eq, Tick.view_count hshaped]
        have hpromised := hroom workspaceId hpromises
        unfold Tick.promised at hpromised
        show inFlightCount (t.own.apply db) workspaceId ≤ _
        omega
      · have hnone : Contender.places db (ofWorkspace workspaceId) (.tick t) = 0 := by
          refine List.length_eq_zero_iff.mpr
            (List.filter_eq_nil_iff.mpr fun a ha hflight => hpromises ?_)
          exact Bool.or_eq_true_iff.mpr (.inr (List.any_eq_true.mpr ⟨a, ha, hflight⟩))
        rw [hnone] at hcommit
        exact hcommit.trans hbefore
  · rw [Contender.places_eq_zero hplaced hshaped] at hcommit
    exact hcommit.trans hbefore

/-- Another commit leaves a tick the room it has counted on, unless it overtakes it. -/
theorem Contender.WithinRoom.commit {x y : Contender} (hy : y.WithinRoom db) (hshaped : x.Shaped)
    (hfree : ∀ workspaceId ∈ x.placedIn db,
      y.overtaken db workspaceId (x.places db (ofWorkspace workspaceId)) = false) :
    y.WithinRoom (x.own.apply db) := by
  cases y with
  | claim c => trivial
  | tick t =>
    intro workspaceId hpromises
    rw [maxConcurrentAssignments_apply]
    have hload := Tick.load_commit db t hshaped (ofWorkspace workspaceId)
    have hbefore := hy workspaceId hpromises
    unfold Tick.promised at hbefore ⊢
    by_cases hplaced : workspaceId ∈ x.placedIn db
    · have hroom : ¬ maxConcurrentAssignments db workspaceId <
          t.promised db workspaceId + x.places db (ofWorkspace workspaceId) := by
        simpa [Contender.overtaken, hpromises] using hfree workspaceId hplaced
      unfold Tick.promised at hroom
      omega
    · rw [Contender.places_eq_zero hplaced hshaped] at hload
      omega

theorem Contender.WithinRoom.background {y : Contender} (hy : y.WithinRoom db) {op : Op}
    (hop : op.isBackground = true) (hkeeps : keepsQuotas db op = true) :
    y.WithinRoom (step db op) := by
  cases y with
  | claim c => trivial
  | tick t =>
    intro workspaceId hpromises
    rw [maxConcurrentAssignments_rows (background_quotas hop hkeeps).1]
    have hload := Tick.load_background db t hop (ofWorkspace workspaceId)
    have hbefore := hy workspaceId hpromises
    unfold Tick.promised at hbefore ⊢
    omega

theorem background_within {op : Op} (hop : op.isBackground = true)
    (hkeeps : keepsQuotas db op = true) (hwithin : db.WithinLimits) :
    (step db op).WithinLimits := by
  intro workspaceId
  rw [maxConcurrentAssignments_rows (background_quotas hop hkeeps).1]
  have hall : (step db op).assignments.count (flightAmong (ofWorkspace workspaceId) fun _ => true) ≤
      _ :=
    background_count_le hop _
  have hids : flightAmong (ofWorkspace workspaceId) (fun _ => true) =
      flightOf (ofWorkspace workspaceId) :=
    funext fun _ => Bool.and_true _
  rw [hids, ← inFlightCount_eq, ← inFlightCount_eq] at hall
  exact hall.trans (hwithin workspaceId)

/-! ## Every interleaving -/

theorem limits_outline :
    Outline contention (fun w a => placesInOrder w a = true) Db.WithinLimits Contender.Counted where
  starts := by
    intro w request _ _
    refine ⟨(contention_start_relied w.store request).1, ?_⟩
    cases request with
    | tick batchSize jitter =>
      intro workspaceId hpromises
      simp [Tick.promises, Tick.pending] at hpromises
    | claim workerId claimToken => trivial
  runs := by
    intro w x held locals hw hx _ hnext _
    obtain ⟨hshaped, hroom⟩ := hw.running x hx
    refine ⟨contention_next_shaped hnext hshaped, ?_⟩
    generalize x.locals = contender at hshaped hroom hnext
    cases contender with
    | claim c =>
      obtain ⟨⟨held', c'⟩, _, heq⟩ := Option.map_eq_some_iff.mp hnext
      cases heq
      trivial
    | tick t =>
      obtain ⟨⟨held', t'⟩, hstep, heq⟩ := Option.map_eq_some_iff.mp hnext
      cases heq
      exact (Tick.next_move hstep).withinRoom hshaped hroom
  commits := by
    intro w x u hw hx hok hcommit
    obtain ⟨hshaped, hroom⟩ := hw.running x hx
    have hfound : w.running.get? x.id = some x := Table.get?_of_mem hx
    simp only [placesInOrder, hfound, Option.all_some, List.all_eq_true, Bool.and_eq_true,
      Bool.or_eq_true, beq_iff_eq, Bool.not_eq_true'] at hok
    rw [contention_commit hcommit]
    refine ⟨commit_within hshaped hroom hw.store fun workspaceId hplaced =>
      (hok workspaceId hplaced).1, ?_⟩
    intro y hy hne
    obtain ⟨hyshaped, hyroom⟩ := hw.running y hy
    refine ⟨hyshaped, hyroom.commit hshaped fun workspaceId hplaced => ?_⟩
    exact ((hok workspaceId hplaced).2 y hy).resolve_left hne
  others := by
    intro w event hw hok _
    refine ⟨background_within event.2 hok hw.store, fun y hy => ?_⟩
    obtain ⟨hshaped, hroom⟩ := hw.running y hy
    exact ⟨hshaped, hroom.background event.2 hok⟩

/-- **Workspace concurrency limit**: in every interleaving in which no claim is granted at the limit
and no commit takes room that an open tick has counted on, no workspace ever exceeds its limit. -/
theorem limits_kept {db : Db} (hstart : db.WithinLimits) {w : World Db RowLock Contender}
    (h : Reach contention.Steps (fun w a => placesInOrder w a = true) { store := db } w) :
    w.store.WithinLimits :=
  (limits_outline.sound (.idle hstart) h).store

/-! ## Two claims at a limit of one -/

theorem narrowDb_withinLimits : narrowDb.WithinLimits := by
  intro workspaceId
  have hnone : inFlightCount narrowDb workspaceId = 0 := rfl
  rw [hnone]
  exact Nat.zero_le _

/-- The first claim fills the limit. -/
theorem limits_kept_first_claim :
    (replay contention.step { store := narrowDb } (waitingRuns ++ firstClaim)).store.WithinLimits ∧
      inFlightCount (replay contention.step { store := narrowDb } (waitingRuns ++ firstClaim)).store
        0 = 1 := by
  have hadmits : admits contention.step placesInOrder { store := narrowDb }
      (waitingRuns ++ firstClaim) = true := by
    decide +kernel
  exact ⟨limits_kept narrowDb_withinLimits (reach_replay _ _ hadmits), by decide +kernel⟩

/-- The second is granted just as well. -/
theorem second_claim_exceeds_limit :
    ¬ ∀ (db : Db) (w : World Db RowLock Contender), db.WithinLimits →
        Reach contention.Steps (fun w a => fixedQuotas w a = true) { store := db } w →
          w.store.WithinLimits := by
  intro h
  have hadmits : admits contention.step fixedQuotas { store := narrowDb }
      (waitingRuns ++ firstClaim ++ secondClaim none) = true := by decide +kernel
  have hwithin := h narrowDb _ narrowDb_withinLimits (reach_replay _ _ hadmits) 0
  have hcount : inFlightCount (replay contention.step { store := narrowDb }
      (waitingRuns ++ firstClaim ++ secondClaim none)).store 0 = 2 := by decide +kernel
  have hlimit : maxConcurrentAssignments (replay contention.step { store := narrowDb }
      (waitingRuns ++ firstClaim ++ secondClaim none)).store 0 = 1 := by decide +kernel
  rw [hcount, hlimit] at hwithin
  cases hwithin with
  | step hle => cases hle

end ContentOrchestrator

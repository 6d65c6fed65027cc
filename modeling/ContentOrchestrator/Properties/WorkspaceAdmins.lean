import ContentOrchestrator.Workspaces.Memberships

/-! # A workspace keeps an admin

The guard counts the admins before the write. As long as no commit comes between that
takes one of the counted admins away, or makes the target one, the workspace keeps an
admin; two admins who demote each other at once leave none. -/

namespace ContentOrchestrator

open Lib

def Memberships.HasAdmin (t : Memberships) (workspaceId : Nat) : Prop :=
  ∃ m ∈ t, m.isAdminOf workspaceId = true

/-- The write may take an admin away. -/
def MembershipWrite.unseats : MembershipWrite → Bool
  | .setRole _ role => role != .admin
  | .delete _ => true

def MembershipWrite.rowId : MembershipWrite → Nat
  | .setRole id _ => id
  | .delete id => id

/-- What the guard has seen still holds: there are no fewer admins than it counted, or, where it did
not count, the target is none. -/
def MembershipStep.guardHolds (t : Memberships) : MembershipStep → Bool
  | .done m counted (some write) =>
    !write.unseats ||
      match counted with
      | some n => decide (n ≤ t.count (·.isAdminOf m.workspaceId))
      | none => (t.get? m.id).all (·.role != .admin)
  | _ => true

/-- The condition on a step. -/
def guardsHold (w : World Memberships Nat MembershipStep) : Action MembershipRequest Empty → Bool
  | .commit id => (w.running.get? id).all (·.locals.guardHolds w.store)
  | _ => true

variable {t : Memberships} {held : List Nat}

/-! ## What a request knows -/

/-- The row read is of the workspace it says, as long as it is there. -/
def Memberships.Keeps (t : Memberships) (m : WorkspaceMembership) : Prop :=
  ∀ now ∈ t, now.id = m.id → now.workspaceId = m.workspaceId

/-- The target is a row of its workspace, and a count found two admins. -/
def MembershipStep.Asserts (t : Memberships) (_ : List Nat) : MembershipStep → Prop
  | .authorize _ | .refused _ => True
  | .target _ caller => t.Keeps caller
  | .count _ m => t.Keeps m
  | .policy _ m counted | .lockRow _ m counted => t.Keeps m ∧ ∀ n, counted = some n → 2 ≤ n
  | .done m counted write =>
    t.Keeps m ∧ (∀ n, counted = some n → 2 ≤ n) ∧ ∀ u, write = some u → u.rowId = m.id

theorem Memberships.getMembership_mem {caller workspaceId userId : Nat} {m : WorkspaceMembership}
    (h : t.getMembership caller workspaceId userId = some m) : m ∈ t := by
  unfold Memberships.getMembership at h
  split at h
  · exact (Table.mem_select.mp (List.mem_of_mem_head? h)).1
  · cases h

theorem Memberships.keeps_of_mem {m : WorkspaceMembership} (h : m ∈ t) : t.Keeps m := by
  intro now hnow hid
  have hsame : now = m := Table.eq_of_key hnow h hid
  rw [hsame]

theorem authorize_ok {r : MembershipRequest} {found : Option WorkspaceMembership}
    {caller : WorkspaceMembership} (h : r.authorize found = .ok caller) : found = some caller := by
  unfold MembershipRequest.authorize at h
  split at h
  · cases h
  · cases h
  · split at h
    · cases h
      rfl
    · cases h
  · split at h
    · cases h
    · cases h
      rfl

theorem write_rowId {r : MembershipRequest} {m : WorkspaceMembership} {u : MembershipWrite}
    (h : r.write m = some u) : u.rowId = m.id := by
  unfold MembershipRequest.write at h
  split at h
  · split at h
    · cases h
    · cases h
      rfl
  · cases h
    rfl

theorem withoutRow_asserts {r : MembershipRequest} {m : WorkspaceMembership} {counted : Option Nat}
    (hkeeps : t.Keeps m) (hcounted : ∀ n, counted = some n → 2 ≤ n) :
    (r.withoutRow m counted).Asserts t held := by
  unfold MembershipRequest.withoutRow
  split
  · trivial
  · exact ⟨hkeeps, hcounted, fun u hu => by cases hu⟩

theorem target_asserts {r : MembershipRequest} {m : WorkspaceMembership} (hkeeps : t.Keeps m) :
    (if r.unseats m then MembershipStep.count r m else .policy r m none).Asserts t held := by
  split
  · exact hkeeps
  · exact ⟨hkeeps, fun n hn => by cases hn⟩

theorem MembershipStep.next_asserts {step step' : MembershipStep} {held' : List Nat}
    (h : step.Asserts t held) (hnext : step.next t held = some (held', step')) :
    step'.Asserts t held' := by
  cases step with
  | authorize r =>
    dsimp only [MembershipStep.next] at hnext
    split at hnext
    · rename_i caller hcaller
      cases hnext
      exact Memberships.keeps_of_mem (Memberships.getMembership_mem (authorize_ok hcaller))
    · cases hnext
      trivial
  | target r caller =>
    dsimp only [MembershipStep.next] at hnext
    split at hnext
    · cases hnext
      trivial
    · rename_i m hfound
      cases hnext
      obtain ⟨row, hrow, hm⟩ := Option.map_eq_some_iff.mp hfound
      refine target_asserts ?_
      split at hm
      · exact hm ▸ h
      · exact hm ▸ Memberships.keeps_of_mem (Memberships.getMembership_mem hrow)
  | count r m =>
    dsimp only [MembershipStep.next] at hnext
    split at hnext
    · cases hnext
      trivial
    · rename_i hmany
      cases hnext
      refine ⟨h, fun n hn => ?_⟩
      cases hn
      exact Nat.lt_of_not_le hmany
  | policy r m counted =>
    dsimp only [MembershipStep.next] at hnext
    split at hnext
    · cases hnext
      exact ⟨h.1, h.2, fun u hu => by cases hu⟩
    · split at hnext
      · cases hnext
        exact h
      · cases hnext
        exact withoutRow_asserts h.1 h.2
  | lockRow r m counted =>
    dsimp only [MembershipStep.next] at hnext
    split at hnext
    · cases hnext
      exact ⟨h.1, h.2, fun u hu => write_rowId hu⟩
    · cases hnext
      exact withoutRow_asserts h.1 h.2
  | done m counted write => cases hnext
  | refused error => cases hnext

/-! ## Commits -/

/-- After a write every row is an old one, up to its role. -/
theorem MembershipWrite.commit_old {u : MembershipWrite} {now : WorkspaceMembership}
    (h : now ∈ u.commit t) :
    ∃ old ∈ t, old.id = now.id ∧ old.workspaceId = now.workspaceId := by
  cases u with
  | setRole id role =>
    obtain ⟨old, hold, hnow⟩ := Table.mem_modify.mp h
    refine ⟨old, hold, ?_⟩
    split at hnow
    · rw [← hnow]
      exact ⟨rfl, rfl⟩
    · rw [← hnow]
      exact ⟨rfl, rfl⟩
  | delete id => exact ⟨now, (Table.mem_deleteWhere.mp h).1, rfl, rfl⟩

theorem Memberships.Keeps.commit {m : WorkspaceMembership} (h : t.Keeps m) (u : MembershipWrite) :
    (u.commit t).Keeps m := by
  intro now hnow hid
  obtain ⟨old, hold, holdid, hworkspace⟩ := MembershipWrite.commit_old hnow
  exact hworkspace.symm.trans (h old hold (holdid.trans hid))

theorem MembershipStep.Asserts.commit {step : MembershipStep} (h : step.Asserts t held)
    (u : MembershipWrite) :
    step.Asserts (u.commit t) held := by
  cases step with
  | authorize r => trivial
  | target r caller => exact Memberships.Keeps.commit h u
  | count r m => exact Memberships.Keeps.commit h u
  | policy r m counted => exact ⟨h.1.commit u, h.2⟩
  | lockRow r m counted => exact ⟨h.1.commit u, h.2⟩
  | done m counted write => exact ⟨h.1.commit u, h.2⟩
  | refused error => trivial

/-- A write leaves the other rows, and a promotion leaves every admin. -/
theorem MembershipWrite.commit_keeps {u : MembershipWrite} {m : WorkspaceMembership}
    {workspaceId : Nat} (hm : m ∈ t) (hadmin : m.isAdminOf workspaceId = true)
    (hsafe : m.id ≠ u.rowId ∨ u.unseats = false) :
    (u.commit t).HasAdmin workspaceId := by
  cases u with
  | setRole id role =>
    by_cases hid : m.id = id
    · have hrole : role = .admin := by
        rcases hsafe with hne | hsame
        · exact absurd hid hne
        · simpa [MembershipWrite.unseats] using hsame
      refine ⟨(WorkspaceMembership.setRole role).apply m, Table.mem_modify.mpr ⟨m, hm, if_pos hid⟩,
        ?_⟩
      rw [WorkspaceMembership.isAdminOf, Bool.and_eq_true] at hadmin ⊢
      exact ⟨hadmin.1, by rw [hrole]; rfl⟩
    · exact ⟨m, Table.mem_modify.mpr ⟨m, hm, if_neg hid⟩, hadmin⟩
  | delete id =>
    have hid : m.id ≠ id := by
      rcases hsafe with hne | hsame
      · exact hne
      · cases hsame
    exact ⟨m, Table.mem_deleteWhere.mpr ⟨hm, by simpa using hid⟩, hadmin⟩

/-- **A commit whose guard still holds leaves an admin.** -/
theorem done_keeps {workspaceId : Nat} {m : WorkspaceMembership} {counted : Option Nat}
    {u : MembershipWrite} (hstore : t.HasAdmin workspaceId)
    (h : (MembershipStep.done m counted (some u)).Asserts t held)
    (hguard : (MembershipStep.done m counted (some u)).guardHolds t = true) :
    (u.commit t).HasAdmin workspaceId := by
  obtain ⟨hkeeps, hcounted, hrow⟩ := h
  obtain ⟨admin, hadmin, hisAdmin⟩ := hstore
  have hworkspace : admin.workspaceId = workspaceId := by
    simpa using (Bool.and_eq_true_iff.mp hisAdmin).1
  cases hunseats : u.unseats with
  | false => exact MembershipWrite.commit_keeps hadmin hisAdmin (.inr hunseats)
  | true =>
    by_cases hother : admin.id = m.id
    swap
    · exact MembershipWrite.commit_keeps hadmin hisAdmin (.inl (hrow u rfl ▸ hother))
    -- the target is an admin of the workspace: it was counted, and another one with it
    have htarget : m.workspaceId = workspaceId := (hkeeps admin hadmin hother).symm.trans hworkspace
    cases counted with
    | none =>
      have hfound : t.get? m.id = some admin := hother ▸ Table.get?_of_mem hadmin
      have hrole : admin.role = .admin := by
        simpa using (Bool.and_eq_true_iff.mp hisAdmin).2
      simp [MembershipStep.guardHolds, hunseats, hfound, hrole] at hguard
    | some n =>
      have hstill : n ≤ t.count (·.isAdminOf m.workspaceId) := by
        simpa [MembershipStep.guardHolds, hunseats] using hguard
      have hmany : 2 ≤ t.count (·.isAdminOf workspaceId) := htarget ▸ (hcounted n rfl).trans hstill
      obtain ⟨second, hsecond, hisSecond, hne⟩ := Table.exists_other hmany m.id
      exact MembershipWrite.commit_keeps hsecond hisSecond (.inl (hrow u rfl ▸ hne))

theorem memberships_outline (workspaceId : Nat) :
    Outline memberships (fun w a => guardsHold w a = true) (·.HasAdmin workspaceId)
      MembershipStep.Asserts where
  starts := by
    intro w request _ _
    trivial
  runs := fun hw hx _ hnext _ => MembershipStep.next_asserts (hw.running _ hx) hnext
  commits := by
    intro w x u hw hx hok hcommit
    have hfound : w.running.get? x.id = some x := Table.get?_of_mem hx
    have hguard : x.locals.guardHolds w.store = true := by
      have hcondition : (w.running.get? x.id).all (·.locals.guardHolds w.store) = true := hok
      rw [hfound] at hcondition
      exact hcondition
    have hasserts := hw.running x hx
    cases hlocals : x.locals with
    | done m counted write =>
      rw [hlocals] at hguard hasserts hcommit
      cases hcommit
      cases write with
      | none => exact ⟨hw.store, fun y hy _ => hw.running y hy⟩
      | some u =>
        exact ⟨done_keeps hw.store hasserts hguard, fun y hy _ => (hw.running y hy).commit u⟩
    | _ =>
      rw [hlocals] at hcommit
      cases hcommit
  others := by
    intro w event
    cases event

/-- **A workspace keeps an admin** in every interleaving in which what a guard has seen still holds
when its request commits. -/
theorem workspace_keeps_admin {workspaceId : Nat} (hstart : t.HasAdmin workspaceId)
    {w : World Memberships Nat MembershipStep}
    (hreach : Reach memberships.Steps (fun w a => guardsHold w a = true) { store := t } w) :
    w.store.HasAdmin workspaceId :=
  ((memberships_outline workspaceId).sound (World.Holds.idle hstart) hreach).store

/-! ## Two admins -/

def twoAdmins : Memberships :=
  ((∅ : Memberships).insert ⟨fun id => { id, workspaceId := 0, userId := 1, role := .admin },
    fun _ => rfl⟩).insert
    ⟨fun id => { id, workspaceId := 0, userId := 2, role := .admin }, fun _ => rfl⟩

/-- Each demotes the other; the requests run side by side, and the first commits before the second
counts or after. -/
def demotions (countedFirst : Bool) : List (Action MembershipRequest Empty) :=
  [.start ⟨1, 0, 2, .updateRole .editor⟩, .start ⟨2, 0, 1, .updateRole .editor⟩] ++
    (if countedFirst then List.replicate 5 (.run 0) ++ List.replicate 5 (.run 1) ++
      [.commit 0, .commit 1]
    else List.replicate 5 (.run 0) ++ [.commit 0] ++ List.replicate 5 (.run 1) ++ [.commit 1])

theorem twoAdmins_hasAdmin : twoAdmins.HasAdmin 0 :=
  ⟨_, List.mem_cons_self, rfl⟩

theorem workspace_keeps_admin_demoted :
    (replay memberships.step { store := twoAdmins } (demotions false)).store.HasAdmin 0 ∧
      (replay memberships.step { store := twoAdmins } (demotions false)).store.count
        (·.isAdminOf 0) = 1 := by
  have hadmits : admits memberships.step guardsHold { store := twoAdmins } (demotions false) =
      true := by
    decide +kernel
  exact ⟨workspace_keeps_admin twoAdmins_hasAdmin (reach_replay _ _ hadmits), by decide +kernel⟩

/-- Both guards count two admins. -/
theorem admins_demote_each_other :
    ¬ ∀ (t : Memberships) (workspaceId : Nat) (w : World Memberships Nat MembershipStep),
      t.HasAdmin workspaceId →
        Reach memberships.Steps (fun _ _ => True) { store := t } w →
          w.store.HasAdmin workspaceId := by
  intro h
  have hreach : Reach memberships.Steps (fun _ _ => True) { store := twoAdmins }
      (replay memberships.step { store := twoAdmins } (demotions true)) := reach_any _ _
  obtain ⟨m, hm, hadmin⟩ := h twoAdmins 0 _ twoAdmins_hasAdmin hreach
  have hnone : (replay memberships.step { store := twoAdmins } (demotions true)).store.count
      (·.isAdminOf 0) = 0 := by
    decide +kernel
  have hfalse := Table.count_eq_zero.mp hnone m hm
  rw [hadmin] at hfalse
  cases hfalse

end ContentOrchestrator

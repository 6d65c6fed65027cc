import ContentOrchestrator.Workers.CredentialLocks

/-! # Revocation covers rotations

A rotation and a revocation of one worker never overlap between lock and commit. So a
revocation finds every credential issued under an earlier lock, and what is active
after it was issued under a later one. -/

namespace ContentOrchestrator

open Lib

/-- What may become of a credential: it expires no later, and a revoked one stays revoked. -/
structure WorkerCredential.Fades (c c' : WorkerCredential) : Prop where
  id : c'.id = c.id
  expires : ∀ t, c.expiresAt = some t → ∃ t', c'.expiresAt = some t' ∧ t' ≤ t
  revoked : c.status = .revoked → c'.status = .revoked

/-- An active credential of a revoked worker was inserted by a rotation that took the lock after the
revocation's commit. -/
def CredentialStore.Covered (s : CredentialStore) : Prop :=
  ∀ rev ∈ s.revocations, ∀ c ∈ s.credentials, c.isActiveOf rev.workerId = true →
    ∃ i ∈ s.issues, i.credentialId = c.id ∧ rev.number ≤ i.since

/-- The commit of a revocation leaves no active credential of its worker, and what is active later
was issued later. -/
structure RevocationsCover (w : World CredentialStore Nat CredentialPoint) : Prop where
  atCommit : ∀ x ∈ w.running, ∀ r graceUntil since active, x.locals =
    .selected r graceUntil since active →
    r.change = .revoke →
      ∀ c ∈ (commitCredentials r graceUntil since active w.store).credentials,
        c.isActiveOf r.workerId = false
  afterwards : w.store.Covered

variable {s origin : CredentialStore} {held : List Nat} {c : WorkerCredential}

theorem WorkerCredential.Fades.refl (c : WorkerCredential) : c.Fades c :=
  ⟨rfl, fun t ht => ⟨t, ht, Nat.le_refl t⟩, fun h => h⟩

theorem WorkerCredential.Fades.trans {c' c'' : WorkerCredential} (h : c.Fades c')
    (h' : c'.Fades c'') : c.Fades c'' where
  id := h'.id.trans h.id
  expires t ht := by
    obtain ⟨t', ht', hle⟩ := h.expires t ht
    obtain ⟨t'', ht'', hle'⟩ := h'.expires t' ht'
    exact ⟨t'', ht'', hle'.trans hle⟩
  revoked hrevoked := h'.revoked (h.revoked hrevoked)

theorem retireBy_fades (graceUntil : Nat) (c : WorkerCredential) :
    c.Fades ((WorkerCredential.retireBy graceUntil).apply c) where
  id := rfl
  expires t ht := by
    simp only [WorkerCredential.retireBy, ht, Option.all_some, decide_eq_true_eq]
    split
    · rename_i hlt
      exact ⟨graceUntil, rfl, Nat.le_of_lt hlt⟩
    · exact ⟨t, rfl, Nat.le_refl t⟩
  revoked h := h

theorem revoke_fades (c : WorkerCredential) : c.Fades (WorkerCredential.revoke.apply c) :=
  ⟨rfl, fun t ht => ⟨t, ht, Nat.le_refl t⟩, fun _ => rfl⟩

/-! ## What a request knows -/

/-- It holds the lock since a moment after every revocation of the worker. -/
structure CredentialRequest.Holds (s : CredentialStore) (held : List Nat) (r : CredentialRequest)
    (since : Nat) : Prop where
  locked : r.workerId ∈ held
  begun : since ≤ s.commits
  later : ∀ rev ∈ s.revocations, rev.workerId = r.workerId → rev.number ≤ since

def CredentialPoint.Asserts (s : CredentialStore) (held : List Nat) : CredentialPoint → Prop
  | .requested _ | .refused _ => True
  | .lockWorker r _ => (s.workers.get? r.workerId).isSome = true
  | .selectActive r _ since => r.Holds s held since
  | .selected r _ since active =>
    r.Holds s held since ∧ active = s.credentials.select (·.isActiveOf r.workerId)

/-- The history counts no further than the commits, it is covered, and credentials only fade. -/
structure CredentialStore.Sound (origin s : CredentialStore) : Prop where
  numbered : ∀ rev ∈ s.revocations, rev.number ≤ s.commits
  covered : s.Covered
  fades : ∀ c ∈ origin.credentials, ∃ c' ∈ s.credentials, c.Fades c'

theorem CredentialPoint.next_asserts {point point' : CredentialPoint} {held' : List Nat}
    (hnumbered : ∀ rev ∈ s.revocations, rev.number ≤ s.commits) (h : point.Asserts s held)
    (hnext : point.next s held = some (held', point')) : point'.Asserts s held' := by
  cases point with
  | requested r =>
    dsimp only [CredentialPoint.next] at hnext
    split at hnext
    · rename_i hfound
      cases hnext
      unfold CredentialStore.getWorkspaceWorker at hfound
      split at hfound
      · cases hfound
      · rename_i w hw
        simp [CredentialPoint.Asserts, hw]
    · cases hnext
      trivial
  | lockWorker r graceUntil =>
    dsimp only [CredentialPoint.next] at hnext
    split at hnext
    · cases hnext
      exact ⟨List.mem_cons_self, Nat.le_refl _, fun rev hrev _ => hnumbered rev hrev⟩
    · rename_i hmissing
      exact absurd h hmissing
  | selectActive r graceUntil since =>
    cases hnext
    exact ⟨h, rfl⟩
  | selected r graceUntil since active => cases hnext
  | refused error => cases hnext

/-! ## Commits -/

variable {r : CredentialRequest} {graceUntil since : Nat}

theorem commitCredentials_commits {active : List WorkerCredential} :
    (commitCredentials r graceUntil since active s).commits = s.commits + 1 := by
  unfold commitCredentials
  cases r.change with
  | rotate secretHash => rfl
  | revoke => rfl

theorem commitCredentials_workers {active : List WorkerCredential} :
    (commitCredentials r graceUntil since active s).workers = s.workers := by
  unfold commitCredentials
  cases r.change with
  | rotate secretHash => rfl
  | revoke => rfl

/-- A commit records no revocation of another worker, and none after its own number. -/
theorem mem_commitCredentials_revocations {active : List WorkerCredential} {rev : Revocation}
    (h : rev ∈ (commitCredentials r graceUntil since active s).revocations) :
    rev ∈ s.revocations ∨ rev = ⟨r.workerId, s.commits + 1⟩ ∧ r.change = .revoke := by
  unfold commitCredentials at h
  split at h
  · exact .inl h
  · rename_i hchange
    rcases List.mem_append.mp h with h | h
    · exact .inl h
    · exact .inr ⟨List.mem_singleton.mp h, hchange⟩

theorem isActiveOf_iff {workerId : Nat} :
    c.isActiveOf workerId = true ↔ c.workerId = workerId ∧ c.status = .active := by
  simp [WorkerCredential.isActiveOf]

/-- **A revocation leaves no active credential of the worker.** -/
theorem revoked_inactive (hchange : r.change = .revoke) :
    ∀ c ∈ (commitCredentials r graceUntil since (s.credentials.select (·.isActiveOf r.workerId))
      s).credentials,
      c.isActiveOf r.workerId = false := by
  rw [commitCredentials_revoke hchange]
  intro c hc
  obtain ⟨old, -, rfl⟩ := Table.mem_modifyWhere.mp hc
  split
  · simp [WorkerCredential.isActiveOf, WorkerCredential.revoke]
  · rename_i hinactive
    exact Bool.eq_false_iff.mpr hinactive

/-- What is active after a commit was active before, or is the new credential of a rotation. -/
theorem active_before {workerId : Nat} {c' : WorkerCredential}
    (hc : c' ∈
    (commitCredentials r graceUntil since (s.credentials.select (·.isActiveOf r.workerId))
    s).credentials) (hactive : c'.isActiveOf workerId = true) :
    (∃ c ∈ s.credentials, c.id = c'.id ∧ c.isActiveOf workerId = true) ∨
      workerId = r.workerId ∧
        ⟨c'.id, since⟩ ∈
          (commitCredentials r graceUntil since (s.credentials.select (·.isActiveOf r.workerId))
            s).issues := by
  cases hchange : r.change with
  | rotate secretHash =>
    rw [commitCredentials_rotate hchange] at hc
    rcases Table.mem_insert.mp hc with hc | rfl
    · obtain ⟨c, hmem, rfl⟩ := Table.mem_modifyWhere.mp hc
      refine .inl ⟨c, hmem, ?_⟩
      split at hactive
      · rename_i hretired
        rw [if_pos hretired]
        exact ⟨rfl, hactive⟩
      · rename_i hkept
        rw [if_neg hkept]
        exact ⟨rfl, hactive⟩
    · refine .inr ⟨(isActiveOf_iff.mp hactive).1.symm, ?_⟩
      simp [commitCredentials, hchange, newCredential]
  | revoke =>
    rw [commitCredentials_revoke hchange] at hc
    obtain ⟨c, hmem, rfl⟩ := Table.mem_modifyWhere.mp hc
    refine .inl ⟨c, hmem, ?_⟩
    split at hactive
    · simp [WorkerCredential.isActiveOf, WorkerCredential.revoke] at hactive
    · rename_i hkept
      rw [if_neg hkept]
      exact ⟨rfl, hactive⟩

/-- Credentials fade. -/
theorem commit_fades (hc : c ∈ s.credentials) :
    ∃ c' ∈ (commitCredentials r graceUntil since (s.credentials.select (·.isActiveOf r.workerId))
      s).credentials,
      c.Fades c' := by
  cases hchange : r.change with
  | rotate secretHash =>
    rw [commitCredentials_rotate hchange]
    refine ⟨_, Table.mem_insert.mpr (.inl (Table.mem_modifyWhere.mpr ⟨c, hc, rfl⟩)), ?_⟩
    split
    · exact retireBy_fades _ c
    · exact .refl c
  | revoke =>
    rw [commitCredentials_revoke hchange]
    refine ⟨_, Table.mem_modifyWhere.mpr ⟨c, hc, rfl⟩, ?_⟩
    split
    · exact revoke_fades c
    · exact .refl c

/-- The active credentials of another worker stay as they are. -/
theorem commit_selectOther {workerId : Nat} (hne : workerId ≠ r.workerId) :
    (commitCredentials r graceUntil since (s.credentials.select (·.isActiveOf r.workerId))
    s).credentials.select
      (·.isActiveOf workerId) = s.credentials.select (·.isActiveOf workerId) := by
  have hother : ∀ a : WorkerCredential, a.workerId = r.workerId →
      a.isActiveOf workerId = false := by
    intro a ha
    simp [WorkerCredential.isActiveOf, ha, Ne.symm hne]
  cases hchange : r.change with
  | rotate secretHash =>
    rw [commitCredentials_rotate hchange, Table.select_insert_of_not (hother _ rfl)]
    refine Table.select_modifyWhere_of_not fun a _ ha => ?_
    have hworker := (isActiveOf_iff.mp ha).1
    exact ⟨hother a hworker, hother _ hworker⟩
  | revoke =>
    rw [commitCredentials_revoke hchange]
    refine Table.select_modifyWhere_of_not fun a _ ha => ?_
    have hworker := (isActiveOf_iff.mp ha).1
    exact ⟨hother a hworker, hother _ hworker⟩

theorem commit_issues {active : List WorkerCredential} {i : Issue} (h : i ∈ s.issues) :
    i ∈ (commitCredentials r graceUntil since active s).issues := by
  unfold commitCredentials
  cases r.change with
  | rotate secretHash => exact List.mem_append_left _ h
  | revoke => exact h

theorem CredentialStore.Sound.commit (h : origin.Sound s) (hholds : r.Holds s held since) :
    origin.Sound (commitCredentials r graceUntil since
      (s.credentials.select (·.isActiveOf r.workerId)) s) where
  numbered rev hrev := by
    rw [commitCredentials_commits]
    rcases mem_commitCredentials_revocations hrev with hold | ⟨rfl, -⟩
    · exact Nat.le_succ_of_le (h.numbered rev hold)
    · exact Nat.le_refl _
  covered rev hrev c' hc' hactive := by
    rcases mem_commitCredentials_revocations hrev with hold | ⟨rfl, hchange⟩
    · rcases active_before hc' hactive with ⟨c, hc, hid, hbefore⟩ | ⟨hworker, hissue⟩
      · obtain ⟨i, hi, hcredential, hle⟩ := h.covered rev hold c hc hbefore
        exact ⟨i, commit_issues hi, hcredential.trans hid, hle⟩
      · exact ⟨_, hissue, rfl, hholds.later rev hold hworker⟩
    · rw [revoked_inactive hchange c' hc'] at hactive
      cases hactive
  fades c hc := by
    obtain ⟨c', hc', hfades⟩ := h.fades c hc
    obtain ⟨c'', hc'', hfades'⟩ := commit_fades hc'
    exact ⟨c'', hc'', hfades.trans hfades'⟩

/-- Another request knows what it knew: its lock is on another worker. -/
theorem CredentialRequest.Holds.commit {r' : CredentialRequest} {since' : Nat} {held' : List Nat}
    (h : r'.Holds s held' since') (hne : r'.workerId ≠ r.workerId)
    {active : List WorkerCredential} :
    r'.Holds (commitCredentials r graceUntil since active s) held' since' where
  locked := h.locked
  begun := by
    rw [commitCredentials_commits]
    exact Nat.le_succ_of_le h.begun
  later rev hrev hworker := by
    rcases mem_commitCredentials_revocations hrev with hold | ⟨rfl, -⟩
    · exact h.later rev hold hworker
    · exact absurd hworker.symm hne

theorem CredentialPoint.Asserts.commit {point : CredentialPoint} {held' : List Nat}
    (h : point.Asserts s held') (hholds : r.Holds s held since)
    (hexclusive : ∀ k ∈ held, k ∉ held') :
    point.Asserts (commitCredentials r graceUntil since
      (s.credentials.select (·.isActiveOf r.workerId)) s) held' := by
  have hne : ∀ {r' : CredentialRequest} {since' : Nat}, r'.Holds s held' since' →
      r'.workerId ≠ r.workerId :=
    fun h' heq => hexclusive _ hholds.locked (heq ▸ h'.locked)
  cases point with
  | requested r' => trivial
  | lockWorker r' graceUntil' =>
    unfold CredentialPoint.Asserts
    rw [commitCredentials_workers]
    exact h
  | selectActive r' graceUntil' since' => exact CredentialRequest.Holds.commit h (hne h)
  | selected r' graceUntil' since' active =>
    refine ⟨h.1.commit (hne h.1), ?_⟩
    rw [commit_selectOther (hne h.1)]
    exact h.2
  | refused error => trivial

theorem credentials_outline (origin : CredentialStore) :
    Outline credentialRequests (fun _ _ => True) origin.Sound CredentialPoint.Asserts where
  starts := by
    intro w request _ _
    trivial
  runs := fun hw hx _ hnext _ =>
    CredentialPoint.next_asserts hw.store.numbered (hw.running _ hx) hnext
  commits := by
    intro w x u hw hx _ hcommit
    have hasserts := hw.running x hx
    cases hlocals : x.locals with
    | selected r graceUntil since active =>
      rw [hlocals] at hasserts hcommit
      cases hcommit
      obtain ⟨hholds, rfl⟩ := hasserts
      exact ⟨hw.store.commit hholds, fun y hy hne =>
        (hw.running y hy).commit hholds (hw.exclusive x hx y hy (Ne.symm hne))⟩
    | _ =>
      rw [hlocals] at hcommit
      cases hcommit
  others := by
    intro w elapsed hw _ _
    refine ⟨⟨hw.store.numbered, hw.store.covered, hw.store.fades⟩, fun y hy => ?_⟩
    have hasserts := hw.running y hy
    cases hlocals : y.locals with
    | requested r => trivial
    | lockWorker r graceUntil =>
      rw [hlocals] at hasserts
      exact hasserts
    | selectActive r graceUntil since =>
      rw [hlocals] at hasserts
      exact ⟨hasserts.locked, hasserts.begun, hasserts.later⟩
    | selected r graceUntil since active =>
      rw [hlocals] at hasserts
      exact ⟨⟨hasserts.1.locked, hasserts.1.begun, hasserts.1.later⟩, hasserts.2⟩
    | refused error => trivial

/-- **Revocation covers rotations**, in every interleaving of rotations and revocations, and no
credential comes to live longer than it was issued for. -/
theorem revocation_covers_rotations {now : Nat} {workers : Table WorkerRegistration}
    {credentials : Table WorkerCredential} {w : World CredentialStore Nat CredentialPoint}
    (hreach : Reach credentialRequests.Steps (fun _ _ => True)
    { store := { now, workers, credentials } } w) :
    RevocationsCover w ∧
      ∀ w', Reach credentialRequests.Steps (fun _ _ => True) w w' →
        ∀ c ∈ w.store.credentials, ∃ c' ∈ w'.store.credentials, c.Fades c' := by
  have hstart : CredentialStore.Sound { now, workers, credentials } { now, workers, credentials } :=
    ⟨fun _ hrev => absurd hrev List.not_mem_nil, fun _ hrev => absurd hrev List.not_mem_nil,
      fun c hc => ⟨c, hc, .refl c⟩⟩
  have hw := (credentials_outline _).sound (World.Holds.idle hstart) hreach
  refine ⟨⟨fun x hx r graceUntil since active hlocals hchange => ?_, hw.store.covered⟩,
    fun w' hlater => ?_⟩
  · have hasserts := hw.running x hx
    rw [hlocals] at hasserts
    obtain ⟨-, rfl⟩ := hasserts
    exact revoked_inactive hchange
  · have hhere : World.Holds w.store.Sound CredentialPoint.Asserts w :=
      ⟨⟨hw.store.numbered, hw.store.covered, fun c hc => ⟨c, hc, .refl c⟩⟩, hw.running,
        hw.exclusive⟩
    exact ((credentials_outline w.store).sound hhere hlater).store.fades

/-! ## A revocation between two rotations -/

/-- A worker with one credential. -/
def credentialed : CredentialStore where
  now := 0
  workers := (∅ : Table WorkerRegistration).insert
    ⟨fun id => { id, workspaceId := some 0, supportedStages := [] }, fun _ => rfl⟩
  credentials := (∅ : Table WorkerCredential).insert (newCredential 0 0 "a")

/-- The revocation waits for the first rotation, the second rotation for the revocation. -/
def rotationsAndRevocation : List (Action CredentialRequest Nat) :=
  [.start ⟨0, 0, .rotate "b"⟩, .start ⟨0, 0, .revoke⟩, .start ⟨0, 0, .rotate "c"⟩, .run 0, .run 0,
   .run 1, .run 1, .other 7, .run 0, .commit 0, .run 1, .run 2, .run 2, .run 1, .commit 1, .run 2,
   .run 2, .commit 2]

theorem revocation_covers_rotations_between :
    RevocationsCover (replay credentialRequests.step { store := credentialed }
      rotationsAndRevocation) ∧
      ((replay credentialRequests.step { store := credentialed }
        rotationsAndRevocation).store.credentials.select
        (·.isActiveOf 0)).map (·.secretHash) = ["c"] := by
  have hreach : Reach credentialRequests.Steps (fun _ _ => True) { store := credentialed }
      (replay credentialRequests.step { store := credentialed } rotationsAndRevocation) :=
        reach_any _ _
  exact ⟨(revocation_covers_rotations hreach).1, by decide +kernel⟩

end ContentOrchestrator

import ContentOrchestrator.Lib.Interleaving
import ContentOrchestrator.Workers.Endpoints

/-! # Rotations and revocations side by side

Both handlers lock the worker row, then read its active credentials, then write those
they have read. The clock of a rotation is read before it waits for the lock. Beside the
tables the commits are counted: when a rotation that issued a credential took the lock,
and when a worker was revoked. -/

namespace ContentOrchestrator

open Lib

/-- A credential was inserted by a rotation that took the lock after so many commits. -/
structure Issue where
  credentialId : Nat
  since : Nat
deriving DecidableEq, Repr

/-- All credentials of the worker were revoked by the commit of this number. -/
structure Revocation where
  workerId : Nat
  number : Nat
deriving DecidableEq, Repr

structure CredentialStore where
  now : Nat
  workers : Table WorkerRegistration
  credentials : Table WorkerCredential
  commits : Nat := 0
  issues : List Issue := []
  revocations : List Revocation := []

inductive CredentialChange
  | rotate (secretHash : String)
  | revoke
deriving DecidableEq, Repr

structure CredentialRequest where
  workspaceId : Nat
  workerId : Nat
  change : CredentialChange
deriving DecidableEq, Repr

/-- The statement of a request that comes next, or its end. -/
inductive CredentialPoint
  | requested (r : CredentialRequest)
  | lockWorker (r : CredentialRequest) (graceUntil : Nat)
  | selectActive (r : CredentialRequest) (graceUntil since : Nat)
  | selected (r : CredentialRequest) (graceUntil since : Nat) (active : List WorkerCredential)
  | refused (error : ApiError)
deriving DecidableEq, Repr

/-- `_get_workspace_worker`, in the session of the route. -/
def CredentialStore.getWorkspaceWorker (s : CredentialStore) (r : CredentialRequest) :
    Except ApiError Unit :=
  match s.workers.get? r.workerId with
  | none => .error (.notFound "worker not found")
  | some w =>
    if w.workspaceId = some r.workspaceId then .ok () else .error (.notFound "worker not found")

def CredentialPoint.next (s : CredentialStore) (held : List Nat) :
    CredentialPoint → Option (List Nat × CredentialPoint)
  | .requested r =>
    match s.getWorkspaceWorker r with
    | .ok _ => some (held, .lockWorker r (s.now + seconds workerCredentialRotationGraceSeconds))
    | .error error => some (held, .refused error)
  | .lockWorker r graceUntil =>
    -- `FOR UPDATE` of a row that is not there locks nothing
    if (s.workers.get? r.workerId).isSome then
      some (r.workerId :: held, .selectActive r graceUntil s.commits)
    else some (held, .selectActive r graceUntil s.commits)
  | .selectActive r graceUntil since =>
    some (held, .selected r graceUntil since (s.credentials.select (·.isActiveOf r.workerId)))
  | .selected _ _ _ _ | .refused _ => none

/-- The row that was read of a credential. -/
def rowRead (active : List WorkerCredential) (c : WorkerCredential) : Option WorkerCredential :=
  active.find? (·.id == c.id)

/-- The expiry is set where the row that was read has none, or a later one. -/
def retireRead (graceUntil : Nat) (active : List WorkerCredential) : Update WorkerCredential :=
  ⟨fun c =>
    { c with
      expiresAt :=
        if (rowRead active c).any fun read => read.expiresAt.all fun t =>
          decide (graceUntil < t) then some graceUntil
        else c.expiresAt }, fun _ => rfl⟩

def commitCredentials (r : CredentialRequest) (graceUntil since : Nat)
    (active : List WorkerCredential) (s : CredentialStore) : CredentialStore :=
  match r.change with
  | .rotate secretHash =>
    { s with
      credentials :=
        (s.credentials.modifyWhere (fun c => (rowRead active c).isSome)
          (retireRead graceUntil active)).insert
        (newCredential r.workerId r.workspaceId secretHash)
      commits := s.commits + 1
      issues := s.issues ++ [⟨s.credentials.next, since⟩] }
  | .revoke =>
    { s with
      credentials :=
        s.credentials.modifyWhere (fun c => (rowRead active c).isSome) WorkerCredential.revoke
      commits := s.commits + 1
      revocations := s.revocations ++ [⟨r.workerId, s.commits + 1⟩] }

def CredentialPoint.commit : CredentialPoint → Option (CredentialStore → CredentialStore)
  | .selected r graceUntil since active => some (commitCredentials r graceUntil since active)
  | _ => none

/-- The requests of a system; between their statements time passes. -/
def credentialRequests : Code CredentialStore Nat CredentialPoint CredentialRequest Nat where
  start := .requested
  next s _ held point := point.next s held
  commit := CredentialPoint.commit
  needs _ _ := []
  apply elapsed s := { s with now := s.now + elapsed }

/-! ## One request alone -/

theorem rowRead_select {t : Table WorkerCredential} {workerId : Nat} {c : WorkerCredential}
    (hc : c ∈ t) :
    rowRead (t.select (·.isActiveOf workerId)) c = if c.isActiveOf workerId then some c
      else none := by
  unfold rowRead
  split
  · rename_i hactive
    cases hfound : (t.select (·.isActiveOf workerId)).find? (·.id == c.id) with
    | none =>
      have hnone := List.find?_eq_none.mp hfound c (Table.mem_select.mpr ⟨hc, hactive⟩)
      simp at hnone
    | some read =>
      have hmem := (Table.mem_select.mp (List.mem_of_find?_eq_some hfound)).1
      have hid : read.id = c.id := by simpa using List.find?_some hfound
      rw [Table.eq_of_key hmem hc hid]
  · rename_i hinactive
    refine List.find?_eq_none.mpr fun read hread hid => hinactive ?_
    obtain ⟨hmem, hactive⟩ := Table.mem_select.mp hread
    have hkey : read.id = c.id := by simpa using hid
    have hsame : read = c := Table.eq_of_key hmem hc hkey
    exact hsame ▸ hactive

theorem modifyWhere_retireRead {t : Table WorkerCredential} {workerId graceUntil : Nat} :
    t.modifyWhere (fun c => (rowRead (t.select (·.isActiveOf workerId)) c).isSome)
        (retireRead graceUntil (t.select (·.isActiveOf workerId))) =
      t.modifyWhere (·.isActiveOf workerId) (WorkerCredential.retireBy graceUntil) := by
  refine Table.ext_rows (List.map_congr_left fun c hc => ?_) rfl
  have hread := @rowRead_select t workerId c hc
  by_cases hactive : c.isActiveOf workerId = true
  · rw [if_pos hactive] at hread
    simp [hread, hactive, retireRead, WorkerCredential.retireBy]
  · rw [if_neg hactive] at hread
    simp [hread, hactive]

/-- A rotation over the rows it has just read does what the handler does in one piece. -/
theorem commitCredentials_rotate {r : CredentialRequest} {secretHash : String}
    (hchange : r.change = .rotate secretHash) (s : CredentialStore) (graceUntil since : Nat) :
    (commitCredentials r graceUntil since (s.credentials.select (·.isActiveOf r.workerId))
    s).credentials =
      (s.credentials.modifyWhere (·.isActiveOf r.workerId)
        (WorkerCredential.retireBy graceUntil)).insert
        (newCredential r.workerId r.workspaceId secretHash) := by
  unfold commitCredentials
  rw [hchange]
  exact congrArg (Table.insert · (newCredential r.workerId r.workspaceId secretHash))
    modifyWhere_retireRead

/-- And so does a revocation. -/
theorem commitCredentials_revoke {r : CredentialRequest} (hchange : r.change = .revoke)
    (s : CredentialStore) (graceUntil since : Nat) :
    (commitCredentials r graceUntil since (s.credentials.select (·.isActiveOf r.workerId))
    s).credentials =
      s.credentials.modifyWhere (·.isActiveOf r.workerId) WorkerCredential.revoke := by
  unfold commitCredentials
  rw [hchange]
  refine Table.modifyWhere_congr fun c hc => ?_
  rw [rowRead_select hc]
  cases c.isActiveOf r.workerId with
  | true => rfl
  | false => rfl

end ContentOrchestrator

import ContentOrchestrator.Lib.Interleaving

/-! # Memberships

Role changes and removals, statement by statement. A request reads in the caller's name,
through the row policies: members see the workspace's rows, admins change them, and
everybody may delete the row of their own. A row read twice is the object of the first
read. The admins are counted in a statement of their own, before the one that writes. -/

namespace ContentOrchestrator

open Lib

inductive WorkspaceRole
  | admin | editor | reviewer
deriving DecidableEq, Repr

structure WorkspaceMembership where
  id : Nat
  workspaceId : Nat
  userId : Nat
  role : WorkspaceRole
deriving DecidableEq, Repr

instance : Keyed WorkspaceMembership := ⟨(·.id)⟩

/-- `uq_workspace_user` makes the row of a user in a workspace unique. -/
abbrev Memberships : Type := Table WorkspaceMembership

def WorkspaceMembership.isOf (workspaceId userId : Nat) (m : WorkspaceMembership) : Bool :=
  m.workspaceId == workspaceId && m.userId == userId

def WorkspaceMembership.isAdminOf (workspaceId : Nat) (m : WorkspaceMembership) : Bool :=
  m.workspaceId == workspaceId && m.role == .admin

namespace Memberships

variable (t : Memberships)

/-- The policy of reads. -/
def isWorkspaceMember (workspaceId userId : Nat) : Bool := t.rows.any (·.isOf workspaceId userId)

/-- The function that the policies of updates and deletions call. -/
def isWorkspaceAdmin (workspaceId userId : Nat) : Bool :=
  t.rows.any fun m => m.isOf workspaceId userId && m.role == .admin

/-- The row of a user, as far as the caller sees it. -/
def getMembership (caller workspaceId userId : Nat) : Option WorkspaceMembership :=
  if t.isWorkspaceMember workspaceId caller then (t.select (·.isOf workspaceId userId)).head?
    else none

def adminCount (caller workspaceId : Nat) : Nat :=
  if t.isWorkspaceMember workspaceId caller then t.count (·.isAdminOf workspaceId) else 0

end Memberships

/-! ## Requests -/

inductive MembershipError
  | forbidden (detail : String)
  | notFound (detail : String)
  | conflict (detail : String)
  /-- A row to be updated is not there. -/
  | staleData
deriving DecidableEq, Repr

inductive MembershipChange
  | updateRole (role : WorkspaceRole)
  | remove
deriving DecidableEq, Repr

structure MembershipRequest where
  caller : Nat
  workspaceId : Nat
  userId : Nat
  change : MembershipChange
deriving DecidableEq, Repr

/-- The caller may make the change; everybody may leave. -/
def MembershipRequest.authorize (r : MembershipRequest) (caller : Option WorkspaceMembership) :
    Except MembershipError WorkspaceMembership :=
  match r.change, caller with
  | .updateRole _, none => .error (.forbidden "not a member of this workspace")
  | .remove, none => .error (.forbidden "not a member")
  | .updateRole _, some m =>
    if m.role = .admin then .ok m else .error (.forbidden "requires one of: admin")
  | .remove, some m =>
    if r.userId ≠ r.caller ∧ m.role ≠ .admin then
      .error (.forbidden "requires one of: admin")
    else .ok m

/-- The change would take an admin away. -/
def MembershipRequest.unseats (r : MembershipRequest) (target : WorkspaceMembership) : Bool :=
  match r.change with
  | .updateRole role => target.role == .admin && role != .admin
  | .remove => target.role == .admin

inductive MembershipWrite
  | setRole (id : Nat) (role : WorkspaceRole)
  | delete (id : Nat)
deriving DecidableEq, Repr

/-- The statement of the flush, if there is one. -/
def MembershipRequest.write (r : MembershipRequest) (target : WorkspaceMembership) :
    Option MembershipWrite :=
  match r.change with
  | .updateRole role => if role = target.role then none else some (.setRole target.id role)
  | .remove => some (.delete target.id)

/-- The policy of the statement: updates are the admins', deletions the admins' or of the caller's
own row. -/
def MembershipRequest.permits (r : MembershipRequest) (t : Memberships)
    (target : WorkspaceMembership) : Bool :=
  match r.change with
  | .updateRole _ => t.isWorkspaceAdmin r.workspaceId r.caller
  | .remove => t.isWorkspaceAdmin r.workspaceId r.caller || target.userId == r.caller

/-- The statement of a request that comes next, or its end. -/
inductive MembershipStep
  | authorize (r : MembershipRequest)
  | target (r : MembershipRequest) (caller : WorkspaceMembership)
  | count (r : MembershipRequest) (target : WorkspaceMembership)
  | policy (r : MembershipRequest) (target : WorkspaceMembership) (counted : Option Nat)
  | lockRow (r : MembershipRequest) (target : WorkspaceMembership) (counted : Option Nat)
  | done (target : WorkspaceMembership) (counted : Option Nat) (write : Option MembershipWrite)
  | refused (error : MembershipError)
deriving DecidableEq, Repr

/-- A caller that is the target was read already. -/
def MembershipRequest.findTarget (r : MembershipRequest) (t : Memberships)
    (caller : WorkspaceMembership) :
    Option WorkspaceMembership :=
  (t.getMembership r.caller r.workspaceId r.userId).map fun m =>
    if m.id = caller.id then caller else m

/-- Rows the policy hides are not there: an update fails, a deletion deletes nothing. -/
def MembershipRequest.withoutRow (r : MembershipRequest) (target : WorkspaceMembership)
    (counted : Option Nat) :
    MembershipStep :=
  match r.change with
  | .updateRole _ => .refused .staleData
  | .remove => .done target counted none

def MembershipStep.next (t : Memberships) (held : List Nat) : MembershipStep →
    Option (List Nat × MembershipStep)
  | .authorize r =>
    match r.authorize (t.getMembership r.caller r.workspaceId r.caller) with
    | .ok caller => some (held, .target r caller)
    | .error error => some (held, .refused error)
  | .target r caller =>
    match r.findTarget t caller with
    | none => some (held, .refused (.notFound "member not found"))
    | some m => some (held, if r.unseats m then .count r m else .policy r m none)
  | .count r m =>
    if t.adminCount r.caller r.workspaceId ≤ 1 then
      some (held, .refused (.conflict "workspace must retain at least one admin"))
    else some (held, .policy r m (some (t.adminCount r.caller r.workspaceId)))
  | .policy r m counted =>
    match r.write m with
    | none => some (held, .done m counted none)
    | some _ =>
      if r.permits t m then some (held, .lockRow r m counted)
      else some (held, r.withoutRow m counted)
  | .lockRow r m counted =>
    if (t.get? m.id).isSome then some (m.id :: held, .done m counted (r.write m))
    else some (held, r.withoutRow m counted)
  | .done _ _ _ | .refused _ => none

def WorkspaceMembership.setRole (role : WorkspaceRole) : Update WorkspaceMembership :=
  ⟨fun m => { m with role }, fun _ => rfl⟩

def MembershipWrite.commit (t : Memberships) : MembershipWrite → Memberships
  | .setRole id role => t.modify id (WorkspaceMembership.setRole role)
  | .delete id => t.deleteWhere (·.id == id)

def MembershipStep.commit : MembershipStep → Option (Memberships → Memberships)
  | .done _ _ write => some fun t => write.elim t (·.commit t)
  | _ => none

/-- The requests of a system. -/
def memberships : Code Memberships Nat MembershipStep MembershipRequest Empty where
  start := .authorize
  next t _ held step := step.next t held
  commit := MembershipStep.commit
  needs := nofun
  apply := nofun

end ContentOrchestrator

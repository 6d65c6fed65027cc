import ContentOrchestrator.Services.PublicationPolicy

/-! # Deletion of a workspace's content

Content with append-only children is withdrawn by a tombstone; the publication
attestations and the queue rows are removed outright. Runs, assignments, gates and
reservations are retained as they are. -/

namespace ContentOrchestrator

open Lib

def ContentItem.tombstone (now : Nat) : Update ContentItem :=
  ⟨fun i => { i with deletedAt := some now }, fun _ => rfl⟩

/-- The live items of the workspace. -/
def ContentItem.isLiveIn (workspaceId : Nat) (i : ContentItem) : Bool :=
  i.workspaceId == workspaceId && i.deletedAt.isNone

def withdrawContent (workspaceId : Nat) (d : Desk) : Desk :=
  { d with
    db :=
      { d.db with
        contentItems := d.db.contentItems.modifyWhere (·.isLiveIn workspaceId)
          (ContentItem.tombstone d.db.now)
        jobs := d.db.jobs.deleteWhere (·.workspaceId == workspaceId) }
    eligibility := d.eligibility.deleteWhere (·.workspaceId == workspaceId) }

/-- **Delete the workspace's content.** The caller restates the workspace. -/
def deleteWorkspaceContent (workspaceId confirmWorkspaceId : Nat) : DeskSession Unit := do
  if confirmWorkspaceId ≠ workspaceId then throw (.valueError "confirmation_mismatch")
  modify (withdrawContent workspaceId)

end ContentOrchestrator

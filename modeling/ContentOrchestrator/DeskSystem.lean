import ContentOrchestrator.Services.DeskOutcomes

/-! # The desk and the engine as one system

The engine's operations, the desk's services over the same tables, and the deletion of a
workspace's content, each as one transaction. Publication attestations are written by
other parts of the product, so any table of them may appear at any time. -/

namespace ContentOrchestrator

open Lib

inductive DeskOp
  | engine (op : Op)
  | createContentJob (workspaceId : Nat) (topic : String) (script : Script)
      (idempotencyKey : Option String)
  | draftItem (workspaceId : Nat) (topic : String) (script : Script)
  | editReviewGateContent (workspaceId gateId expectedContentVersionId : Nat) (edit : Script)
  | attest (eligibility : Table PublicationEligibility)
  | deleteWorkspaceContent (workspaceId confirmWorkspaceId : Nat)

/-- The transaction body of an operation. -/
def DeskOp.body : DeskOp → DeskSession Unit
  | engine op => ContentOrchestrator.engine op.body
  | createContentJob workspaceId topic script idempotencyKey =>
    ContentOrchestrator.createContentJob workspaceId topic script idempotencyKey
  | draftItem workspaceId topic script => modify (insertDraft workspaceId topic script)
  | editReviewGateContent workspaceId gateId expectedContentVersionId edit =>
    ContentOrchestrator.editReviewGateContent workspaceId gateId expectedContentVersionId edit
  | attest eligibility => modify fun d => { d with eligibility }
  | deleteWorkspaceContent workspaceId confirmWorkspaceId =>
    ContentOrchestrator.deleteWorkspaceContent workspaceId confirmWorkspaceId

/-- **One transaction.** -/
def deskStep (d : Desk) (op : DeskOp) : Desk := atomically op.body d

def DeskSteps (d : Desk) (op : DeskOp) (d' : Desk) : Prop := deskStep d op = d'

/-- Nothing has run yet, and an item's current version is a stored one. -/
structure Desk.Fresh (d : Desk) : Prop where
  db : d.db.Fresh
  versions : ∀ item ∈ d.db.contentItems, ∀ v, item.currentVersionId = some v → v < d.versions.next

/-- What a committed desk operation did. -/
inductive DeskEffect : DeskOp → Desk → Desk → Prop
  | engine {op : Op} {d : Desk} : DeskEffect (.engine op) d { d with db := step d.db op }
  | created {workspaceId : Nat} {topic : String} {script : Script} {key : Option String} {d : Desk}
      {db : Db}
      (drafted : Drafted workspaceId d.db.contentItems.next
        (insertDraft workspaceId topic script d).db db) :
      DeskEffect (.createContentJob workspaceId topic script key) d
        { insertDraft workspaceId topic script d with db }
  | drafted {workspaceId : Nat} {topic : String} {script : Script} {d : Desk} :
      DeskEffect (.draftItem workspaceId topic script) d (insertDraft workspaceId topic script d)
  | edited {workspaceId gateId expected : Nat} {edit : Script} {d d' : Desk}
      (done : Edited workspaceId gateId expected d d') :
      DeskEffect (.editReviewGateContent workspaceId gateId expected edit) d d'
  | attested {eligibility : Table PublicationEligibility} {d : Desk} :
      DeskEffect (.attest eligibility) d { d with eligibility }
  | deleted {workspaceId : Nat} {d : Desk} :
      DeskEffect (.deleteWorkspaceContent workspaceId workspaceId) d (withdrawContent workspaceId d)

/-- An engine operation is one transaction of the engine. -/
theorem deskStep_engine (d : Desk) (op : Op) :
    deskStep d (.engine op) = { d with db := step d.db op } := by
  rcases atomically_cases op.body d.db with ⟨v, h⟩ | ⟨⟨e, t, h⟩, hsame⟩
  · have hreturns : Returns (DeskOp.engine op).body d v { d with db := step d.db op } :=
      returns_within.mpr ⟨_, h, rfl⟩
    exact hreturns.atomically
  · rcases atomically_cases (DeskOp.engine op).body d with ⟨v, h'⟩ | ⟨_, h'⟩
    · obtain ⟨u, hreturns, _⟩ := returns_within.mp h'
      have hboth := h.symm.trans hreturns
      cases hboth
    · have hdb : step d.db op = d.db := hsame
      rw [hdb]
      exact h'

/-- **What one transaction can do**: nothing, or the effect of its operation. -/
theorem deskStep_cases (d : Desk) (op : DeskOp) :
    deskStep d op = d ∨ DeskEffect op d (deskStep d op) := by
  rcases atomically_cases op.body d with ⟨v, h⟩ | ⟨_, h⟩
  · change Returns op.body d v (deskStep d op) at h
    generalize hstep : deskStep d op = d' at h
    cases op with
    | engine op =>
      rw [← hstep, deskStep_engine]
      exact .inr .engine
    | createContentJob workspaceId topic script key =>
      rcases createContentJob_returns h with rfl | ⟨db, rfl, hdrafted⟩
      · exact .inl rfl
      · exact .inr (.created hdrafted)
    | draftItem workspaceId topic script =>
      simp only [DeskOp.body, returns_modify] at h
      exact .inr (h ▸ .drafted)
    | editReviewGateContent workspaceId gateId expected edit =>
      exact .inr (.edited (editReviewGateContent_returns h))
    | attest eligibility =>
      simp only [DeskOp.body, returns_modify] at h
      exact .inr (h ▸ .attested)
    | deleteWorkspaceContent workspaceId confirm =>
      change Returns (ContentOrchestrator.deleteWorkspaceContent workspaceId confirm) d v d' at h
      unfold ContentOrchestrator.deleteWorkspaceContent at h
      split at h
      · simp at h
      · rename_i hsame
        have hws : confirm = workspaceId := by simpa using hsame
        simp only [returns_modify] at h
        rw [hws, ← h]
        exact .inr .deleted
  · exact .inl h

/-! ## The desk of the small workspace -/

def demoDesk : Desk where
  db := demoDb
  versions :=
    oneRow (fun id => { id, workspaceId := 0, contentItemId := 0, script := {} }) fun _ => rfl

theorem demoDesk_fresh : demoDesk.Fresh where
  db := demoDb_fresh
  versions := by decide

/-- A complete attestation for one platform that cites the gate. -/
def attestationRow (workspaceId contentItemId gateId id : Nat) : PublicationEligibility :=
  { id, workspaceId, contentItemId, platform := "youtube", syntheticMediaDisclosed := true
    rightsConfirmedBy := some 7, rightsConfirmedAt := some 0, originalityFingerprint := some "f0"
    reviewGateId := some gateId }

def attestation (workspaceId contentItemId gateId : Nat) : Table PublicationEligibility :=
  oneRow (attestationRow workspaceId contentItemId gateId) fun _ => rfl

/-- The item's run passes its gate, and its publication is attested. -/
def approvedHistory : List DeskOp :=
  (gateHistory.map .engine) ++ [.engine (.decide 0 0 7 true (some 0)), .attest (attestation 0 0 0)]

end ContentOrchestrator

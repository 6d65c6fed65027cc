import ContentOrchestrator.Services.ContentDesk

/-! # The publication gate

No content is handed to a platform unless every control is satisfied; a refusal
carries a stable code. The approval is not a capability of the workspace: the cited
gate must belong to a run of the item itself and must bind its current version. -/

namespace ContentOrchestrator

open Lib

inductive PublicationError
  | blocked (code : String)
  | query (error : OrchestrationError)
deriving DecidableEq, Repr

structure PublicationDecision where
  contentItemId : Nat
  platform : String
  eligibilityId : Nat
  reviewGateId : Nat
deriving DecidableEq, Repr

def supportedPlatforms : List String := ["youtube", "tiktok", "instagram"]

/-- `str.lower` as far as it reaches ASCII: the Kelvin sign lowers to a letter too. -/
def lowerChar (c : Char) : Char := if c.toNat = 0x212A then 'k' else c.toLower

/-- `(platform or "").strip().lower()` -/
def normalizePlatform (platform : Option String) : String :=
  String.ofList ((strip (platform.getD "").toList).map lowerChar)

example : normalizePlatform (some " TikTok\n") = "tiktok" := by decide +kernel

def blockUnless (condition : Prop) [Decidable condition] (code : String) :
    Except PublicationError Unit :=
  if condition then .ok () else .error (.blocked code)

def orBlock {α : Type} (row : Option α) (code : String) : Except PublicationError α :=
  match row with
  | some a => .ok a
  | none => .error (.blocked code)

/-- The attestation of an item for a platform. -/
def PublicationEligibility.isFor (workspaceId contentItemId : Nat) (platform : String)
    (e : PublicationEligibility) : Bool :=
  e.workspaceId == workspaceId && e.contentItemId == contentItemId && e.platform == platform

/-- Another item of the workspace was prepared for the platform with the same fingerprint. -/
def PublicationEligibility.repeats (row e : PublicationEligibility) : Bool :=
  e.workspaceId == row.workspaceId && e.platform == row.platform &&
    e.originalityFingerprint == row.originalityFingerprint && e.contentItemId != row.contentItemId

/-- **May the item be published?** -/
def assertPublishable (d : Desk) (workspaceId contentItemId : Nat) (platform : Option String) :
    Except PublicationError PublicationDecision := do
  let normalizedPlatform := normalizePlatform platform
  blockUnless (normalizedPlatform ∈ supportedPlatforms) "unsupported_platform"
  let found ← (scalarOneOrNone
    (d.eligibility.select (·.isFor workspaceId contentItemId normalizedPlatform))).mapError .query
  let row ← orBlock found "eligibility_missing"
  let gateId ← orBlock row.reviewGateId "review_gate_missing"
  let gate ← orBlock ((d.db.gates.get? gateId).filter (·.workspaceId == workspaceId))
    "review_gate_missing"
  blockUnless (gate.status = .approved) "review_gate_not_approved"
  let run ← orBlock ((d.db.runs.get? gate.pipelineRunId).filter (·.workspaceId == workspaceId))
    "review_gate_missing"
  blockUnless (run.contentItemId = contentItemId) "review_gate_content_item_mismatch"
  let item ← orBlock ((d.db.contentItems.get? contentItemId).filter (·.workspaceId == workspaceId))
    "content_item_missing"
  blockUnless (gate.contentVersionId ≠ none ∧ gate.contentVersionId = item.currentVersionId)
    "review_gate_content_version_mismatch"
  blockUnless (row.syntheticMediaDisclosed = true) "synthetic_media_not_disclosed"
  blockUnless (row.rightsConfirmedBy ≠ none ∧ row.rightsConfirmedAt ≠ none) "rights_not_confirmed"
  blockUnless (row.originalityFingerprint.getD "" ≠ "") "originality_fingerprint_missing"
  blockUnless (d.eligibility.select row.repeats = []) "duplicate_content_for_platform"
  return { contentItemId, platform := normalizedPlatform, eligibilityId := row.id
           reviewGateId := gateId }

/-! ## What a positive answer rests on -/

/-- The attestation itself is complete. -/
structure Attested (d : Desk) (row : PublicationEligibility) : Prop where
  disclosed : row.syntheticMediaDisclosed = true
  rights : row.rightsConfirmedBy ≠ none ∧ row.rightsConfirmedAt ≠ none
  fingerprint : row.originalityFingerprint.getD "" ≠ ""
  original : d.eligibility.select row.repeats = []

/-- The gate is approved, of a run of the item, and bound to its current version. -/
structure Approves (db : Db) (workspaceId contentItemId : Nat) (gate : ReviewGate) : Prop where
  stored : db.gates.get? gate.id = some gate
  workspace : gate.workspaceId = workspaceId
  approved : gate.status = .approved
  run : ∃ run, db.runs.get? gate.pipelineRunId = some run ∧ run.workspaceId = workspaceId ∧
    run.contentItemId = contentItemId
  version : ∃ item, db.contentItems.get? contentItemId = some item ∧
    item.workspaceId = workspaceId ∧
    gate.contentVersionId ≠ none ∧ gate.contentVersionId = item.currentVersionId

variable {d : Desk} {workspaceId contentItemId : Nat} {platform : Option String}

@[simp] theorem blockUnless_bind {α : Type} {c : Prop} [Decidable c] {code : String}
    {f : Unit → Except PublicationError α} {a : α} :
    (blockUnless c code >>= f) = .ok a ↔ c ∧ f () = .ok a := by
  by_cases hc : c
  · simp [blockUnless, hc, bind, Except.bind]
  · simp [blockUnless, hc, bind, Except.bind]

@[simp] theorem orBlock_bind {α β : Type} {row : Option α} {code : String}
    {f : α → Except PublicationError β} {b : β} :
    (orBlock row code >>= f) = .ok b ↔ ∃ a, row = some a ∧ f a = .ok b := by
  cases row with
  | none => simp [orBlock, bind, Except.bind]
  | some a => simp [orBlock, bind, Except.bind]

theorem scalarOneOrNone_eq_some {α : Type} {rows : List α} {a : α} :
    scalarOneOrNone rows = .ok (some a) ↔ rows = [a] := by
  match rows with
  | [] => simp [scalarOneOrNone]
  | [b] => simp [scalarOneOrNone]
  | _ :: _ :: _ => simp [scalarOneOrNone]

@[simp] theorem mapError_bind {ε ε' α β : Type} {x : Except ε α} {g : ε → ε'} {f : α → Except ε' β}
    {b : β} :
    (x.mapError g >>= f) = .ok b ↔ ∃ a, x = .ok a ∧ f a = .ok b := by
  cases x with
  | error e => simp [Except.mapError, bind, Except.bind]
  | ok a => simp [Except.mapError, bind, Except.bind]

@[simp] theorem filter_workspace {α : Type} {row : Option α} {p : α → Bool} {a : α} :
    row.filter p = some a ↔ row = some a ∧ p a = true := by
  simp [Option.filter_eq_some_iff]

/-- **What a positive answer says**: the one complete attestation for the platform cites an approval
of the item's current version. -/
theorem assertPublishable_ok {decision : PublicationDecision} :
    assertPublishable d workspaceId contentItemId platform = .ok decision ↔
      normalizePlatform platform ∈ supportedPlatforms ∧
        ∃ row, ∃ gate :
          ReviewGate, d.eligibility.select
            (·.isFor workspaceId contentItemId (normalizePlatform platform)) =
            [row] ∧ row.reviewGateId = some gate.id ∧ Attested d row ∧
          Approves d.db workspaceId contentItemId gate ∧
          decision = ⟨contentItemId, normalizePlatform platform, row.id, gate.id⟩ := by
  unfold assertPublishable
  simp only [blockUnless_bind, orBlock_bind, mapError_bind, filter_workspace, beq_iff_eq]
  constructor
  · rintro ⟨hplatform, _, hrow, row, rfl, gateId, hcited, gate, ⟨hgate, hws⟩, happroved, run,
      ⟨hrun, hrws⟩, hitem, item, ⟨hstored, hiws⟩, hversion, hdisclosed, hrights, hfingerprint,
        horiginal, hdecision⟩
    obtain ⟨hgmem, hid⟩ := Table.get?_eq_some.mp hgate
    have hkey : gate.id = gateId := hid
    subst hkey
    cases hdecision
    exact ⟨hplatform, row, gate, scalarOneOrNone_eq_some.mp hrow, hcited,
      ⟨hdisclosed, hrights, hfingerprint, horiginal⟩,
      ⟨hgate, hws, happroved, ⟨run, hrun, hrws, hitem⟩, ⟨item, hstored, hiws, hversion⟩⟩, rfl⟩
  · rintro ⟨hplatform, row, gate, hrow, hcited, hattested, happroves, rfl⟩
    obtain ⟨run, hrun, hrws, hitem⟩ := happroves.run
    obtain ⟨item, hstored, hiws, hversion⟩ := happroves.version
    exact ⟨hplatform, _, scalarOneOrNone_eq_some.mpr hrow, row, rfl, gate.id, hcited, gate,
      ⟨happroves.stored, happroves.workspace⟩, happroves.approved, run, ⟨hrun, hrws⟩, hitem, item,
      ⟨hstored, hiws⟩, hversion, hattested.disclosed, hattested.rights, hattested.fingerprint,
      hattested.original, rfl⟩

end ContentOrchestrator

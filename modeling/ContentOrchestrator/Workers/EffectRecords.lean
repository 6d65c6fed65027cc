import ContentOrchestrator.Workers.Stops

/-! # Provider effect records

Acknowledgements and submissions record the effect key of their assignment, and answer
whether the record is theirs to make. Nothing else writes the records, and nothing ever
deletes one. -/

namespace ContentOrchestrator

open Lib

variable {f g : Fleet} {op : FleetOp}

/-- The assignment and the key a request is about. -/
def FleetOp.effectRequest : FleetOp → Option (Nat × String)
  | ack assignmentId _ => some (assignmentId, defaultEffectKey assignmentId)
  | submit assignmentId payload _ _ =>
    some (assignmentId, effectKeyOf assignmentId payload.providerEffectKey)
  | _ => none

/-- The record of a key in a workspace. -/
def keyRecord (f : Fleet) (workspaceId : Nat) (key : String) : Option ProviderEffectKey :=
  (f.effectKeys.select fun k => k.workspaceId == workspaceId && k.effectKey == key).head?

/-- What a committed request said about the effect, and the record it said it of. -/
structure EffectReport where
  assignmentId : Nat
  recordId : Option Nat
  created : Bool
deriving DecidableEq, Repr

/-- The report of a request on this assignment that left the state `g`. -/
def reportOn (a : StageAssignment) (key : String) (created : Bool) (g : Fleet) : EffectReport :=
  ⟨a.id, (keyRecord g a.workspaceId key).map (·.id), created⟩

/-- The report of an acknowledgement or submission; `none` for an error answer. -/
def effectReport (f : Fleet) : FleetOp → Option EffectReport
  | .ack assignmentId worker =>
    match f.db.assignments.get? assignmentId, (ackAssignment assignmentId worker).run f with
    | some a, .ok out g =>
      some (reportOn a (defaultEffectKey assignmentId) (out.providerEffectCreated == some true) g)
    | _, _ => none
  | .submit assignmentId payload worker jitter =>
    match f.db.assignments.get? assignmentId,
      (submitAssignmentResult assignmentId payload worker jitter).run f with
    | some a, .ok out g =>
      some (reportOn a (effectKeyOf assignmentId payload.providerEffectKey)
        out.providerEffectCreated g)
    | _, _ => none
  | _ => none

/-- The key is on record. -/
def recordKey (a : StageAssignment) (key : String) (f : Fleet) : Fleet :=
  if hasEffectKey f a.workspaceId key then f
    else insertEffectKey a.workspaceId a.id a.attemptNumber key f

/-! ## What the requests do to the records -/

theorem ensureProviderEffectKey_record {a : StageAssignment} {effectKey : Option String}
    {r : EffectKeyResult}
    (h : Returns (ensureProviderEffectKey a.workspaceId a.id a.attemptNumber effectKey) f r g) :
    r.created = !hasEffectKey f a.workspaceId (effectKeyOf a.id effectKey) ∧
      g = recordKey a (effectKeyOf a.id effectKey) f := by
  obtain ⟨_, hcreated, hstate⟩ := ensureProviderEffectKey_returns h
  refine ⟨hcreated, hstate.trans ?_⟩
  unfold recordKey
  rw [hcreated]
  cases hasEffectKey f a.workspaceId (effectKeyOf a.id effectKey) <;> rfl

theorem ackAssignment_record {assignmentId : Nat} {worker : AuthenticatedWorker} {out : LeaseOut}
    (h : Returns (ackAssignment assignmentId worker) f out g) :
    ∃ a, f.db.assignments.get? assignmentId = some a ∧
      out.providerEffectCreated =
        some (!hasEffectKey f a.workspaceId (defaultEffectKey assignmentId)) ∧
        g.effectKeys = (recordKey a (defaultEffectKey assignmentId) f).effectKeys := by
  simp only [ackAssignment, returns_bind, returns_onEngine, returns_pure] at h
  obtain ⟨_, _, hactive, w, _, hloaded, a, _, howned, _, _, ⟨t, _, rfl⟩, effect, _, heffect, rfl,
    rfl⟩ := h
  obtain ⟨haddressed, rfl⟩ := addressed_of_returns hactive hloaded howned
  obtain ⟨hcreated, rfl⟩ := ensureProviderEffectKey_record heffect
  have hid : a.id = assignmentId := (Table.get?_eq_some.mp haddressed.found).2
  have hkeys : ∀ key, (recordKey a key { f with db := t }).effectKeys =
      (recordKey a key f).effectKeys := by
    intro key
    unfold recordKey
    change (if hasEffectKey f a.workspaceId key then { f with db := t }
      else insertEffectKey a.workspaceId a.id a.attemptNumber key { f with db := t }).effectKeys = _
    split <;> rfl
  rw [hid] at hcreated
  refine ⟨a, haddressed.found, congrArg some hcreated, ?_⟩
  rw [hkeys, hid]
  rfl

theorem submitAssignmentResult_record {assignmentId jitter : Nat} {payload : SubmitIn}
    {worker : AuthenticatedWorker} {out : SubmitOut}
    (h : Returns (submitAssignmentResult assignmentId payload worker jitter) f out g) :
    ∃ a, f.db.assignments.get? assignmentId = some a ∧
      out.providerEffectCreated =
        (!hasEffectKey f a.workspaceId (effectKeyOf assignmentId payload.providerEffectKey)) ∧
        g.effectKeys =
          (recordKey a (effectKeyOf assignmentId payload.providerEffectKey) f).effectKeys := by
  simp only [submitAssignmentResult, returns_bind] at h
  obtain ⟨_, _, hactive, w, _, hloaded, a, _, howned, effect, _, heffect, h⟩ := h
  obtain ⟨haddressed, rfl⟩ := addressed_of_returns hactive hloaded howned
  obtain ⟨hcreated, rfl⟩ := ensureProviderEffectKey_record heffect
  have hid : a.id = assignmentId := (Table.get?_eq_some.mp haddressed.found).2
  rw [hid] at hcreated h
  refine ⟨a, haddressed.found, ?_⟩
  split at h
  · rename_i hreplay
    obtain ⟨hold, _⟩ := Bool.and_eq_true_iff.mp hreplay
    have hknown : effect.created = false := by simpa using hold
    simp only [returns_pure] at h
    obtain ⟨rfl, rfl⟩ := h
    exact ⟨hknown.symm.trans hcreated, rfl⟩
  · simp only [returns_bind, returns_onEngine, returns_pure] at h
    obtain ⟨_, _, ⟨t, _, rfl⟩, rfl, rfl⟩ := h
    exact ⟨hcreated, rfl⟩

theorem stopEach_effectKeys {workspaceId : Nat} {actor : AdminSession} :
    ∀ {ids : List Nat} {f g : Fleet} {v : Unit}, Returns (stopEach workspaceId actor ids) f v g →
      g.effectKeys = f.effectKeys
  | [], f, g, v, h => by
    simp only [stopEach, returns_pure] at h
    rw [← h.2]
  | workerId :: rest, f, g, v, h => by
    simp only [stopEach, stopWorker, returns_bind, returns_get, returns_onEngine,
      returns_modify] at h
    obtain ⟨_, m, ⟨_, _, rfl, _, _, ⟨rfl, rfl⟩, _, _, ⟨t, _, rfl⟩, _, rfl, rfl⟩, hrest⟩ := h
    have hlater := stopEach_effectKeys hrest
    exact hlater

/-- Only acknowledgements and submissions write the records. -/
theorem FleetEffect.effectKeys {answer : Option SubmitOut} (h : FleetEffect op f answer g)
    (hop : op.effectRequest = none) : g.effectKeys = f.effectKeys := by
  cases h with
  | acknowledged _ => cases hop
  | submitted _ _ _ _ _ => cases hop
  | stopped each =>
    have hkeys := stopEach_effectKeys each
    exact hkeys
  | _ => rfl

/-- **What a transaction does to the records, and says of them.** -/
theorem fleetStep_record (f : Fleet) (op : FleetOp) :
    (effectReport f op = none ∧ (fleetStep f op).effectKeys = f.effectKeys) ∨
      ∃ assignmentId key a, op.effectRequest = some (assignmentId, key) ∧
        f.db.assignments.get? assignmentId = some a ∧
          effectReport f op =
            some (reportOn a key (!hasEffectKey f a.workspaceId key) (fleetStep f op)) ∧
            (fleetStep f op).effectKeys = (recordKey a key f).effectKeys := by
  cases op with
  | ack assignmentId worker =>
    rcases hrun : (ackAssignment assignmentId worker).run f with ⟨out, g⟩ | ⟨e, g⟩
    · have hreturns : Returns (ackAssignment assignmentId worker) f out g := hrun
      have hstep : fleetStep f (.ack assignmentId worker) = g :=
        Returns.atomically (returns_then_none.mpr ⟨rfl, out, hreturns⟩)
      obtain ⟨a, hfound, hcreated, hkeys⟩ := ackAssignment_record hreturns
      refine .inr ⟨assignmentId, _, a, rfl, hfound, ?_, by rw [hstep, hkeys]⟩
      simp only [effectReport, hfound, hrun, hcreated, hstep]
      cases hasEffectKey f a.workspaceId (defaultEffectKey assignmentId) <;> rfl
    · have hraises : Raises (FleetOp.ack assignmentId worker).body f e g :=
        raises_bind.mpr (.inl hrun)
      have hstep : fleetStep f (.ack assignmentId worker) = f := by
        unfold fleetStep atomically
        rw [hraises]
      refine .inl ⟨?_, by rw [hstep]⟩
      dsimp only [effectReport]
      rw [hrun]
      cases f.db.assignments.get? assignmentId <;> rfl
  | submit assignmentId payload worker jitter =>
    rcases hrun : (submitAssignmentResult assignmentId payload worker jitter).run f with
      ⟨out, g⟩ | ⟨e, g⟩
    · have hreturns : Returns (submitAssignmentResult assignmentId payload worker jitter) f out g :=
        hrun
      have hbody : Returns (FleetOp.submit assignmentId payload worker jitter).body f
          (some out) g := by
        simp only [FleetOp.body, returns_bind, returns_pure]
        exact ⟨out, g, hreturns, rfl, rfl⟩
      have hstep : fleetStep f (.submit assignmentId payload worker jitter) = g := hbody.atomically
      obtain ⟨a, hfound, hcreated, hkeys⟩ := submitAssignmentResult_record hreturns
      refine .inr ⟨assignmentId, _, a, rfl, hfound, ?_, by rw [hstep, hkeys]⟩
      simp only [effectReport, hfound, hrun, hcreated, hstep]
    · have hraises : Raises (FleetOp.submit assignmentId payload worker jitter).body f e g :=
        raises_bind.mpr (.inl hrun)
      have hstep : fleetStep f (.submit assignmentId payload worker jitter) = f := by
        unfold fleetStep atomically
        rw [hraises]
      refine .inl ⟨?_, by rw [hstep]⟩
      dsimp only [effectReport]
      rw [hrun]
      cases f.db.assignments.get? assignmentId <;> rfl
  | _ =>
    refine .inl ⟨rfl, ?_⟩
    rcases fleetStep_cases f _ with ⟨heq, _⟩ | heffect
    · rw [heq]
    · exact heffect.effectKeys rfl

end ContentOrchestrator

import ContentOrchestrator.Properties.ReviewLineage

/-! # The producer's gate

The gate of a package is a stored column. It agrees with the audits on record all the same:
a package goes to the producer, and production takes it on, when the latest audit of each
kind passed it and not every audit of it has been invalidated. A version that supersedes a
package invalidates the audits it has by then; one audit more sets the gate anew, from the
latest of each kind, the invalidated ones among them. -/

namespace ContentOrchestrator.Departments

open Lib Lib.Table

variable {lib : StandardLibrary} {d : Departments} {s : StrategyTables} {t : ContentTables}
  {workspaceId packageId now : Nat} {p : ContentPackage}

theorem packageGate_pass {states : AuditorType → AuditState} :
    packageGate states = .pass ↔ ∀ kind, states kind = .pass := by
  have hall : (AuditorType.all.all fun kind => states kind == .pass) = true ↔
      ∀ kind, states kind = .pass := by
    rw [List.all_eq_true]
    refine ⟨fun h kind => beq_iff_eq.mp (h kind ?_), fun h kind _ => beq_iff_eq.mpr (h kind)⟩
    cases kind <;> decide
  unfold packageGate
  constructor
  · intro h
    split at h
    · cases h
    · split at h
      · rename_i hpass
        exact hall.mp hpass
      · cases h
  · intro h
    have hclear :
        (AuditorType.all.any fun kind => states kind == .blocked || states kind == .error) =
          false := by
      rw [List.any_eq_false]
      intro kind _
      rw [h kind]
      decide
    rw [hclear, if_neg Bool.false_ne_true, if_pos (hall.mpr h)]

/-- The stored gate is open just when the audits on record say so. -/
theorem gate_pass_iff (h : GateSound t p) :
    p.auditGateStatus = .pass ↔
      (∀ kind, auditStateOf p.workspaceId p.id t kind = .pass) ∧
        ¬ Lapsed t p.workspaceId p.id := by
  have haudited : (∀ kind, auditStateOf p.workspaceId p.id t kind = .pass) →
      ¬ Unaudited t p.id := by
    intro hstates hnone
    have hstate := hstates .fact
    rw [auditStateOf_unaudited hnone] at hstate
    cases hstate
  constructor
  · intro hpass
    have hstates : ∀ kind, auditStateOf p.workspaceId p.id t kind = .pass := by
      rcases h.gate with hgate | ⟨hgate, -⟩ | hgate
      · exact packageGate_pass.mp (hgate.symm.trans hpass)
      · cases hgate.symm.trans hpass
      · cases hgate.symm.trans hpass
    have hvalid : p.auditGateStatus ≠ .invalidated := by
      rw [hpass]
      exact PackageGate.noConfusion
    exact ⟨hstates, (h.standing hvalid).resolve_left (haudited hstates)⟩
  · rintro ⟨hstates, hstanding⟩
    rcases h.gate with hgate | ⟨-, hunaudited⟩ | hgate
    · exact hgate.trans (packageGate_pass.mpr hstates)
    · exact absurd hunaudited (haudited hstates)
    · exact absurd (h.lapsed hgate) hstanding

theorem producerGate_iff (hfound : getPackage workspaceId packageId d.content = some p) :
    (∃ d', Returns (producerGate workspaceId packageId) d () d') ↔ p.auditGateStatus = .pass := by
  simp [producerGate, hfound]

theorem createProductionRun_iff (hfound : getPackage workspaceId packageId d.content = some p) :
    (∃ job d', Returns (createProductionRun workspaceId packageId) d job d') ↔
      p.auditGateStatus = .pass := by
  obtain ⟨hget, hown⟩ := Option.filter_eq_some_iff.mp hfound
  rw [Bool.and_eq_true, beq_iff_eq] at hown
  simp [createProductionRun, hget, hown.1]

/-- What decides on a package, and on the claims made in it. -/
structure GateExact (d : Departments) (workspaceId packageId : Nat) (p : ContentPackage) :
    Prop where
  producer : (∃ d', Returns (producerGate workspaceId packageId) d () d') ↔
    (∀ kind, auditStateOf workspaceId packageId d.content kind = .pass) ∧
      ¬ Lapsed d.content workspaceId packageId
  production : (∃ job d', Returns (createProductionRun workspaceId packageId) d job d') ↔
    (∀ kind, auditStateOf workspaceId packageId d.content kind = .pass) ∧
      ¬ Lapsed d.content workspaceId packageId
  columns : p.producerHandoffState = p.auditGateStatus.handoff ∧ p.status = p.auditGateStatus.status
  claims : ∀ c ∈ d.content.claims, c.workspaceId = workspaceId → c.contentPackageId = packageId →
    c.verificationStatus = verification (auditStateOf workspaceId packageId d.content .fact)

/-- **The gates agree with the latest audits in every state of a run.** -/
theorem content_gates_exact (lib : StandardLibrary) (environment : Option String)
    (ops : List DepartmentOp) (workspaceId packageId : Nat) (p : ContentPackage)
    (hfound : getPackage workspaceId packageId
      (replay (step lib) (deployment environment) ops).content = some p) :
    GateExact (replay (step lib) (deployment environment) ops) workspaceId packageId p := by
  have hsound : DepartmentsSound lib (replay (step lib) (deployment environment) ops) :=
    sound_of_run environment ops
  obtain ⟨hmem, hid, hws⟩ := getPackage_eq_some hfound
  have hgate := hsound.content.gates p hmem
  have hpass := gate_pass_iff hgate
  rw [hid, hws] at hpass
  exact
    { producer := (producerGate_iff hfound).trans hpass
      production := (createProductionRun_iff hfound).trans hpass
      columns := ⟨hgate.handoff, hgate.status⟩
      claims := fun c hc hcws hcid => hcws ▸ hcid ▸ (hsound.content.claims c hc).verified }

set_option maxRecDepth 10000 in
theorem content_gates_exact_reviewed : ∃ p, p.auditGateStatus = .pass ∧
    GateExact (replay (step plainLibrary) (deployment (some "test")) reviewedOps) 1 0 p := by
  have hstored : ((getPackage 1 0
      (replay (step plainLibrary) (deployment (some "test")) reviewedOps).content).any
      fun p => p.auditGateStatus == .pass) = true := by decide +kernel
  obtain ⟨p, hfound, hpass⟩ := (Option.any_eq_true _ _).mp hstored
  exact ⟨p, beq_iff_eq.mp hpass,
    content_gates_exact plainLibrary (some "test") reviewedOps 1 0 p hfound⟩

end ContentOrchestrator.Departments

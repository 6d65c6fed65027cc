import ContentOrchestrator.Orchestration.Priority

/-! # Priority ageing in the claim query

Where every integer of the expression fits, the query sorts by the priority Python
computes; the boost is cast before it is capped, so a large step or a long wait makes
the whole claim fail. No wait makes an older row fall behind. -/

namespace ContentOrchestrator

open Lib

/-- **Agreement and fairness.** For all settings, priorities and times the expression has the value
Python computes exactly where its integers fit; the query answers exactly when this holds of every
waiting row; and then an older row is never behind a younger one whose base priority is no
higher. -/
theorem priority_ageing_agrees_iff (settings : AgeingSettings) (now : ℚ) :
    (∀ priority createdAt, settings.effectivePriorityExpr priority createdAt now
        = some (settings.computeEffectivePriority priority createdAt now) ↔
      settings.Representable priority createdAt now) ∧
    (∀ rows, (∃ result, ClaimOrder settings now rows result) ↔
      ∀ r ∈ rows, settings.Representable r.priority r.createdAt now) ∧
    ∀ rows result, ClaimOrder settings now rows result → ∀ older younger : PendingRow,
      older.createdAt < younger.createdAt → younger.priority ≤ older.priority →
        ¬ [younger, older].Sublist result :=
  ⟨fun _ _ => AgeingSettings.effectivePriorityExpr_agrees_iff, fun _ => claimOrder_exists_iff,
    fun _ _ h _ _ holder hpriority => h.older_first holder hpriority⟩

/-- Two rows, the older of which has waited past the maximum boost. -/
theorem priority_ageing_agrees_two :
    ({} : AgeingSettings).effectivePriorityExpr 0 0 6060 = some 100 ∧
    ¬ [(⟨2, 99, 6060⟩ : PendingRow), ⟨1, 99, 0⟩].Sublist [⟨1, 99, 0⟩, ⟨2, 99, 6060⟩] := by
  have h := priority_ageing_agrees_iff {} 6060
  refine ⟨((h.1 0 0).mpr (by decide +kernel)).trans (by decide +kernel), ?_⟩
  have hordered : ClaimOrder {} 6060 [⟨2, 99, 6060⟩, ⟨1, 99, 0⟩] [⟨1, 99, 0⟩, ⟨2, 99, 6060⟩] := by
    refine ⟨List.Perm.swap .., ?_, List.pairwise_pair.mpr fun p q hp hq => .inl ?_⟩
    · decide +kernel
    · rw [AgeingSettings.effectivePriorityExpr_eq hp, AgeingSettings.effectivePriorityExpr_eq hq]
      decide +kernel
  exact h.2.2 _ _ hordered _ _ (by norm_num) (Int.le_refl 99)

/-- The cast comes before the cap: after three minutes a large step is out of range, where Python
caps it. -/
theorem uncapped_boost_overflows :
    ¬ ∀ (settings : AgeingSettings) (priority : Int) (createdAt now : ℚ),
      settings.effectivePriorityExpr priority createdAt now
        = some (settings.computeEffectivePriority priority createdAt now) := by
  intro h
  have h' := h { assignmentAgeBoostPerInterval := 1000000000 } 0 0 180
  revert h'
  decide +kernel

end ContentOrchestrator

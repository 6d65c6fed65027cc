import ContentOrchestrator.Orchestration.EngineOutcomes
import Mathlib.Data.Rat.Floor

/-! # Effective priority, in Python and in SQL

Both add an age boost to the base priority: one step for every whole interval
waited, up to a maximum. Times are exact rational seconds. Python's integers have
no bound; the SQL expression casts the uncapped boost to a four-byte integer
before it is capped, and a statement whose integer does not fit fails. -/

namespace ContentOrchestrator

open Lib

/-- The three ageing settings, in the ranges their fields validate; a non-positive
interval, which the functions check for, disables ageing. -/
structure AgeingSettings where
  assignmentAgeBoostIntervalSeconds : Int := 60
  assignmentAgeBoostPerInterval : Nat := 1
  assignmentAgeBoostMax : Nat := 100

namespace AgeingSettings

variable (settings : AgeingSettings) (priority : Int) (createdAt now : ℚ)

def computeAgeBoost : Int :=
  let age := max 0 (now - createdAt)
  if settings.assignmentAgeBoostIntervalSeconds ≤ 0 then 0
  else
    let boost :=
      ⌊age / settings.assignmentAgeBoostIntervalSeconds⌋ * settings.assignmentAgeBoostPerInterval
    min boost settings.assignmentAgeBoostMax

def computeEffectivePriority : Int :=
  priority + settings.computeAgeBoost createdAt now

end AgeingSettings

/-- The values of PostgreSQL's `integer`. -/
def FitsInteger (n : Int) : Prop := -2147483648 ≤ n ∧ n ≤ 2147483647

instance (n : Int) : Decidable (FitsInteger n) := inferInstanceAs (Decidable (_ ∧ _))

/-- A cast or a sum of type `integer`; `none` is the error "integer out of range". -/
def toInteger (n : Int) : Option Int := if FitsInteger n then some n else none

theorem toInteger_eq_some {n m : Int} : toInteger n = some m ↔ FitsInteger n ∧ n = m := by
  unfold toInteger
  split
  · exact ⟨fun h => ⟨‹_›, Option.some.inj h⟩, fun h => congrArg some h.2⟩
  · exact ⟨fun h => (by cases h), fun h => absurd h.1 ‹_›⟩

namespace AgeingSettings

/-- The `ORDER BY` expression of the claim query. -/
def effectivePriorityExpr (settings : AgeingSettings) (priority : Int) (createdAt now : ℚ) :
    Option Int :=
  let age := max 0 (now - createdAt)
  if settings.assignmentAgeBoostIntervalSeconds ≤ 0 then some priority
  else do
    let boostMax ← toInteger settings.assignmentAgeBoostMax
    let boost ← toInteger
      (⌊age / settings.assignmentAgeBoostIntervalSeconds⌋ * settings.assignmentAgeBoostPerInterval)
    toInteger (priority + min boostMax boost)

/-- The whole intervals a row has waited. -/
def intervalsWaited (settings : AgeingSettings) (createdAt now : ℚ) : Int :=
  ⌊max 0 (now - createdAt) / settings.assignmentAgeBoostIntervalSeconds⌋

/-- The maximum, the boost before it is capped and the sum are all four-byte integers. -/
def Representable (settings : AgeingSettings) (priority : Int) (createdAt now : ℚ) : Prop :=
  0 < settings.assignmentAgeBoostIntervalSeconds →
    FitsInteger settings.assignmentAgeBoostMax ∧
    FitsInteger (settings.intervalsWaited createdAt now * settings.assignmentAgeBoostPerInterval) ∧
    FitsInteger (priority + min (settings.assignmentAgeBoostMax : Int)
      (settings.intervalsWaited createdAt now * settings.assignmentAgeBoostPerInterval))

instance (settings : AgeingSettings) (priority : Int) (createdAt now : ℚ) :
    Decidable (settings.Representable priority createdAt now) :=
  inferInstanceAs (Decidable (_ → _))

variable {settings : AgeingSettings} {priority priority' value : Int} {createdAt createdAt' now : ℚ}

/-- A value of the expression is the one Python computes. -/
theorem effectivePriorityExpr_eq
    (h : settings.effectivePriorityExpr priority createdAt now = some value) :
    value = settings.computeEffectivePriority priority createdAt now := by
  dsimp only [effectivePriorityExpr, computeEffectivePriority, computeAgeBoost] at *
  split at h
  · rw [if_pos ‹_›, ← Option.some.inj h, Int.add_zero]
  · obtain ⟨boostMax, hmax, h⟩ := Option.bind_eq_some_iff.mp h
    obtain ⟨boost, hboost, h⟩ := Option.bind_eq_some_iff.mp h
    obtain ⟨_, rfl⟩ := toInteger_eq_some.mp hmax
    obtain ⟨_, rfl⟩ := toInteger_eq_some.mp hboost
    obtain ⟨_, rfl⟩ := toInteger_eq_some.mp h
    rw [if_neg ‹_›, min_comm]

theorem effectivePriorityExpr_isSome :
    (settings.effectivePriorityExpr priority createdAt now).isSome = true ↔
      settings.Representable priority createdAt now := by
  dsimp only [effectivePriorityExpr, Representable, intervalsWaited]
  split
  · exact ⟨fun _ hpos => absurd hpos (Int.not_lt.mpr ‹_›), fun _ => rfl⟩
  · constructor
    · intro h _
      obtain ⟨value, h⟩ := Option.isSome_iff_exists.mp h
      obtain ⟨boostMax, hmax, h⟩ := Option.bind_eq_some_iff.mp h
      obtain ⟨boost, hboost, h⟩ := Option.bind_eq_some_iff.mp h
      obtain ⟨hfits, rfl⟩ := toInteger_eq_some.mp hmax
      obtain ⟨hfitsBoost, rfl⟩ := toInteger_eq_some.mp hboost
      exact ⟨hfits, hfitsBoost, (toInteger_eq_some.mp h).1⟩
    · intro h
      obtain ⟨hmax, hboost, hsum⟩ := h (Int.not_le.mp ‹_›)
      simp only [toInteger, if_pos hmax, if_pos hboost, Option.bind_eq_bind, Option.bind_some,
        if_pos hsum, Option.isSome_some]

/-- **The two agree exactly where every integer of the expression fits.** -/
theorem effectivePriorityExpr_agrees_iff :
    settings.effectivePriorityExpr priority createdAt now
        = some (settings.computeEffectivePriority priority createdAt now) ↔
      settings.Representable priority createdAt now := by
  rw [← effectivePriorityExpr_isSome]
  constructor
  · intro h
    exact Option.isSome_iff_exists.mpr ⟨_, h⟩
  · intro h
    obtain ⟨value, hvalue⟩ := Option.isSome_iff_exists.mp h
    rw [hvalue, effectivePriorityExpr_eq hvalue]

/-! ## Ageing is monotone -/

theorem computeAgeBoost_anti (h : createdAt ≤ createdAt') :
    settings.computeAgeBoost createdAt' now ≤ settings.computeAgeBoost createdAt now := by
  dsimp only [computeAgeBoost]
  split
  · exact Int.le_refl 0
  · have hinterval : (0 : ℚ) ≤ settings.assignmentAgeBoostIntervalSeconds :=
      Int.cast_nonneg (Int.le_of_lt (Int.not_le.mp ‹_›))
    have hage : max 0 (now - createdAt') ≤ max 0 (now - createdAt) :=
      max_le_max_left 0 (sub_le_sub_left h now)
    have hintervals := Int.floor_mono (div_le_div_of_nonneg_right hage hinterval)
    exact min_le_min_right _ (Int.mul_le_mul_of_nonneg_right hintervals (Int.natCast_nonneg _))

/-- The older of two rows of which it has the higher base priority is ahead at every time. -/
theorem computeEffectivePriority_le (holder : createdAt ≤ createdAt')
    (hpriority : priority' ≤ priority) :
    settings.computeEffectivePriority priority' createdAt' now
      ≤ settings.computeEffectivePriority priority createdAt now :=
  Int.add_le_add hpriority (computeAgeBoost_anti holder)

end AgeingSettings

/-! ## The order of the claim query -/

/-- What the query sorts a waiting row by. -/
structure PendingRow where
  id : Nat
  priority : Int
  createdAt : ℚ
deriving DecidableEq

/-- `result` is one order in which `ORDER BY effective DESC, created_at ASC` may return the
rows: every key has a value, or the statement fails. -/
structure ClaimOrder (settings : AgeingSettings) (now : ℚ) (rows result : List PendingRow) :
    Prop where
  perm : result.Perm rows
  valued : ∀ r ∈ result, (settings.effectivePriorityExpr r.priority r.createdAt now).isSome = true
  sorted : result.Pairwise fun r s => ∀ p q,
    settings.effectivePriorityExpr r.priority r.createdAt now = some p →
    settings.effectivePriorityExpr s.priority s.createdAt now = some q →
    q < p ∨ (p = q ∧ r.createdAt ≤ s.createdAt)

/-- The older of two rows is never behind the younger, if its base priority is no lower. -/
theorem ClaimOrder.older_first {settings : AgeingSettings} {now : ℚ} {rows result : List PendingRow}
    {older younger : PendingRow} (h : ClaimOrder settings now rows result)
    (holder : older.createdAt < younger.createdAt) (hpriority : younger.priority ≤ older.priority) :
    ¬ [younger, older].Sublist result := by
  intro hsub
  have hin : ∀ r ∈ [younger, older], ∃ p, settings.effectivePriorityExpr r.priority r.createdAt
      now = some p :=
    fun r hr => Option.isSome_iff_exists.mp (h.valued r (hsub.subset hr))
  obtain ⟨p, hp⟩ := hin younger (List.mem_cons_self ..)
  obtain ⟨q, hq⟩ := hin older (List.mem_cons_of_mem _ (List.mem_cons_self ..))
  have hle : p ≤ q := by
    rw [AgeingSettings.effectivePriorityExpr_eq hp, AgeingSettings.effectivePriorityExpr_eq hq]
    exact AgeingSettings.computeEffectivePriority_le (le_of_lt holder) hpriority
  rcases List.pairwise_iff_forall_sublist.mp h.sorted hsub p q hp hq with hlt | ⟨_, hcreated⟩
  · exact absurd hle (Int.not_le.mpr hlt)
  · exact absurd hcreated (not_le_of_gt holder)

/-- Ahead of `s` when no key fails. -/
def PendingRow.Ahead (settings : AgeingSettings) (now : ℚ) (r s : PendingRow) : Prop :=
  settings.computeEffectivePriority s.priority s.createdAt now
      < settings.computeEffectivePriority r.priority r.createdAt now ∨
    (settings.computeEffectivePriority r.priority r.createdAt now
        = settings.computeEffectivePriority s.priority s.createdAt now ∧ r.createdAt ≤ s.createdAt)

theorem PendingRow.Ahead.total (settings : AgeingSettings) (now : ℚ) (r s : PendingRow) :
    r.Ahead settings now s ∨ s.Ahead settings now r := by
  rcases Int.lt_trichotomy (settings.computeEffectivePriority r.priority r.createdAt now)
      (settings.computeEffectivePriority s.priority s.createdAt now) with hlt | heq | hgt
  · exact .inr (.inl hlt)
  · rcases le_total r.createdAt s.createdAt with hle | hle
    · exact .inl (.inr ⟨heq, hle⟩)
    · exact .inr (.inr ⟨heq.symm, hle⟩)
  · exact .inl (.inl hgt)

theorem PendingRow.Ahead.trans {settings : AgeingSettings} {now : ℚ} {r s t : PendingRow}
    (h : r.Ahead settings now s) (h' : s.Ahead settings now t) : r.Ahead settings now t := by
  rcases h with hlt | ⟨heq, hle⟩
  · rcases h' with hlt' | ⟨heq', _⟩
    · exact .inl (Int.lt_trans hlt' hlt)
    · exact .inl (heq' ▸ hlt)
  · rcases h' with hlt' | ⟨heq', hle'⟩
    · exact .inl (heq ▸ hlt')
    · exact .inr ⟨heq.trans heq', le_trans hle hle'⟩

open Classical in
/-- The statement returns rows exactly when the key of every waiting row fits. -/
theorem claimOrder_exists_iff {settings : AgeingSettings} {now : ℚ} {rows : List PendingRow} :
    (∃ result, ClaimOrder settings now rows result) ↔
      ∀ r ∈ rows, settings.Representable r.priority r.createdAt now := by
  constructor
  · rintro ⟨result, h⟩ r hr
    exact AgeingSettings.effectivePriorityExpr_isSome.mp (h.valued r (h.perm.mem_iff.mpr hr))
  · intro hfits
    have : Std.Total (PendingRow.Ahead settings now) := ⟨PendingRow.Ahead.total settings now⟩
    have : IsTrans PendingRow (PendingRow.Ahead settings now) := ⟨fun _ _ _ h h' => h.trans h'⟩
    have hperm := List.perm_insertionSort (PendingRow.Ahead settings now) rows
    refine ⟨rows.insertionSort (PendingRow.Ahead settings now), hperm, fun r hr => ?_, ?_⟩
    · exact AgeingSettings.effectivePriorityExpr_isSome.mpr (hfits r (hperm.mem_iff.mp hr))
    · refine (List.pairwise_insertionSort _ rows).imp fun hahead p q hp hq => ?_
      rw [AgeingSettings.effectivePriorityExpr_eq hp, AgeingSettings.effectivePriorityExpr_eq hq]
      exact hahead

/-! ## The order of the engine's rows

The engine keeps times as whole microseconds. -/

def secondsOf (microseconds : Nat) : ℚ := microseconds / 1000000

def Settings.ageing (settings : Settings) : AgeingSettings :=
  { assignmentAgeBoostIntervalSeconds := settings.assignmentAgeBoostIntervalSeconds
    assignmentAgeBoostPerInterval := settings.assignmentAgeBoostPerInterval
    assignmentAgeBoostMax := settings.assignmentAgeBoostMax }

theorem secondsOf_sub (createdAt now : Nat) :
    max 0 (secondsOf now - secondsOf createdAt) = secondsOf (now - createdAt) := by
  unfold secondsOf
  rw [← sub_div]
  rcases Nat.le_total createdAt now with hle | hle
  · rw [← Nat.cast_sub hle]
    exact max_eq_right (div_nonneg (Nat.cast_nonneg _) (by norm_num))
  · have hneg : ((now : ℚ) - createdAt) ≤ 0 := sub_nonpos_of_le (Nat.cast_le.mpr hle)
    rw [Nat.sub_eq_zero_of_le hle, Nat.cast_zero, zero_div]
    exact max_eq_left (div_nonpos_of_nonpos_of_nonneg hneg (by norm_num))

/-- The boost over microseconds is the boost over exact seconds. -/
theorem ageBoost_eq (settings : Settings) (createdAt now : Nat) :
    (ageBoost settings createdAt now : Int)
      = settings.ageing.computeAgeBoost (secondsOf createdAt) (secondsOf now) := by
  dsimp only [AgeingSettings.computeAgeBoost, Settings.ageing, ageBoost]
  by_cases hzero : settings.assignmentAgeBoostIntervalSeconds = 0
  · rw [if_pos hzero, if_pos (by omega)]
    rfl
  · rw [if_neg hzero, if_neg (by omega), secondsOf_sub, secondsOf, div_div, min_comm]
    have hfloor : ⌊((now - createdAt : Nat) : ℚ) /
        (1000000 * ((settings.assignmentAgeBoostIntervalSeconds : Int) : ℚ))⌋
        = ((now - createdAt) / seconds settings.assignmentAgeBoostIntervalSeconds : Nat) := by
      rw [Int.natCast_div, ← Rat.floor_natCast_div_natCast, seconds]
      push_cast
      rw [mul_comm]
    rw [hfloor]
    push_cast
    rfl

theorem effectivePriority_eq (db : Db) (a : StageAssignment) :
    effectivePriority db a
      = db.settings.ageing.computeEffectivePriority a.priority (secondsOf a.createdAt)
        (secondsOf db.now) :=
  congrArg (a.priority + ·) (ageBoost_eq db.settings a.createdAt db.now)

end ContentOrchestrator

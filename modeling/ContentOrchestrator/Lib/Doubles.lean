import Mathlib.Data.Nat.Log
import Mathlib.Tactic.Positivity
import Mathlib.Tactic.Ring

/-! # Binary64 numbers and their shortest decimals

A finite double is `± significand · 2 ^ exponent` in canonical form, so that doubles of one
sign and value are equal. Its decimal is the one of fewest digits that reads back as the
double, and of these the nearest, a tie going to the even digit. -/

namespace ContentOrchestrator.Lib

structure Double where
  negative : Bool
  significand : Nat
  exponent : Int
  significand_lt : significand < 2 ^ 53
  le_exponent : -1074 ≤ exponent
  exponent_le : exponent ≤ 971
  normal : 2 ^ 52 ≤ significand ∨ exponent = -1074
deriving DecidableEq, Repr

namespace Double

/-- The value in units of the smallest positive double. -/
def scaled (x : Double) : Int :=
  let size : Int := x.significand * 2 ^ (x.exponent + 1074).toNat
  if x.negative then -size else size

/-- The value without its fraction. -/
def truncate (x : Double) : Int := x.scaled.tdiv (2 ^ 1074)

/-- `m · 10 ^ k` against `n · 2 ^ j`. -/
def comparePowers (m : Nat) (k : Int) (n : Nat) (j : Int) : Ordering :=
  compare (m * 10 ^ k.toNat * 2 ^ (-j).toNat) (n * 2 ^ j.toNat * 10 ^ (-k).toNat)

/-- Whether `m · 10 ^ k` rounds to the size of the double. The bounds lie halfway to its neighbours,
of which the lower one is nearer at a power of two, and belong to even significands. -/
def readsBack (x : Double) (m : Nat) (k : Int) : Bool :=
  let gap := if x.significand = 2 ^ 52 ∧ x.exponent ≠ -1074 then 1 else 2
  let lower := comparePowers m k (4 * x.significand - gap) (x.exponent - 2)
  let upper := comparePowers m k (4 * x.significand + 2) (x.exponent - 2)
  if x.significand % 2 = 0 then lower != .lt && upper != .gt else lower == .gt && upper == .lt

/-- The nearest multiple of `10 ^ k` that reads back. -/
def atPlace (x : Double) (k : Int) : Option (Nat × Int) :=
  let below := x.significand * 2 ^ x.exponent.toNat * 10 ^ (-k).toNat /
    (10 ^ k.toNat * 2 ^ (-x.exponent).toNat)
  let nearest := match comparePowers (2 * below + 1) k (2 * x.significand) x.exponent with
    | .gt => below
    | .eq => below + below % 2
    | .lt => below + 1
  ([nearest, below, below + 1].find? (x.readsBack · k)).map fun m => (m, k)

/-- Every double is a multiple of ten to minus this. -/
def lastPlace : Nat := 1074

/-- The digits that end at the highest place they can, and that place, from place `k` on down. -/
def digitsFrom (x : Double) : Nat → Int → Nat × Int
  | 0, _ => (x.scaled.natAbs * 5 ^ lastPlace, -lastPlace)
  | tries + 1, k => (x.atPlace k).getD (digitsFrom x tries (k - 1))

/-- The digits of `repr` and the place of the last of them. -/
def shortest (x : Double) : Nat × Int :=
  if x.significand = 0 then (0, 0) else x.digitsFrom 1384 309

theorem pos_of_readsBack {x : Double} {m : Nat} {k : Int} (hsize : 0 < x.significand)
    (h : x.readsBack m k = true) : 0 < m := by
  refine Nat.pos_of_ne_zero fun hzero => ?_
  subst hzero
  have hbelow : ∀ gap ≤ 2, comparePowers 0 k (4 * x.significand - gap) (x.exponent - 2) = .lt := by
    intro gap hgap
    have hpos : 0 < 4 * x.significand - gap := by omega
    unfold comparePowers
    rw [Nat.zero_mul, Nat.zero_mul, Nat.compare_eq_lt]
    positivity
  unfold readsBack at h
  dsimp only at h
  rw [hbelow _ (by split <;> omega)] at h
  split at h <;> simp at h

theorem readsBack_of_atPlace {x : Double} {k : Int} {digits : Nat × Int}
    (h : x.atPlace k = some digits) : x.readsBack digits.1 digits.2 = true := by
  obtain ⟨m, hm, rfl⟩ := Option.map_eq_some_iff.mp h
  simpa using List.find?_some hm

theorem scaled_eq_zero {x : Double} : x.scaled = 0 ↔ x.significand = 0 := by
  unfold scaled
  dsimp only
  split <;> simp

theorem digitsFrom_pos {x : Double} (hsize : 0 < x.significand) (tries : Nat) (k : Int) :
    0 < (x.digitsFrom tries k).1 := by
  induction tries generalizing k with
  | zero =>
    have hscaled : 0 < x.scaled.natAbs := Int.natAbs_pos.mpr (scaled_eq_zero.not.mpr hsize.ne')
    exact Nat.mul_pos hscaled (Nat.pow_pos (by decide))
  | succ tries ih =>
    unfold digitsFrom
    cases hplace : x.atPlace k with
    | none => exact ih (k - 1)
    | some digits => exact pos_of_readsBack hsize (readsBack_of_atPlace hplace)

/-- Only a zero is written with the digit zero alone. -/
theorem shortest_eq_zero {x : Double} : x.shortest.1 = 0 ↔ x.significand = 0 := by
  unfold shortest
  by_cases hzero : x.significand = 0
  · simp [hzero]
  · rw [if_neg hzero]
    exact iff_of_false (digitsFrom_pos (Nat.pos_of_ne_zero hzero) _ _).ne' hzero

/-! ## Bounds -/

/-- A number that is not above `n · 2 ^ j` has its leading digit at no higher place than its
bits. -/
theorem log_of_comparePowers {m n bits : Nat} {k j : Int} (hm : m ≠ 0) (hn : n < 2 ^ bits)
    (h : comparePowers m k n j ≠ .gt) : (Nat.log 10 m : Int) + k < bits + j.toNat := by
  have hle : m * 10 ^ k.toNat ≤ n * 2 ^ j.toNat * 10 ^ (-k).toNat :=
    (Nat.le_mul_of_pos_right _ (by positivity)).trans (Nat.compare_ne_gt.mp h)
  have hlt : 10 ^ (Nat.log 10 m + k.toNat) < 10 ^ (bits + j.toNat + (-k).toNat) := calc
    10 ^ (Nat.log 10 m + k.toNat) = 10 ^ Nat.log 10 m * 10 ^ k.toNat := pow_add ..
    _ ≤ m * 10 ^ k.toNat := Nat.mul_le_mul_right _ (Nat.pow_log_le_self 10 hm)
    _ ≤ n * 2 ^ j.toNat * 10 ^ (-k).toNat := hle
    _ < 2 ^ bits * 2 ^ j.toNat * 10 ^ (-k).toNat :=
      Nat.mul_lt_mul_of_pos_right (Nat.mul_lt_mul_of_pos_right hn (by positivity)) (by positivity)
    _ = 2 ^ (bits + j.toNat) * 10 ^ (-k).toNat := by rw [pow_add]
    _ ≤ 10 ^ (bits + j.toNat) * 10 ^ (-k).toNat :=
      Nat.mul_le_mul_right _ (Nat.pow_le_pow_left (by decide) _)
    _ = 10 ^ (bits + j.toNat + (-k).toNat) := (pow_add ..).symm
  have hplaces := (Nat.pow_lt_pow_iff_right (by decide)).mp hlt
  omega

theorem log_of_readsBack {x : Double} {m : Nat} {k : Int} (hm : m ≠ 0)
    (h : x.readsBack m k = true) : (Nat.log 10 m : Int) + k < 1025 := by
  have hupper : comparePowers m k (4 * x.significand + 2) (x.exponent - 2) ≠ .gt := by
    unfold readsBack at h
    dsimp only at h
    split at h
    · exact bne_iff_ne.mp (Bool.and_eq_true_iff.mp h).2
    · rw [beq_iff_eq.mp (Bool.and_eq_true_iff.mp h).2]
      exact Ordering.noConfusion
  have hsize : 4 * x.significand + 2 < 2 ^ 56 := by
    have := x.significand_lt
    omega
  have hlog := log_of_comparePowers hm hsize hupper
  have := x.exponent_le
  omega

theorem scaled_natAbs (x : Double) :
    x.scaled.natAbs = x.significand * 2 ^ (x.exponent + 1074).toNat := by
  unfold scaled
  dsimp only
  split <;> simp [Int.natAbs_mul, Int.natAbs_pow]

/-- The digits down to a place that has room for the lowest bit are exact. -/
theorem compare_exact (x : Double) {p : Nat}
    (hp : (x.exponent + 1074).toNat + (-x.exponent).toNat = x.exponent.toNat + p) :
    comparePowers (x.scaled.natAbs * 5 ^ p) (-p) x.significand x.exponent = .eq := by
  have hplace : (-(p : Int)).toNat = 0 := by omega
  have hten : 10 ^ p = 2 ^ p * 5 ^ p := (mul_pow 2 5 p)
  unfold comparePowers
  rw [Nat.compare_eq_eq, scaled_natAbs, hplace, neg_neg, Int.toNat_natCast, hten, pow_zero]
  calc x.significand * 2 ^ (x.exponent + 1074).toNat * 5 ^ p * 1 * 2 ^ (-x.exponent).toNat
    _ = x.significand * 2 ^ ((x.exponent + 1074).toNat + (-x.exponent).toNat) * 5 ^ p := by
      rw [pow_add]
      ring
    _ = x.significand * 2 ^ x.exponent.toNat * (2 ^ p * 5 ^ p) := by
      rw [hp, pow_add]
      ring

theorem digitsFrom_bounds {x : Double} (hsize : 0 < x.significand) (tries : Nat) (k : Int)
    (hk : -1074 ≤ k - tries + 1) : -1074 ≤ (x.digitsFrom tries k).2 ∧
      (Nat.log 10 (x.digitsFrom tries k).1 : Int) + (x.digitsFrom tries k).2 < 1025 := by
  induction tries generalizing k with
  | zero =>
    have hscaled : x.scaled.natAbs ≠ 0 := Int.natAbs_ne_zero.mpr (scaled_eq_zero.not.mpr hsize.ne')
    have hm : x.scaled.natAbs * 5 ^ lastPlace ≠ 0 := Nat.mul_ne_zero hscaled (by positivity)
    have hexact : comparePowers (x.scaled.natAbs * 5 ^ lastPlace) (-lastPlace) x.significand
        x.exponent ≠ .gt := by
      rw [x.compare_exact (by have := x.le_exponent; unfold lastPlace; omega)]
      exact Ordering.noConfusion
    have hlog := log_of_comparePowers hm x.significand_lt hexact
    have := x.exponent_le
    unfold digitsFrom
    dsimp only
    exact ⟨Int.le_refl _, by omega⟩
  | succ tries ih =>
    unfold digitsFrom
    cases hplace : x.atPlace k with
    | none => exact ih (k - 1) (by omega)
    | some digits =>
      have hreads := readsBack_of_atPlace hplace
      have hpos := pos_of_readsBack hsize hreads
      have hat : digits.2 = k := by
        obtain ⟨_, -, rfl⟩ := Option.map_eq_some_iff.mp hplace
        rfl
      exact ⟨by rw [Option.getD_some, hat]; omega, log_of_readsBack hpos.ne' hreads⟩

theorem shortest_bounds (x : Double) :
    -1074 ≤ x.shortest.2 ∧ (Nat.log 10 x.shortest.1 : Int) + x.shortest.2 < 1025 := by
  unfold shortest
  by_cases hzero : x.significand = 0
  · simp [hzero]
  · rw [if_neg hzero]
    exact digitsFrom_bounds (Nat.pos_of_ne_zero hzero) _ _ (by decide)

/-- `0.1` -/
example : shortest ⟨false, 7205759403792794, -56, by decide, by decide, by decide, by decide⟩ =
    (1, -1) := by decide +kernel

end Double

end ContentOrchestrator.Lib

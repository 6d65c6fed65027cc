import Mathlib.Data.Nat.Find

/-! # Clock readings and the UTC spend windows

A clock reading is a natural number: microseconds from the first instant of year 1
in UTC. Days have a fixed length; months follow the Gregorian calendar, so the month windows are
the cumulative month lengths and the current month is the last boundary at or
before the reading. -/

namespace ContentOrchestrator

def seconds (n : Nat) : Nat := n * 1000000

def hours (n : Nat) : Nat := seconds (n * 3600)

def days (n : Nat) : Nat := hours (n * 24)

def isLeapYear (year : Nat) : Bool := year % 4 == 0 && (year % 100 != 0 || year % 400 == 0)

/-- Days in the `m`-th month counted from January of year 1. -/
def monthLength (m : Nat) : Nat :=
  match m % 12 with
  | 1 => if isLeapYear (m / 12 + 1) then 29 else 28
  | 3 | 5 | 8 | 10 => 30
  | _ => 31

/-- Days before the `m`-th month. -/
def monthBoundary : Nat → Nat
  | 0 => 0
  | m + 1 => monthBoundary m + monthLength m

/-- The last month that has begun by the given day. -/
def currentMonth (day : Nat) : Nat := Nat.findGreatest (fun m => monthBoundary m ≤ day) day

def dayNumber (now : Nat) : Nat := now / days 1

def utcDayStart (now : Nat) : Nat := days (dayNumber now)

def utcMonthStart (now : Nat) : Nat := days (monthBoundary (currentMonth (dayNumber now)))

theorem days_mono {m n : Nat} (h : m ≤ n) : days m ≤ days n := by
  unfold days hours seconds; omega

theorem utcDayStart_mono {t u : Nat} (h : t ≤ u) : utcDayStart t ≤ utcDayStart u :=
  days_mono (Nat.div_le_div_right h)

theorem currentMonth_mono {d e : Nat} (h : d ≤ e) : currentMonth d ≤ currentMonth e :=
  Nat.findGreatest_mono (fun _ hm => Nat.le_trans hm h) h

theorem monthBoundary_mono {m n : Nat} (h : m ≤ n) : monthBoundary m ≤ monthBoundary n := by
  induction h with
  | refl => exact Nat.le_refl _
  | step _ ih => exact Nat.le_trans ih (Nat.le_add_right _ _)

theorem utcMonthStart_mono {t u : Nat} (h : t ≤ u) : utcMonthStart t ≤ utcMonthStart u :=
  days_mono (monthBoundary_mono (currentMonth_mono (Nat.div_le_div_right h)))

/-- 1 March of year 4 opens its month on day 1155: three common years and a leap February. -/
example : currentMonth 1160 = 38 ∧ monthBoundary 38 = 1155 := by decide +kernel

end ContentOrchestrator

import Mathlib.Data.List.Basic
import Mathlib.Tactic.IntervalCases

/-!
# The Gregorian calendar

Days are counted from the first day of an epoch, year by year and month by month; months are
numbered from zero.  The closed forms are what programs compute.
-/

namespace SipXRouter

namespace Calendar

/-- Every fourth year is a leap year, of the centuries every fourth. -/
def isLeap (year : Nat) : Bool := year % 4 = 0 && (year % 100 != 0 || year % 400 = 0)

/-- The extra day. -/
def leapDay (year : Nat) : Nat := if isLeap year then 1 else 0

/-- The days of a month, which is counted from 0. -/
def monthLength (year : Nat) : (month : Nat) → Nat
  | 1 => 28 + leapDay year
  | 3 | 5 | 8 | 10 => 30
  | _ => 31

/-- The days of a year. -/
def yearLength (year : Nat) : Nat := 365 + leapDay year

/-- The days of the first `years` years from an epoch on. -/
def daysBeforeYear (epoch : Nat) : (years : Nat) → Nat
  | 0 => 0
  | years + 1 => daysBeforeYear epoch years + yearLength (epoch + years)

/-- The days of a year in front of a month. -/
def daysBeforeMonth (year : Nat) : (month : Nat) → Nat
  | 0 => 0
  | month + 1 => daysBeforeMonth year month + monthLength year month

/-- The days between the first of January of the epoch and a date. -/
def dayNumber (epoch year month day : Nat) : Nat :=
  daysBeforeYear epoch (year - epoch) + daysBeforeMonth year month + (day - 1)

/-! ## Closed forms -/

/-- The leap days in front of the end of a year. -/
def leaps (year : Nat) : Nat := year / 4 - year / 100 + year / 400

theorem leapDay_eq (year : Nat) :
    leapDay year = if year % 4 = 0 ∧ (year % 100 ≠ 0 ∨ year % 400 = 0) then 1 else 0 := by
  simp [leapDay, isLeap]

theorem leaps_succ (year : Nat) : leaps (year + 1) = leaps year + leapDay (year + 1) := by
  rw [leapDay_eq, leaps, leaps]
  split <;> omega

theorem daysBeforeYear_add_leaps (epoch years : Nat) :
    daysBeforeYear (epoch + 1) years + leaps epoch = 365 * years + leaps (epoch + years) := by
  induction years with
  | zero => simp [daysBeforeYear]
  | succ years ih =>
    have hsucc := leaps_succ (epoch + years)
    rw [show epoch + years + 1 = epoch + 1 + years by omega] at hsucc
    rw [daysBeforeYear, yearLength, show epoch + (years + 1) = epoch + 1 + years by omega]
    omega

/-- The days of a common year in front of each month. -/
def monthStarts : List Nat := [0, 31, 59, 90, 120, 151, 181, 212, 243, 273, 304, 334]

theorem daysBeforeMonth_eq (year : Nat) {month : Nat} (h : month < 12) :
    daysBeforeMonth year month =
      monthStarts.getD month 0 + if month < 2 then 0 else leapDay year := by
  interval_cases month <;> simp [daysBeforeMonth, monthLength, monthStarts] <;> omega

theorem leapDay_le (year : Nat) : leapDay year ≤ 1 := by
  unfold leapDay
  split <;> omega

theorem monthLength_le (year month : Nat) : monthLength year month ≤ 31 := by
  have hleap := leapDay_le year
  unfold monthLength
  split <;> omega

theorem le_daysBeforeMonth (year month : Nat) : 28 * month ≤ daysBeforeMonth year month := by
  induction month with
  | zero => simp [daysBeforeMonth]
  | succ month ih =>
    have hlength : 28 ≤ monthLength year month := by
      unfold monthLength
      split <;> omega
    rw [daysBeforeMonth]
    omega

theorem day_lt {year month day : Nat} (hmonth : month < 12) (hday : day ≤ monthLength year month) :
    daysBeforeMonth year month + (day - 1) < yearLength year := by
  rw [daysBeforeMonth_eq year hmonth, yearLength]
  interval_cases month <;> simp [monthLength, monthStarts] at hday ⊢ <;> omega

end Calendar

end SipXRouter

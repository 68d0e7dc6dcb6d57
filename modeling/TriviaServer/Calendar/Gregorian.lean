import Mathlib.Data.Int.Notation
import Mathlib.Data.Nat.Notation
import Mathlib.Tactic.SplitIfs

/-! # The Gregorian calendar

Dates of the proleptic Gregorian calendar, their day numbers, and the anniversaries of a date. A
span of whole years is as much longer than that many times 365 days as it has leap days. -/

namespace Calendar

def isLeap (year : ℤ) : Bool := year % 4 = 0 ∧ (year % 100 ≠ 0 ∨ year % 400 = 0)

/-- The last day of a month, in a leap year or a common one. -/
def lastDay (leap : Bool) : ℕ → ℕ
  | 2 => if leap then 29 else 28
  | 4 | 6 | 9 | 11 => 30
  | _ => 31

/-- The days of a year before a month. -/
def daysBeforeMonth (leap : Bool) : ℕ → ℕ
  | 0 | 1 => 0
  | month + 2 => daysBeforeMonth leap (month + 1) + lastDay leap (month + 1)

/-- The days from 1 January 1 to 1 January of a year. -/
def daysBeforeYear (year : ℤ) : ℤ :=
  365 * (year - 1) + (year - 1) / 4 - (year - 1) / 100 + (year - 1) / 400

/-- A year, a month and a day that need not make up a date. -/
structure YearMonthDay where
  year : ℤ
  month : ℕ
  day : ℕ
  deriving DecidableEq, Repr

namespace YearMonthDay

/-- Whether it is a date. -/
def ok (d : YearMonthDay) : Bool :=
  1 ≤ d.month ∧ d.month ≤ 12 ∧ 1 ≤ d.day ∧ d.day ≤ lastDay (isLeap d.year) d.month

/-- The days since 1 January 1970. -/
def dayNumber (d : YearMonthDay) : ℤ :=
  daysBeforeYear d.year + daysBeforeMonth (isLeap d.year) d.month + d.day - 719163

example : dayNumber ⟨1970, 1, 1⟩ = 0 := by decide

/-- The day of the same month and day some years later. In a common year 29 February is the day
after 28 February. -/
def anniversary (d : YearMonthDay) (years : ℕ) : ℤ :=
  dayNumber { d with year := d.year + years }

/-- The leap days of the years up to an anniversary. -/
def leapDays (d : YearMonthDay) (years : ℕ) : ℤ :=
  d.anniversary years - d.dayNumber - 365 * years

end YearMonthDay

/-! ## Leap days -/

theorem daysBeforeYear_succ (year : ℤ) :
    daysBeforeYear (year + 1) = daysBeforeYear year + 365 + (isLeap year).toNat := by
  unfold daysBeforeYear
  cases hleap : isLeap year with
  | true =>
      have h := of_decide_eq_true hleap
      rw [Bool.toNat_true]
      omega
  | false =>
      have h := of_decide_eq_false hleap
      rw [Bool.toNat_false]
      omega

theorem lastDay_eq (leap : Bool) (month : ℕ) :
    lastDay leap month = lastDay false month + if month = 2 then leap.toNat else 0 := by
  unfold lastDay
  split
  · cases leap <;> rfl
  · rfl
  · rfl
  · rfl
  · rfl
  · next hne _ _ _ _ => rw [if_neg hne]

theorem daysBeforeMonth_eq (leap : Bool) (month : ℕ) : daysBeforeMonth leap month =
    daysBeforeMonth false month + if 2 < month then leap.toNat else 0 := by
  induction month using daysBeforeMonth.induct with
  | case1 => rfl
  | case2 => rfl
  | case3 month ih =>
      rw [daysBeforeMonth, daysBeforeMonth, ih, lastDay_eq leap]
      split_ifs <;> omega

namespace YearMonthDay

variable (d : YearMonthDay)

/-- The leap days are those of the years from the first whose 29 February is still to come. -/
theorem leapDays_eq (years : ℕ) : d.leapDays years =
    daysBeforeYear (d.year + years + if 2 < d.month then 1 else 0) -
      daysBeforeYear (d.year + if 2 < d.month then 1 else 0) - 365 * years := by
  have hyear := daysBeforeYear_succ d.year
  have hlater := daysBeforeYear_succ (d.year + years)
  rw [leapDays, anniversary, dayNumber, dayNumber, daysBeforeMonth_eq,
    daysBeforeMonth_eq (isLeap d.year)]
  dsimp only
  split_ifs
  · rw [hyear, hlater]
    omega
  · rw [Int.add_zero, Int.add_zero]
    omega

/-- Every fourth year, but a century may have none. -/
theorem leapDays_sixteen : 3 ≤ d.leapDays 16 ∧ d.leapDays 16 ≤ 4 := by
  rw [leapDays_eq]
  unfold daysBeforeYear
  split_ifs <;> omega

theorem leapDays_hundredFifty : 35 ≤ d.leapDays 150 ∧ d.leapDays 150 ≤ 38 := by
  rw [leapDays_eq]
  unfold daysBeforeYear
  split_ifs <;> omega

end YearMonthDay

end Calendar

import Almanac.Proofs.CyclicYear
import Almanac.Proofs.Hebrew.Date
import Almanac.Proofs.Iso.DayCount
import Almanac.Proofs.MonthIndex

/-!
# The first days of the months

Each month begins on the day after the last day of the month before, in every calendar and from year
to year: a calendar is a sequence of months of positive length. `monthStart` counts the day on which
the month of a running number begins.

* `epochDay_succ_month`, `epochDay_succ_year`: the rule for the calendars one by one.
* `monthStart_succ`: the same rule on running numbers, for all of them.
* `epochDay_eq_monthStart`: the day count of a date by the beginning of its month.
-/

namespace Almanac.Calendar

variable {c : Calendar}

theorem epochDay_eq (c : Calendar) (year month day : Int) :
    c.epochDay ⟨year, month, day⟩ = c.epochDay ⟨year, month, 1⟩ + (day - 1) := by
  cases c <;> simp only [epochDay, Coptic.dayOfDate, Islamic.dayOfDate, Hebrew.dayOfDate,
    Iso.epochDay] <;> ring

/-- Within a year a month begins after the last day of the month before. -/
theorem epochDay_succ_month {year month : Int} (h₁ : 1 ≤ month) (h₂ : month < c.monthsInYear year) :
    c.epochDay ⟨year, month + 1, 1⟩ = c.epochDay ⟨year, month, 1⟩ + c.daysInMonth year month := by
  cases c
  case hebrew =>
    -- the months before a month are summed up by a recursion on their number
    obtain ⟨k, rfl⟩ : ∃ k : Nat, month = k + 1 := ⟨(month - 1).toNat, by omega⟩
    simp only [epochDay, Hebrew.dayOfDate, daysInMonth,
      show ((k : Int) + 1 + 1 - 1).toNat = k + 1 by omega,
      show ((k : Int) + 1 - 1).toNat = k by omega, Hebrew.daysInMonths]
    ring
  case coptic | ethiopic =>
    have h : month < 13 := h₂
    simp only [epochDay, Coptic.dayOfDate, daysInMonth, Coptic.daysInMonth, if_pos h]
    ring
  case islamicCivil | islamicTabular =>
    have h : month < 12 := h₂
    simp only [epochDay, Islamic.dayOfDate, daysInMonth, Islamic.daysInMonth,
      show ¬ (month = 12 ∧ Islamic.isLeap year = true) by omega, if_false]
    split <;> omega
  all_goals exact Iso.epochDay_succ_month h₁ h₂

/-- A year begins after the last day of the year before. -/
theorem epochDay_succ_year (c : Calendar) (year : Int) :
    c.epochDay ⟨year + 1, 1, 1⟩ = c.epochDay ⟨year, c.monthsInYear year, 1⟩ +
      c.daysInMonth year (c.monthsInYear year) := by
  cases c
  case hebrew =>
    obtain ⟨k, hk⟩ : ∃ k : Nat, Hebrew.monthsInYear year = k + 1 :=
      ⟨(Hebrew.monthsInYear year - 1).toNat, by unfold Hebrew.monthsInYear; split <;> omega⟩
    have hsum := Hebrew.daysInMonths_monthsInYear year
    rw [hk, show ((k : Int) + 1).toNat = k + 1 by omega, Hebrew.daysInMonths,
      Hebrew.daysInYear] at hsum
    simp only [epochDay, Hebrew.dayOfDate, daysInMonth, monthsInYear, monthsPerYear?,
      Option.getD_none, hk, show ((k : Int) + 1 - 1).toNat = k by omega]
    rw [show ((1 : Int) - 1).toNat = 0 by decide, Hebrew.daysInMonths]
    omega
  case coptic | ethiopic =>
    simp only [epochDay, Coptic.dayOfDate, daysInMonth, Coptic.daysInMonth, monthsInYear,
      monthsPerYear?, Option.getD_some, Coptic.isLeap, decide_eq_true_eq]
    split <;> omega
  case islamicCivil | islamicTabular =>
    have h : 3 + 11 * (year + 1) = 3 + 11 * year + 11 := by ring
    simp only [epochDay, Islamic.dayOfDate, daysInMonth, Islamic.daysInMonth, monthsInYear,
      monthsPerYear?, Option.getD_some, Islamic.isLeap_iff, h, true_and]
    generalize 3 + 11 * year = s
    split <;> omega
  all_goals
    simp only [epochDay, daysInMonth, monthsInYear, monthsPerYear?, Option.getD_some,
      add_sub_right_comm]
    exact Iso.epochDay_succ_year _

theorem one_le_daysInMonth {year month : Int} (h : c.HasMonth year month) :
    1 ≤ c.daysInMonth year month := by
  cases c
  case hebrew => exact le_trans (by decide) (Hebrew.daysInMonth_bounds year month).1
  all_goals
    simp only [daysInMonth, Coptic.daysInMonth, Islamic.daysInMonth, Iso.daysInMonth]
    repeat' split
    all_goals decide

theorem hasDate_first {year month : Int} (h : c.HasMonth year month) : c.HasDate ⟨year, month, 1⟩ :=
  ⟨h, le_rfl, one_le_daysInMonth h⟩

theorem hasDate_last {year month : Int} (h : c.HasMonth year month) :
    c.HasDate ⟨year, month, c.daysInMonth year month⟩ :=
  ⟨h, one_le_daysInMonth h, le_rfl⟩

/-- The day on which the month of a running number begins. -/
def monthStart (c : Calendar) (i : Int) : Int :=
  c.epochDay ⟨(c.monthOfIndex i).1, (c.monthOfIndex i).2, 1⟩

/-- The days in the month of a running number. -/
def monthLength (c : Calendar) (i : Int) : Int :=
  c.daysInMonth (c.monthOfIndex i).1 (c.monthOfIndex i).2

theorem one_le_monthLength (c : Calendar) (i : Int) : 1 ≤ c.monthLength i :=
  one_le_daysInMonth (c.monthOfIndex_spec i).1

/-- **A month begins after the last day of the month before.** -/
theorem monthStart_succ (c : Calendar) (i : Int) :
    c.monthStart (i + 1) = c.monthStart i + c.monthLength i := by
  obtain ⟨⟨hm₁, hm₂⟩, -⟩ := c.monthOfIndex_spec i
  unfold monthStart monthLength
  rw [monthOfIndex_succ, nextMonth]
  split
  · next hlt => exact epochDay_succ_month hm₁ hlt
  · next hlt =>
    have hlast : (c.monthOfIndex i).2 = c.monthsInYear (c.monthOfIndex i).1 := by omega
    rw [epochDay_succ_year, hlast]

theorem monthStart_le_iff {i j : Int} : c.monthStart i ≤ c.monthStart j ↔ i ≤ j := by
  refine StrictMono.le_iff_le (strictMono_int_of_lt_succ ?_)
  intro k
  have := c.one_le_monthLength k
  rw [monthStart_succ]
  omega

theorem monthStart_monthIndex {year month : Int} (h : c.HasMonth year month) :
    c.monthStart (c.monthIndex year month) = c.epochDay ⟨year, month, 1⟩ := by
  rw [monthStart, monthOfIndex_monthIndex h]

theorem monthLength_monthIndex {year month : Int} (h : c.HasMonth year month) :
    c.monthLength (c.monthIndex year month) = c.daysInMonth year month := by
  rw [monthLength, monthOfIndex_monthIndex h]

/-- **The day count of a date** by the beginning of its month. -/
theorem epochDay_eq_monthStart {year month : Int} (h : c.HasMonth year month) (day : Int) :
    c.epochDay ⟨year, month, day⟩ = c.monthStart (c.monthIndex year month) + (day - 1) := by
  rw [monthStart_monthIndex h, epochDay_eq]

end Almanac.Calendar

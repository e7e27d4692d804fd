import Almanac.Proofs.Hebrew.YearLength
import Mathlib.Order.Monotone.Basic

/-!
# The date of a day in the Hebrew calendar

The months of a year are read off the last digit of its length, and yet they are as long as the
year (`daysInMonths_monthsInYear`). So the search through the months of a year ends inside it
(`monthAndDay_spec`), and the date that it finds has the day that it was given (`dateOfDay_spec`).
-/

namespace Almanac.Hebrew

/-- **The months of a year are as long as the year**, a complete or deficient one included. -/
theorem daysInMonths_monthsInYear (year : Int) :
    daysInMonths year (monthsInYear year).toNat = daysInYear year := by
  cases hl : isLeap year with
  | false =>
    have hd := daysInYear_of_common hl
    rw [monthsInYear, if_neg (by simp [hl])]
    simp only [show (12 : Int).toNat = 12 from rfl, daysInMonths, daysInMonth, monthLength, adar,
      hl]
    obtain h | h | h := hd <;> rw [h] <;> decide
  | true =>
    have hd := daysInYear_of_leap hl
    rw [monthsInYear, if_pos hl]
    simp only [show (13 : Int).toNat = 13 from rfl, daysInMonths, daysInMonth, monthLength, adar,
      hl]
    obtain h | h | h := hd <;> rw [h] <;> decide

theorem daysInMonths_le (year : Int) {m n : Nat} (h : m ≤ n) :
    daysInMonths year m ≤ daysInMonths year n := by
  refine monotone_nat_of_le_succ ?_ h
  intro months
  have := (daysInMonth_bounds year (months + 1)).1
  simp only [daysInMonths]
  omega

/-- **The month that the search finds** holds the day. The sum of the days before the month that is
looked at and the days still to go is kept. -/
theorem monthAndDay_spec (year : Int) {steps : Nat} (k : Nat) (days : Int) (h₀ : 0 ≤ days)
    (hs : days ≤ steps) :
    ∃ j : Nat, (monthAndDay year steps (k + 1) days).1 = j + 1 ∧
      daysInMonths year j + (monthAndDay year steps (k + 1) days).2 =
        daysInMonths year k + days + 1 ∧
      1 ≤ (monthAndDay year steps (k + 1) days).2 ∧
      (monthAndDay year steps (k + 1) days).2 ≤ daysInMonth year (j + 1) := by
  induction steps generalizing k days with
  | zero =>
    have hb := daysInMonth_bounds year (k + 1)
    refine ⟨k, rfl, ?_⟩
    simp only [monthAndDay]
    omega
  | succ steps ih =>
    have hb := daysInMonth_bounds year (k + 1)
    by_cases hlt : daysInMonth year (k + 1) ≤ days
    · obtain ⟨j, hj⟩ := ih (k + 1) (days - daysInMonth year (k + 1)) (by omega) (by omega)
      refine ⟨j, ?_⟩
      simp only [monthAndDay, if_pos hlt]
      simp only [daysInMonths, Nat.cast_add, Nat.cast_one] at hj
      omega
    · refine ⟨k, ?_⟩
      simp only [monthAndDay, if_neg hlt]
      refine ⟨trivial, ?_⟩
      omega

/-- **The date of a day** exists and has that day. -/
theorem dateOfDay_spec (day : Int) :
    (1 ≤ (dateOfDay day).month ∧ (dateOfDay day).month ≤ monthsInYear (dateOfDay day).year) ∧
      (1 ≤ (dateOfDay day).day ∧
        (dateOfDay day).day ≤ daysInMonth (dateOfDay day).year (dateOfDay day).month) ∧
      dayOfDate (dateOfDay day) = day := by
  obtain ⟨h₁, h₂⟩ := newYear_yearOfDay_bounds day
  have hgap := Int.self_le_toNat (day - newYear (yearOfDay day))
  obtain ⟨j, hj, hsum, hd₁, hd₂⟩ :=
    monthAndDay_spec (yearOfDay day) 0 (day - newYear (yearOfDay day)) (by omega) hgap
  simp only [Nat.cast_zero, zero_add, daysInMonths] at hj hsum hd₁ hd₂
  -- the month is within the year, whose days are all in its months
  have hlt : j < (monthsInYear (yearOfDay day)).toNat := by
    by_contra hge
    have hle := daysInMonths_le (yearOfDay day) (not_lt.1 hge)
    rw [daysInMonths_monthsInYear, daysInYear] at hle
    omega
  simp only [dateOfDay, dayOfDate]
  rw [hj]
  refine ⟨by omega, ⟨hd₁, hd₂⟩, ?_⟩
  rw [show ((j : Int) + 1 - 1).toNat = j by omega]
  omega

end Almanac.Hebrew

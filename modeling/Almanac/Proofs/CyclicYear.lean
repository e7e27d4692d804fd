import Almanac.Calendar.Coptic
import Almanac.Calendar.Islamic
import Mathlib.Tactic.IntervalCases
import Mathlib.Tactic.NormNum
import Mathlib.Tactic.Ring

/-!
# The date of a day in the calendars with a cycle of leap years

The Coptic and the Islamic calendar find the year of a day by the mean length of a year, and the
month by the mean length of a month. `Coptic.inYear_bounds` and `Islamic.inYear_bounds` say that the
day lies in that year, `Coptic.dateOfDay_spec` and `Islamic.dateOfDay_spec` that the date exists and
has the day.
-/

namespace Almanac

namespace Coptic

/-- A day lies in the year that the mean length of a year gives. -/
theorem inYear_bounds (epoch day : Int) {year : Int}
    (hy : year = (4 * (day - epoch) + 1463) / 1461) :
    0 ≤ day - dayOfDate epoch ⟨year, 1, 1⟩ ∧
      day - dayOfDate epoch ⟨year, 1, 1⟩ < daysInYear year := by
  have hb : 1461 * year ≤ 4 * (day - epoch) + 1463 ∧
      4 * (day - epoch) + 1463 < 1461 * (year + 1) := by
    omega
  clear hy
  have hlen : daysInYear year = if year % 4 = 3 then 366 else 365 := by
    simp only [daysInYear, isLeap, decide_eq_true_eq]
  simp only [dayOfDate]
  rw [hlen]
  split <;> omega

/-- **The date of a day** exists and has that day. -/
theorem dateOfDay_spec (epoch day : Int) :
    (1 ≤ (dateOfDay epoch day).month ∧ (dateOfDay epoch day).month ≤ 13) ∧
      (1 ≤ (dateOfDay epoch day).day ∧
        (dateOfDay epoch day).day ≤
          daysInMonth (dateOfDay epoch day).year (dateOfDay epoch day).month) ∧
      dayOfDate epoch (dateOfDay epoch day) = day := by
  have hb := inYear_bounds epoch day rfl
  simp only [dateOfDay]
  generalize (4 * (day - epoch) + 1463) / 1461 = year at hb ⊢
  have hk : ∃ k, day - dayOfDate epoch ⟨year, 1, 1⟩ = k := ⟨_, rfl⟩
  obtain ⟨k, hk⟩ := hk
  have hfirst : dayOfDate epoch ⟨year, k / 30 + 1, 1⟩ = day - k + 30 * (k / 30) := by
    rw [← hk]; simp only [dayOfDate]; ring
  rw [hk] at hb ⊢
  rw [hfirst]
  simp only [daysInYear, daysInMonth] at hb ⊢
  refine ⟨by omega, ⟨by omega, ?_⟩, ?_⟩
  · split at hb <;> split <;> omega
  · have := hfirst
    simp only [dayOfDate] at this ⊢
    omega

end Coptic

namespace Islamic

/-- A year is a leap year when the elevenths of a day that thirty years gain are nearly a day. -/
theorem isLeap_iff (year : Int) : isLeap year = true ↔ 19 ≤ (3 + 11 * year) % 30 := by
  rw [isLeap, decide_eq_true_iff, show 14 + 11 * year = 3 + 11 * year + 11 by ring]
  generalize 3 + 11 * year = s
  omega

/-- A day lies in the year that the mean length of a year gives. -/
theorem inYear_bounds (epoch day : Int) {year : Int}
    (hy : year = (30 * (day - epoch) + 10646) / 10631) :
    0 ≤ day - dayOfDate epoch ⟨year, 1, 1⟩ ∧
      day - dayOfDate epoch ⟨year, 1, 1⟩ < daysInYear year := by
  have hb : 10631 * year ≤ 30 * (day - epoch) + 10646 ∧
      30 * (day - epoch) + 10646 < 10631 * (year + 1) := by
    omega
  clear hy
  have hs := Int.mul_ediv_add_emod (3 + 11 * year) 30
  have hr₀ := Int.emod_nonneg (3 + 11 * year) (show (30 : Int) ≠ 0 by decide)
  have hr₁ := Int.emod_lt_of_pos (3 + 11 * year) (show (0 : Int) < 30 by decide)
  have hlen : daysInYear year = if 19 ≤ (3 + 11 * year) % 30 then 355 else 354 := by
    simp only [daysInYear, isLeap_iff]
  simp only [dayOfDate]
  rw [hlen]
  generalize (3 + 11 * year) / 30 = e at hs ⊢
  generalize (3 + 11 * year) % 30 = r at hs hr₀ hr₁ ⊢
  split <;> omega

/-- **The date of a day** exists and has that day. -/
theorem dateOfDay_spec (epoch day : Int) :
    (1 ≤ (dateOfDay epoch day).month ∧ (dateOfDay epoch day).month ≤ 12) ∧
      (1 ≤ (dateOfDay epoch day).day ∧
        (dateOfDay epoch day).day ≤
          daysInMonth (dateOfDay epoch day).year (dateOfDay epoch day).month) ∧
      dayOfDate epoch (dateOfDay epoch day) = day := by
  have hb := inYear_bounds epoch day rfl
  simp only [dateOfDay]
  generalize (30 * (day - epoch) + 10646) / 10631 = year at hb ⊢
  obtain ⟨k, hk⟩ : ∃ k, day - dayOfDate epoch ⟨year, 1, 1⟩ = k := ⟨_, rfl⟩
  rw [hk] at hb ⊢
  obtain ⟨m, hm⟩ : ∃ m, (11 * k + 330) / 325 = m := ⟨_, rfl⟩
  have hfirst : dayOfDate epoch ⟨year, m, 1⟩ = day - k + 29 * (m - 1) + m / 2 := by
    rw [← hk]; simp only [dayOfDate]; ring_nf
  rw [hm, hfirst]
  have hday : dayOfDate epoch ⟨year, m, day - (day - k + 29 * (m - 1) + m / 2) + 1⟩ = day := by
    simp only [dayOfDate] at hfirst ⊢
    omega
  have hm₁ : 1 ≤ m ∧ m ≤ 12 := by
    simp only [daysInYear] at hb
    split at hb <;> omega
  refine ⟨hm₁, ?_, hday⟩
  simp only [daysInYear, daysInMonth] at hb ⊢
  obtain ⟨h₁, h₂⟩ := hm₁
  cases hl : isLeap year <;> simp only [hl, if_true, if_false, and_true, and_false,
    Bool.false_eq_true] at hb ⊢ <;> interval_cases m <;> norm_num <;> omega

end Islamic
end Almanac

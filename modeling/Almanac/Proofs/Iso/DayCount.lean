import Almanac.Iso.EpochDay
import Mathlib.Tactic.IntervalCases
import Mathlib.Tactic.Ring

/-!
# The ISO date of a day count

* `Iso.daysBeforeYear_succ`, `Iso.daysBeforeMonth_succ`: the days before a year and before a month
  grow by the lengths of the years and of the months.
* `Iso.daysBeforeYear_yearOfDay_bounds`: the cycles of 400, 100 and 4 years lead to the year that
  holds the day.
* `Iso.daysBeforeMonth_monthOfDay_bounds`: so does the mean month, February counted as thirty days.
* `IsoDate.ofEpochDay_spec`: the date of a count exists and has that count.
-/

namespace Almanac

namespace Iso

theorem isLeap_iff (year : Int) :
    isLeap year = true ↔ year % 4 = 0 ∧ (year % 100 ≠ 0 ∨ year % 400 = 0) := by
  simp [isLeap]

theorem daysInMonth_le (year month : Int) : daysInMonth year month ≤ 31 := by
  simp only [daysInMonth]
  repeat' split
  all_goals omega

theorem daysBeforeYear_succ (year : Int) :
    daysBeforeYear (year + 1) = daysBeforeYear year + daysInYear year := by
  unfold daysBeforeYear daysInYear
  by_cases h : isLeap year
  · rw [if_pos h]
    rw [isLeap_iff] at h
    omega
  · rw [if_neg h]
    rw [isLeap_iff] at h
    omega

theorem daysBeforeMonth_succ {year month : Int} (h₁ : 1 ≤ month) (h₂ : month ≤ 12) :
    daysBeforeMonth year (month + 1) = daysBeforeMonth year month + daysInMonth year month := by
  unfold daysBeforeMonth daysInMonth
  interval_cases month <;> cases isLeap year <;> decide

theorem daysBeforeMonth_one (year : Int) : daysBeforeMonth year 1 = 0 := by simp [daysBeforeMonth]

/-- The days of the twelve months are those of the year. -/
theorem daysBeforeMonth_thirteen (year : Int) : daysBeforeMonth year 13 = daysInYear year := by
  unfold daysBeforeMonth daysInYear
  cases isLeap year <;> decide

/-- The days before a year that is given by its cycles of 400, 100 and 4 years. -/
theorem daysBeforeYear_cycles {a c b o : Int} (hc : 0 ≤ c ∧ c ≤ 3) (hb : 0 ≤ b ∧ b ≤ 24)
    (ho : 0 ≤ o ∧ o ≤ 3) :
    daysBeforeYear (400 * a + 100 * c + 4 * b + o + 1) =
      146097 * a + 36524 * c + 1461 * b + 365 * o := by
  have h4 : (400 * a + 100 * c + 4 * b + o) / 4 = 100 * a + 25 * c + b := by omega
  have h100 : (400 * a + 100 * c + 4 * b + o) / 100 = 4 * a + c := by omega
  have h400 : (400 * a + 100 * c + 4 * b + o) / 400 = a := by omega
  rw [daysBeforeYear, Int.add_sub_cancel, h4, h100, h400]
  ring

/-- The cycles that a day is past, and the days it is past them. -/
theorem day_eq_cycles (n : Int) :
    ∃ a c b o r : Int, n = 146097 * a + 36524 * c + 1461 * b + 365 * o + r ∧
      yearOfDay n = 400 * a + 100 * c + 4 * b + o + (if c = 4 ∨ o = 4 then 0 else 1) ∧
      (0 ≤ c ∧ c ≤ 4) ∧ (0 ≤ b ∧ b ≤ 24) ∧ (0 ≤ o ∧ o ≤ 4) ∧ (0 ≤ r ∧ r < 365) ∧
      (c = 4 → b = 0 ∧ o = 0 ∧ r = 0) ∧ (o = 4 → b < 24 ∧ r = 0) := by
  refine ⟨n / 146097, n % 146097 / 36524, n % 146097 % 36524 / 1461,
    n % 146097 % 36524 % 1461 / 365, n % 146097 % 36524 % 1461 % 365, ?_, ?_, ?_, ?_, ?_, ?_, ?_,
    ?_⟩
  · omega
  · simp only [yearOfDay]
    split <;> ring
  · omega
  · omega
  · omega
  · omega
  · omega
  · omega

theorem daysInYear_bounds (year : Int) : 365 ≤ daysInYear year ∧ daysInYear year ≤ 366 := by
  unfold daysInYear; split <;> omega

/-- **A day lies in its year.** -/
theorem daysBeforeYear_yearOfDay_bounds (n : Int) :
    daysBeforeYear (yearOfDay n) ≤ n ∧ n < daysBeforeYear (yearOfDay n + 1) := by
  obtain ⟨a, c, b, o, r, hn, hy, hc, hb, ho, hr, hc4, ho4⟩ := day_eq_cycles n
  rw [daysBeforeYear_succ, hy]
  by_cases h : c = 4 ∨ o = 4
  · -- the last day of a leap year, which ends a cycle of 400 or of four years
    rw [if_pos h]
    obtain rfl | ⟨hc3, rfl⟩ : c = 4 ∨ c ≤ 3 ∧ o = 4 := by omega
    · obtain ⟨rfl, rfl, rfl⟩ := hc4 rfl
      have hl : isLeap (400 * a + 100 * 3 + 4 * 24 + 3 + 1) = true := (isLeap_iff _).2 (by omega)
      rw [show 400 * a + 100 * 4 + 4 * 0 + 0 + 0 = 400 * a + 100 * 3 + 4 * 24 + 3 + 1 by ring,
        daysBeforeYear_cycles (by omega) (by omega) (by omega), daysInYear, if_pos hl]
      omega
    · obtain ⟨hb', rfl⟩ := ho4 rfl
      have hl : isLeap (400 * a + 100 * c + 4 * b + 3 + 1) = true := (isLeap_iff _).2 (by omega)
      rw [show 400 * a + 100 * c + 4 * b + 4 + 0 = 400 * a + 100 * c + 4 * b + 3 + 1 by ring,
        daysBeforeYear_cycles (by omega) hb (by omega), daysInYear, if_pos hl]
      omega
  · rw [if_neg h, daysBeforeYear_cycles (by omega) hb (by omega)]
    have := daysInYear_bounds (400 * a + 100 * c + 4 * b + o + 1)
    omega

/-- Were February to have thirty days, a day `s` would lie in the month `(12 * s + 373) / 367`. -/
theorem month_of_even_days {s m : Int} (hm : m = (12 * s + 373) / 367) :
    (367 * m - 362) / 12 ≤ s ∧ s < (367 * (m + 1) - 362) / 12 := by
  have h : 367 * m ≤ 12 * s + 373 ∧ 12 * s + 373 < 367 * (m + 1) := by omega
  omega

/-- **A day of a year lies in its month.** -/
theorem daysBeforeMonth_monthOfDay_bounds (year : Int) {n : Int} (h₀ : 0 ≤ n)
    (h₁ : n < daysInYear year) :
    1 ≤ monthOfDay year n ∧ monthOfDay year n ≤ 12 ∧
      daysBeforeMonth year (monthOfDay year n) ≤ n ∧
      n < daysBeforeMonth year (monthOfDay year n + 1) := by
  obtain ⟨skip, hskip, hleap, hlen⟩ : ∃ skip : Int, (1 ≤ skip ∧ skip ≤ 2) ∧
      (if isLeap year then (1 : Int) else 2) = skip ∧ daysInYear year = 367 - skip := by
    unfold daysInYear
    cases isLeap year
    · exact ⟨2, by decide, rfl, rfl⟩
    · exact ⟨1, by decide, rfl, rfl⟩
  have h₃ : daysBeforeMonth year 3 = 61 - skip := by
    rw [daysBeforeMonth, hleap]; rfl
  have hm : ∃ s, monthOfDay year n = (12 * s + 373) / 367 ∧
      (n < 61 - skip ∧ s = n ∨ 61 - skip ≤ n ∧ s = n + skip) := by
    simp only [monthOfDay, h₃]
    refine ⟨_, rfl, ?_⟩
    subst hleap
    cases isLeap year <;> simp <;> omega
  obtain ⟨s, hs, hcases⟩ := hm
  have hb := month_of_even_days hs
  generalize monthOfDay year n = m at hs hb ⊢
  have hm₁ : 1 ≤ m ∧ m ≤ 12 := by omega
  have hm₂ : m ≤ 2 ↔ s < 61 := by omega
  refine ⟨hm₁.1, hm₁.2, ?_, ?_⟩
  · rw [daysBeforeMonth, hleap]
    split <;> omega
  · rw [daysBeforeMonth, hleap]
    split <;> omega

theorem epochDay_of_month {year month : Int} (h : 1 ≤ month ∧ month ≤ 12) (day : Int) :
    epochDay year month day =
      daysBeforeYear year + daysBeforeMonth year month + (day - 1) - epochOffset := by
  have hy : (month - 1) / 12 = 0 := by omega
  have hm : (month - 1) % 12 + 1 = month := by omega
  simp only [epochDay, balanceMonth, hy, hm, add_zero]

theorem epochDay_succ_month {year month : Int} (h₁ : 1 ≤ month) (h₂ : month < 12) :
    epochDay year (month + 1) 1 = epochDay year month 1 + daysInMonth year month := by
  rw [epochDay_of_month (by omega), epochDay_of_month (by omega),
    daysBeforeMonth_succ h₁ (by omega)]
  ring

theorem epochDay_succ_year (year : Int) :
    epochDay (year + 1) 1 1 = epochDay year 12 1 + daysInMonth year 12 := by
  have hlast : daysBeforeMonth year 12 + daysInMonth year 12 = daysInYear year := by
    rw [← daysBeforeMonth_succ (by omega) (by omega), ← daysBeforeMonth_thirteen]
    rfl
  rw [epochDay_of_month (by omega), epochDay_of_month (by omega), daysBeforeYear_succ,
    daysBeforeMonth_one]
  omega

end Iso

/-- **The ISO date of a day count** exists and has that count. -/
theorem IsoDate.ofEpochDay_spec (n : Int) :
    (ofEpochDay n).Valid ∧
      Iso.epochDay (ofEpochDay n).year (ofEpochDay n).month (ofEpochDay n).day = n := by
  obtain ⟨h₁, h₂⟩ := Iso.daysBeforeYear_yearOfDay_bounds (n + Iso.epochOffset)
  rw [Iso.daysBeforeYear_succ] at h₂
  have hm := Iso.daysBeforeMonth_monthOfDay_bounds (Iso.yearOfDay (n + Iso.epochOffset))
    (Int.sub_nonneg.2 h₁) (Int.sub_left_lt_of_lt_add h₂)
  unfold Valid
  simp only [ofEpochDay]
  generalize Iso.yearOfDay (n + Iso.epochOffset) = year at hm ⊢
  generalize Iso.monthOfDay year (n + Iso.epochOffset - Iso.daysBeforeYear year) = month at hm ⊢
  obtain ⟨hm₁, hm₂, hd₁, hd₂⟩ := hm
  rw [Iso.daysBeforeMonth_succ hm₁ hm₂] at hd₂
  rw [Iso.epochDay_of_month ⟨hm₁, hm₂⟩]
  omega

end Almanac

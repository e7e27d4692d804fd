import Almanac.Proofs.Iso.DayCount

/-!
# Day counts formed in words

The count of a date is formed in words, from the years to the months and from these to the days. As
long as the days of the years fit a word, what is formed differs from the count by a multiple of
`2 ^ 64`, so that it is the count itself if that fits a word as well. Only the word for no time
stands in the way. But no month begins on a day of that number.

* `Iso.daysOfYears_eq`, `Iso.daysOfMonths_eq`: the first days of the years and of the months.
* `Iso.dayWord_eq`: **the word of a day count**.
* `Iso.toEpochDay_near`, `Iso.toEpochDay_eq`: the count of a day that may lie outside its month, and
  **the count of a date**, which is not reduced if it fits a word.
-/

namespace Almanac.Iso

variable {year month day n : Int}

theorem daysBeforeMonth_bounds (year : Int) (h : 1 ≤ month ∧ month ≤ 12) :
    0 ≤ daysBeforeMonth year month ∧ daysBeforeMonth year month ≤ 335 := by
  unfold daysBeforeMonth
  repeat' split
  all_goals omega

/-- Division toward zero of a number that is not positive. -/
theorem tdiv_of_nonpos (h : n ≤ 0) (k : Int) : n.tdiv k = -(-n / k) := by
  rw [← Int.tdiv_eq_ediv_of_nonneg (by omega), Int.neg_tdiv, Int.neg_neg]

/-- **The first day of a year** in a word, if the days of common years fit one. -/
theorem daysOfYears_eq (h : fitsWord (365 * n) = true) :
    daysOfYears n = toWord (daysBeforeYear (1970 + n) - epochOffset) := by
  unfold daysOfYears daysBeforeYear epochOffset
  rw [toWord_of_fitsWord h]
  dsimp only
  congr 1
  by_cases hn : 0 ≤ n
  · rw [if_pos (by omega), Int.tdiv_eq_ediv_of_nonneg (by omega),
      Int.tdiv_eq_ediv_of_nonneg (by omega), Int.tdiv_eq_ediv_of_nonneg (by omega)]
    omega
  · rw [if_neg (by omega), tdiv_of_nonpos (by omega), tdiv_of_nonpos (by omega),
      tdiv_of_nonpos (by omega)]
    omega

/-- **The first day of a month** in a word, if the months are counted from 1970. -/
theorem daysOfMonths_eq (h : fitsWord (365 * n) = true) (hm : 1 ≤ month ∧ month ≤ 12) :
    daysOfMonths (12 * n + (month - 1)) = toWord (epochDay (1970 + n) month 1) := by
  have hyears : (12 * n + (month - 1)) / 12 = n := by omega
  have hmonths : (12 * n + (month - 1)) % 12 + 1 = month := by omega
  have htime : 12 * n + (month - 1) ≠ noTime := by
    rw [fitsWord_iff] at h
    unfold noTime
    omega
  unfold daysOfMonths
  rw [if_neg htime]
  dsimp only
  rw [hyears, hmonths, daysOfYears_eq h, toWord_add_toWord, epochDay_of_month hm]
  congr 1
  ring

/-- **The word of a day count.** What is formed is the count reduced to a word, if the days of the
years fit one and neither the first of the month nor the day stands for no time. -/
theorem dayWord_eq (hyear : fitsWord (365 * (year - 1970)) = true) (hm : 1 ≤ month ∧ month ≤ 12)
    (hfirst : toWord (epochDay year month 1) ≠ noTime) (hday : day - 1 ≠ noTime) :
    dayWord year month day = toWord (epochDay year month day) := by
  have hmonths : countOn (monthsOfYears (year - 1970)) (month - 1) =
      12 * (year - 1970) + (month - 1) := by
    rw [fitsWord_iff] at hyear
    have hyears : monthsOfYears (year - 1970) = 12 * (year - 1970) := by
      unfold monthsOfYears
      rw [if_neg (by unfold noTime toWord; omega), toWord_of_fitsWord (by rw [fitsWord_iff]; omega)]
    rw [hyears, countOn, if_neg (by unfold noTime; omega),
      toWord_of_fitsWord (by rw [fitsWord_iff]; omega)]
  have hshift : 1970 + (year - 1970) = year := by omega
  unfold dayWord
  rw [hmonths, daysOfMonths_eq hyear hm, hshift, countOn, if_neg (by simp [hfirst, hday]),
    toWord_add_toWord, epochDay_of_month hm, epochDay_of_month hm]
  congr 1
  ring

/-- What is counted on is a word. -/
theorem fitsWord_dayWord (year month day : Int) : fitsWord (dayWord year month day) = true :=
  fitsWord_countOn _ _

/-- No month begins on the day of that number, nor on the one as far in the other direction. -/
theorem epochDay_first_ne (year : Int) (hm : 1 ≤ month ∧ month ≤ 12) :
    epochDay year month 1 ≠ -9223372036854775808 ∧ epochDay year month 1 ≠ 9223372036854775808 := by
  have hbefore := daysBeforeMonth_bounds year hm
  rw [epochDay_of_month hm, daysBeforeYear, epochOffset]
  -- the days are in a June and in a July, neither of them the first of its month
  constructor
  · intro h
    obtain rfl : year = -25252734927764585 := by omega
    obtain ⟨h₁, h₂⟩ := hm
    interval_cases month <;> exact absurd h (by decide)
  · intro h
    obtain rfl : year = 25252734927768524 := by omega
    obtain ⟨h₁, h₂⟩ := hm
    interval_cases month <;> exact absurd h (by decide)

/-- A first of a month whose day count is a word, or no further from one than the days of a
month. -/
def NearWord (n : Int) : Prop := -9223372036854775840 ≤ n ∧ n ≤ 9223372036854775808

/-- A month has the days of its years in words, if its first day is near one. -/
theorem fitsWord_years (hm : 1 ≤ month ∧ month ≤ 12) (h : NearWord (epochDay year month 1)) :
    fitsWord (365 * (year - 1970)) = true := by
  have hbefore := daysBeforeMonth_bounds year hm
  rw [NearWord, epochDay_of_month hm, daysBeforeYear, epochOffset] at h
  rw [fitsWord_iff]
  omega

/-- **The day count of a date**, which may lie outside its month, is reduced to a word. -/
theorem toEpochDay_near (hm : 1 ≤ month ∧ month ≤ 12) (hfirst : NearWord (epochDay year month 1))
    (hday : fitsWord (day - 1) = true) (hne : day - 1 ≠ noTime) :
    toEpochDay year month day = .ok (toWord (epochDay year month day)) := by
  have hyears := fitsWord_years hm hfirst
  have htime : toWord (epochDay year month 1) ≠ noTime := by
    have hfree := epochDay_first_ne year hm
    obtain ⟨h₁, h₂⟩ := hfirst
    unfold toWord noTime
    omega
  have hwords : inWords year month day = true := by
    rw [fitsWord_iff] at hyears hday
    simp only [inWords, Bool.and_eq_true, fitsWord_iff]
    omega
  rw [toEpochDay, if_pos hwords, dayWord_eq hyears hm htime hne]

/-- **A date has its day count**, if that fits a word. -/
theorem toEpochDay_eq {d : IsoDate} (hv : d.Valid)
    (h : fitsWord (epochDay d.year d.month d.day) = true) :
    toEpochDay d.year d.month d.day = .ok (epochDay d.year d.month d.day) := by
  obtain ⟨hm₁, hm₂, hd₁, hd₂⟩ := hv
  have hlen := daysInMonth_le d.year d.month
  have hfirst : NearWord (epochDay d.year d.month 1) := by
    rw [fitsWord_iff, epochDay_of_month ⟨hm₁, hm₂⟩] at h
    rw [NearWord, epochDay_of_month ⟨hm₁, hm₂⟩]
    omega
  rw [toEpochDay_near ⟨hm₁, hm₂⟩ hfirst (by rw [fitsWord_iff]; omega) (by unfold noTime; omega),
    toWord_of_fitsWord h]

/-- If the days of as many years can be counted in a word, so can those before the months of the
year, and the represented range does not reach as far. -/
theorem epochDay_first_bounds (hyear : fitsWord (366 * year) = true) (hm : 1 ≤ month ∧ month ≤ 12) :
    -9223372036000000000 ≤ epochDay year month 1 ∧ epochDay year month 1 ≤ 9223372036000000000 := by
  have hfirst := daysBeforeMonth_bounds year hm
  rw [fitsWord_iff] at hyear
  rw [epochDay_of_month hm, daysBeforeYear, epochOffset]
  omega

end Almanac.Iso

import Almanac.Calendar.Hebrew
import Mathlib.Order.Monotone.Basic
import Mathlib.Tactic.Ring

/-!
# The lengths of Hebrew years

A new year follows the mean conjunction of its month, put off by a day where it would fall on a
forbidden weekday, and by one or two days more where a year would get an illegal length. Everything
depends on two numbers of a year: the weekday of the conjunction and the parts of the day by which
it is late.

* `conjunction_succ_of_common`, `conjunction_succ_of_leap`: both numbers from a year to the next.
* `lengthCorrection_cases`: which years are put off further, by these numbers.
* `daysInYear_of_common`, `daysInYear_of_leap`: three lengths of common years and three of leap
  years, and no other.
* `years_of_legal_length`: **every year has one of the lengths of its kind**, so that the new years
  follow each other.
-/

namespace Almanac.Hebrew

/-- The months before a year as twelve for each year and the leap months of the cycle. -/
theorem monthsBefore_eq (year : Int) :
    monthsBefore year = 12 * year - 13 + (7 * year + 13) / 19 := by
  have h : 235 * year - 234 = 7 * year + 13 + (12 * year - 13) * 19 := by ring
  rw [monthsBefore, h, Int.add_mul_ediv_right _ _ (by decide)]
  ring

theorem isLeap_iff (year : Int) : isLeap year = true ↔ (7 * year + 1) % 19 < 7 := by
  simp [isLeap]

theorem monthsBefore_succ (year : Int) :
    monthsBefore (year + 1) = monthsBefore year + monthsInYear year := by
  have h : 7 * (year + 1) + 13 = 7 * year + 20 := by ring
  rw [monthsBefore_eq, monthsBefore_eq, h]
  by_cases hl : isLeap year
  · rw [monthsInYear, if_pos hl]
    rw [isLeap_iff] at hl
    generalize 7 * year = t at hl ⊢
    omega
  · rw [monthsInYear, if_neg hl]
    rw [isLeap_iff] at hl
    generalize 7 * year = t at hl ⊢
    omega

/-- No two leap years follow each other. -/
theorem isLeap_succ {year : Int} (h : isLeap year) : isLeap (year + 1) = false := by
  rw [isLeap_iff] at h
  rw [Bool.eq_false_iff, ne_eq, isLeap_iff, show 7 * (year + 1) + 1 = 7 * year + 8 by ring]
  generalize 7 * year = t at h ⊢
  omega

/-- The parts, of which a day has 25920, by which the mean conjunction follows the beginning of its
day. -/
def conjunctionParts (year : Int) : Int := (12084 + 13753 * monthsBefore year) % 25920

/-- **From a common year to the next**, the mean conjunction moves on by 354 days and 9516 parts. -/
theorem conjunction_succ_of_common {year : Int} (h : isLeap year = false) :
    (conjunctionParts year < 16404 ∧ conjunctionParts (year + 1) = conjunctionParts year + 9516 ∧
        conjunctionDay (year + 1) = conjunctionDay year + 354) ∨
      (16404 ≤ conjunctionParts year ∧
        conjunctionParts (year + 1) = conjunctionParts year - 16404 ∧
        conjunctionDay (year + 1) = conjunctionDay year + 355) := by
  have hm : monthsBefore (year + 1) = monthsBefore year + 12 := by
    rw [monthsBefore_succ, monthsInYear, if_neg (by simp [h])]
  have ht :
      12084 + 13753 * (monthsBefore year + 12) = 12084 + 13753 * monthsBefore year + 165036 := by
    ring
  unfold conjunctionParts conjunctionDay
  rw [hm, ht]
  generalize 12084 + 13753 * monthsBefore year = t
  omega

/-- **From a leap year to the next**, the mean conjunction moves on by 383 days and 23269 parts. -/
theorem conjunction_succ_of_leap {year : Int} (h : isLeap year) :
    (conjunctionParts year < 2651 ∧ conjunctionParts (year + 1) = conjunctionParts year + 23269 ∧
        conjunctionDay (year + 1) = conjunctionDay year + 383) ∨
      (2651 ≤ conjunctionParts year ∧
        conjunctionParts (year + 1) = conjunctionParts year - 2651 ∧
        conjunctionDay (year + 1) = conjunctionDay year + 384) := by
  have hm : monthsBefore (year + 1) = monthsBefore year + 13 := by
    rw [monthsBefore_succ, monthsInYear, if_pos h]
  have ht :
      12084 + 13753 * (monthsBefore year + 13) = 12084 + 13753 * monthsBefore year + 178789 := by
    ring
  unfold conjunctionParts conjunctionDay
  rw [hm, ht]
  generalize 12084 + 13753 * monthsBefore year = t
  omega

/-- The day is put off by one exactly in three residues modulo seven. -/
theorem postponedDay_cases (year : Int) :
    (conjunctionDay year % 7 = 2 ∨ conjunctionDay year % 7 = 4 ∨ conjunctionDay year % 7 = 6) ∧
        postponedDay year = conjunctionDay year + 1 ∨
      (conjunctionDay year % 7 = 0 ∨ conjunctionDay year % 7 = 1 ∨ conjunctionDay year % 7 = 3 ∨
        conjunctionDay year % 7 = 5) ∧ postponedDay year = conjunctionDay year := by
  simp only [postponedDay]
  obtain h | h | h | h | h | h | h : conjunctionDay year % 7 = 0 ∨ conjunctionDay year % 7 = 1 ∨
      conjunctionDay year % 7 = 2 ∨ conjunctionDay year % 7 = 3 ∨ conjunctionDay year % 7 = 4 ∨
      conjunctionDay year % 7 = 5 ∨ conjunctionDay year % 7 = 6 := by omega
  all_goals split <;> omega

/-- A year would have 356 days exactly when its conjunction is late on the day of residue one. -/
theorem postponedDay_succ_sub_eq_356_iff (year : Int) :
    postponedDay (year + 1) - postponedDay year = 356 ↔
      isLeap year = false ∧ conjunctionDay year % 7 = 1 ∧ 16404 ≤ conjunctionParts year := by
  have h₁ := postponedDay_cases year
  have h₂ := postponedDay_cases (year + 1)
  cases hl : isLeap year with
  | false =>
    have hs := conjunction_succ_of_common hl
    simp only [true_and]
    omega
  | true =>
    have hs := conjunction_succ_of_leap hl
    simp only [Bool.true_eq_false, false_and, iff_false]
    omega

theorem postponedDay_succ_sub_eq_382_iff (year : Int) :
    postponedDay (year + 1) - postponedDay year = 382 ↔
      isLeap year = true ∧ conjunctionDay year % 7 = 2 ∧ conjunctionParts year < 2651 := by
  have h₁ := postponedDay_cases year
  have h₂ := postponedDay_cases (year + 1)
  cases hl : isLeap year with
  | false =>
    have hs := conjunction_succ_of_common hl
    simp only [Bool.false_eq_true, false_and, iff_false]
    omega
  | true =>
    have hs := conjunction_succ_of_leap hl
    simp only [true_and]
    omega

/-- After a leap year that is too short, the conjunction is late on the day of residue zero. -/
theorem conjunction_of_short_leap {year : Int} (hl : isLeap (year - 1))
    (hw : conjunctionDay (year - 1) % 7 = 2) (hp : conjunctionParts (year - 1) < 2651) :
    isLeap year = false ∧ conjunctionDay year % 7 = 0 ∧ 23269 ≤ conjunctionParts year := by
  have h := isLeap_succ hl
  have hs := conjunction_succ_of_leap hl
  have h0 : 0 ≤ conjunctionParts (year - 1) := Int.emod_nonneg _ (by decide)
  rw [Int.sub_add_cancel] at h hs
  exact ⟨h, by omega, by omega⟩

/-- When a new year is put off by two days, by one day, or not at all. -/
theorem lengthCorrection_cases (year : Int) :
    (lengthCorrection year = 2 ∧ isLeap year = false ∧ conjunctionDay year % 7 = 1 ∧
        16404 ≤ conjunctionParts year) ∨
      (lengthCorrection year = 1 ∧ isLeap (year - 1) = true ∧ conjunctionDay (year - 1) % 7 = 2 ∧
        conjunctionParts (year - 1) < 2651) ∨
      (lengthCorrection year = 0 ∧
        ¬ (isLeap year = false ∧ conjunctionDay year % 7 = 1 ∧ 16404 ≤ conjunctionParts year) ∧
        ¬ (isLeap (year - 1) = true ∧ conjunctionDay (year - 1) % 7 = 2 ∧
          conjunctionParts (year - 1) < 2651)) := by
  have h₁ := postponedDay_succ_sub_eq_356_iff year
  have h₂ := postponedDay_succ_sub_eq_382_iff (year - 1)
  rw [Int.sub_add_cancel] at h₂
  unfold lengthCorrection
  split
  · next h => exact .inl ⟨rfl, h₁.1 h⟩
  · next h =>
    split
    · next h' => exact .inr (.inl ⟨rfl, h₂.1 h'⟩)
    · next h' => exact .inr (.inr ⟨rfl, fun hc => h (h₁.2 hc), fun hc => h' (h₂.2 hc)⟩)

/-- **The lengths of a common year.** -/
theorem daysInYear_of_common {year : Int} (h : isLeap year = false) :
    daysInYear year = 353 ∨ daysInYear year = 354 ∨ daysInYear year = 355 := by
  have hs := conjunction_succ_of_common h
  have hp := postponedDay_cases year
  have hp' := postponedDay_cases (year + 1)
  -- what the next new year is put off by depends on this year, which is common
  have hc' : lengthCorrection (year + 1) = 2 ∧ conjunctionDay (year + 1) % 7 = 1 ∧
        16404 ≤ conjunctionParts (year + 1) ∨ lengthCorrection (year + 1) = 0 := by
    obtain ⟨h₂, -, hw, hpt⟩ | ⟨-, hl, -⟩ | ⟨h₀, -⟩ := lengthCorrection_cases (year + 1)
    · exact .inl ⟨h₂, hw, hpt⟩
    · rw [Int.add_sub_cancel, h] at hl; cases hl
    · exact .inr h₀
  have hlt : conjunctionParts year < 25920 := Int.emod_lt_of_pos _ (by decide)
  unfold daysInYear newYear
  obtain ⟨h₂, -, hw, hpt⟩ | ⟨h₁, hl, hw, hpt⟩ | ⟨h₀, hn, -⟩ := lengthCorrection_cases year
  · omega
  · obtain ⟨-, hw₀, hp₀⟩ := conjunction_of_short_leap hl hw hpt
    omega
  · simp only [h, true_and, not_and, not_le] at hn
    omega

/-- **The lengths of a leap year.** -/
theorem daysInYear_of_leap {year : Int} (h : isLeap year) :
    daysInYear year = 383 ∨ daysInYear year = 384 ∨ daysInYear year = 385 := by
  have hs := conjunction_succ_of_leap h
  have hp := postponedDay_cases year
  have hp' := postponedDay_cases (year + 1)
  -- a leap year is neither too long nor preceded by one that is too short
  have hc : lengthCorrection year = 0 := by
    obtain ⟨-, hf, -⟩ | ⟨-, hl, hw, hpt⟩ | ⟨h₀, -⟩ := lengthCorrection_cases year
    · rw [h] at hf; cases hf
    · rw [(conjunction_of_short_leap hl hw hpt).1] at h; cases h
    · exact h₀
  unfold daysInYear newYear
  rw [hc]
  obtain ⟨h₂, -, hw, hpt⟩ | ⟨h₁, hl, hw, hpt⟩ | ⟨h₀, -, hn⟩ := lengthCorrection_cases (year + 1)
  · omega
  · rw [Int.add_sub_cancel] at hw hpt
    omega
  · rw [Int.add_sub_cancel] at hn
    simp only [h, true_and, not_and, not_lt] at hn
    omega

/-- The lengths that a year may have: deficient, regular and complete. -/
def lengths (leap : Bool) : List Int := if leap then [383, 384, 385] else [353, 354, 355]

/-- Each year has one of the lengths of its kind. -/
theorem daysInYear_mem_lengths (year : Int) : daysInYear year ∈ lengths (isLeap year) := by
  cases hl : isLeap year with
  | false => simpa [lengths] using daysInYear_of_common hl
  | true => simpa [lengths] using daysInYear_of_leap hl

/-- A year begins before another exactly if it is the earlier one: no year is without days. -/
theorem newYear_lt_iff (a b : Int) : newYear a < newYear b ↔ a < b := by
  have hmono : StrictMono newYear := strictMono_int_of_lt_succ fun year => by
    have h := newYear_lt_succ year
    omega
  exact hmono.lt_iff_lt

/-- **Every year has a legal length.** A common year has 353, 354 or 355 days and a leap year 383,
384 or 385, whatever the two postponements, and the later of two years begins on the later day. -/
theorem years_of_legal_length :
    (∀ year, daysInYear year ∈ lengths (isLeap year)) ∧ ∀ a b, newYear a < newYear b ↔ a < b :=
  ⟨daysInYear_mem_lengths, newYear_lt_iff⟩

end Almanac.Hebrew

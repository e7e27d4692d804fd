import Almanac.Proofs.Hebrew.YearLength

/-!
# The weekdays of Hebrew new years

No year begins on a Sunday, a Wednesday or a Friday. A new year that would is put off by a day, and
no two of the three days follow each other. The further days by which a new year is put off, so that
no year has an illegal length, lead from one permitted day to another: two of them from a Tuesday to
a Thursday, one from a Monday to a Tuesday.

* `IsForbidden`: the three weekdays; `isForbidden_iff`: the conjunctions that fall on them.
* `not_isForbidden_postponedDay`: the day that a new year is put off to is permitted.
* `weekday_of_long`, `weekday_after_short`: the weekdays from which a new year is put off further.
* `newYear_not_isForbidden`: **no year begins on a forbidden day**.
-/

namespace Almanac.Hebrew

variable {day year : Int}

/-- A day on which no year may begin: a Sunday, a Wednesday or a Friday, whose remainders modulo
seven are zero, three and five. -/
def IsForbidden (day : Int) : Prop := day % 7 = 0 ∨ day % 7 = 3 ∨ day % 7 = 5

/-- The days of the epoch's count that are put off are those that fall on a forbidden weekday. -/
theorem isForbidden_iff (days : Int) : IsForbidden (epoch + days) ↔ (3 * (days + 1)) % 7 < 3 := by
  have hr : days % 7 = 0 ∨ days % 7 = 1 ∨ days % 7 = 2 ∨ days % 7 = 3 ∨ days % 7 = 4 ∨
    days % 7 = 5 ∨
      days % 7 = 6 := by omega
  simp only [IsForbidden, epoch]
  rcases hr with h | h | h | h | h | h | h <;> omega

/-- No two forbidden days follow each other. -/
theorem IsForbidden.succ (h : IsForbidden day) : ¬ IsForbidden (day + 1) := by
  simp only [IsForbidden] at h ⊢
  omega

/-- A new year that is put off once is not put off to a forbidden day. -/
theorem not_isForbidden_postponedDay (year : Int) : ¬ IsForbidden (epoch + postponedDay year) := by
  simp only [postponedDay]
  -- it is put off exactly from the forbidden days, and the day after one of them is permitted
  split
  · next h =>
    rw [← add_assoc]
    exact ((isForbidden_iff _).2 h).succ
  · next h => exact fun hf => h ((isForbidden_iff _).1 hf)

/-- **A year that would have 356 days** would begin on a Tuesday. -/
theorem weekday_of_long (h : lengthCorrection year = 2) : (epoch + postponedDay year) % 7 = 2 := by
  have hp := postponedDay_cases year
  have hw : conjunctionDay year % 7 = 1 := by
    obtain ⟨-, -, hw, -⟩ | ⟨h₁, -⟩ | ⟨h₀, -⟩ := lengthCorrection_cases year
    · exact hw
    · omega
    · omega
  simp only [epoch]
  omega

/-- **A year after one that would have 382 days** would begin on a Monday. -/
theorem weekday_after_short (h : lengthCorrection year = 1) :
    (epoch + postponedDay year) % 7 = 1 := by
  have hp := postponedDay_cases year
  have hw : conjunctionDay year % 7 = 0 := by
    obtain ⟨h₂, -⟩ | ⟨-, hl, hw, hpt⟩ | ⟨h₀, -⟩ := lengthCorrection_cases year
    · omega
    · exact (conjunction_of_short_leap hl hw hpt).2.1
    · omega
  simp only [epoch]
  omega

/-- **No year begins on a Sunday, a Wednesday or a Friday**, with all of its postponements: the day
of a new year has none of the remainders zero, three and five modulo seven. -/
theorem newYear_not_isForbidden (year : Int) : ¬ IsForbidden (newYear year) := by
  obtain ⟨h, -⟩ | ⟨h, -⟩ | ⟨h, -⟩ := lengthCorrection_cases year
  -- from a Tuesday by two days to a Thursday, and from a Monday by one to a Tuesday
  · have hw := weekday_of_long h
    simp only [IsForbidden, newYear]
    omega
  · have hw := weekday_after_short h
    simp only [IsForbidden, newYear]
    omega
  · rw [newYear, h, add_zero]
    exact not_isForbidden_postponedDay year

/-- The year 5766 follows a leap year that would have had 382 days: it begins on a Tuesday, not on
the Monday before. -/
example : lengthCorrection 5766 = 1 ∧ newYear 5766 % 7 = 2 := by decide

end Almanac.Hebrew

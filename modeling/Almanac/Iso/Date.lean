import Almanac.Error

/-!
# ISO dates

Dates of the proleptic Gregorian calendar as year, month and day, in lexicographic order, and the
range of dates that the library represents.

* `Iso.isLeap`, `Iso.daysInMonth`, `Iso.daysInYear`: the shape of a year.
* `IsoDate.compare`: the order as a number, which is zero on equal dates only.
* `IsoDate.Valid`: the month and the day exist.
* `IsoDate.InLimits`, `Iso.MonthInLimits`: the date, or a day of the month, can be represented.
-/

namespace Almanac

namespace Iso

/-- The Gregorian leap years: every fourth, but of the centuries only every fourth. -/
def isLeap (year : Int) : Bool :=
  year % 4 == 0 && (year % 100 != 0 || year % 400 == 0)

/-- The length of a month. Months beyond the year have the length of the month that they wrap to,
counted in a common year. -/
def daysInMonth (year month : Int) : Int :=
  let wrapped := (month - 1) % 12 + 1
  if month = 2 ∧ isLeap year then 29
  else if wrapped = 2 then 28
  else if wrapped = 4 ∨ wrapped = 6 ∨ wrapped = 9 ∨ wrapped = 11 then 30
  else 31

/-- The length of a year. -/
def daysInYear (year : Int) : Int := if isLeap year then 366 else 365

/-- The first year that is represented in part. -/
def minYear : Int := -271821

/-- The last year that is represented in part. -/
def maxYear : Int := 275760

/-- Whether some day of a month can be represented: April of the first year to September of the
last. -/
def MonthInLimits (year month : Int) : Prop :=
  minYear ≤ year ∧ year ≤ maxYear ∧ (year = minYear → 4 ≤ month) ∧ (year = maxYear → month ≤ 9)

instance (year month : Int) : Decidable (MonthInLimits year month) := by
  unfold MonthInLimits; infer_instance

end Iso

/-- A date by its ISO year, month and day. -/
structure IsoDate where
  year : Int
  month : Int
  day : Int
deriving DecidableEq, Repr

namespace IsoDate

/-- The lexicographic order of years, months and days. -/
def Before (a b : IsoDate) : Prop :=
  a.year < b.year ∨ a.year = b.year ∧ (a.month < b.month ∨ a.month = b.month ∧ a.day < b.day)

instance : LT IsoDate := ⟨Before⟩

instance : LE IsoDate := ⟨fun a b => ¬ b < a⟩

instance (a b : IsoDate) : Decidable (a < b) := by
  change Decidable (Before a b); unfold Before; infer_instance

instance (a b : IsoDate) : Decidable (a ≤ b) := by
  change Decidable (¬ b < a); infer_instance

/-- The order as a number: -1, 0 or 1 as the first date is earlier, equal or later. -/
def compare (a b : IsoDate) : Int := if a < b then -1 else if b < a then 1 else 0

theorem lt_iff {a b : IsoDate} :
    a < b ↔ a.year < b.year ∨
      a.year = b.year ∧ (a.month < b.month ∨ a.month = b.month ∧ a.day < b.day) :=
  Iff.rfl

theorem not_lt_self (a : IsoDate) : ¬ a < a := by
  rw [lt_iff]; omega

theorem lt_asymm {a b : IsoDate} (h : a < b) : ¬ b < a := by
  rw [lt_iff] at h ⊢; omega

/-- Any two dates are comparable. -/
theorem eq_of_not_lt {a b : IsoDate} (h : ¬ a < b) (h' : ¬ b < a) : a = b := by
  rw [lt_iff] at h h'
  cases a; cases b
  simp only [mk.injEq] at h h' ⊢
  omega

theorem compare_eq_zero_iff {a b : IsoDate} : a.compare b = 0 ↔ a = b := by
  constructor
  · intro h
    by_cases h₁ : a < b
    · simp [compare, h₁] at h
    · by_cases h₂ : b < a
      · simp [compare, h₁, h₂] at h
      · exact eq_of_not_lt h₁ h₂
  · rintro rfl
    simp [compare, not_lt_self]

/-- The month exists and has the day. -/
def Valid (d : IsoDate) : Prop :=
  1 ≤ d.month ∧ d.month ≤ 12 ∧ 1 ≤ d.day ∧ d.day ≤ Iso.daysInMonth d.year d.month

instance (d : IsoDate) : Decidable d.Valid := by
  unfold Valid; infer_instance

/-- The first date that is represented. -/
def first : IsoDate := ⟨Iso.minYear, 4, 19⟩

/-- The last date that is represented. -/
def last : IsoDate := ⟨Iso.maxYear, 9, 13⟩

/-- Whether a date lies in the represented range. -/
def InLimits (d : IsoDate) : Prop := first ≤ d ∧ d ≤ last

instance (d : IsoDate) : Decidable d.InLimits := by
  unfold InLimits; infer_instance

/-- The text of a date in messages: the year as it is, month and day with two places. -/
def display (d : IsoDate) : Shown :=
  Shown.number d.year ++ "-" ++ Shown.number d.month 2 ++ "-" ++ Shown.number d.day 2

/-- The date itself, unless its month or day does not exist. -/
def checkValid (d : IsoDate) : Except Error IsoDate :=
  if d.Valid then .ok d else .error (.invalidIsoDate d.year d.month d.day)

/-- The date itself, unless it is outside the represented range. -/
def checkLimits (d : IsoDate) : Except Error IsoDate :=
  if d.InLimits then .ok d else .error (.dateBeyondLimits d.year d.month d.day)

/-- The date itself, unless no day of its month is in the represented range. -/
def checkMonthLimits (d : IsoDate) : Except Error IsoDate :=
  if Iso.MonthInLimits d.year d.month then .ok d else .error (.yearMonthBeyondLimits d.year d.month)

end IsoDate

end Almanac

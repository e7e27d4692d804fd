/-!
# Dates in a calendar's own numbering

* `YearMonthDay`: year, ordinal month and day, in lexicographic order.
-/

namespace Almanac

/-- A date as a calendar counts it. The month is its place in the year, from one. -/
structure YearMonthDay where
  year : Int
  month : Int
  day : Int
deriving DecidableEq, Repr

namespace YearMonthDay

/-- The lexicographic order of years, months and days. -/
def Before (a b : YearMonthDay) : Prop :=
  a.year < b.year ∨ a.year = b.year ∧ (a.month < b.month ∨ a.month = b.month ∧ a.day < b.day)

instance : LT YearMonthDay := ⟨Before⟩

instance (a b : YearMonthDay) : Decidable (a < b) := by
  change Decidable (Before a b); unfold Before; infer_instance

/-- Whether a date, which need not exist, lies beyond the target in the direction of `sign`. -/
def surpasses (sign : Int) (d target : YearMonthDay) : Bool :=
  if 0 < sign then target < d else d < target

end YearMonthDay

end Almanac

import Almanac.Proofs.Hebrew.Date
import Almanac.Proofs.Loop
import Mathlib.Algebra.Order.Group.Abs
import Mathlib.Algebra.Order.Group.Int

/-!
# The searches of the Hebrew calendar

The year of a day and the year of a month are searched for from an estimate by the mean length of a
year. New years stray from the line of the mean length by the leap months of the cycle, the parts of
a day and the postponements, in all by less than a month. So the estimate is the year itself or one
beside it, however far away the day is.

* `newYear_near_mean`: a new year is near the line of the mean length.
* `abs_yearEstimate_sub_le`, `indexEstimate_cases`: the estimates.
* `yearUp_yearDown`, `indexUp_indexDown`: the searches for a year need one step each way.
* `stops_monthAndDay`: the loop through the months of a year stops where the search by steps does.
* `searches_end_nearby`: **all loops stop**, those for a year after one step at most and the one for
  a month within the year.
-/

namespace Almanac.Hebrew

variable {day index year : Int}

/-- Nineteen years have 235 months, so that the months before a year are less than a month away from
their mean. -/
theorem monthsBefore_near_mean (year : Int) :
    235 * (year - 1) - 17 ≤ 19 * monthsBefore year ∧
    19 * monthsBefore year ≤ 235 * (year - 1) + 1 := by
  unfold monthsBefore
  omega

/-- **A new year is near the line of the mean length**, which is 35975351 / 98496 days: less than 27
days before it and less than six days after it. -/
theorem newYear_near_mean (year : Int) :
    35975351 * (year - 1) - 27 * 98496 < 98496 * (newYear year - epoch) ∧
      98496 * (newYear year - epoch) < 35975351 * (year - 1) + 6 * 98496 := by
  obtain ⟨hm₁, hm₂⟩ := monthsBefore_near_mean year
  obtain ⟨hp₁, hp₂⟩ := conjunctionDay_le_postponedDay year
  obtain ⟨hc₁, hc₂⟩ := lengthCorrection_bounds year
  unfold newYear
  unfold conjunctionDay at hp₁ hp₂
  omega

theorem strictMono_newYear : StrictMono newYear := fun _ _ h => (newYear_lt_iff _ _).2 h

theorem strictMono_monthsBefore : StrictMono monthsBefore := by
  refine strictMono_int_of_lt_succ fun year => ?_
  have h := monthsBefore_lt_succ year
  omega

/-- **The estimate of the year of a day** is that year or one beside it. -/
theorem abs_yearEstimate_sub_le (h : LiesIn newYear day year) : |yearEstimate day - year| ≤ 1 := by
  obtain ⟨h₁, -⟩ := newYear_near_mean year
  obtain ⟨-, h₂⟩ := newYear_near_mean (year + 1)
  obtain ⟨hday₁, hday₂⟩ := h
  rw [abs_le]
  unfold yearEstimate
  omega

/-- The last day of the year 5784 is estimated a year late, and the first day of the year 5783 a
year early. -/
example : yearEstimate 739161 = 5785 ∧ yearOfDay 739161 = 5784 ∧ yearEstimate 738424 = 5782 ∧
    yearOfDay 738424 = 5783 := by decide

/-- **The estimate of the year of a month** is that year or the one before. -/
theorem indexEstimate_cases (h : LiesIn monthsBefore index year) :
    indexEstimate index = year ∨ indexEstimate index = year - 1 := by
  obtain ⟨h₁, -⟩ := monthsBefore_near_mean year
  obtain ⟨-, h₂⟩ := monthsBefore_near_mean (year + 1)
  obtain ⟨hindex₁, hindex₂⟩ := h
  unfold indexEstimate
  omega

/-- The search for the year of a day finds it from the estimate. -/
theorem yearFound_yearOfDay (day : Int) :
    YearFound newYear day (yearEstimate day) (yearOfDay day) :=
  yearFound_of_liesIn strictMono_newYear (newYear_yearOfDay_bounds day) _

/-- And so does the search for the year of a month. -/
theorem yearFound_yearOfIndex (index : Int) :
    YearFound monthsBefore index (indexEstimate index) (yearOfIndex index) :=
  yearFound_of_liesIn strictMono_monthsBefore (monthsBefore_yearOfIndex_bounds index) _

/-- **One step each way is enough** for the year of a day. -/
theorem yearUp_yearDown (day : Int) {steps : Nat} (hsteps : 1 ≤ steps) :
    yearUp day steps (yearDown day steps (yearEstimate day)) = yearOfDay day := by
  have hnear := abs_le.1 (abs_yearEstimate_sub_le (newYear_yearOfDay_bounds day))
  exact (yearFound_yearOfDay day).eq_of_steps (yearDown day) (yearUp day) (fun _ => rfl)
    (fun _ _ => rfl) (fun _ => rfl) (fun _ _ => rfl) (by omega)

/-- **One step each way is enough** for the year of a month. -/
theorem indexUp_indexDown (index : Int) {steps : Nat} (hsteps : 1 ≤ steps) :
    indexUp index steps (indexDown index steps (indexEstimate index)) = yearOfIndex index := by
  have hnear := indexEstimate_cases (monthsBefore_yearOfIndex_bounds index)
  exact (yearFound_yearOfIndex index).eq_of_steps (indexDown index) (indexUp index) (fun _ => rfl)
    (fun _ _ => rfl) (fun _ => rfl) (fun _ _ => rfl) (by omega)

/-- The loop through the months of a year, on the month that is looked at and the days that are
left. -/
def StopsInMonth (year : Int) : Nat → Int × Int → Int × Int → Prop :=
  Stops (fun s => daysInMonth year s.1 ≤ s.2) fun s => (s.1 + 1, s.2 - daysInMonth year s.1)

/-- **The loop through the months stops** where the search by steps ends, if that has a step for
each day. -/
theorem stops_monthAndDay (year month days : Int) {steps : Nat} (hs : days ≤ steps) :
    ∃ n : Nat, (monthAndDay year steps month days).1 = month + n ∧
      StopsInMonth year n (month, days)
        ((monthAndDay year steps month days).1, (monthAndDay year steps month days).2 - 1) := by
  induction steps generalizing month days with
  | zero =>
    have hlen := (daysInMonth_bounds year month).1
    have hstop : ¬ daysInMonth year month ≤ days := by omega
    simp only [monthAndDay, Int.add_sub_cancel]
    exact ⟨0, (Int.add_zero month).symm, .here hstop⟩
  | succ steps ih =>
    have hlen := (daysInMonth_bounds year month).1
    by_cases hpast : daysInMonth year month ≤ days
    · obtain ⟨n, hmonth, hstops⟩ := ih (month + 1) (days - daysInMonth year month) (by omega)
      simp only [monthAndDay, if_pos hpast]
      exact ⟨n + 1, by omega, .later hpast hstops⟩
    · simp only [monthAndDay, if_neg hpast, Int.add_sub_cancel]
      exact ⟨0, (Int.add_zero month).symm, .here hpast⟩

/-- The loop through the months of the year of a day stops at its date, within the year. -/
theorem stops_dateOfDay (day : Int) :
    ∃ n : Nat, (dateOfDay day).month = n + 1 ∧
      (dateOfDay day).month ≤ monthsInYear (yearOfDay day) ∧
      StopsInMonth (yearOfDay day) n (1, day - newYear (yearOfDay day))
        ((dateOfDay day).month, (dateOfDay day).day - 1) := by
  obtain ⟨n, hmonth, hstops⟩ := stops_monthAndDay (yearOfDay day) 1 (day - newYear (yearOfDay day))
    (Int.self_le_toNat _)
  refine ⟨n, ?_, (dateOfDay_spec day).1.2, hstops⟩
  rw [Int.add_comm]
  exact hmonth

/-- **The searches start next to what they find**, whatever the day or the month. The estimate of
the year of a day is at most one year away from it, and that of the year of a month is this year or
the one before. From there the loops back and ahead stop at the year, after as many steps as the
estimate is away, so that one step is enough for the searches by steps. The loop through the months
of the year stops at the month of the day, which the year has. -/
theorem searches_end_nearby (day index : Int) :
    (YearFound newYear day (yearEstimate day) (yearOfDay day) ∧
      |yearEstimate day - yearOfDay day| ≤ 1 ∧
      ∀ steps, 1 ≤ steps →
        yearUp day steps (yearDown day steps (yearEstimate day)) = yearOfDay day) ∧
    (∃ n : Nat, (dateOfDay day).month = n + 1 ∧
      (dateOfDay day).month ≤ monthsInYear (yearOfDay day) ∧
      StopsInMonth (yearOfDay day) n (1, day - newYear (yearOfDay day))
        ((dateOfDay day).month, (dateOfDay day).day - 1)) ∧
    YearFound monthsBefore index (indexEstimate index) (yearOfIndex index) ∧
      (indexEstimate index = yearOfIndex index ∨ indexEstimate index = yearOfIndex index - 1) ∧
      ∀ steps, 1 ≤ steps → indexUp index steps (indexDown index steps (indexEstimate index)) =
        yearOfIndex index := by
  have hday := abs_yearEstimate_sub_le (newYear_yearOfDay_bounds day)
  have hindex := indexEstimate_cases (monthsBefore_yearOfIndex_bounds index)
  exact ⟨⟨yearFound_yearOfDay day, hday, fun _ => yearUp_yearDown day⟩, stops_dateOfDay day,
    yearFound_yearOfIndex index, hindex, fun _ => indexUp_indexDown index⟩

end Almanac.Hebrew

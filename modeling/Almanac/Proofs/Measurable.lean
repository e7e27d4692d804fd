import Almanac.Proofs.DateDifference
import Almanac.Proofs.Rounding.Difference
import Almanac.Proofs.Stations

/-!
# Months that can be measured

The days of the represented range are few against the bounds on years and months, so that the exact
difference of two months is always a duration. It is refused only where the first day of one of
them, from which it is measured, lies outside that range.

* `Duration.exists_ofParts`: years and months as a duration.
* `YearMonth.exists_exact_difference`: the exact difference comes to the years and months between
  the first days.
* `YearMonth.difference_eq_error`, `YearMonth.exists_difference`: **the exact difference of two
  months**, or its refusal.
-/

namespace Almanac

/-- Years and months of one sign and below the bounds are a duration. -/
theorem Duration.exists_ofParts {years months sign : Int} (hs : sign = 1 ∨ sign = -1)
    (hy : 0 ≤ sign * years) (hm : 0 ≤ sign * months)
    (hyears : years.natAbs < DurationParts.maxCount)
    (hmonths : months.natAbs < DurationParts.maxCount) :
    ∃ d, ofParts { years, months } = .ok d := by
  have huniform : DurationParts.Uniform { years, months } := by
    simp only [DurationParts.Uniform, DurationParts.toList, List.forall_mem_cons, List.not_mem_nil,
      false_implies, implies_true, and_true]
    rcases hs with rfl | rfl <;> omega
  have hlimits : DurationParts.InLimits { years, months } :=
    ⟨hyears, hmonths, (by decide : (0 : Nat) < DurationParts.maxCount),
      (by decide : (0 : Nat) < DurationParts.maxNanoseconds)⟩
  exact ⟨_, dif_pos ⟨huniform, hlimits⟩⟩

namespace YearMonth

variable {a b : YearMonth} {direction : Direction} {options : DifferenceOptions}

/-- **The difference of two months is refused** where the first day of one of them, the one from
which it is measured before the other, lies outside the represented range, unless they are anchored
alike. -/
theorem difference_eq_error (hc : a.calendar = b.calendar) (hne : a.anchor ≠ b.anchor)
    (h : ¬ (a.start.InLimits ∧ b.start.InLimits)) :
    difference direction a b options =
      if a.start.InLimits then .error (.dateBeyondLimits b.start.year b.start.month b.start.day)
      else .error (.dateBeyondLimits a.start.year a.start.month a.start.day) := by
  unfold difference
  rw [if_neg (not_not.2 hc), if_neg hne, firstDay_eq, firstDay_eq, IsoDate.checkLimits,
    IsoDate.checkLimits]
  split
  · next ha =>
    rw [if_neg (not_and.1 h ha)]
    rfl
  · rfl

/-- The exact difference of two months that are not anchored alike comes to the years and months
between their first days. -/
theorem exists_exact_difference (ha : options.Accepted) (hs : options.smallest = .month)
    (hi : options.increment = 1) (hc : a.calendar = b.calendar) (hne : a.anchor ≠ b.anchor)
    (ho : a.start.InLimits) (ht : b.start.InLimits) (direction : Direction) :
    ∃ exact, ∃ d : Duration, a.calendar.difference a.start b.start options.largest = .ok exact ∧
      d.toDurationParts = { years := exact.years, months := exact.months } ∧
      difference direction a b options = .ok (d.toward direction) := by
  obtain ⟨exact, hexact⟩ :=
    Calendar.exists_difference a.calendar a.valid_start b.valid_start ho ht ha.largest
  have hmeasured := (measured_difference ha hc ho ht hexact).1
  obtain ⟨hyears, hmonths⟩ := hmeasured.approaches.natAbs_le
  rw [hs, DateSpan.count] at hmonths
  obtain ⟨d, hd⟩ := Duration.exists_ofParts exact.upToMonths.heading_cases
    hmeasured.fillsNoYear.years_nonneg hmeasured.fillsNoYear.months_nonneg
    (lt_of_le_of_lt hyears (by decide)) (lt_of_le_of_lt hmonths (by decide))
  have hspan : spanBetween a.calendar a.start b.start options = .ok exact.upToMonths := by
    unfold spanBetween
    rw [hexact]
    simp only [bind, Except.bind]
    exact if_pos ⟨hs, hi⟩
  refine ⟨exact, d, hexact, Duration.ofParts_eq_ok_iff.1 hd, ?_⟩
  unfold difference
  rw [if_neg (not_not.2 hc), if_neg hne, firstDay_of_inLimits ho, firstDay_of_inLimits ht]
  simp only [bind, Except.bind, hspan, hd]
  cases direction <;> rfl

/-- **The exact difference of two months** is a duration. -/
theorem exists_difference (ha : options.Accepted) (hs : options.smallest = .month)
    (hi : options.increment = 1) (hc : a.calendar = b.calendar)
    (h : a.anchor = b.anchor ∨ a.start.InLimits ∧ b.start.InLimits) :
    ∃ d, difference direction a b options = .ok d := by
  by_cases hanchor : a.anchor = b.anchor
  · unfold difference
    rw [if_neg (not_not.2 hc)]
    exact ⟨.zero, if_pos hanchor⟩
  · obtain ⟨ho, ht⟩ := h.resolve_left hanchor
    obtain ⟨-, d, -, -, hd⟩ := exists_exact_difference ha hs hi hc hanchor ho ht direction
    exact ⟨_, hd⟩

end YearMonth

end Almanac

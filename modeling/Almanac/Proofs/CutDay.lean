import Almanac.Proofs.Stations

/-!
# Months moved with no day cut off

A year-month shows no day, and still it is moved through days. Forwards it is the first day of the
month, which every month has. Backwards it is the last one, and where the month that is reached is
shorter, that day is cut off or refused as the treatment of overflow says.

* `YearMonth.add_reject_eq`: a duration that is added with no day cut off, after it has been added
  with it.
* `YearMonth.perform_rejecting`: **a move that may not cut a day off** is refused where one was cut
  off, and nowhere else.
-/

namespace Almanac.YearMonth

variable {ym r : YearMonth} {d : Duration} {n : Int}

/-- The number of days in a month. -/
def days (ym : YearMonth) : Int := ym.calendar.daysInMonth ym.reading.year ym.reading.month

/-- A month that has been moved has had its first day in the represented range, and backwards the
first day of the next one as well. -/
theorem inLimits_of_add {overflow : Overflow} (hn : d.monthsIn? ym.calendar = some n)
    (h : ym.add d overflow = .ok r) : ym.start.InLimits ∧ (n < 0 → ym.nextStart.InLimits) := by
  have hl : ym.start.InLimits := by
    by_contra hbeyond
    rw [add_eq_of_start hbeyond] at h
    cases h
  refine ⟨hl, ?_⟩
  intro hsign
  by_contra hbeyond
  rw [add_eq_of_next hl hbeyond ((Duration.sign_lt_zero_iff hn).2 hsign)] at h
  cases h

/-- **A duration that is added with no day cut off**, after it has been added with it. -/
theorem add_reject_eq (hn : d.monthsIn? ym.calendar = some n) (h : ym.add d .constrain = .ok r) :
    ym.add d .reject =
      if 0 ≤ n ∨ ym.days ≤ r.days then .ok r
      else .error (ym.calendar.dayRefusal r.reading.year r.reading.month ym.days) := by
  obtain ⟨hl, hnext⟩ := inLimits_of_add hn h
  have hcalendar := (isCanonical_of_add h).1
  have hindex := index_of_add hn h
  have hdays : ym.calendar.monthLength ym.index = ym.days := ym.monthLength_index
  have hreached : ym.calendar.monthLength (ym.index + n) = r.days := by
    rw [← hindex, ← hcalendar, monthLength_index, days]
  have hmonth : ym.calendar.monthOfIndex (ym.index + n) = (r.reading.year, r.reading.month) := by
    rw [← hindex, ← hcalendar]
    exact Calendar.monthOfIndex_monthIndex r.hasDate_reading.1
  by_cases hsign : 0 ≤ n
  · rw [add_forwards hn hsign hl] at h
    rw [if_pos (.inl hsign), add_forwards hn hsign hl, h]
  · have hsign : n < 0 := not_le.1 hsign
    by_cases hshort : r.days < ym.days
    · have hrefused : ¬ (0 ≤ n ∨ ym.days ≤ r.days) := by omega
      rw [if_neg hrefused,
        add_backwards_error hn hsign hl (hnext hsign) (by rw [hdays, hreached]; exact hshort),
        hmonth, hdays]
    · -- the last day of the month is a day of the month that is reached, by either treatment
      have hkept : ym.days ≤ r.days := not_lt.1 hshort
      have hday : ∀ overflow, ym.calendar.regulateDay (ym.calendar.monthOfIndex (ym.index + n)).1
          (ym.calendar.monthOfIndex (ym.index + n)).2 (ym.calendar.monthLength ym.index) overflow =
            .ok (ym.calendar.monthLength ym.index) := by
        intro overflow
        apply Calendar.regulateDay_of_le
        change _ ≤ ym.calendar.monthLength (ym.index + n)
        rw [hdays, hreached]
        exact hkept
      rw [add_backwards hn hsign hl (hnext hsign) (hday .constrain)] at h
      rw [if_pos (.inr hkept), add_backwards hn hsign hl (hnext hsign) (hday .reject), h]

/-- **A move that may not cut a day off.** Where a duration of months, in a calendar whose years
have the same number of them also of years and months, is added or subtracted and leads to a month,
the same operation that may not cut a day off leads to the same month, unless it leads backwards
from a month to one with fewer days; then it is refused. -/
theorem perform_rejecting {op : Operation} {o : Value} (hop : Moves ym.calendar op n)
    (ho : o.toOverflow = .ok .reject) (h : ym.perform op = .ok r) :
    ym.perform (op.withOverflow o) =
      if 0 ≤ n ∨ ym.days ≤ r.days then .ok r
      else .error (ym.calendar.dayRefusal r.reading.year r.reading.month ym.days) := by
  obtain ⟨d, hn, hadd, hreject⟩ := exists_add_of_moves hop
  rw [hadd] at h
  rw [hreject o .reject ho]
  exact add_reject_eq hn h

/-- The last month of a Hebrew common year before a leap year. -/
def elul5783 : YearMonth where
  anchor := ⟨2023, 8, 18⟩
  calendar := .hebrew

/-- The month before. -/
def av5783 : YearMonth where
  anchor := ⟨2023, 7, 19⟩
  calendar := .hebrew

/-- From a month of 29 days back to one of 30. -/
theorem perform_rejecting_elul5783 :
    elul5783.perform (.subtract (.text "P1M") .null) = .ok av5783 ∧
      elul5783.perform (.subtract (.text "P1M") (.text "reject")) = .ok av5783 := by
  have hmonth : (Value.text "P1M").toDuration = .ok { months := 1 } := by decide +kernel
  have hstep : elul5783.perform (.subtract (.text "P1M") .null) = .ok av5783 := by decide +kernel
  have hreject : (Value.text "reject").toOverflow = .ok .reject := by decide
  have h := perform_rejecting (.subtract hmonth rfl rfl) hreject hstep
  have hlonger : elul5783.days ≤ av5783.days := by decide +kernel
  rw [if_pos (.inr hlonger)] at h
  exact ⟨hstep, h⟩

/-- A month of 31 days in a leap year. -/
def march2020 : YearMonth where
  anchor := ⟨2020, 3, 1⟩
  calendar := .iso8601

/-- The month before. -/
def february2020 : YearMonth where
  anchor := ⟨2020, 2, 1⟩
  calendar := .iso8601

/-- A duration of one month that leads back to a shorter month is refused when no day may be cut
off. -/
theorem march2020_refused :
    Moves .iso8601 (.subtract (.text "P1M") .null) (-1) ∧
      march2020.perform (.subtract (.text "P1M") .null) = .ok february2020 ∧
      march2020.perform (.subtract (.text "P1M") (.text "reject")) =
        .error (.invalidIsoDate 2020 2 31) := by
  have hmonth : (Value.text "P1M").toDuration = .ok { months := 1 } := by decide +kernel
  refine ⟨.subtract hmonth rfl rfl, ?_, ?_⟩
  · decide +kernel
  · decide +kernel

end Almanac.YearMonth

import Almanac.Proofs.Iso.Limits
import Almanac.Proofs.Shift
import Almanac.YearMonth.Arithmetic
import Mathlib.Data.Int.ConditionallyCompleteOrder

/-!
# Dates moved or refused

A span that is small against a word leads from a represented date to a day count that a word holds,
so that a date is moved unless the day is not regulated in the month that is reached, or the date
that is reached lies outside the represented range.

* `Calendar.monthStart_sub_le`, `Calendar.monthAfter_sub_le`: months are not longer than 31 days,
  and years not longer than 13 months.
* `DateSpan.Small`: spans that are small against a word; `Duration.small_spanOfDays`: a duration is
  one.
* `Calendar.add_eq_checkLimits`: **a date moved by a small span** is the date that the span leads
  to, if that is represented.
* `Calendar.add_eq_error`: the refusal of a day that the month has not.
-/

namespace Almanac

/-- What changes by bounded steps changes by no more than the bound for each step. -/
theorem natAbs_sub_le_of_steps {f : Int → Int} {b : Nat} (h : ∀ k, (f (k + 1) - f k).natAbs ≤ b)
    (i j : Int) : (f j - f i).natAbs ≤ b * (j - i).natAbs := by
  wlog hij : i ≤ j generalizing i j
  · have hback := this j i (by omega)
    rw [← Int.natAbs_neg, Int.neg_sub, ← Int.natAbs_neg (j - i), Int.neg_sub]
    exact hback
  induction j, hij using Int.leInduction with
  | base => simp
  | succ j hij ih =>
    have hstep := h j
    have hcount : (j + 1 - i).natAbs = (j - i).natAbs + 1 := by omega
    rw [hcount, Nat.mul_succ]
    omega

/-- What grows with each step grows by one at least for each step. -/
theorem natAbs_sub_le_of_strictMono {f : Int → Int} (hf : StrictMono f) (i j : Int) :
    (j - i).natAbs ≤ (f j - f i).natAbs := by
  wlog hij : i ≤ j generalizing i j
  · have hback := this j i (by omega)
    omega
  induction j, hij using Int.leInduction with
  | base => simp
  | succ j hij ih =>
    have hstep : f j < f (j + 1) := hf (Int.lt_succ j)
    have hbefore : f i ≤ f j := hf.monotone hij
    omega

/-- A span whose years, months and days are small against a word. -/
structure DateSpan.Small (span : DateSpan) : Prop where
  years : span.years.natAbs ≤ 10000000000
  months : span.months.natAbs ≤ 10000000000
  days : span.dayCount.natAbs ≤ 1000000000000000

/-- **A duration is a small span**: its days and its time are less than `2 ^ 53` seconds
together. -/
theorem Duration.small_spanOfDays (d : Duration) : d.spanOfDays.Small := by
  obtain ⟨hyears, hmonths, hweeks, htotal⟩ := d.inLimits
  -- the days and the time are bounded together, in nanoseconds, and the time is days and a rest
  have htime := Int.tdiv_mul_add_tmod d.timeNanoseconds (TimeUnit.nanoseconds .day)
  have hrest := Int.tmod_lt_of_pos d.timeNanoseconds (show 0 < TimeUnit.nanoseconds .day by decide)
  have hrest' := Int.lt_tmod_of_pos d.timeNanoseconds (show 0 < TimeUnit.nanoseconds .day by decide)
  have hspan : d.spanOfDays.dayCount =
      7 * d.weeks + (d.days + d.timeNanoseconds.tdiv (TimeUnit.nanoseconds .day)) := rfl
  simp only [DurationParts.maxCount] at hyears hmonths hweeks
  simp only [DurationParts.maxNanoseconds, DurationParts.totalNanoseconds] at htotal
  simp only [TimeUnit.nanoseconds] at htime hrest hrest' hspan
  refine ⟨?_, ?_, ?_⟩
  · change d.years.natAbs ≤ _
    omega
  · change d.months.natAbs ≤ _
    omega
  · rw [hspan]
    omega

namespace Calendar

variable {c : Calendar} {iso : IsoDate} {span : DateSpan} {overflow : Overflow}

theorem strictMono_monthStart (c : Calendar) : StrictMono c.monthStart :=
  strictMono_of_le_iff_le fun _ _ => monthStart_le_iff.symm

theorem monthLength_le (c : Calendar) (i : Int) : c.monthLength i ≤ 31 := c.daysInMonth_le _ _

/-- Months are not longer than 31 days. -/
theorem monthStart_sub_le (c : Calendar) (i j : Int) :
    (c.monthStart j - c.monthStart i).natAbs ≤ 31 * (j - i).natAbs := by
  apply natAbs_sub_le_of_steps
  intro k
  have h₁ := c.one_le_monthLength k
  have h₂ := c.monthLength_le k
  rw [monthStart_succ]
  omega

/-- Years are not longer than 13 months. -/
theorem monthIndex_year_sub_le (c : Calendar) (y z : Int) :
    (c.monthIndex z 1 - c.monthIndex y 1).natAbs ≤ 13 * (z - y).natAbs := by
  apply natAbs_sub_le_of_steps (f := fun year => c.monthIndex year 1)
  intro k
  have hlen := c.monthsInYear_bounds k
  rw [monthIndex_succ_year]
  omega

/-- A year is no further from the year zero than its days are from the first one that is counted,
but for the days between the two. -/
theorem natAbs_year_le {year month : Int} (h : c.HasMonth year month) :
    year.natAbs ≤ (c.monthStart (c.monthIndex year month)).natAbs + 3000000 := by
  have hzero : (c.monthStart (c.monthIndex 0 1)).natAbs ≤ 2500000 := by cases c <;> decide +kernel
  have hmono : StrictMono fun year => c.monthStart (c.monthIndex year 1) := by
    refine c.strictMono_monthStart.comp (strictMono_int_of_lt_succ fun year => ?_)
    have hlen := c.monthsInYear_bounds year
    rw [monthIndex_succ_year]
    omega
  have hyears := natAbs_sub_le_of_strictMono hmono 0 year
  have hmonths := c.monthStart_sub_le (c.monthIndex year 1) (c.monthIndex year month)
  have hlen := c.monthsInYear_bounds year
  obtain ⟨h₁, h₂⟩ := h
  rw [monthIndex_eq c year month] at hmonths ⊢
  omega

/-- Years and months lead no further than as many months, a year counted as 13 of them. -/
theorem monthAfter_sub_le {year month : Int} (h : c.HasMonth year month) (years months : Int) :
    (c.monthAfter year month years months - c.monthIndex year month).natAbs ≤
      13 * years.natAbs + months.natAbs + 13 := by
  have hyears := c.monthIndex_year_sub_le year (year + years)
  have hlen := c.monthsInYear_bounds year
  have hlen' := c.monthsInYear_bounds (year + years)
  obtain ⟨h₁, h₂⟩ := h
  obtain ⟨h₃, h₄⟩ := hasMonth_monthOfCodeIn ⟨h₁, h₂⟩ (year + years)
  rw [monthAfter, monthIndex_eq c year month, monthIndex_eq c (year + years)]
  omega

/-- The month of a represented date begins at a day count that is small. -/
theorem monthStart_bounds (hv : iso.Valid) (hl : Iso.MonthInLimits iso.year iso.month) :
    (c.monthStart (c.monthIndex (c.dateOf iso).year (c.dateOf iso).month)).natAbs ≤ 100000050 := by
  have hb := IsoDate.count_bounds hv hl
  have hcount := epochDay_bounds (hasDate_dateOf (c := c) hv)
  have hlen := c.monthLength_le (c.monthIndex (c.dateOf iso).year (c.dateOf iso).month)
  rw [epochDay_dateOf hv, monthStart_succ] at hcount
  omega

/-- **The day counts that a small span leads to** are small. -/
theorem monthStart_monthAfter_le (hv : iso.Valid) (hl : Iso.MonthInLimits iso.year iso.month)
    (hspan : span.Small) :
    (c.monthStart
      (c.monthAfter (c.dateOf iso).year (c.dateOf iso).month span.years span.months)).natAbs ≤
        10000000000000 := by
  have hstart := monthStart_bounds (c := c) hv hl
  have hmonths := monthAfter_sub_le (hasDate_dateOf (c := c) hv).1 span.years span.months
  have hdays := c.monthStart_sub_le (c.monthIndex (c.dateOf iso).year (c.dateOf iso).month)
    (c.monthAfter (c.dateOf iso).year (c.dateOf iso).month span.years span.months)
  have hy := hspan.years
  have hm := hspan.months
  omega

/-- The year that a small span leads to. -/
theorem yearInWords_of_small (hv : iso.Valid) (hl : Iso.MonthInLimits iso.year iso.month)
    (hspan : span.Small) : c.YearInWords iso span := by
  intro hiso
  obtain ⟨h₁, h₂, -, -⟩ := hl
  have hy := hspan.years
  have hm := hspan.months
  obtain ⟨hm₁, hm₂, -, -⟩ := hv
  simp only [Iso.minYear, Iso.maxYear] at h₁ h₂
  simp only [IsoDate.yearsLater, IsoDate.monthsLater, Iso.balanceMonth, fitsWord_iff]
  omega

section

variable {i day : Int}

/-- **A date moved by a small span**, its day regulated in the month that is reached, is the date
that the span leads to, if that is represented. -/
theorem add_eq_checkLimits (hv : iso.Valid) (hl : Iso.MonthInLimits iso.year iso.month)
    (hspan : span.Small) (hkept : c.KeepsMonth span.years overflow)
    (hi : i = c.monthAfter (c.dateOf iso).year (c.dateOf iso).month span.years span.months)
    (hday : c.regulateDay (c.monthOfIndex i).1 (c.monthOfIndex i).2 (c.dateOf iso).day overflow =
      .ok day) :
    c.add iso span overflow =
      (IsoDate.ofEpochDay (c.monthStart i + (day - 1) + span.dayCount)).checkLimits := by
  have hdate :=
    hasDate_of_regulateDay (c.monthOfIndex_spec i).1 (hasDate_dateOf (c := c) hv).2.1 hday
  have hone : 1 ≤ day := hdate.2.1
  have hlast : day ≤ c.monthLength i := hdate.2.2
  have hlen := c.monthLength_le i
  have hdays := hspan.days
  have hstart := monthStart_monthAfter_le (c := c) hv hl hspan
  rw [← hi] at hstart
  have hcount : fitsWord (c.monthStart i + (day - 1) + span.dayCount) = true := by
    rw [fitsWord_iff]
    omega
  have hword : fitsWord (day + span.dayCount - 1) = true ∧ day + span.dayCount - 1 ≠ noTime := by
    rw [fitsWord_iff, noTime]
    omega
  have hyear := yearInWords_of_small (c := c) hv hl hspan
  by_cases hiso : c.followsIso
  · exact isoAdd_eq hiso hv hyear hi hday (.inr ⟨hword, hcount⟩)
  · rw [add, if_neg hiso]
    exact addByMonths_eq hv hl hkept hyear hi hday hcount

/-- The refusal of a day that a month has not: that of an ISO date where the ISO calendar counts. -/
def dayRefusal (c : Calendar) (year month day : Int) : Error :=
  if c.followsIso then .invalidIsoDate (year - c.yearOffset) month day
  else .dayBeyondMonth c (.number year) (c.monthCode year month).text (.number day)

/-- **A date is refused** whose day the month that it is moved to has not, unless the day may be cut
off. -/
theorem add_eq_error (hv : iso.Valid) (hl : Iso.MonthInLimits iso.year iso.month)
    (hkept : c.KeepsMonth span.years .reject)
    (hi : i = c.monthAfter (c.dateOf iso).year (c.dateOf iso).month span.years span.months)
    (hday : c.monthLength i < (c.dateOf iso).day) :
    c.add iso span .reject =
      .error (c.dayRefusal (c.monthOfIndex i).1 (c.monthOfIndex i).2 (c.dateOf iso).day) := by
  have hd := hasDate_dateOf (c := c) hv
  unfold add dayRefusal
  split
  · next hiso =>
    rw [dateOf, if_pos hiso] at hi hday ⊢
    have hinvalid :
        ¬ IsoDate.Valid ⟨(c.monthOfIndex i).1 - c.yearOffset, (c.monthOfIndex i).2, iso.day⟩ := by
      intro hvalid
      have hlast := hvalid.2.2.2
      rw [← daysInMonth_of_followsIso hiso] at hlast
      exact absurd hday (not_lt.2 hlast)
    rw [IsoDate.add, later_of_followsIso hiso hv _ _ hi, IsoDate.regulate, IsoDate.checkValid,
      if_neg hinvalid]
    rfl
  · have hmonths := shiftMonths_years hd.1 span.years span.months
    rw [← hi] at hmonths
    have hrefused :
      c.regulateDay (c.monthOfIndex i).1 (c.monthOfIndex i).2 (c.dateOf iso).day .reject =
        .error (.dayBeyondMonth c (.number (c.monthOfIndex i).1)
          (c.monthCode (c.monthOfIndex i).1 (c.monthOfIndex i).2).text
            (.number (c.dateOf iso).day)) :=
      if_pos hday
    rw [addByMonths, read_eq hv hl]
    simp only [bind, Except.bind, shiftYears_eq hkept hd.1, hmonths, hrefused]

end

end Calendar

end Almanac
